/-
  MediaExchange/FlowParser.lean
  =============================
  **Flow definitions** (`FlowParser.cpp`, `MediaUtils.cpp`).

  A flow is created from a JSON document.  The document is taken as parsed: an
  object is the list of its fields, and a number is a rational (every finite
  double is one).  What the parser makes of it, and which documents it turns
  down with which message, follows the source; whether a string is a UUID is
  left to the UUID library (`isUuid`).
-/
import MediaExchange.Status
import MediaExchange.IndexConversion
import Mathlib.Data.Rat.Defs
import Mathlib.Data.Int.GCD

namespace MediaExchange

/-! ### JSON values -/

inductive JsonValue where
  | null
  | boolean (value : Bool)
  | number (value : ℚ)
  | string (value : String)
  | array (elements : List JsonValue)
  | object (fields : List (String × JsonValue))

abbrev JsonObject := List (String × JsonValue)

namespace JsonValue

def getString : JsonValue → Option String
  | .string value => some value
  | _ => none

def getNumber : JsonValue → Option ℚ
  | .number value => some value
  | _ => none

def getArray : JsonValue → Option (List JsonValue)
  | .array elements => some elements
  | _ => none

def getObject : JsonValue → Option JsonObject
  | .object fields => some fields
  | _ => none

end JsonValue

/-- `fetchAs`: the field has to be there, and of the type asked for. -/
def fetchAs {α : Type} (get : JsonValue → Option α) (object : JsonObject) (field : String) :
    Except String α :=
  match object.lookup field with
  | none => .error ("Required '" ++ field ++ "' not found.")
  | some value =>
      match get value with
      | none => .error "type mismatch! call is<type>() before get<type>()"
      | some result => .ok result

/-- A computation that succeeds has gone through its first step. -/
theorem bind_eq_ok {ε α β : Type} {x : Except ε α} {f : α → Except ε β} {b : β} :
    x >>= f = .ok b ↔ ∃ a, x = .ok a ∧ f a = .ok b := by
  constructor
  · intro h
    cases x with
    | error e => cases h
    | ok a => exact ⟨a, rfl, h⟩
  · rintro ⟨a, rfl, h⟩
    exact h

/-- `static_cast<std::int64_t>` of a double: towards zero.  A value outside the
    range, for which C++ leaves the result open, is taken to wrap. -/
def castInt64 (x : ℚ) : Int64 := Int64.ofInt (x.num.tdiv x.den)

/-- `static_cast<std::size_t>` of a double. -/
def castSize (x : ℚ) : UInt64 := UInt64.ofInt (x.num.tdiv x.den)

/-! ### Formats and line lengths -/

inductive MxlDataFormat where
  | unspecified
  | video
  | audio
  | data
deriving DecidableEq, Repr

def mxlIsDiscreteDataFormat : MxlDataFormat → Bool
  | .video => true
  | .data => true
  | _ => false

def translateFlowFormat (format : String) : MxlDataFormat :=
  if format = "urn:x-nmos:format:video" then .video
  else if format = "urn:x-nmos:format:audio" then .audio
  else if format = "urn:x-nmos:format:data" then .data
  else .unspecified

def MXL_DATA_FORMAT_GRAIN_SIZE : UInt64 := 4096

def MAX_WIDTH : UInt64 := 7680

def MAX_HEIGHT : UInt64 := 4320

def getV210LineLength (width : UInt64) : UInt32 := ((width + 47) / 48 * 128).toUInt32

def get10BitAlphaLineLength (width : UInt64) : UInt32 := ((width + 2) / 3 * 4).toUInt32

/-! ### The parser -/

/-- The denominator of a rate, `1` if the document gives none. -/
def extractDenominator (object : JsonObject) : Except String Int64 :=
  match object.lookup "denominator" with
  | none => .ok 1
  | some value =>
      match value.getNumber with
      | none => .error "type mismatch! call is<type>() before get<type>()"
      | some x => .ok (castInt64 x)

def extractRational (object : JsonObject) : Except String MxlRational := do
  let numerator ← castInt64 <$> fetchAs JsonValue.getNumber object "numerator"
  let denominator ← extractDenominator object
  let g := Int64.ofInt (Int.gcd numerator.toInt denominator.toInt)
  if g ≠ 0 then .ok { numerator := numerator / g, denominator := denominator / g }
  else .ok { numerator := numerator, denominator := denominator }

/-- One group hint, `<group-name>:<role-in-group>[:<group-scope>]`. -/
def validGroupHint : JsonValue → Bool
  | .string hint =>
      match hint.toList.splitOn ':' with
      | [groupName, role] => !groupName.isEmpty && !role.isEmpty
      | [groupName, role, groupScope] =>
          !groupName.isEmpty && !role.isEmpty &&
            (groupScope == "device".toList || groupScope == "node".toList)
      | _ => false
  | _ => false

/-- `validateGroupHint`, which turns every exception into `false`. -/
def validateGroupHint (object : JsonObject) : Bool :=
  match fetchAs JsonValue.getObject object "tags" with
  | .error _ => false
  | .ok tags =>
      match fetchAs JsonValue.getArray tags "urn:x-nmos:tag:grouphint/v1.0" with
      | .error _ => false
      | .ok groupHints => !groupHints.isEmpty && groupHints.all validGroupHint

/-- `a != b` of two rates, by the products of the source. -/
def MxlRational.differs (a b : MxlRational) : Bool :=
  a.numerator * b.denominator != a.denominator * b.numerator

structure FlowParser where
  format : MxlDataFormat
  interlaced : Bool
  grainRate : MxlRational
  root : JsonObject

namespace FlowParser

def frameWidth (root : JsonObject) : Except String UInt64 :=
  castSize <$> fetchAs JsonValue.getNumber root "frame_width"

def frameHeight (root : JsonObject) : Except String UInt64 :=
  castSize <$> fetchAs JsonValue.getNumber root "frame_height"

/-- Progressive unless the document says otherwise. -/
def interlaceMode (root : JsonObject) : Except String String :=
  match root.lookup "interlace_mode" with
  | none => .ok "progressive"
  | some _ => fetchAs JsonValue.getString root "interlace_mode"

/-- The checks on a video flow: whether it is interlaced, and the rate of its
    frames or fields. -/
def checkVideo (root : JsonObject) (grainRate : MxlRational) : Except String (Bool × MxlRational) := do
  let width ← frameWidth root
  let height ← frameHeight root
  if width < 2 ∨ width > MAX_WIDTH ∨ height < 1 ∨ height > MAX_HEIGHT then
    .error ("Invalid video dimensions: " ++ toString width ++ "x" ++ toString height ++
      ". range is 2x1 to " ++ toString MAX_WIDTH ++ "x" ++ toString MAX_HEIGHT)
  else do
    let mode ← interlaceMode root
    if mode = "progressive" then
      .ok (false, grainRate)
    else if mode = "interlaced_tff" ∨ mode = "interlaced_bff" then
      if grainRate.differs ⟨30000, 1001⟩ ∧ grainRate.differs ⟨25, 1⟩ then
        .error "Invalid grain_rate for interlaced video. Expected 30000/1001 or 25/1."
      else
        .ok (true, { grainRate with numerator := grainRate.numerator * 2 })
    else
      .error ("Invalid interlace_mode: " ++ mode)

/-- The rate of a format, under the name its documents give it. -/
def fetchRate (root : JsonObject) (format : MxlDataFormat) : Except String MxlRational :=
  if mxlIsDiscreteDataFormat format then do
    extractRational (← fetchAs JsonValue.getObject root "grain_rate")
  else if format = .audio then do
    extractRational (← fetchAs JsonValue.getObject root "sample_rate")
  else
    .error "Unsupported flow format."

/-- The checks that are the same for every format. -/
def checkCommon (root : JsonObject) : Except String Unit := do
  let label ← fetchAs JsonValue.getString root "label"
  if label = "" then
    .error "Empty flow label."
  else if validateGroupHint root then
    .ok ()
  else
    .error "Invalid or missing group hint tag."

/-- The constructor, from the parsed document on. -/
def parse (isUuid : String → Bool) (root : JsonObject) : Except String FlowParser := do
  let id ← fetchAs JsonValue.getString root "id"
  if isUuid id then
    let format ← translateFlowFormat <$> fetchAs JsonValue.getString root "format"
    let grainRate ← fetchRate root format
    checkCommon root
    if format = .video then
      let (interlaced, grainRate) ← checkVideo root grainRate
      .ok { format, interlaced, grainRate, root }
    else
      .ok { format, interlaced := false, grainRate, root }
  else
    .error "Invalid flow 'id'."

/-- The number of lines of a grain: interlaced media is handled as separate
    fields. -/
def lines (parser : FlowParser) (height : UInt64) : UInt64 :=
  if parser.interlaced then height / 2 else height

def getPayloadSize (parser : FlowParser) : Except String UInt64 :=
  match parser.format with
  | .video => do
      let width ← frameWidth parser.root
      let height ← frameHeight parser.root
      let mediaType ← fetchAs JsonValue.getString parser.root "media_type"
      if mediaType = "video/v210" then
        if !parser.interlaced ∨ height % 2 = 0 then
          .ok ((getV210LineLength width).toUInt64 * parser.lines height)
        else
          .error "Invalid video height for interlaced v210. Must be even."
      else if mediaType = "video/v210a" then
        if !parser.interlaced ∨ height % 2 = 0 then
          .ok ((getV210LineLength width).toUInt64 * parser.lines height +
            (get10BitAlphaLineLength width).toUInt64 * parser.lines height)
        else
          .error "Invalid video height for interlaced v210a. Must be even."
      else
        .error ("Unsupported video media_type: " ++ mediaType)
  | .data => do
      let mediaType ← fetchAs JsonValue.getString parser.root "media_type"
      if mediaType = "video/smpte291" then
        .ok MXL_DATA_FORMAT_GRAIN_SIZE
      else
        .error ("Unsupported data media_type: " ++ mediaType)
  | .audio => do
      let bitDepth ← fetchAs JsonValue.getNumber parser.root "bit_depth"
      if bitDepth ≠ 32 ∧ bitDepth ≠ 64 then
        .error ("Unsupported bit depth: " ++ toString bitDepth)
      else
        .ok (castSize bitDepth / 8)
  | .unspecified => .error "Format not implemented."

/-- The length of a slice in each of the planes, `0` for a plane there is not. -/
def getPayloadSliceLengths (parser : FlowParser) : Except String (Vector UInt32 4) :=
  match parser.format with
  | .data => .ok #v[1, 0, 0, 0]
  | .video => do
      let width ← frameWidth parser.root
      let mediaType ← fetchAs JsonValue.getString parser.root "media_type"
      if mediaType = "video/v210" then
        .ok #v[getV210LineLength width, 0, 0, 0]
      else if mediaType = "video/v210a" then
        .ok #v[getV210LineLength width, get10BitAlphaLineLength width, 0, 0]
      else
        .error ("Unsupported video media_type: " ++ mediaType)
  | _ => .error "Cannot compute slice length for this data format."

def getTotalPayloadSlices (parser : FlowParser) : Except String UInt64 :=
  match parser.format with
  | .data => .ok MXL_DATA_FORMAT_GRAIN_SIZE
  | .video => do
      let mediaType ← fetchAs JsonValue.getString parser.root "media_type"
      if mediaType ≠ "video/v210" ∧ mediaType ≠ "video/v210a" then
        .error ("Unsupported video media_type: " ++ mediaType)
      else do
        let height ← frameHeight parser.root
        .ok (parser.lines height)
  | _ => .error "Cannot compute slice length for this data format."

end FlowParser

/-! ### The grains of a flow -/

/-- What every grain of a discrete flow has in common: `grainSize` and
    `totalSlices` of its header, `sliceSizes` of the flow's configuration. -/
structure GrainFormat where
  grainSize : UInt32
  totalSlices : UInt16
  sliceSizes : Vector UInt32 4
deriving DecidableEq

/-- The three values `createOrOpenDiscreteFlowData` asks the parser for, as they
    are stored. -/
def FlowParser.grainFormat (parser : FlowParser) : Except String GrainFormat := do
  let payloadSize ← parser.getPayloadSize
  let totalSlices ← parser.getTotalPayloadSlices
  let sliceLengths ← parser.getPayloadSliceLengths
  .ok { grainSize := payloadSize.toUInt32, totalSlices := totalSlices.toUInt16,
        sliceSizes := sliceLengths }

/-! ### What the parser lets through -/

theorem getV210LineLength_bounds {width : UInt64} (hmin : 2 ≤ width.toNat)
    (hmax : width.toNat ≤ 7680) :
    0 < (getV210LineLength width).toNat ∧ (getV210LineLength width).toNat ≤ 20480 := by
  have hlen : (getV210LineLength width).toNat = (width.toNat + 47) / 48 * 128 := by
    rw [getV210LineLength, UInt64.toNat_toUInt32, UInt64.toNat_mul, UInt64.toNat_div,
      UInt64.toNat_add]
    simp only [UInt64.reduceToNat]
    omega
  rw [hlen]
  omega

theorem get10BitAlphaLineLength_bounds {width : UInt64} (hmin : 2 ≤ width.toNat)
    (hmax : width.toNat ≤ 7680) :
    0 < (get10BitAlphaLineLength width).toNat ∧
      (get10BitAlphaLineLength width).toNat ≤ 10240 := by
  have hlen : (get10BitAlphaLineLength width).toNat = (width.toNat + 2) / 3 * 4 := by
    rw [get10BitAlphaLineLength, UInt64.toNat_toUInt32, UInt64.toNat_mul, UInt64.toNat_div,
      UInt64.toNat_add]
    simp only [UInt64.reduceToNat]
    omega
  rw [hlen]
  omega

namespace FlowParser

variable {isUuid : String → Bool} {root : JsonObject} {parser : FlowParser}

theorem checkVideo_dimensions {grainRate : MxlRational} {result : Bool × MxlRational}
    (h : checkVideo root grainRate = .ok result) :
    ∃ width height, frameWidth root = .ok width ∧ frameHeight root = .ok height ∧
      2 ≤ width.toNat ∧ width.toNat ≤ 7680 ∧ 1 ≤ height.toNat ∧ height.toNat ≤ 4320 := by
  obtain ⟨width, hwidth, h⟩ := bind_eq_ok.mp h
  obtain ⟨height, hheight, h⟩ := bind_eq_ok.mp h
  refine ⟨width, height, hwidth, hheight, ?_⟩
  split at h
  · cases h
  · next hdim =>
    simp only [not_or, UInt64.not_lt, gt_iff_lt, UInt64.le_iff_toNat_le, MAX_WIDTH, MAX_HEIGHT,
      UInt64.reduceToNat] at hdim
    exact hdim

/-- A parser holds the document it was made from, and a video document has a
    width and a height within the limits. -/
theorem parse_spec (h : parse isUuid root = .ok parser) :
    parser.root = root ∧
      (parser.format = .video → ∃ width height, frameWidth root = .ok width ∧
        frameHeight root = .ok height ∧ 2 ≤ width.toNat ∧ width.toNat ≤ 7680 ∧
        1 ≤ height.toNat ∧ height.toNat ≤ 4320) := by
  obtain ⟨id, -, h⟩ := bind_eq_ok.mp h
  split at h
  · obtain ⟨format, -, h⟩ := bind_eq_ok.mp h
    obtain ⟨grainRate, -, h⟩ := bind_eq_ok.mp h
    obtain ⟨-, -, h⟩ := bind_eq_ok.mp h
    split at h
    · obtain ⟨checked, hvideo, h⟩ := bind_eq_ok.mp h
      cases h
      exact ⟨rfl, fun _ => checkVideo_dimensions hvideo⟩
    · next hformat =>
      cases h
      exact ⟨rfl, fun hvideo => absurd hvideo hformat⟩
  · cases h

theorem toNat_lines {height : UInt64} (heven : !parser.interlaced ∨ height % 2 = 0)
    (hmin : 1 ≤ height.toNat) (hmax : height.toNat ≤ 4320) :
    0 < (parser.lines height).toNat ∧ (parser.lines height).toNat ≤ 4320 := by
  unfold lines
  split
  · next hinterlaced =>
    have hmod : height.toNat % 2 = 0 := by
      have h := heven.resolve_left (by simp [hinterlaced])
      simpa using congrArg UInt64.toNat h
    rw [UInt64.toNat_div]
    simp only [UInt64.reduceToNat]
    omega
  · exact ⟨hmin, hmax⟩

/-- A product of a line length and a number of lines, within the limits. -/
theorem toNat_plane {line : UInt32} {lines : UInt64} (hline : line.toNat ≤ 20480)
    (hlines : lines.toNat ≤ 4320) :
    (line.toUInt64 * lines).toNat = line.toNat * lines.toNat ∧
      line.toNat * lines.toNat ≤ 20480 * 4320 := by
  have hle : line.toNat * lines.toNat ≤ 20480 * 4320 := Nat.mul_le_mul hline hlines
  refine ⟨?_, hle⟩
  rw [UInt64.toNat_mul, UInt32.toNat_toUInt64, Nat.mod_eq_of_lt]
  omega

section Video

variable {width height n : UInt64} {mediaType : String} {lengths : Vector UInt32 4}

/-- The line length of the key plane, which only v210a has. -/
def keyLineLength (mediaType : String) (width : UInt64) : UInt32 :=
  if mediaType = "video/v210a" then get10BitAlphaLineLength width else 0

theorem getPayloadSize_video (hkind : parser.format = .video)
    (hwidth : frameWidth parser.root = .ok width) (hheight : frameHeight parser.root = .ok height)
    (hmedia : fetchAs JsonValue.getString parser.root "media_type" = .ok mediaType)
    (h : parser.getPayloadSize = .ok n) :
    (!parser.interlaced ∨ height % 2 = 0) ∧
      n = (getV210LineLength width).toUInt64 * parser.lines height +
        (keyLineLength mediaType width).toUInt64 * parser.lines height := by
  rw [getPayloadSize, hkind, hwidth, hheight, hmedia] at h
  change (if mediaType = "video/v210" then _ else _) = _ at h
  split at h
  · next hv210 =>
    split at h
    · next heven =>
      cases h
      refine ⟨heven, ?_⟩
      rw [keyLineLength, if_neg (by rw [hv210]; decide)]
      simp
    · cases h
  · split at h
    · next hv210a =>
      split at h
      · next heven =>
        cases h
        exact ⟨heven, by rw [keyLineLength, if_pos hv210a]⟩
      · cases h
    · cases h

theorem getPayloadSliceLengths_video (hkind : parser.format = .video)
    (hwidth : frameWidth parser.root = .ok width)
    (hmedia : fetchAs JsonValue.getString parser.root "media_type" = .ok mediaType)
    (h : parser.getPayloadSliceLengths = .ok lengths) :
    lengths.get 0 = getV210LineLength width := by
  rw [getPayloadSliceLengths, hkind, hwidth, hmedia] at h
  change (if mediaType = "video/v210" then _ else _) = _ at h
  split at h
  · cases h
    rfl
  · split at h
    · cases h
      rfl
    · cases h

theorem getTotalPayloadSlices_video (hkind : parser.format = .video)
    (hheight : frameHeight parser.root = .ok height)
    (hmedia : fetchAs JsonValue.getString parser.root "media_type" = .ok mediaType)
    (h : parser.getTotalPayloadSlices = .ok n) : n = parser.lines height := by
  rw [getTotalPayloadSlices, hkind, hheight, hmedia] at h
  change (if mediaType ≠ "video/v210" ∧ mediaType ≠ "video/v210a" then _ else _) = _ at h
  split at h
  · cases h
  · cases h
    rfl

end Video

/-- **The grains of an accepted flow.**  A grain has between 1 and 4320 slices,
    each of `slice` bytes in the first plane and of `key` bytes in the others;
    only v210a has other planes. -/
theorem grainFormat_spec {format : GrainFormat} (hparse : parse isUuid root = .ok parser)
    (hformat : parser.grainFormat = .ok format) :
    ∃ key, format.grainSize.toNat =
        ((format.sliceSizes.get 0).toNat + key) * format.totalSlices.toNat ∧
      0 < (format.sliceSizes.get 0).toNat ∧ (format.sliceSizes.get 0).toNat ≤ 20480 ∧
      0 < format.totalSlices.toNat ∧ format.totalSlices.toNat ≤ 4320 ∧ key ≤ 20480 ∧
      (key = 0 ↔ fetchAs JsonValue.getString root "media_type" ≠ .ok "video/v210a") := by
  obtain ⟨rfl, hvideo⟩ := parse_spec hparse
  obtain ⟨payloadSize, hsize, h⟩ := bind_eq_ok.mp hformat
  obtain ⟨totalSlices, hslices, h⟩ := bind_eq_ok.mp h
  obtain ⟨sliceLengths, hlengths, h⟩ := bind_eq_ok.mp h
  cases h
  cases hkind : parser.format with
  | unspecified =>
    rw [getPayloadSize, hkind] at hsize
    cases hsize
  | audio =>
    rw [getTotalPayloadSlices, hkind] at hslices
    cases hslices
  | data =>
    rw [getPayloadSize, hkind] at hsize
    rw [getTotalPayloadSlices, hkind] at hslices
    rw [getPayloadSliceLengths, hkind] at hlengths
    obtain ⟨mediaType, hmedia, hsize⟩ := bind_eq_ok.mp hsize
    split at hsize
    · next hanc =>
      cases hsize
      cases hslices
      cases hlengths
      rw [hmedia, hanc]
      exact ⟨0, by decide⟩
    · cases hsize
  | video =>
    obtain ⟨width, height, hwidth, hheight, hw, hw', hh, hh'⟩ := hvideo hkind
    obtain ⟨mediaType, hmedia⟩ : ∃ mediaType,
        fetchAs JsonValue.getString parser.root "media_type" = .ok mediaType := by
      rw [getTotalPayloadSlices, hkind] at hslices
      obtain ⟨mediaType, hmedia, -⟩ := bind_eq_ok.mp hslices
      exact ⟨mediaType, hmedia⟩
    obtain ⟨heven, rfl⟩ := getPayloadSize_video hkind hwidth hheight hmedia hsize
    obtain rfl := getTotalPayloadSlices_video hkind hheight hmedia hslices
    have hslice := getPayloadSliceLengths_video hkind hwidth hmedia hlengths
    obtain ⟨hline, hline'⟩ := getV210LineLength_bounds hw hw'
    obtain ⟨hkey, hkey'⟩ := get10BitAlphaLineLength_bounds hw hw'
    obtain ⟨hlines, hlines'⟩ := toNat_lines heven hh hh'
    obtain ⟨hfill, hfill'⟩ := toNat_plane hline' hlines'
    have hkeyLine : (keyLineLength mediaType width).toNat ≤ 20480 := by
      unfold keyLineLength
      split
      · omega
      · decide
    obtain ⟨hplane, hplane'⟩ := toNat_plane hkeyLine hlines'
    refine ⟨(keyLineLength mediaType width).toNat, ?_, ?_, ?_, ?_, ?_, hkeyLine, ?_⟩
    · simp only [hslice]
      rw [UInt64.toNat_toUInt32, UInt64.toNat_toUInt16, UInt64.toNat_add, hfill, hplane,
        Nat.add_mul]
      rw [Nat.mod_eq_of_lt (b := 2 ^ 64) (by omega), Nat.mod_eq_of_lt (by omega),
        Nat.mod_eq_of_lt (b := 2 ^ 16) (by omega)]
    · simp only [hslice]
      exact hline
    · simp only [hslice]
      exact hline'
    · simp only [UInt64.toNat_toUInt16]
      omega
    · simp only [UInt64.toNat_toUInt16]
      omega
    · rw [hmedia, keyLineLength]
      split
      · next hv210a => simp [hv210a, Nat.ne_of_gt hkey]
      · next hother => simp [hother]

end FlowParser

end MediaExchange
