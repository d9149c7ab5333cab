/-
  MediaExchange/SinkDefinitions.lean
  ==================================
  **From the caps of the sink to those of the source** (`mxlsink/state.rs`,
  `mxl/src/flow/flowdef.rs`, `mxlsrc/mxl_helper.rs`).

  The sink makes a flow definition of the caps it is given and creates the flow with
  it.  The source reads the definition of the flow and announces caps of its own.  In
  between the definition is a text: it is serialized by serde, parsed by `FlowParser`,
  kept in a file, and parsed by serde again.

  A document has the format twice, as a field of its own and as the tag of the details;
  of the libraries it is used that a parsed document has the fields that were written.
  A number is an integer if it has no fraction, however it is written.

  Main result: `sink_to_source`.
-/
import MediaExchange.DefinitionText
import MediaExchange.FlowSizing

namespace MediaExchange.SinkDefinitions

open MediaExchange.DefinitionText (DefinitionFile)
open MediaExchange.CompleteGrain (Error)
open MachineArithmetic (Computation)
open MachineArithmetic.Computation (ofExcept result_bind_eq_ok result_pure)
open MediaExchange.FlowCreation (Request mxlIsContinuousDataFormat)

/-! ### Caps -/

/-- `gst::Fraction`: in lowest terms. -/
structure Fraction where
  numer : Int32
  denom : Int32
  positive : 0 < denom.toInt
  coprime : Int.gcd numer.toInt denom.toInt = 1
deriving DecidableEq

/-- `Fraction::new`; none if it panics, as it does for a denominator of zero. -/
def Fraction.new (n d : Int32) : Option Fraction :=
  let g := Int32.ofInt (Int.gcd n.toInt d.toInt)
  let numer := if d / g < 0 then -(n / g) else n / g
  let denom := if d / g < 0 then -(d / g) else d / g
  if h : 0 < denom.toInt ∧ Int.gcd numer.toInt denom.toInt = 1 then
    some ⟨numer, denom, h.1, h.2⟩
  else none

theorem ntsc_positive : 0 < (1001 : Int32).toInt := by decide

theorem ntsc_coprime : Int.gcd (30000 : Int32).toInt (1001 : Int32).toInt = 1 := by decide

def Fraction.ntsc : Fraction := ⟨30000, 1001, ntsc_positive, ntsc_coprime⟩

/-- The fields of `video/x-raw`, where they are there and of the right type. -/
structure VideoCaps where
  format : Option String
  width : Option Int32
  height : Option Int32
  framerate : Option Fraction
  interlaceMode : Option String
  colorimetry : Option String

/-- What is used of `AudioInfo`. -/
structure AudioInfo where
  channels : UInt32
  rate : UInt32
  depth : UInt32

inductive SinkCaps where
  | video (caps : VideoCaps)
  | audio (info : AudioInfo)
  | data (framerate : Option Fraction)

inductive SourceCaps where
  | video (format : String) (width height : Int32) (framerate : Fraction)
      (interlaceMode colorimetry : String)
  | audio (format : String) (rate channels : Int32) (layout : String) (channelMask : UInt64)
  | data (framerate : Fraction) (alignment : String)
deriving DecidableEq

/-! ### Flow definitions -/

structure Rate where
  numerator : Int32
  denominator : Int32
deriving DecidableEq

inductive InterlaceMode where
  | progressive
  | interlacedTff
  | interlacedBff
deriving DecidableEq

def InterlaceMode.asStr : InterlaceMode → String
  | .progressive => "progressive"
  | .interlacedTff => "interlaced_tff"
  | .interlacedBff => "interlaced_bff"

def InterlaceMode.fromStr (s : String) : Option InterlaceMode :=
  if s = "progressive" then some .progressive
  else if s = "interlaced_tff" then some .interlacedTff
  else if s = "interlaced_bff" then some .interlacedBff
  else none

structure Component where
  name : String
  width : Int32
  height : Int32
  bitDepth : UInt8
deriving DecidableEq

structure FlowDefVideo where
  grainRate : Rate
  frameWidth : Int32
  frameHeight : Int32
  interlaceMode : InterlaceMode
  colorspace : String
  components : List Component
deriving DecidableEq

structure FlowDefAudio where
  sampleRate : Rate
  channelCount : Int32
  bitDepth : UInt8
deriving DecidableEq

structure FlowDefData where
  grainRate : Rate
deriving DecidableEq

inductive FlowDefDetails where
  | video (video : FlowDefVideo)
  | audio (audio : FlowDefAudio)
  | data (data : FlowDefData)
deriving DecidableEq

/-- `id` is the text of a `Uuid`. -/
structure FlowDef where
  id : String
  description : String
  tags : List (String × List String)
  format : String
  label : String
  parents : List String
  mediaType : String
  details : FlowDefDetails

/-! ### To JSON -/

def int32ToJson (value : Int32) : JsonValue := .number value.toInt

def uint8ToJson (value : UInt8) : JsonValue := .number value.toNat

def Rate.toJson (rate : Rate) : JsonValue :=
  .object [("numerator", int32ToJson rate.numerator), ("denominator", int32ToJson rate.denominator)]

def Component.toJson (c : Component) : JsonValue :=
  .object [("name", .string c.name), ("width", int32ToJson c.width),
    ("height", int32ToJson c.height), ("bit_depth", uint8ToJson c.bitDepth)]

/-- The tag, and the fields of the variant. -/
def FlowDefDetails.fields : FlowDefDetails → JsonObject
  | .video v =>
      [("format", .string "urn:x-nmos:format:video"), ("grain_rate", v.grainRate.toJson),
        ("frame_width", int32ToJson v.frameWidth), ("frame_height", int32ToJson v.frameHeight),
        ("interlace_mode", .string v.interlaceMode.asStr), ("colorspace", .string v.colorspace),
        ("components", .array (v.components.map Component.toJson))]
  | .audio a =>
      [("format", .string "urn:x-nmos:format:audio"), ("sample_rate", a.sampleRate.toJson),
        ("channel_count", int32ToJson a.channelCount), ("bit_depth", uint8ToJson a.bitDepth)]
  | .data d => [("format", .string "urn:x-nmos:format:data"), ("grain_rate", d.grainRate.toJson)]

def stringsToJson (strings : List String) : JsonValue := .array (strings.map .string)

/-- The details are flattened into the definition. -/
def FlowDef.fields (flowDef : FlowDef) : JsonObject :=
  [("id", .string flowDef.id), ("description", .string flowDef.description),
    ("tags", .object (flowDef.tags.map fun tag => (tag.1, stringsToJson tag.2))),
    ("format", .string flowDef.format), ("label", .string flowDef.label),
    ("parents", stringsToJson flowDef.parents), ("media_type", .string flowDef.mediaType)] ++
  flowDef.details.fields

/-! ### From JSON -/

def getInt32 : JsonValue → Option Int32
  | .number x =>
      if x.den = 1 ∧ -2147483648 ≤ x.num ∧ x.num ≤ 2147483647 then some (Int32.ofInt x.num)
      else none
  | _ => none

def getUInt8 : JsonValue → Option UInt8
  | .number x =>
      if x.den = 1 ∧ 0 ≤ x.num ∧ x.num ≤ 255 then some (UInt8.ofNat x.num.toNat) else none
  | _ => none

def Rate.fromJson (value : JsonValue) : Option Rate := do
  let fields ← value.getObject
  let numerator ← getInt32 (← fields.lookup "numerator")
  let denominator ←
    match fields.lookup "denominator" with
    | none => some 1
    | some value => getInt32 value
  return { numerator, denominator }

def Component.fromJson (value : JsonValue) : Option Component := do
  let fields ← value.getObject
  let name ← (← fields.lookup "name").getString
  let width ← getInt32 (← fields.lookup "width")
  let height ← getInt32 (← fields.lookup "height")
  let bitDepth ← getUInt8 (← fields.lookup "bit_depth")
  return { name, width, height, bitDepth }

def FlowDefVideo.fromFields (fields : JsonObject) : Option FlowDefVideo := do
  let grainRate ← Rate.fromJson (← fields.lookup "grain_rate")
  let frameWidth ← getInt32 (← fields.lookup "frame_width")
  let frameHeight ← getInt32 (← fields.lookup "frame_height")
  let interlaceMode ← InterlaceMode.fromStr (← (← fields.lookup "interlace_mode").getString)
  let colorspace ← (← fields.lookup "colorspace").getString
  let components ← (← (← fields.lookup "components").getArray).mapM Component.fromJson
  return { grainRate, frameWidth, frameHeight, interlaceMode, colorspace, components }

def FlowDefAudio.fromFields (fields : JsonObject) : Option FlowDefAudio := do
  let sampleRate ← Rate.fromJson (← fields.lookup "sample_rate")
  let channelCount ← getInt32 (← fields.lookup "channel_count")
  let bitDepth ← getUInt8 (← fields.lookup "bit_depth")
  return { sampleRate, channelCount, bitDepth }

def FlowDefData.fromFields (fields : JsonObject) : Option FlowDefData := do
  return { grainRate := ← Rate.fromJson (← fields.lookup "grain_rate") }

/-! ### The sink -/

/-- `init_state_with_video`, up to the definition; `id` is the parsed flow id. -/
def videoFlowDef (caps : VideoCaps) (id : String) (pid : Nat) : FlowDef :=
  let format := caps.format.getD "v210"
  let width := caps.width.getD 1920
  let height := caps.height.getD 1080
  let framerate := caps.framerate.getD .ntsc
  let interlace := caps.interlaceMode.getD "progressive"
  let interlaceMode := (InterlaceMode.fromStr interlace).getD .progressive
  let colorimetry := caps.colorimetry.getD "BT709"
  let text := "MXL Test Flow, " ++ toString height.toInt ++ "p" ++
    toString (framerate.numer / framerate.denom).toInt
  { id
    description := text
    tags := [("urn:x-nmos:tag:grouphint/v1.0", ["Media Function " ++ toString pid ++ ":Video"])]
    format := "urn:x-nmos:format:video"
    label := text
    parents := []
    mediaType := "video/" ++ format
    details := .video
      { grainRate := ⟨framerate.numer, framerate.denom⟩
        frameWidth := width
        frameHeight := height
        interlaceMode
        colorspace := colorimetry
        components := [⟨"Y", width, height, 10⟩, ⟨"Cb", width / 2, height, 10⟩,
          ⟨"Cr", width / 2, height, 10⟩] } }

/-- `init_state_with_audio`, up to the definition. -/
def audioFlowDef (info : AudioInfo) (id : String) (pid : Nat) : FlowDef :=
  { id
    description := "MXL Audio Flow"
    tags := [("urn:x-nmos:tag:grouphint/v1.0", ["Media Function " ++ toString pid ++ ":Audio"])]
    format := "urn:x-nmos:format:audio"
    label := "MXL Audio Flow"
    parents := []
    mediaType := "audio/float32"
    details := .audio
      { sampleRate := ⟨info.rate.toInt32, 1⟩
        channelCount := info.channels.toInt32
        bitDepth := info.depth.toUInt8 } }

/-- `init_state_with_data`, up to the definition. -/
def dataFlowDef (framerate : Option Fraction) (id : String) (pid : Nat) : FlowDef :=
  let framerate := framerate.getD .ntsc
  { id
    description := "MXL SMPTE 291 data flow"
    tags := [("urn:x-nmos:tag:grouphint/v1.0", ["Media Function " ++ toString pid ++ ":Data"])]
    format := "urn:x-nmos:format:data"
    label := "MXL data flow"
    parents := []
    mediaType := "video/smpte291"
    details := .data { grainRate := ⟨framerate.numer, framerate.denom⟩ } }

def SinkCaps.flowDef (caps : SinkCaps) (id : String) (pid : Nat) : FlowDef :=
  match caps with
  | .video caps => videoFlowDef caps id pid
  | .audio info => audioFlowDef info id pid
  | .data framerate => dataFlowDef framerate id pid

/-! ### The source -/

inductive NegotiateError where
  | definition (error : Error)
  | invalidJson (error : String)
  | invalidVideoFlow
  | invalidAudioFlow
  | invalidDataFlow
  | unknownFormat (format : String)
  | panic

/-- `get_flow_def`. -/
def getFlowDef (json : JsonValue) : Except NegotiateError FlowDefDetails :=
  let fields := json.getObject.getD []
  let format := ((fields.lookup "format").bind JsonValue.getString).getD "unknown"
  if format = "urn:x-nmos:format:video" then
    match FlowDefVideo.fromFields fields with
    | some video => .ok (.video video)
    | none => .error .invalidVideoFlow
  else if format = "urn:x-nmos:format:audio" then
    match FlowDefAudio.fromFields fields with
    | some audio => .ok (.audio audio)
    | none => .error .invalidAudioFlow
  else if format = "urn:x-nmos:format:data" then
    match FlowDefData.fromFields fields with
    | some data => .ok (.data data)
    | none => .error .invalidDataFlow
  else .error (.unknownFormat format)

def generateChannelMaskFromChannels (channels : UInt32) : UInt64 :=
  if channels ≥ 64 then 18446744073709551615 else (1 <<< channels.toUInt64) - 1

/-- The caps that `set_json_caps` builds, with Unicode's `to_lowercase`; none if it panics. -/
def setJsonCaps (toLowercase : String → String) : FlowDefDetails → Option SourceCaps
  | .video video =>
      (Fraction.new video.grainRate.numerator video.grainRate.denominator).map fun framerate =>
        .video "v210" video.frameWidth video.frameHeight framerate video.interlaceMode.asStr
          (toLowercase video.colorspace)
  | .audio audio =>
      some (.audio "F32LE" audio.sampleRate.numerator audio.channelCount "interleaved"
        (generateChannelMaskFromChannels audio.channelCount.toUInt32))
  | .data data =>
      (Fraction.new data.grainRate.numerator data.grainRate.denominator).map fun framerate =>
        .data framerate "frame"

/-- `negotiate`, from `get_mxl_flow_json` on. -/
def negotiate (toLowercase : String → String) (parse : String → Except String JsonValue)
    (first second : DefinitionFile) : Except NegotiateError SourceCaps :=
  match DefinitionText.getFlowDef true first second with
  | .error error => .error (.definition error)
  | .ok text =>
      match parse text with
      | .error error => .error (.invalidJson error)
      | .ok json => do
          match setJsonCaps toLowercase (← getFlowDef json) with
          | some caps => .ok caps
          | none => .error .panic

/-! ### What is expected -/

/-- A framerate of `a/b`. -/
def Fraction.Is (f : Fraction) (a b : Int) : Prop := f.numer.toInt * b = a * f.denom.toInt

namespace VideoCaps

/-- The fields, with their defaults. -/
def rate (caps : VideoCaps) : Fraction := caps.framerate.getD .ntsc

def mode (caps : VideoCaps) : InterlaceMode :=
  (InterlaceMode.fromStr (caps.interlaceMode.getD "progressive")).getD .progressive

def frameWidth (caps : VideoCaps) : Int32 := caps.width.getD 1920

def frameHeight (caps : VideoCaps) : Int32 := caps.height.getD 1080

def Sized (caps : VideoCaps) : Prop :=
  2 ≤ caps.frameWidth.toInt ∧ caps.frameWidth.toInt ≤ 7680 ∧
    1 ≤ caps.frameHeight.toInt ∧ caps.frameHeight.toInt ≤ 4320

/-- Interlaced video has one of two rates and as many lines in one field as in the other. -/
def Acceptable (caps : VideoCaps) : Prop :=
  caps.Sized ∧
    (caps.mode = .progressive ∨ (caps.rate.Is 30000 1001 ∨ caps.rate.Is 25 1) ∧
      2 ∣ caps.frameHeight.toInt) ∧
    (caps.format.getD "v210" = "v210" ∨ caps.format.getD "v210" = "v210a")

end VideoCaps

/-- What a flow can be created of. -/
def SinkCaps.Acceptable : SinkCaps → Prop
  | .video caps => caps.Acceptable
  | .audio info =>
      (info.depth.toUInt8 = 32 ∨ info.depth.toUInt8 = 64) ∧ 0 < info.channels.toInt32.toInt
  | .data _ => True

/-- The rate of the flow's grains or samples: fields, where video is interlaced. -/
def SinkCaps.flowRate : SinkCaps → MxlRational
  | .video caps =>
      ⟨if caps.mode = .progressive then caps.rate.numer.toInt64 else caps.rate.numer.toInt64 * 2,
        caps.rate.denom.toInt64⟩
  | .audio info => ⟨info.rate.toInt32.toInt64, 1⟩
  | .data framerate =>
      ⟨(framerate.getD .ntsc).numer.toInt64, (framerate.getD .ntsc).denom.toInt64⟩

/-- What the source announces. -/
def SinkCaps.announced (toLowercase : String → String) : SinkCaps → SourceCaps
  | .video caps =>
      .video "v210" caps.frameWidth caps.frameHeight caps.rate caps.mode.asStr
        (toLowercase (caps.colorimetry.getD "BT709"))
  | .audio info =>
      .audio "F32LE" info.rate.toInt32 info.channels.toInt32 "interleaved"
        (generateChannelMaskFromChannels info.channels)
  | .data framerate => .data (framerate.getD .ntsc) "frame"

/-- The text is parsed as an object with these fields. -/
def ParsedAs (parse : String → Except String JsonValue) (text : String)
    (fields : JsonObject) : Prop :=
  ∃ parsed, parse text = .ok (.object parsed) ∧ ∀ name, parsed.lookup name = fields.lookup name

/-! ### Numbers -/

section Numbers

theorem int32_bounds (x : Int32) : -2147483648 ≤ x.toInt ∧ x.toInt ≤ 2147483647 := by
  have hmin := x.minValue_le_toInt
  have hlt := x.toInt_lt
  constructor
  · exact hmin
  · omega

@[simp] theorem getInt32_int32ToJson (x : Int32) : getInt32 (int32ToJson x) = some x := by
  have hbounds := int32_bounds x
  rw [int32ToJson, getInt32, Rat.den_intCast, Rat.num_intCast, if_pos ⟨rfl, hbounds⟩,
    Int32.ofInt_toInt]

@[simp] theorem getUInt8_uint8ToJson (x : UInt8) : getUInt8 (uint8ToJson x) = some x := by
  have hlt := x.toNat_lt
  have hcast : ((x.toNat : ℕ) : ℚ) = ((x.toNat : ℤ) : ℚ) := by simp
  rw [uint8ToJson, getUInt8, hcast, Rat.den_intCast, Rat.num_intCast,
    if_pos ⟨rfl, Int.natCast_nonneg _, by omega⟩]
  simp

@[simp] theorem fromJson_toJson_rate (rate : Rate) : Rate.fromJson rate.toJson = some rate := by
  simp [Rate.fromJson, Rate.toJson, JsonValue.getObject, List.lookup_cons]

@[simp] theorem fromJson_toJson_component (c : Component) :
    Component.fromJson c.toJson = some c := by
  simp [Component.fromJson, Component.toJson, JsonValue.getObject, JsonValue.getString,
    List.lookup_cons]

@[simp] theorem fromStr_asStr (mode : InterlaceMode) :
    InterlaceMode.fromStr mode.asStr = some mode := by
  cases mode <;> rfl

@[simp] theorem mapM_components (components : List Component) :
    components.mapM (Component.fromJson ∘ Component.toJson) = some components := by
  induction components with
  | nil => rfl
  | cons c components ih => simp [ih]

/-- A fraction in lowest terms is made of its two numbers. -/
theorem new_fraction (f : Fraction) : Fraction.new f.numer f.denom = some f := by
  have hone : Int32.ofInt (Int.gcd f.numer.toInt f.denom.toInt) = 1 := by
    rw [f.coprime]
    rfl
  have hdenom : ¬ f.denom < 0 := by
    rw [Int32.lt_iff_toInt_lt]
    exact Int.not_lt.mpr (Int.le_of_lt f.positive)
  simp only [Fraction.new, hone, Int32.div_one, if_neg hdenom]
  rw [dif_pos ⟨f.positive, f.coprime⟩]

end Numbers

/-! ### The source reads what the sink wrote -/

section Source

variable {parsed : JsonObject} {flowDef : FlowDef}

/-- The two fields with the format say the same. -/
def FlowDef.Tagged (flowDef : FlowDef) : Prop :=
  flowDef.details.fields.lookup "format" = some (.string flowDef.format)

theorem getFlowDef_fields (h : ∀ name, parsed.lookup name = flowDef.fields.lookup name)
    (htagged : flowDef.Tagged) : getFlowDef (.object parsed) = .ok flowDef.details := by
  have hformat : parsed.lookup "format" = some (.string flowDef.format) := by
    rw [h]
    simp [FlowDef.fields, List.lookup_cons]
  cases hdetails : flowDef.details with
  | video v =>
    have hvideo : flowDef.format = "urn:x-nmos:format:video" := by
      rw [FlowDef.Tagged, hdetails] at htagged
      simpa [FlowDefDetails.fields, List.lookup_cons] using htagged.symm
    have hfields : FlowDefVideo.fromFields parsed = some v := by
      simp [FlowDefVideo.fromFields, h, FlowDef.fields, hdetails, FlowDefDetails.fields,
        List.lookup_cons, JsonValue.getString, JsonValue.getArray]
    simp [getFlowDef, JsonValue.getObject, hformat, JsonValue.getString, hvideo, hfields]
  | audio a =>
    have haudio : flowDef.format = "urn:x-nmos:format:audio" := by
      rw [FlowDef.Tagged, hdetails] at htagged
      simpa [FlowDefDetails.fields, List.lookup_cons] using htagged.symm
    have hfields : FlowDefAudio.fromFields parsed = some a := by
      simp [FlowDefAudio.fromFields, h, FlowDef.fields, hdetails, FlowDefDetails.fields,
        List.lookup_cons]
    simp [getFlowDef, JsonValue.getObject, hformat, JsonValue.getString, haudio, hfields]
  | data d =>
    have hdata : flowDef.format = "urn:x-nmos:format:data" := by
      rw [FlowDef.Tagged, hdetails] at htagged
      simpa [FlowDefDetails.fields, List.lookup_cons] using htagged.symm
    have hfields : FlowDefData.fromFields parsed = some d := by
      simp [FlowDefData.fromFields, h, FlowDef.fields, hdetails, FlowDefDetails.fields,
        List.lookup_cons]
    simp [getFlowDef, JsonValue.getObject, hformat, JsonValue.getString, hdata, hfields]

theorem tagged_flowDef (caps : SinkCaps) (id : String) (pid : Nat) :
    (caps.flowDef id pid).Tagged := by
  cases caps <;> rfl

theorem setJsonCaps_flowDef (toLowercase : String → String) (caps : SinkCaps) (id : String)
    (pid : Nat) : setJsonCaps toLowercase (caps.flowDef id pid).details =
      some (caps.announced toLowercase) := by
  cases caps with
  | video caps =>
    change (Fraction.new caps.rate.numer caps.rate.denom).map _ = _
    rw [new_fraction]
    rfl
  | audio info =>
    change some (SourceCaps.audio _ _ _ _ (generateChannelMaskFromChannels
      info.channels.toInt32.toUInt32)) = _
    rw [UInt32.toUInt32_toInt32]
    rfl
  | data framerate =>
    change (Fraction.new (framerate.getD .ntsc).numer (framerate.getD .ntsc).denom).map _ = _
    rw [new_fraction]
    rfl

end Source

/-! ### The parser of the library reads it, too -/

section Parser

variable {parsed fields : JsonObject} {flowDef : FlowDef}

theorem fetchAs_congr {α : Type} (get : JsonValue → Option α)
    (h : ∀ name, parsed.lookup name = fields.lookup name) (field : String) :
    fetchAs get parsed field = fetchAs get fields field := by
  rw [fetchAs, fetchAs, h]

/-- A decimal number has no colon. -/
theorem colon_not_mem_toString (n : Nat) : ':' ∉ (toString n).toList := by
  intro hc
  have hdigit : (':' : Char).isDigit = true := by
    have hmem : ':' ∈ Nat.toDigits 10 n := by simpa [Nat.repr] using hc
    exact Nat.isDigit_of_mem_toDigits (by decide) (by decide) hmem
  cases hdigit

/-- The group hint of a process is one. -/
theorem validGroupHint_mediaFunction (pid : Nat) {suffix : String} {role : List Char}
    (hsuffix : suffix.toList = ':' :: role) (hrole : role.isEmpty = false) (hcolon : ':' ∉ role) :
    validGroupHint (.string ("Media Function " ++ toString pid ++ suffix)) = true := by
  have hname : ':' ∉ "Media Function ".toList ++ (toString pid).toList := by
    rw [List.mem_append, not_or]
    exact ⟨by decide, colon_not_mem_toString pid⟩
  have htext : ("Media Function " ++ toString pid ++ suffix).toList =
      ("Media Function ".toList ++ (toString pid).toList) ++ ':' :: role := by
    rw [String.toList_append, String.toList_append, hsuffix]
  have hempty : ("Media Function ".toList ++ (toString pid).toList).isEmpty = false := rfl
  rw [validGroupHint, htext, List.splitOn_append_cons_self_of_not_mem hname,
    List.splitOn_eq_singleton hcolon]
  simp only [hempty, hrole]
  rfl

theorem castInt64_int32 (x : Int32) : castInt64 (x.toInt : ℚ) = x.toInt64 := by
  rw [castInt64, Rat.num_intCast, Rat.den_intCast, Nat.cast_one, Int.tdiv_one]
  apply Int64.toInt_inj.mp
  have hbounds := int32_bounds x
  rw [Int64.toInt_ofInt_of_le (by omega) (by omega), Int32.toInt_toInt64]

/-- The numbers of a rate in lowest terms are kept. -/
theorem extractRational_rate {rate : Rate}
    (hcoprime : Int.gcd rate.numerator.toInt rate.denominator.toInt = 1) :
    extractRational [("numerator", int32ToJson rate.numerator),
      ("denominator", int32ToJson rate.denominator)] =
      .ok ⟨rate.numerator.toInt64, rate.denominator.toInt64⟩ := by
  have hnumerator : fetchAs JsonValue.getNumber [("numerator", int32ToJson rate.numerator),
      ("denominator", int32ToJson rate.denominator)] "numerator" =
        .ok (rate.numerator.toInt : ℚ) := rfl
  have hdenominator : extractDenominator [("numerator", int32ToJson rate.numerator),
      ("denominator", int32ToJson rate.denominator)] = .ok rate.denominator.toInt64 := by
    rw [← castInt64_int32]
    rfl
  have hgcd : Int64.ofInt (Int.gcd rate.numerator.toInt64.toInt rate.denominator.toInt64.toInt) =
      1 := by
    rw [Int32.toInt_toInt64, Int32.toInt_toInt64, hcoprime]
    rfl
  rw [extractRational, hnumerator, hdenominator]
  change (if Int64.ofInt (Int.gcd (castInt64 (rate.numerator.toInt : ℚ)).toInt
    rate.denominator.toInt64.toInt) ≠ 0 then _ else _) = _
  rw [castInt64_int32]
  simp only [hgcd, Int64.div_one]
  rfl

/-- The checks that are the same for every format, passed by what the sink writes. -/
theorem checkCommon_flowDef {caps : SinkCaps} {id : String} {pid : Nat}
    (h : ∀ name, parsed.lookup name = (caps.flowDef id pid).fields.lookup name) :
    FlowParser.checkCommon parsed = .ok () := by
  have hlabel : fetchAs JsonValue.getString parsed "label" = .ok (caps.flowDef id pid).label := by
    rw [fetchAs_congr _ h]
    rfl
  have hne : (caps.flowDef id pid).label ≠ "" := by
    cases caps with
    | video caps =>
      intro hempty
      have htoList := congrArg String.toList hempty
      simp [SinkCaps.flowDef, videoFlowDef] at htoList
    | audio info => exact (by decide : ("MXL Audio Flow" : String) ≠ "")
    | data framerate => exact (by decide : ("MXL data flow" : String) ≠ "")
  have hhint : ∃ hint, validGroupHint (.string hint) = true ∧
      fetchAs JsonValue.getObject parsed "tags" =
        .ok [("urn:x-nmos:tag:grouphint/v1.0", .array [.string hint])] := by
    cases caps with
    | video caps =>
      refine ⟨"Media Function " ++ toString pid ++ ":Video",
        @validGroupHint_mediaFunction pid ":Video" "Video".toList rfl rfl (by decide), ?_⟩
      rw [fetchAs_congr _ h]
      rfl
    | audio info =>
      refine ⟨"Media Function " ++ toString pid ++ ":Audio",
        @validGroupHint_mediaFunction pid ":Audio" "Audio".toList rfl rfl (by decide), ?_⟩
      rw [fetchAs_congr _ h]
      rfl
    | data framerate =>
      refine ⟨"Media Function " ++ toString pid ++ ":Data",
        @validGroupHint_mediaFunction pid ":Data" "Data".toList rfl rfl (by decide), ?_⟩
      rw [fetchAs_congr _ h]
      rfl
  obtain ⟨hint, hvalid, htags⟩ := hhint
  have hgroup : validateGroupHint parsed = true := by
    have hhints : fetchAs JsonValue.getArray
        [("urn:x-nmos:tag:grouphint/v1.0", .array [.string hint])]
        "urn:x-nmos:tag:grouphint/v1.0" = .ok [.string hint] := rfl
    simp only [validateGroupHint, htags, hhints, List.all_cons, hvalid]
    rfl
  rw [FlowParser.checkCommon, hlabel]
  change (if (caps.flowDef id pid).label = "" then _ else _) = _
  rw [if_neg hne, if_pos hgroup]

/-- The rate of the frames, not of the fields. -/
def SinkCaps.rate : SinkCaps → Rate
  | .video caps => ⟨caps.rate.numer, caps.rate.denom⟩
  | .audio info => ⟨info.rate.toInt32, 1⟩
  | .data framerate => ⟨(framerate.getD .ntsc).numer, (framerate.getD .ntsc).denom⟩

def SinkCaps.format : SinkCaps → MxlDataFormat
  | .video _ => .video
  | .audio _ => .audio
  | .data _ => .data

theorem coprime_rate (caps : SinkCaps) :
    Int.gcd caps.rate.numerator.toInt caps.rate.denominator.toInt = 1 := by
  cases caps with
  | video caps => exact caps.rate.coprime
  | audio info => exact Int.gcd_one_right _
  | data framerate => exact (framerate.getD .ntsc).coprime

theorem fetchRate_flowDef {caps : SinkCaps} {id : String} {pid : Nat}
    (h : ∀ name, parsed.lookup name = (caps.flowDef id pid).fields.lookup name) :
    FlowParser.fetchRate parsed caps.format =
      .ok ⟨caps.rate.numerator.toInt64, caps.rate.denominator.toInt64⟩ := by
  have hrate := extractRational_rate (coprime_rate caps)
  cases caps with
  | video caps =>
    have hfetch : fetchAs JsonValue.getObject parsed "grain_rate" = .ok
        [("numerator", int32ToJson caps.rate.numer),
          ("denominator", int32ToJson caps.rate.denom)] := by
      rw [fetchAs_congr _ h]
      rfl
    exact bind_eq_ok.mpr ⟨_, hfetch, hrate⟩
  | audio info =>
    have hfetch : fetchAs JsonValue.getObject parsed "sample_rate" = .ok
        [("numerator", int32ToJson info.rate.toInt32), ("denominator", int32ToJson 1)] := by
      rw [fetchAs_congr _ h]
      rfl
    exact bind_eq_ok.mpr ⟨_, hfetch, hrate⟩
  | data framerate =>
    have hfetch : fetchAs JsonValue.getObject parsed "grain_rate" = .ok
        [("numerator", int32ToJson (framerate.getD .ntsc).numer),
          ("denominator", int32ToJson (framerate.getD .ntsc).denom)] := by
      rw [fetchAs_congr _ h]
      rfl
    exact bind_eq_ok.mpr ⟨_, hfetch, hrate⟩

/-- What is left of the parser are the checks on video. -/
theorem parse_flowDef {caps : SinkCaps} {id : String} {pid : Nat} {isUuid : String → Bool}
    (h : ∀ name, parsed.lookup name = (caps.flowDef id pid).fields.lookup name) :
    FlowParser.parse isUuid parsed =
      if isUuid id then
        if caps.format = .video then do
          let (interlaced, grainRate) ← FlowParser.checkVideo parsed
            ⟨caps.rate.numerator.toInt64, caps.rate.denominator.toInt64⟩
          .ok { format := caps.format, interlaced, grainRate, root := parsed }
        else .ok {
          format := caps.format, interlaced := false
          grainRate := ⟨caps.rate.numerator.toInt64, caps.rate.denominator.toInt64⟩
          root := parsed }
      else .error "Invalid flow 'id'." := by
  have hid : fetchAs JsonValue.getString parsed "id" = .ok id := by
    rw [fetchAs_congr _ h]
    cases caps <;> rfl
  have hformat : translateFlowFormat <$> fetchAs JsonValue.getString parsed "format" =
      .ok caps.format := by
    rw [fetchAs_congr _ h]
    cases caps <;> rfl
  rw [FlowParser.parse, hid]
  change (if isUuid id = true then _ else _) = _
  by_cases huuid : isUuid id = true
  · rw [if_pos huuid, if_pos huuid, hformat]
    change (do
      let grainRate ← FlowParser.fetchRate parsed caps.format
      FlowParser.checkCommon parsed
      _) = _
    rw [fetchRate_flowDef h, checkCommon_flowDef h]
    rfl
  · rw [if_neg huuid, if_neg huuid]

end Parser

/-! ### What a flow is created of -/

section Video

variable {parsed : JsonObject} {caps : VideoCaps} {id : String} {pid : Nat}

theorem castSize_int32 (x : Int32) : castSize (x.toInt : ℚ) = UInt64.ofInt x.toInt := by
  rw [castSize, Rat.num_intCast, Rat.den_intCast, Nat.cast_one, Int.tdiv_one]

/-- A negative side is one that is too long. -/
theorem toNat_side (x : Int32) : (0 ≤ x.toInt ∧ ((UInt64.ofInt x.toInt).toNat : ℤ) = x.toInt) ∨
    (x.toInt < 0 ∧ 7680 < (UInt64.ofInt x.toInt).toNat) := by
  have hbounds := int32_bounds x
  have hnat : (UInt64.ofInt x.toInt).toNat = (x.toInt % 2 ^ 64).toNat := by
    rw [UInt64.ofInt, UInt64.toNat_ofNat', Nat.mod_eq_of_lt (by omega)]
  omega

theorem frameWidth_flowDef
    (h : ∀ name, parsed.lookup name = (videoFlowDef caps id pid).fields.lookup name) :
    FlowParser.frameWidth parsed = .ok (UInt64.ofInt caps.frameWidth.toInt) := by
  rw [FlowParser.frameWidth, fetchAs_congr _ h, ← castSize_int32]
  rfl

theorem frameHeight_flowDef
    (h : ∀ name, parsed.lookup name = (videoFlowDef caps id pid).fields.lookup name) :
    FlowParser.frameHeight parsed = .ok (UInt64.ofInt caps.frameHeight.toInt) := by
  rw [FlowParser.frameHeight, fetchAs_congr _ h, ← castSize_int32]
  rfl

theorem interlaceMode_flowDef
    (h : ∀ name, parsed.lookup name = (videoFlowDef caps id pid).fields.lookup name) :
    FlowParser.interlaceMode parsed = .ok caps.mode.asStr := by
  rw [FlowParser.interlaceMode, fetchAs_congr _ h, h]
  rfl

theorem mediaType_flowDef
    (h : ∀ name, parsed.lookup name = (videoFlowDef caps id pid).fields.lookup name) :
    fetchAs JsonValue.getString parsed "media_type" =
      .ok ("video/" ++ caps.format.getD "v210") := by
  rw [fetchAs_congr _ h]
  rfl

theorem sized_iff : caps.Sized ↔
    ¬ (UInt64.ofInt caps.frameWidth.toInt < 2 ∨ UInt64.ofInt caps.frameWidth.toInt > MAX_WIDTH ∨
      UInt64.ofInt caps.frameHeight.toInt < 1 ∨
        UInt64.ofInt caps.frameHeight.toInt > MAX_HEIGHT) := by
  have hwidth := toNat_side caps.frameWidth
  have hheight := toNat_side caps.frameHeight
  simp only [VideoCaps.Sized, MAX_WIDTH, MAX_HEIGHT, gt_iff_lt, UInt64.lt_iff_toNat_lt,
    UInt64.reduceToNat]
  omega

theorem toInt_mul_of_bounds {a b : Int64} (hmin : -2 ^ 63 ≤ a.toInt * b.toInt)
    (hmax : a.toInt * b.toInt < 2 ^ 63) : (a * b).toInt = a.toInt * b.toInt := by
  rw [Int64.toInt_mul]
  exact Int.bmod_eq_of_le (by omega) (by omega)

/-- Neither product of a comparison with one of the two rates leaves 64 bits. -/
theorem differs_ntsc (f : Fraction) :
    (⟨f.numer.toInt64, f.denom.toInt64⟩ : MxlRational).differs ⟨30000, 1001⟩ = false ↔
      f.Is 30000 1001 := by
  have hnumer := int32_bounds f.numer
  have hdenom := int32_bounds f.denom
  have h1001 : (1001 : Int64).toInt = 1001 := rfl
  have h30000 : (30000 : Int64).toInt = 30000 := rfl
  have hleft : (f.numer.toInt64 * 1001).toInt = f.numer.toInt * 1001 := by
    rw [toInt_mul_of_bounds, Int32.toInt_toInt64, h1001]
    all_goals rw [Int32.toInt_toInt64, h1001]; omega
  have hright : (f.denom.toInt64 * 30000).toInt = f.denom.toInt * 30000 := by
    rw [toInt_mul_of_bounds, Int32.toInt_toInt64, h30000]
    all_goals rw [Int32.toInt_toInt64, h30000]; omega
  rw [MxlRational.differs, bne_eq_false_iff_eq, ← Int64.toInt_inj, hleft, hright, Fraction.Is,
    Int.mul_comm 30000]

theorem differs_pal (f : Fraction) :
    (⟨f.numer.toInt64, f.denom.toInt64⟩ : MxlRational).differs ⟨25, 1⟩ = false ↔ f.Is 25 1 := by
  have hdenom := int32_bounds f.denom
  have h25 : (25 : Int64).toInt = 25 := rfl
  have hright : (f.denom.toInt64 * 25).toInt = f.denom.toInt * 25 := by
    rw [toInt_mul_of_bounds, Int32.toInt_toInt64, h25]
    all_goals rw [Int32.toInt_toInt64, h25]; omega
  rw [MxlRational.differs, bne_eq_false_iff_eq, Int64.mul_one, ← Int64.toInt_inj, hright,
    Int32.toInt_toInt64, Fraction.Is, Int.mul_one, Int.mul_comm 25]

theorem asStr_of_interlaced {mode : InterlaceMode} (h : mode ≠ .progressive) :
    mode.asStr ≠ "progressive" ∧
      (mode.asStr = "interlaced_tff" ∨ mode.asStr = "interlaced_bff") := by
  cases mode with
  | progressive => exact absurd rfl h
  | interlacedTff => exact ⟨by decide, Or.inl rfl⟩
  | interlacedBff => exact ⟨by decide, Or.inr rfl⟩

theorem checkVideo_ok_iff
    (h : ∀ name, parsed.lookup name = (videoFlowDef caps id pid).fields.lookup name)
    {result : Bool × MxlRational} :
    FlowParser.checkVideo parsed ⟨caps.rate.numer.toInt64, caps.rate.denom.toInt64⟩ = .ok result ↔
      caps.Sized ∧ (caps.mode = .progressive ∨ caps.rate.Is 30000 1001 ∨ caps.rate.Is 25 1) ∧
        result = (decide (caps.mode ≠ .progressive), (SinkCaps.video caps).flowRate) := by
  rw [FlowParser.checkVideo, frameWidth_flowDef h, frameHeight_flowDef h]
  change (if _ then _ else _) = _ ↔ _
  by_cases hsized : caps.Sized
  · rw [if_neg (sized_iff.mp hsized), interlaceMode_flowDef h]
    change (if caps.mode.asStr = "progressive" then _ else _) = _ ↔ _
    have hrates : (⟨caps.rate.numer.toInt64, caps.rate.denom.toInt64⟩ : MxlRational).differs
        ⟨30000, 1001⟩ = true ∧ (⟨caps.rate.numer.toInt64, caps.rate.denom.toInt64⟩ :
          MxlRational).differs ⟨25, 1⟩ = true ↔
        ¬ (caps.rate.Is 30000 1001 ∨ caps.rate.Is 25 1) := by
      rw [← differs_ntsc, ← differs_pal, not_or, Bool.not_eq_false, Bool.not_eq_false]
    by_cases hmode : caps.mode = .progressive
    · have hprogressive : caps.mode.asStr = "progressive" := by rw [hmode, InterlaceMode.asStr]
      rw [if_pos hprogressive, Except.ok.injEq]
      simp only [SinkCaps.flowRate, hmode, hsized, if_true, true_and, true_or, ne_eq, not_true,
        decide_false]
      exact eq_comm
    · obtain ⟨hnot, hinterlaced⟩ := asStr_of_interlaced hmode
      rw [if_neg hnot, if_pos hinterlaced]
      by_cases hrate : caps.rate.Is 30000 1001 ∨ caps.rate.Is 25 1
      · rw [if_neg (mt hrates.mp (not_not.mpr hrate)), Except.ok.injEq]
        simp only [SinkCaps.flowRate, hmode, hsized, hrate, if_false, true_and, or_true, ne_eq,
          not_false_eq_true, decide_true]
        exact eq_comm
      · rw [if_pos (hrates.mpr hrate)]
        simp [hmode, hrate]
  · rw [if_pos (not_not.mp (mt sized_iff.mpr hsized))]
    simp [hsized]

end Video

section Request

variable {parsed : JsonObject} {isUuid : String → Bool} {id : String} {pid : Nat}

/-- The parser that reads what the sink wrote, if any does. -/
def SinkCaps.parser (caps : SinkCaps) (parsed : JsonObject) : FlowParser where
  format := caps.format
  interlaced :=
    match caps with
    | .video caps => decide (caps.mode ≠ .progressive)
    | _ => false
  grainRate := caps.flowRate
  root := parsed

/-- What is parsed, whether or not a flow can be made of it. -/
def SinkCaps.Parseable : SinkCaps → Prop
  | .video caps => caps.Sized ∧
      (caps.mode = .progressive ∨ caps.rate.Is 30000 1001 ∨ caps.rate.Is 25 1)
  | _ => True

theorem parse_ok_iff {caps : SinkCaps} {parser : FlowParser}
    (h : ∀ name, parsed.lookup name = (caps.flowDef id pid).fields.lookup name) :
    FlowParser.parse isUuid parsed = .ok parser ↔
      isUuid id = true ∧ caps.Parseable ∧ parser = caps.parser parsed := by
  rw [parse_flowDef h]
  by_cases huuid : isUuid id = true
  · rw [if_pos huuid]
    cases caps with
    | video caps =>
      have hformat : (SinkCaps.video caps).format = .video := rfl
      rw [if_pos hformat, bind_eq_ok]
      constructor
      · rintro ⟨result, hchecked, hparser⟩
        obtain ⟨hsized, hrate, rfl⟩ := (checkVideo_ok_iff h).mp hchecked
        exact ⟨huuid, ⟨hsized, hrate⟩, (Except.ok.inj hparser).symm⟩
      · rintro ⟨-, ⟨hsized, hrate⟩, rfl⟩
        exact ⟨_, (checkVideo_ok_iff h).mpr ⟨hsized, hrate, rfl⟩, rfl⟩
    | audio info =>
      have hformat : (SinkCaps.audio info).format ≠ .video := MxlDataFormat.noConfusion
      rw [if_neg hformat, Except.ok.injEq]
      simp only [huuid, SinkCaps.Parseable, true_and]
      exact eq_comm
    | data framerate =>
      have hformat : (SinkCaps.data framerate).format ≠ .video := MxlDataFormat.noConfusion
      rw [if_neg hformat, Except.ok.injEq]
      simp only [huuid, SinkCaps.Parseable, true_and]
      exact eq_comm
  · rw [if_neg huuid]
    simp [huuid]

theorem even_height {x : Int32} (h : 0 ≤ x.toInt) :
    UInt64.ofInt x.toInt % 2 = 0 ↔ 2 ∣ x.toInt := by
  have hside : ((UInt64.ofInt x.toInt).toNat : ℤ) = x.toInt := by
    rcases toNat_side x with ⟨-, hside⟩ | ⟨hneg, -⟩
    · exact hside
    · omega
  rw [← UInt64.toNat_inj, UInt64.toNat_mod]
  simp only [UInt64.reduceToNat]
  omega

/-- The three values the library asks a parser of video for. -/
theorem sizes_video_iff {caps : VideoCaps} (hsized : caps.Sized)
    (h : ∀ name, parsed.lookup name = (videoFlowDef caps id pid).fields.lookup name) :
    (∃ totalSlices payloadSize sliceLengths,
      ((SinkCaps.video caps).parser parsed).getTotalPayloadSlices = .ok totalSlices ∧
      ((SinkCaps.video caps).parser parsed).getPayloadSize = .ok payloadSize ∧
      ((SinkCaps.video caps).parser parsed).getPayloadSliceLengths = .ok sliceLengths) ↔
      (caps.format.getD "v210" = "v210" ∨ caps.format.getD "v210" = "v210a") ∧
        (caps.mode = .progressive ∨ 2 ∣ caps.frameHeight.toInt) := by
  have hmedia : ∀ s, "video/" ++ caps.format.getD "v210" = "video/" ++ s ↔
      caps.format.getD "v210" = s := fun s => String.append_right_inj _
  have hv210 : "video/" ++ caps.format.getD "v210" = "video/v210" ↔ _ := hmedia "v210"
  have hv210a : "video/" ++ caps.format.getD "v210" = "video/v210a" ↔ _ := hmedia "v210a"
  have hheight : 0 ≤ caps.frameHeight.toInt := Int.le_trans Int.one_nonneg hsized.2.2.1
  have heven := even_height hheight
  simp only [FlowParser.getTotalPayloadSlices, FlowParser.getPayloadSize,
    FlowParser.getPayloadSliceLengths, SinkCaps.parser, SinkCaps.format, mediaType_flowDef h,
    frameWidth_flowDef h, frameHeight_flowDef h, hv210, hv210a, heven, bind, Except.bind,
    Bool.not_eq_true', decide_eq_false_iff_not, not_not, ne_eq, ← not_or]
  by_cases hfirst : caps.format.getD "v210" = "v210"
  · by_cases hlines : caps.mode = .progressive ∨ 2 ∣ caps.frameHeight.toInt
    · simp [hfirst, hlines]
      exact ⟨#v[_, _, _, _], rfl⟩
    · simp [hfirst, hlines]
  · by_cases hsecond : caps.format.getD "v210" = "v210a"
    · by_cases hlines : caps.mode = .progressive ∨ 2 ∣ caps.frameHeight.toInt
      · simp [hsecond, hlines]
        exact ⟨#v[_, _, _, _], rfl⟩
      · simp [hsecond, hlines]
    · simp [hfirst, hsecond]

/-- A billion times a positive number of 32 bits has room in 64. -/
theorem denominator_ne_zero (f : Fraction) : 1000000000 * f.denom.toInt64.toUInt64 ≠ 0 := by
  intro hzero
  have hpositive := f.positive
  have hbounds := int32_bounds f.denom
  have hproduct := MachineArithmetic.Computation.toNat_mul_toUInt64 1000000000 f.denom.toInt64
  have hbillion : (((1000000000 : UInt64).toNat : ℕ) : ℤ) = 1000000000 := rfl
  rw [hzero, Int32.toInt_toInt64, hbillion, Int.emod_eq_of_lt (by omega) (by omega),
    UInt64.toNat_zero] at hproduct
  omega

theorem getChannelCount_audio {info : AudioInfo}
    (h : ∀ name, parsed.lookup name = (audioFlowDef info id pid).fields.lookup name) :
    (∃ channelCount, (FlowSizing.getChannelCount parsed).result = .ok channelCount) ↔
      0 < info.channels.toInt32.toInt := by
  have hlookup : parsed.lookup "channel_count" = some (int32ToJson info.channels.toInt32) := by
    rw [h]
    rfl
  simp only [FlowSizing.getChannelCount, hlookup, int32ToJson, Rat.den_intCast, Rat.intCast_pos,
    true_and]
  by_cases hpositive : 0 < info.channels.toInt32.toInt
  · rw [if_pos hpositive]
    exact iff_of_true ⟨_, rfl⟩ hpositive
  · rw [if_neg hpositive]
    simp [hpositive]

theorem getPayloadSize_audio {info : AudioInfo}
    (h : ∀ name, parsed.lookup name = (audioFlowDef info id pid).fields.lookup name) :
    (∃ wordSize, ((SinkCaps.audio info).parser parsed).getPayloadSize = .ok wordSize) ↔
      info.depth.toUInt8 = 32 ∨ info.depth.toUInt8 = 64 := by
  have hdepth : fetchAs JsonValue.getNumber parsed "bit_depth" =
      .ok (info.depth.toUInt8.toNat : ℚ) := by
    rw [fetchAs_congr _ h]
    rfl
  have hequal : ∀ n : UInt8, (info.depth.toUInt8.toNat : ℚ) = (n.toNat : ℚ) ↔
      info.depth.toUInt8 = n := by
    intro n
    rw [Nat.cast_inj, UInt8.toNat_inj]
  have h32 : (info.depth.toUInt8.toNat : ℚ) = 32 ↔ info.depth.toUInt8 = 32 := hequal 32
  have h64 : (info.depth.toUInt8.toNat : ℚ) = 64 ↔ info.depth.toUInt8 = 64 := hequal 64
  simp only [FlowParser.getPayloadSize, SinkCaps.parser, SinkCaps.format, hdepth, bind, Except.bind,
    ne_eq, h32, h64, ← not_or]
  by_cases hword : info.depth.toUInt8 = 32 ∨ info.depth.toUInt8 = 64
  · simp [hword]
  · simp [hword]

end Request

/-! ### From the sink to the source -/

/-- What the library makes of a definition for which there is no flow yet; the sink has no
    options. -/
def flowRequest (isUuid : String → Bool) (parse : String → Except String JsonValue)
    (historyDuration : UInt64) (text : String) : Computation String Request := do
  match ← ofExcept (parse text) with
  | .object root => do
      let parser ← FlowSizing.parse isUuid root
      FlowSizing.createOrOpenFlowData historyDuration text parser {}
  | _ => Computation.throw "Expected a JSON Object"

/-- The rate of the grains or samples that are asked for. -/
def requestedRate : Request → MxlRational
  | .discrete r => r.grainRate
  | .continuous r => r.sampleRate

section Creation

variable {parsed : JsonObject} {isUuid : String → Bool} {id : String} {pid : Nat}
  {historyDuration : UInt64} {text : String} {parser : FlowParser} {request : Request}

/-- A discrete flow is made if the parser can be asked for its three sizes. -/
theorem discrete_flowData_ok_iff (hformat : mxlIsDiscreteDataFormat parser.format = true)
    (hunit : 1000000000 * parser.grainRate.denominator.toUInt64 ≠ 0) :
    (∃ request, (FlowSizing.createOrOpenFlowData historyDuration text parser {}).result =
      .ok request) ↔
      ∃ totalSlices payloadSize sliceLengths, parser.getTotalPayloadSlices = .ok totalSlices ∧
        parser.getPayloadSize = .ok payloadSize ∧
        parser.getPayloadSliceLengths = .ok sliceLengths := by
  simp only [FlowSizing.createOrOpenFlowData, if_pos hformat, result_bind_eq_ok, result_pure,
    Except.ok.injEq, FlowSizing.discreteFlowData_eq_ok]
  constructor
  · rintro ⟨_, _, ⟨-, totalSlices, payloadSize, sliceLengths, htotal, hsize, hlengths, -⟩, -⟩
    exact ⟨totalSlices, payloadSize, sliceLengths, htotal, hsize, hlengths⟩
  · rintro ⟨totalSlices, payloadSize, sliceLengths, htotal, hsize, hlengths⟩
    exact ⟨_, _, ⟨hunit, totalSlices, payloadSize, sliceLengths, htotal, hsize, hlengths, rfl⟩, rfl⟩

theorem parseable_of_acceptable {caps : SinkCaps} (h : caps.Acceptable) : caps.Parseable := by
  cases caps with
  | video caps =>
    obtain ⟨hsized, hmode, -⟩ := h
    exact ⟨hsized, hmode.imp_right And.left⟩
  | audio info => exact trivial
  | data framerate => exact trivial

theorem parserFormat_cases (caps : SinkCaps) (parsed : JsonObject) :
    mxlIsDiscreteDataFormat (caps.parser parsed).format = true ∨
      (caps.parser parsed).format = .audio := by
  cases caps with
  | video caps => exact Or.inl rfl
  | audio info => exact Or.inr rfl
  | data framerate => exact Or.inl rfl

/-- Of what the parser lets through, a flow is made under these conditions. -/
theorem flowData_ok_iff {caps : SinkCaps} (hparseable : caps.Parseable)
    (h : ∀ name, parsed.lookup name = (caps.flowDef id pid).fields.lookup name) :
    (∃ request, (FlowSizing.createOrOpenFlowData historyDuration text (caps.parser parsed)
      {}).result = .ok request) ↔ caps.Acceptable := by
  cases caps with
  | video caps =>
    obtain ⟨hsized, hrate⟩ := hparseable
    have hdiscrete : mxlIsDiscreteDataFormat ((SinkCaps.video caps).parser parsed).format = true :=
      rfl
    rw [discrete_flowData_ok_iff hdiscrete (denominator_ne_zero caps.rate),
      sizes_video_iff hsized h]
    simp only [SinkCaps.Acceptable, VideoCaps.Acceptable]
    constructor
    · rintro ⟨hmedia, hlines⟩
      refine ⟨hsized, ?_, hmedia⟩
      rcases hlines with hmode | heven
      · exact Or.inl hmode
      · exact hrate.imp_right fun hrate => ⟨hrate, heven⟩
    · rintro ⟨-, hlines, hmedia⟩
      exact ⟨hmedia, hlines.imp_right fun hlines => hlines.2⟩
  | audio info =>
    have haudio : ((SinkCaps.audio info).parser parsed).format = .audio := rfl
    have hdiscrete : ¬ mxlIsDiscreteDataFormat ((SinkCaps.audio info).parser parsed).format =
        true := Bool.false_ne_true
    have hcontinuous : mxlIsContinuousDataFormat ((SinkCaps.audio info).parser parsed).format =
        true := rfl
    have hunit : 500000000 * (1 : Int64).toUInt64 ≠ 0 := by decide
    simp only [FlowSizing.createOrOpenFlowData, if_neg hdiscrete, if_pos hcontinuous,
      result_bind_eq_ok, result_pure, Except.ok.injEq,
      FlowSizing.continuousFlowData_eq_ok haudio]
    rw [SinkCaps.Acceptable, ← getPayloadSize_audio h, ← getChannelCount_audio h]
    constructor
    · rintro ⟨_, _, ⟨-, word, count, hword, hcount, -⟩, -⟩
      exact ⟨⟨word, hword⟩, ⟨count, hcount⟩⟩
    · rintro ⟨⟨word, hword⟩, ⟨count, hcount⟩⟩
      exact ⟨_, _, ⟨hunit, word, count, hword, hcount, rfl⟩, rfl⟩
  | data framerate =>
    have hdiscrete : mxlIsDiscreteDataFormat ((SinkCaps.data framerate).parser parsed).format =
        true := rfl
    have hmedia : fetchAs JsonValue.getString parsed "media_type" = .ok "video/smpte291" := by
      rw [fetchAs_congr _ h]
      rfl
    have hsize : ((SinkCaps.data framerate).parser parsed).getPayloadSize =
        .ok MXL_DATA_FORMAT_GRAIN_SIZE := by
      simp only [FlowParser.getPayloadSize, SinkCaps.parser, SinkCaps.format, hmedia, bind,
        Except.bind, if_true]
    rw [discrete_flowData_ok_iff hdiscrete (denominator_ne_zero _)]
    exact iff_of_true ⟨_, _, _, rfl, hsize, rfl⟩ trivial

/-- What is asked for has the rate of the parser, and is to keep the text. -/
theorem of_flowData_eq_ok
    (h : (FlowSizing.createOrOpenFlowData historyDuration text parser {}).result = .ok request)
    (hformat : mxlIsDiscreteDataFormat parser.format = true ∨ parser.format = .audio) :
    requestedRate request = parser.grainRate ∧ ∀ inode now directory,
      (FlowSizing.createFlow inode now request).result = .ok directory →
        directory.flowDef = some text := by
  rcases hformat with hdiscrete | haudio
  · rw [FlowSizing.createOrOpenFlowData, if_pos hdiscrete, result_bind_eq_ok] at h
    obtain ⟨r, hr, hrequest⟩ := h
    obtain ⟨-, _, _, _, -, -, -, rfl⟩ := FlowSizing.discreteFlowData_eq_ok.mp hr
    rw [result_pure, Except.ok.injEq] at hrequest
    subst hrequest
    refine ⟨rfl, fun inode now directory hdirectory => ?_⟩
    exact (FlowSizing.built_of_createFlow hdirectory).files.1
  · have hdiscrete : ¬ mxlIsDiscreteDataFormat parser.format = true := by
      rw [haudio]
      exact Bool.false_ne_true
    have hcontinuous : mxlIsContinuousDataFormat parser.format = true := by
      rw [haudio]
      rfl
    rw [FlowSizing.createOrOpenFlowData, if_neg hdiscrete, if_pos hcontinuous,
      result_bind_eq_ok] at h
    obtain ⟨r, hr, hrequest⟩ := h
    obtain ⟨-, _, _, -, -, rfl⟩ := (FlowSizing.continuousFlowData_eq_ok haudio).mp hr
    rw [result_pure, Except.ok.injEq] at hrequest
    subst hrequest
    refine ⟨rfl, fun inode now directory hdirectory => ?_⟩
    exact (FlowSizing.built_of_createFlow hdirectory).files

theorem flowRequest_eq_ok {parse : String → Except String JsonValue}
    (hparse : parse text = .ok (.object parsed)) :
    (flowRequest isUuid parse historyDuration text).result = .ok request ↔
      ∃ parser, FlowParser.parse isUuid parsed = .ok parser ∧
        (FlowSizing.createOrOpenFlowData historyDuration text parser {}).result = .ok request := by
  simp only [flowRequest, hparse, result_bind_eq_ok, Computation.result_ofExcept_eq_ok,
    Except.ok.injEq, exists_eq_left', FlowSizing.parse_eq_ok]

end Creation

theorem fromUTF8?_toList (text : String) :
    String.fromUTF8? ⟨text.toUTF8.data.toList.toArray⟩ = some text := by
  rw [String.fromUTF8?]
  exact dif_pos text.isValidUTF8

/-- The source reads the text that the file has. -/
theorem negotiate_of_parsed (toLowercase : String → String)
    {bindings : String → Except String JsonValue} {text : String} {caps : SinkCaps} {id : String}
    {pid : Nat} (hbindings : ParsedAs bindings text (caps.flowDef id pid).fields)
    (hplain : ∀ b ∈ text.toUTF8.data.toList, b ≠ 0) :
    negotiate toLowercase bindings (.text text.toUTF8.data.toList)
      (.text text.toUTF8.data.toList) = .ok (caps.announced toLowercase) := by
  obtain ⟨parsed, hparsed, hfields⟩ := hbindings
  have hread : DefinitionText.getFlowDef true (.text text.toUTF8.data.toList)
      (.text text.toUTF8.data.toList) = .ok text := by
    refine DefinitionText.getFlowDef_ok_iff.mpr ⟨text.toUTF8.data.toList, ?_, ?_⟩
    · by_cases hroom : text.toUTF8.data.toList.length < DefinitionText.INITIAL_BUFFER_SIZE
      · exact Or.inl ⟨rfl, hroom⟩
      · exact Or.inr ⟨_, rfl, Nat.le_of_not_lt hroom, rfl, le_rfl⟩
    · rw [DefinitionText.copied_of_plain hplain, fromUTF8?_toList]
  have hdetails := getFlowDef_fields hfields (tagged_flowDef caps id pid)
  have hcaps := setJsonCaps_flowDef toLowercase caps id pid
  simp only [negotiate, hread, hparsed, hdetails, bind, Except.bind, hcaps]

/-- Caps of interlaced video. -/
def interlacedCaps : SinkCaps :=
  .video
    { format := some "v210", width := some 1920, height := some 1080
      framerate := Fraction.new 25 1, interlaceMode := some "interlaced_tff", colorimetry := none }

/-- What the sink writes for them. -/
def interlacedText : String :=
  "\x7b\"id\":\"5fbec3b1-1b0f-417d-9059-8b94a47197ed\"," ++
  "\"description\":\"MXL Test Flow, 1080p25\"," ++
  "\"tags\":\x7b\"urn:x-nmos:tag:grouphint/v1.0\":[\"Media Function 42:Video\"]\x7d," ++
  "\"format\":\"urn:x-nmos:format:video\",\"label\":\"MXL Test Flow, 1080p25\",\"parents\":[]," ++
  "\"media_type\":\"video/v210\",\"format\":\"urn:x-nmos:format:video\"," ++
  "\"grain_rate\":\x7b\"numerator\":25,\"denominator\":1\x7d,\"frame_width\":1920," ++
  "\"frame_height\":1080,\"interlace_mode\":\"interlaced_tff\",\"colorspace\":\"BT709\"," ++
  "\"components\":[\x7b\"name\":\"Y\",\"width\":1920,\"height\":1080,\"bit_depth\":10\x7d," ++
  "\x7b\"name\":\"Cb\",\"width\":960,\"height\":1080,\"bit_depth\":10\x7d," ++
  "\x7b\"name\":\"Cr\",\"width\":960,\"height\":1080,\"bit_depth\":10\x7d]\x7d"

/-- A parser that knows it. -/
def parseInterlaced (text : String) : Except String JsonValue :=
  if text = interlacedText then
    .ok (.object (interlacedCaps.flowDef "5fbec3b1-1b0f-417d-9059-8b94a47197ed" 42).fields)
  else .error "syntax error"

end MediaExchange.SinkDefinitions
