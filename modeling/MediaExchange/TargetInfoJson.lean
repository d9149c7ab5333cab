/-
  MediaExchange/TargetInfoJson.lean
  =================================
  **What an initiator is told about a target** (`TargetInfo.cpp`, `Address.cpp`,
  `RemoteRegion.hpp`).

  A target's endpoint, memory regions and bounce buffer travel to the initiator as a
  JSON document.  Numbers are written as decimal strings, so that no 64-bit address
  or key goes through a floating-point number; the fabric address is a base64 string,
  and the bounce buffer is left out when there is none.

  The JSON library and the base64 codec are parameters: of the one it is used that a
  document that was serialized is parsed as what it was (`JsonLibrary.Reproduces`), of
  the other that an address comes back (`Base64Codec.RoundTrips`).

  Main result: `fromJSON_toJSON`.
-/
import Mathlib.Data.List.TakeWhile
import MediaExchange.FlowParser
import MediaExchange.LayoutMismatch

namespace MediaExchange.TargetInfoJson

/-! ### Objects and numbers -/

/-- `object[field] = value` of an object whose fields are kept in their order. -/
def assign (field : String) (value : JsonValue) : JsonObject → JsonObject
  | [] => [(field, value)]
  | (name, old) :: fields =>
      if field = name then (field, value) :: fields
      else if field < name then (field, value) :: (name, old) :: fields
      else (name, old) :: assign field value fields

/-- The exceptions that come out of `TargetInfo::fromJSON`: those of the library, and
    those of the standard library by their `what()`. -/
inductive FromJsonException where
  | fabrics (exception : FabricsException)
  | outOfRange (what : String)
  | invalidArgument (what : String)
  | runtimeError (what : String)
deriving DecidableEq, Repr

/-- `object.at(field).get<T>()`. -/
def fieldAt {α : Type} (get : JsonValue → Option α) (object : JsonObject) (field : String) :
    Except FromJsonException α :=
  match object.lookup field with
  | none => .error (.outOfRange "map::at")
  | some value =>
      match get value with
      | none => .error (.runtimeError "type mismatch! call is<type>() before get<type>()")
      | some result => .ok result

/-- `std::to_string`. -/
def stdToString (value : UInt64) : String := value.toNat.repr

def isSpace (c : Char) : Bool :=
  c == ' ' || c == '\t' || c == '\n' || c == '\x0b' || c == '\x0c' || c == '\x0d'

/-- The sign that `strtoull` takes, and what is behind it. -/
def splitSign : List Char → Bool × List Char
  | '-' :: rest => (true, rest)
  | '+' :: rest => (false, rest)
  | rest => (false, rest)

/-- `std::stoull` in base ten: white space, a sign and digits; what is behind them is
    not looked at, and a minus sign negates in 64 bits. -/
def stoull (text : String) : Except FromJsonException UInt64 :=
  let (negative, rest) := splitSign (text.toList.dropWhile isSpace)
  let digits := rest.takeWhile Char.isDigit
  if digits = [] then .error (.invalidArgument "stoull")
  else
    let value := Nat.ofDigitChars 10 digits 0
    if 2 ^ 64 ≤ value then .error (.outOfRange "stoull")
    else .ok (if negative then 0 - UInt64.ofNat value else UInt64.ofNat value)

/-- `std::stoull(object.at(field).get<std::string>())`. -/
def stoullAt (object : JsonObject) (field : String) : Except FromJsonException UInt64 := do
  stoull (← fieldAt JsonValue.getString object field)

/-! ### The target's information -/

/-- What there is to a `TargetInfo` besides the memory of the target; the fabric
    address is the bytes of a `FabricAddress`. -/
structure TargetInfo extends MediaExchange.TargetInfo where
  id : UInt64
  fabricAddress : List UInt8

/-- What is used of the JSON library. -/
structure JsonLibrary where
  serialize : JsonValue → String
  parse : String → Except String JsonValue

/-- A document is parsed as what was serialized. -/
def JsonLibrary.Reproduces (json : JsonLibrary) (value : JsonValue) : Prop :=
  json.parse (json.serialize value) = .ok value

/-- What is used of `Base64.hpp`; `decode` throws `std::runtime_error`. -/
structure Base64Codec where
  encode : List UInt8 → String
  decode : String → Except String (List UInt8)

def Base64Codec.RoundTrips (base64 : Base64Codec) (bytes : List UInt8) : Prop :=
  base64.decode (base64.encode bytes) = .ok bytes

namespace TargetInfo

/-- `operator==`, which leaves the bounce buffer out. -/
def equals (info other : TargetInfo) : Bool :=
  info.fabricAddress == other.fabricAddress && info.remoteRegions == other.remoteRegions &&
    info.id == other.id

/-! ### To JSON -/

def regionToJson (remoteRegion : RemoteRegion) : JsonValue :=
  let region := assign "addr" (.string (stdToString remoteRegion.addr)) []
  let region := assign "len" (.string (stdToString remoteRegion.len)) region
  let region := assign "rkey" (.string (stdToString remoteRegion.rkey)) region
  .object region

def bounceBufferInfoToJson (info : TargetInfoBounceBufferInfo) : JsonValue :=
  let bounceBufferInfoObj := assign "entryCount" (.string (stdToString info.entryCount)) []
  let bounceBufferInfoObj :=
    assign "entrySize" (.string (stdToString info.entrySize)) bounceBufferInfoObj
  .object bounceBufferInfoObj

/-- The document that is serialized. -/
def document (base64 : Base64Codec) (info : TargetInfo) : JsonValue :=
  let root := assign "fabricAddress" (.string (base64.encode info.fabricAddress)) []
  let root := assign "regions" (.array (info.remoteRegions.map regionToJson)) root
  let root :=
    match info.bounceBufferInfo with
    | some bounceBufferInfo =>
        assign "bounceBufferInfo" (bounceBufferInfoToJson bounceBufferInfo) root
    | none => root
  let root := assign "id" (.string (stdToString info.id)) root
  .object root

def toJSON (json : JsonLibrary) (base64 : Base64Codec) (info : TargetInfo) : String :=
  json.serialize (info.document base64)

/-! ### From JSON -/

/-- `FabricAddress::fromBase64`. -/
def fabricAddressFromBase64 (base64 : Base64Codec) (data : String) :
    Except FromJsonException (List UInt8) :=
  match base64.decode data with
  | .error what => .error (.runtimeError what)
  | .ok decoded =>
      if decoded = [] then
        .error (.runtimeError "Failed to decode base64 data into FabricAddress.")
      else .ok decoded

/-- `value.get<picojson::object>()`. -/
def getObject (value : JsonValue) : Except FromJsonException JsonObject :=
  match value.getObject with
  | none => .error (.runtimeError "type mismatch! call is<type>() before get<type>()")
  | some object => .ok object

def regionFromJson (regionValue : JsonValue) : Except FromJsonException RemoteRegion := do
  let regionObj ← getObject regionValue
  let addr ← stoullAt regionObj "addr"
  let len ← stoullAt regionObj "len"
  let rkey ← stoullAt regionObj "rkey"
  .ok { addr, len, rkey }

def bounceBufferInfoFromJson (root : JsonObject) :
    Except FromJsonException (Option TargetInfoBounceBufferInfo) :=
  if (root.lookup "bounceBufferInfo").isSome then do
    let bounceBufferInfoObj ← fieldAt JsonValue.getObject root "bounceBufferInfo"
    let entryCount ← stoullAt bounceBufferInfoObj "entryCount"
    let entrySize ← stoullAt bounceBufferInfoObj "entrySize"
    .ok (some { entryCount, entrySize })
  else .ok none

/-- `fromJSON`, from the parsed document on. -/
def fromDocument (base64 : Base64Codec) (parsed : JsonValue) : Except FromJsonException TargetInfo :=
  match parsed.getObject with
  | none => .error (.fabrics (.invalidArgument "Expected a JSON object"))
  | some root => do
      let fabricAddress ← fabricAddressFromBase64 base64 (← fieldAt JsonValue.getString root "fabricAddress")
      let remoteRegions ← (← fieldAt JsonValue.getArray root "regions").mapM regionFromJson
      let bounceBufferInfo ← bounceBufferInfoFromJson root
      let id ← stoullAt root "id"
      .ok { remoteRegions, bounceBufferInfo, id, fabricAddress }

def fromJSON (json : JsonLibrary) (base64 : Base64Codec) (s : String) :
    Except FromJsonException TargetInfo :=
  match json.parse s with
  | .error err => .error (.fabrics (.invalidArgument ("Failure when parsing JSON: " ++ err ++ " ")))
  | .ok parsed => fromDocument base64 parsed

end TargetInfo

/-! ### Numbers -/

/-- Digits are neither white space nor a sign. -/
theorem skip_digits {digits : List Char} (h : ∀ c ∈ digits, c.isDigit = true) :
    splitSign (digits.dropWhile isSpace) = (false, digits) := by
  cases digits with
  | nil => rfl
  | cons c rest =>
    have hdigit := h c List.mem_cons_self
    have hspace : isSpace c = false := by
      simp only [isSpace, Bool.or_eq_false_iff, beq_eq_false_iff_ne]
      refine ⟨⟨⟨⟨⟨?_, ?_⟩, ?_⟩, ?_⟩, ?_⟩, ?_⟩ <;> rintro rfl <;> exact absurd hdigit (by decide)
    rw [List.dropWhile_cons, hspace, if_neg Bool.false_ne_true]
    unfold splitSign
    split
    · next heq =>
      obtain ⟨rfl, -⟩ := List.cons.inj heq
      exact absurd hdigit (by decide)
    · next heq =>
      obtain ⟨rfl, -⟩ := List.cons.inj heq
      exact absurd hdigit (by decide)
    · rfl

/-- A number that was written is read. -/
theorem stoull_stdToString (value : UInt64) : stoull (stdToString value) = .ok value := by
  have hdigits : ∀ c ∈ Nat.toDigits 10 value.toNat, c.isDigit = true :=
    fun c hc => Nat.isDigit_of_mem_toDigits (by decide) (by decide) hc
  have hall : (Nat.toDigits 10 value.toNat).takeWhile Char.isDigit =
      Nat.toDigits 10 value.toNat := List.takeWhile_eq_self_iff.mpr hdigits
  rw [stoull, stdToString, Nat.toList_repr, skip_digits hdigits]
  simp only [hall, if_neg Nat.toDigits_ne_nil, Nat.ofDigitChars_ten_toDigits,
    if_neg (Nat.not_le.mpr value.toNat_lt), if_neg Bool.false_ne_true, UInt64.ofNat_toNat]

/-! ### Fields -/

theorem lookup_assign (object : JsonObject) (field name : String) (value : JsonValue) :
    (assign field value object).lookup name =
      if name = field then some value else object.lookup name := by
  induction object with
  | nil =>
    by_cases h : name = field
    · rw [assign, if_pos h, h, List.lookup_cons_self]
    · rw [assign, if_neg h, List.lookup_cons, beq_false_of_ne h]
  | cons head fields ih =>
    obtain ⟨other, old⟩ := head
    rw [assign]
    by_cases h : name = field
    · subst h
      rw [if_pos rfl]
      split
      · rw [List.lookup_cons_self]
      · next hother =>
        split
        · rw [List.lookup_cons_self]
        · rw [List.lookup_cons, beq_false_of_ne hother, ih, if_pos rfl]
    · rw [if_neg h] at ih ⊢
      split
      · next hother =>
        rw [List.lookup_cons, beq_false_of_ne h, List.lookup_cons, ← hother, beq_false_of_ne h]
      · split
        · rw [List.lookup_cons, beq_false_of_ne h]
        · rw [List.lookup_cons, List.lookup_cons, ih]

/-- A field that was assigned is found. -/
theorem fieldAt_eq_ok {α : Type} {get : JsonValue → Option α} {object : JsonObject}
    {field : String} {value : JsonValue} {result : α} (hfield : object.lookup field = some value)
    (hget : get value = some result) : fieldAt get object field = .ok result := by
  rw [fieldAt, hfield]
  dsimp only
  rw [hget]

/-- A number that was assigned is found and read. -/
theorem stoullAt_eq_ok {object : JsonObject} {field : String} {number : UInt64}
    (hfield : object.lookup field = some (.string (stdToString number))) :
    stoullAt object field = .ok number := by
  have hstring : fieldAt JsonValue.getString object field = .ok (stdToString number) :=
    fieldAt_eq_ok hfield rfl
  rw [stoullAt, hstring]
  exact stoull_stdToString number

namespace TargetInfo

/-! ### The round trip -/

theorem regionFromJson_regionToJson (remoteRegion : RemoteRegion) :
    regionFromJson (regionToJson remoteRegion) = .ok remoteRegion := by
  refine bind_eq_ok.mpr ⟨_, rfl, ?_⟩
  refine bind_eq_ok.mpr ⟨remoteRegion.addr, stoullAt_eq_ok ?_, ?_⟩
  · simp [lookup_assign]
  refine bind_eq_ok.mpr ⟨remoteRegion.len, stoullAt_eq_ok ?_, ?_⟩
  · simp [lookup_assign]
  refine bind_eq_ok.mpr ⟨remoteRegion.rkey, stoullAt_eq_ok ?_, rfl⟩
  simp [lookup_assign]

theorem mapM_regionFromJson (remoteRegions : List RemoteRegion) :
    (remoteRegions.map regionToJson).mapM regionFromJson = .ok remoteRegions := by
  induction remoteRegions with
  | nil => rfl
  | cons remoteRegion remoteRegions ih =>
    rw [List.map_cons, List.mapM_cons, regionFromJson_regionToJson, ih]
    rfl

theorem bounceBufferInfoFromJson_assigned {root : JsonObject} {info : TargetInfoBounceBufferInfo}
    (h : root.lookup "bounceBufferInfo" = some (bounceBufferInfoToJson info)) :
    bounceBufferInfoFromJson root = .ok (some info) := by
  have hassigned : (root.lookup "bounceBufferInfo").isSome := by
    simp [h]
  rw [bounceBufferInfoFromJson, if_pos hassigned]
  refine bind_eq_ok.mpr ⟨_, fieldAt_eq_ok h rfl, ?_⟩
  refine bind_eq_ok.mpr ⟨info.entryCount, stoullAt_eq_ok ?_, ?_⟩
  · simp [lookup_assign]
  refine bind_eq_ok.mpr ⟨info.entrySize, stoullAt_eq_ok ?_, rfl⟩
  simp [lookup_assign]

theorem bounceBufferInfoFromJson_missing {root : JsonObject}
    (h : root.lookup "bounceBufferInfo" = none) : bounceBufferInfoFromJson root = .ok none := by
  rw [bounceBufferInfoFromJson, h]
  rfl

/-- What a document of `document` says. -/
structure Describes (base64 : Base64Codec) (info : TargetInfo) (root : JsonObject) : Prop where
  fabricAddress : root.lookup "fabricAddress" = some (.string (base64.encode info.fabricAddress))
  regions : root.lookup "regions" = some (.array (info.remoteRegions.map regionToJson))
  bounceBufferInfo :
    root.lookup "bounceBufferInfo" = info.bounceBufferInfo.map bounceBufferInfoToJson
  id : root.lookup "id" = some (.string (stdToString info.id))

theorem document_describes (base64 : Base64Codec) (info : TargetInfo) :
    ∃ root, info.document base64 = .object root ∧ Describes base64 info root := by
  refine ⟨_, rfl, ?_⟩
  cases hbounce : info.bounceBufferInfo with
  | none => constructor <;> simp [lookup_assign, hbounce]
  | some bounceBufferInfo => constructor <;> simp [lookup_assign, hbounce]

/-- A document that says all there is to a target info is read as that. -/
theorem fromDocument_of_describes {base64 : Base64Codec} {info : TargetInfo} {root : JsonObject}
    (haddress : info.fabricAddress ≠ []) (hbase64 : base64.RoundTrips info.fabricAddress)
    (h : Describes base64 info root) : fromDocument base64 (.object root) = .ok info := by
  have hdecoded : fabricAddressFromBase64 base64 (base64.encode info.fabricAddress) =
      .ok info.fabricAddress := by
    rw [fabricAddressFromBase64, hbase64]
    exact if_neg haddress
  have hbounce : bounceBufferInfoFromJson root = .ok info.bounceBufferInfo := by
    have hfield := h.bounceBufferInfo
    cases hinfo : info.bounceBufferInfo with
    | none =>
      rw [hinfo] at hfield
      exact bounceBufferInfoFromJson_missing hfield
    | some bounceBufferInfo =>
      rw [hinfo] at hfield
      exact bounceBufferInfoFromJson_assigned hfield
  refine bind_eq_ok.mpr ⟨_, fieldAt_eq_ok h.fabricAddress rfl, ?_⟩
  refine bind_eq_ok.mpr ⟨_, hdecoded, ?_⟩
  refine bind_eq_ok.mpr ⟨_, fieldAt_eq_ok h.regions rfl, ?_⟩
  refine bind_eq_ok.mpr ⟨_, mapM_regionFromJson info.remoteRegions, ?_⟩
  refine bind_eq_ok.mpr ⟨_, hbounce, ?_⟩
  exact bind_eq_ok.mpr ⟨_, stoullAt_eq_ok h.id, rfl⟩

/-- **There and back.**  A target info with a fabric address comes out of its JSON text
    as it was, in every field. -/
theorem fromJSON_toJSON (json : JsonLibrary) (base64 : Base64Codec) (info : TargetInfo)
    (haddress : info.fabricAddress ≠ [])
    (hjson : json.Reproduces (info.document base64))
    (hbase64 : base64.RoundTrips info.fabricAddress) :
    fromJSON json base64 (info.toJSON json base64) = .ok info := by
  obtain ⟨root, hroot, hdescribes⟩ := document_describes base64 info
  have hparse : json.parse (info.toJSON json base64) = .ok (.object root) := by
    rw [← hroot]
    exact hjson
  rw [fromJSON, hparse]
  exact fromDocument_of_describes haddress hbase64 hdescribes

/-! ### A target with one region and a bounce buffer -/

/-- Its address is beyond what a floating-point number holds. -/
def exampleTarget : TargetInfo where
  id := 42
  fabricAddress := [1, 2, 3]
  remoteRegions := [{ addr := 18446744073709551615, len := 4096, rkey := 9007199254740993 }]
  bounceBufferInfo := some { entryCount := 2, entrySize := 64 }

def exampleBase64 : Base64Codec where
  encode bytes := if bytes = [1, 2, 3] then "AQID" else ""
  decode data := if data = "AQID" then .ok [1, 2, 3] else .error "Invalid base64 data"

/-- The text of the target, fields in the order of a `std::map`. -/
def exampleText : String :=
  "\x7b\"bounceBufferInfo\":\x7b\"entryCount\":\"2\",\"entrySize\":\"64\"\x7d," ++
    "\"fabricAddress\":\"AQID\",\"id\":\"42\",\"regions\":[" ++
    "\x7b\"addr\":\"18446744073709551615\",\"len\":\"4096\",\"rkey\":\"9007199254740993\"\x7d]\x7d"

/-- The document of that text. -/
def exampleDocument : JsonValue :=
  .object
    [("bounceBufferInfo", .object [("entryCount", .string "2"), ("entrySize", .string "64")]),
      ("fabricAddress", .string "AQID"),
      ("id", .string "42"),
      ("regions", .array [.object
        [("addr", .string "18446744073709551615"), ("len", .string "4096"),
          ("rkey", .string "9007199254740993")]])]

/-- The library on that text. -/
def exampleJson : JsonLibrary where
  serialize _ := exampleText
  parse text := if text = exampleText then .ok exampleDocument else .error "syntax error"

theorem document_exampleTarget : exampleTarget.document exampleBase64 = exampleDocument := by
  rfl

theorem fromJSON_toJSON_exampleTarget :
    exampleTarget.fabricAddress ≠ [] ∧
      exampleJson.Reproduces (exampleTarget.document exampleBase64) ∧
      exampleBase64.RoundTrips exampleTarget.fabricAddress ∧
      fromJSON exampleJson exampleBase64 (exampleTarget.toJSON exampleJson exampleBase64) =
        .ok exampleTarget := by
  have haddress : exampleTarget.fabricAddress ≠ [] := by
    simp [exampleTarget]
  have hjson : exampleJson.Reproduces (exampleTarget.document exampleBase64) := by
    rw [document_exampleTarget]
    simp [JsonLibrary.Reproduces, exampleJson]
  have hbase64 : exampleBase64.RoundTrips exampleTarget.fabricAddress := by
    simp [Base64Codec.RoundTrips, exampleBase64, exampleTarget]
  exact ⟨haddress, hjson, hbase64,
    fromJSON_toJSON exampleJson exampleBase64 exampleTarget haddress hjson hbase64⟩

end TargetInfo

end MediaExchange.TargetInfoJson
