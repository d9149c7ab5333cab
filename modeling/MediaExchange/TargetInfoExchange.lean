/-
  MediaExchange/TargetInfoExchange.lean
  =====================================
  **How a target info gets to the initiator** (`fabrics.cpp`, `Address.cpp`,
  `tools/mxl-fabrics-demo/demo.cpp`).

  The text of a target info is handed out through a buffer of the caller: called
  without one, the function says how long it has to be.  The demo's target does both
  calls, and prints the whole buffer, with the zero that ends the text, in base64; its
  initiator decodes what it is given and passes it on as a C string, which ends at that
  zero.  The fabric address within the text is base64, too.

  A `std::string` is a string whose characters are its bytes.  The base64 codec is that
  of `Base64.hpp`; of the JSON library it is used that its text is parsed as what was
  serialized, and that there is no zero in it.
-/
import MediaExchange.Base64
import MediaExchange.TargetInfoJson

namespace MediaExchange.TargetInfoExchange

open MediaExchange.Base64
open MediaExchange.TargetInfoJson (Base64Codec FromJsonException JsonLibrary)

/-- What travels, the fabric address and the identifier with it. -/
abbrev Info := TargetInfoJson.TargetInfo

/-! ### Strings -/

def byteString (bytes : List UInt8) : String := String.ofList (bytes.map fun b => Char.ofNat b.toNat)

def stringBytes (s : String) : List UInt8 := s.toList.map fun c => UInt8.ofNat c.toNat

/-- Every character is a byte, and none is the zero that ends a C string. -/
def PlainText (s : String) : Prop := ∀ c ∈ s.toList, c.toNat < 256 ∧ c.toNat ≠ 0

/-- What is seen of a buffer that is passed as a C string. -/
def cString (buffer : List UInt8) : List UInt8 := buffer.takeWhile (· ≠ 0)

/-- `strncpy` of a C string into a buffer: behind its end there are zeros. -/
def strncpy (buffer source : List UInt8) (n : Nat) : List UInt8 :=
  (cString source ++ List.replicate n 0).take n ++ buffer.drop n

/-- `Base64.hpp`. -/
def base64 : Base64Codec where
  encode bytes := byteString (encodeInto bytes)
  decode data := decodeInto (stringBytes data)

/-! ### The calls -/

inductive FabricsStatus
  | statusOk
  | errUnknown
  | errInvalidArg
  | errStrlen
  | errInvalidState
  | errNotFound
  | errExists
  | errInterrupted
  deriving DecidableEq, Repr

/-- `Exception::status`. -/
def FabricsStatus.ofException : FabricsException → FabricsStatus
  | .invalidArgument _ => .errInvalidArg
  | .invalidState _ => .errInvalidState
  | .notFound _ => .errNotFound
  | .alreadyExists _ => .errExists
  | .interrupted _ => .errInterrupted

/-- The `catch` clauses of `try_run`. -/
def FabricsStatus.ofCaught : FromJsonException → FabricsStatus
  | .fabrics exception => .ofException exception
  | .outOfRange _ => .errUnknown
  | .invalidArgument _ => .errUnknown
  | .runtimeError _ => .errUnknown

/-- What `mxlFabricsTargetInfoToString` leaves behind. -/
structure StringResult where
  status : FabricsStatus
  buffer : Option (List UInt8)
  size : Nat
  deriving DecidableEq, Repr

/-- `mxlFabricsTargetInfoToString`, with a target info and a size. -/
def mxlFabricsTargetInfoToString (json : JsonLibrary) (info : Info)
    (outString : Option (List UInt8)) (stringSize : Nat) : StringResult :=
  let targetInfoString := stringBytes (info.toJSON json base64)
  match outString with
  | none => { status := .statusOk, buffer := none, size := targetInfoString.length + 1 }
  | some buffer =>
      if stringSize ≤ targetInfoString.length then
        { status := .errStrlen, buffer := some buffer, size := stringSize }
      else
        { status := .statusOk, buffer := some (strncpy buffer targetInfoString stringSize)
          size := stringSize }

/-- `mxlFabricsTargetInfoFromString`, with a string. -/
def mxlFabricsTargetInfoFromString (json : JsonLibrary) (string : List UInt8) :
    Except FabricsStatus Info :=
  match TargetInfoJson.TargetInfo.fromJSON json base64 (byteString (cString string)) with
  | .error exception => .error (.ofCaught exception)
  | .ok info => .ok info

/-! ### The demo -/

/-- `AppTarget::printInfo`: what is printed. -/
def printInfo (json : JsonLibrary) (info : Info) : Except FabricsStatus (List UInt8) :=
  let first := mxlFabricsTargetInfoToString json info none 0
  if first.status ≠ .statusOk then .error first.status
  else
    let targetInfoStr := List.replicate first.size 0
    let second := mxlFabricsTargetInfoToString json info (some targetInfoStr) first.size
    if second.status ≠ .statusOk then .error second.status
    else .ok (encodeInto (second.buffer.getD []))

/-- How the demo's initiator gets its target info: an exception of the decoder is not
    caught. -/
inductive SetupFailure
  | uncaught (what : String)
  | status (status : FabricsStatus)
  deriving DecidableEq, Repr

def initiatorTargetInfo (json : JsonLibrary) (argument : List UInt8) :
    Except SetupFailure Info :=
  match decodeInto argument with
  | .error what => .error (.uncaught what)
  | .ok targetInfoStr =>
      match mxlFabricsTargetInfoFromString json targetInfoStr with
      | .error status => .error (.status status)
      | .ok info => .ok info

/-! ### Strings are kept -/

theorem toNat_ofNat_byte (b : UInt8) : (Char.ofNat b.toNat).toNat = b.toNat := by
  have hlt := b.toNat_lt
  have hvalid : b.toNat.isValidChar := Or.inl (by omega)
  rw [Char.ofNat, dif_pos hvalid]
  rfl

theorem stringBytes_byteString (bytes : List UInt8) : stringBytes (byteString bytes) = bytes := by
  simp [stringBytes, byteString, Function.comp_def, toNat_ofNat_byte]

theorem byteString_stringBytes {s : String} (h : PlainText s) : byteString (stringBytes s) = s := by
  rw [byteString, stringBytes, List.map_map]
  have hchars : s.toList.map ((fun b : UInt8 => Char.ofNat b.toNat) ∘ fun c => UInt8.ofNat c.toNat) =
      s.toList.map id := by
    apply List.map_congr_left
    intro c hc
    have hlt := (h c hc).1
    rw [Function.comp_apply, UInt8.toNat_ofNat', Nat.mod_eq_of_lt hlt, Char.ofNat_toNat]
    rfl
  rw [hchars, List.map_id, String.ofList_toList]

/-- It can be checked by going through the characters. -/
theorem PlainText.of_all {s : String}
    (h : s.toList.all (fun c => decide (c.toNat < 256) && decide (c.toNat ≠ 0)) = true) :
    PlainText s := by
  intro c hc
  have hboth := List.all_eq_true.mp h c hc
  rw [Bool.and_eq_true, decide_eq_true_eq, decide_eq_true_eq] at hboth
  exact hboth

/-- There is no zero in the bytes of a plain text. -/
theorem ne_zero_of_plainText {s : String} (h : PlainText s) : ∀ b ∈ stringBytes s, b ≠ 0 := by
  intro b hb hzero
  obtain ⟨c, hc, rfl⟩ := List.mem_map.mp hb
  obtain ⟨hlt, hne⟩ := h c hc
  have hnat := congrArg UInt8.toNat hzero
  rw [UInt8.toNat_ofNat', Nat.mod_eq_of_lt hlt] at hnat
  exact hne hnat

theorem cString_of_plain {bytes : List UInt8} (h : ∀ b ∈ bytes, b ≠ 0) (rest : List UInt8) :
    cString (bytes ++ 0 :: rest) = bytes := by
  induction bytes with
  | nil => rfl
  | cons b bytes ih =>
    rw [cString, List.cons_append, List.takeWhile_cons_of_pos (by simp [h b])]
    exact congrArg (b :: ·) (ih fun c hc => h c (List.mem_cons_of_mem b hc))

theorem cString_of_plain_all {bytes : List UInt8} (h : ∀ b ∈ bytes, b ≠ 0) :
    cString bytes = bytes := by
  rw [cString, List.takeWhile_eq_self_iff]
  simpa using h

/-- A buffer that is longer than a text takes it with zeros behind it. -/
theorem strncpy_of_plain {bytes buffer : List UInt8} (h : ∀ b ∈ bytes, b ≠ 0)
    (hlength : bytes.length < buffer.length) :
    ∃ rest, strncpy buffer bytes buffer.length = bytes ++ 0 :: rest ∧
      (bytes ++ 0 :: rest).length = buffer.length := by
  refine ⟨List.replicate (buffer.length - bytes.length - 1) 0, ?_, ?_⟩
  · have hzeros : List.replicate (buffer.length - bytes.length) (0 : UInt8) =
        0 :: List.replicate (buffer.length - bytes.length - 1) 0 := by
      rw [← List.replicate_succ]
      congr 1
      omega
    rw [strncpy, cString_of_plain_all h, List.take_append,
      List.take_of_length_le (Nat.le_of_lt hlength), List.take_replicate,
      Nat.min_eq_left (Nat.sub_le _ _), hzeros, List.drop_length, List.append_nil]
  · rw [List.length_append, List.length_cons, List.length_replicate]
    omega

/-! ### There and back -/

/-- The base64 codec brings an address back. -/
theorem base64_roundTrips (bytes : List UInt8) : base64.RoundTrips bytes := by
  change decodeInto (stringBytes (byteString (encodeInto bytes))) = .ok bytes
  rw [stringBytes_byteString, decodeInto_encodeInto]

/-- The text of a target info is read as that. -/
theorem fromJSON_of_reproduces {json : JsonLibrary} {info : Info} (haddress : info.fabricAddress ≠ [])
    (hjson : json.Reproduces (info.document base64)) :
    TargetInfoJson.TargetInfo.fromJSON json base64 (info.toJSON json base64) = .ok info := by
  obtain ⟨root, hroot, hdescribes⟩ :=
    TargetInfoJson.TargetInfo.document_describes base64 info
  have hparse : json.parse (info.toJSON json base64) = .ok (.object root) := by
    rw [← hroot]
    exact hjson
  rw [TargetInfoJson.TargetInfo.fromJSON, hparse]
  exact TargetInfoJson.TargetInfo.fromDocument_of_describes haddress
    (base64_roundTrips info.fabricAddress) hdescribes

/-- Whatever is behind the zero that ends the text. -/
theorem fromString_of_text {json : JsonLibrary} {info : Info} (haddress : info.fabricAddress ≠ [])
    (hjson : json.Reproduces (info.document base64)) (hplain : PlainText (info.toJSON json base64))
    (rest : List UInt8) :
    mxlFabricsTargetInfoFromString json (stringBytes (info.toJSON json base64) ++ 0 :: rest) =
      .ok info := by
  rw [mxlFabricsTargetInfoFromString, cString_of_plain (ne_zero_of_plainText hplain),
    byteString_stringBytes hplain, fromJSON_of_reproduces haddress hjson]

/-- A buffer with room for the text takes it, with the zero behind it. -/
theorem toString_fits {json : JsonLibrary} {info : Info} (hplain : PlainText (info.toJSON json base64))
    {buffer : List UInt8} (hfits : (stringBytes (info.toJSON json base64)).length < buffer.length) :
    ∃ written rest, mxlFabricsTargetInfoToString json info (some buffer) buffer.length =
        { status := .statusOk, buffer := some written, size := buffer.length } ∧
      written = stringBytes (info.toJSON json base64) ++ 0 :: rest ∧
      written.length = buffer.length := by
  obtain ⟨rest, htext, hlength⟩ := strncpy_of_plain (ne_zero_of_plainText hplain) hfits
  refine ⟨_, rest, ?_, rfl, hlength⟩
  simp only [mxlFabricsTargetInfoToString, if_neg (Nat.not_le.mpr hfits), htext]

/-- **From the target to the initiator.**  What the demo's target prints is the target
    info for the initiator it is given to.  Of a buffer of any size, the text is in it
    and read back as the target info if there is room for as many bytes as the first
    call says; else nothing is written. -/
theorem initiatorTargetInfo_printInfo (json : JsonLibrary) (info : Info)
    (haddress : info.fabricAddress ≠ []) (hjson : json.Reproduces (info.document base64))
    (hplain : PlainText (info.toJSON json base64)) :
    (∃ printed, printInfo json info = .ok printed ∧
      initiatorTargetInfo json printed = .ok info) ∧
    ∀ buffer : List UInt8,
      if (mxlFabricsTargetInfoToString json info none 0).size ≤ buffer.length then
        ∃ written, mxlFabricsTargetInfoToString json info (some buffer) buffer.length =
            { status := .statusOk, buffer := some written, size := buffer.length } ∧
          written.length = buffer.length ∧
          mxlFabricsTargetInfoFromString json written = .ok info
      else mxlFabricsTargetInfoToString json info (some buffer) buffer.length =
        { status := .errStrlen, buffer := some buffer, size := buffer.length } := by
  constructor
  · have hroom : (stringBytes (info.toJSON json base64)).length <
        (List.replicate ((stringBytes (info.toJSON json base64)).length + 1) (0 : UInt8)).length := by
      rw [List.length_replicate]
      exact Nat.lt_succ_self _
    obtain ⟨written, rest, hsecond, rfl, -⟩ := toString_fits hplain hroom
    rw [List.length_replicate] at hsecond
    refine ⟨encodeInto (stringBytes (info.toJSON json base64) ++ 0 :: rest), ?_, ?_⟩
    · have hfirst : mxlFabricsTargetInfoToString json info none 0 =
          { status := .statusOk, buffer := none
            size := (stringBytes (info.toJSON json base64)).length + 1 } := rfl
      simp [printInfo, hfirst, hsecond]
    · simp only [initiatorTargetInfo, decodeInto_encodeInto,
        fromString_of_text haddress hjson hplain]
  · intro buffer
    have hsize : (mxlFabricsTargetInfoToString json info none 0).size =
        (stringBytes (info.toJSON json base64)).length + 1 := rfl
    rw [hsize]
    split
    · next hfits =>
      obtain ⟨written, rest, hcall, rfl, hlength⟩ := toString_fits hplain hfits
      exact ⟨_, hcall, hlength, fromString_of_text haddress hjson hplain rest⟩
    · next hshort =>
      simp only [mxlFabricsTargetInfoToString, if_pos (Nat.le_of_not_lt hshort)]

section Example

open TargetInfoJson.TargetInfo

theorem document_exampleTarget : exampleTarget.document base64 = exampleDocument := by
  have haddress : base64.encode exampleTarget.fabricAddress = "AQID" := by
    decide
  rw [document, haddress]
  rfl

theorem initiatorTargetInfo_printInfo_exampleTarget :
    (∃ printed, printInfo exampleJson exampleTarget = .ok printed ∧
      initiatorTargetInfo exampleJson printed = .ok exampleTarget) ∧
    ∀ buffer : List UInt8,
      if (mxlFabricsTargetInfoToString exampleJson exampleTarget none 0).size ≤ buffer.length then
        ∃ written, mxlFabricsTargetInfoToString exampleJson exampleTarget (some buffer)
            buffer.length =
            { status := .statusOk, buffer := some written, size := buffer.length } ∧
          written.length = buffer.length ∧
          mxlFabricsTargetInfoFromString exampleJson written = .ok exampleTarget
      else mxlFabricsTargetInfoToString exampleJson exampleTarget (some buffer) buffer.length =
        { status := .errStrlen, buffer := some buffer, size := buffer.length } := by
  have haddress : exampleTarget.fabricAddress ≠ [] := by
    simp [exampleTarget]
  have hjson : exampleJson.Reproduces (exampleTarget.document base64) := by
    rw [document_exampleTarget]
    simp [JsonLibrary.Reproduces, exampleJson]
  have hplain : PlainText (exampleTarget.toJSON exampleJson base64) := by
    apply PlainText.of_all
    change exampleText.toList.all _ = true
    decide +kernel
  exact initiatorTargetInfo_printInfo exampleJson exampleTarget haddress hjson hplain

end Example

end MediaExchange.TargetInfoExchange
