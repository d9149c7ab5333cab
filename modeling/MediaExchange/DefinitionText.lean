/-
  MediaExchange/DefinitionText.lean
  =================================
  **Getting a flow's definition** (`flow.cpp`, `FlowManager.cpp`, `mxl/src/instance.rs`,
  `tools/mxl-data-probe/main.cpp`, `tools/mxl-gst/sink.cpp`).

  The definition is the text of a file in the flow's directory.  It is handed out
  through a buffer of the caller, who is told the size it needs if that is too small.
  The Rust bindings and the probe start with 4096 bytes and call once more; the flow may
  have been replaced in between.  The sink has its 4096 bytes and nothing else.

  Main result: `getFlowDef_eq_ok`.  What the bindings return is the text that the last
  of their calls found, and they return one unless it has outgrown the first.
-/
import MediaExchange.CompleteGrain
import MediaExchange.TargetInfoExchange

namespace MediaExchange.DefinitionText

open MediaExchange.CompleteGrain (Error fromStatus_eq_ok)
open MediaExchange.TargetInfoExchange (cString strncpy cString_of_plain_all)

/-! ### The C function -/

/-- What a call finds at the path of the definition. -/
inductive DefinitionFile where
  | text (bytes : List UInt8)
  | missing
  | unreadable
deriving DecidableEq, Repr

/-- `FlowManager::getFlowDef`, an exception by the status that it is caught as. -/
def flowManagerGetFlowDef : DefinitionFile → Except MxlStatus (List UInt8)
  | .text bytes => .ok bytes
  | .missing => .error .errFlowNotFound
  | .unreadable => .error .errUnknown

/-- What a call leaves behind. -/
structure CallResult where
  status : MxlStatus
  buffer : List UInt8
  bufferSize : Nat
deriving DecidableEq, Repr

/-- `mxlGetFlowDef` on an instance, with a buffer; whether the id is one is left to the
    UUID library. -/
def mxlGetFlowDef (isUuid : Bool) (file : DefinitionFile) (buffer : List UInt8)
    (bufferSize : Nat) : CallResult :=
  if isUuid then
    match flowManagerGetFlowDef file with
    | .error status => { status, buffer, bufferSize }
    | .ok flowDef =>
        let requiredSize := flowDef.length + 1
        if bufferSize < requiredSize then
          { status := .errInvalidArg, buffer, bufferSize := requiredSize }
        else
          { status := .statusOk, buffer := strncpy buffer flowDef requiredSize
            bufferSize := requiredSize }
  else { status := .errInvalidArg, buffer, bufferSize }

/-! ### Those who call it -/

def INITIAL_BUFFER_SIZE : Nat := 4096

/-- Both calls of the bindings and of the probe, `first` and `second` being what there is
    when they are made. -/
def callTwice (isUuid : Bool) (first second : DefinitionFile) : CallResult :=
  let r := mxlGetFlowDef isUuid first (List.replicate INITIAL_BUFFER_SIZE 0) INITIAL_BUFFER_SIZE
  if r.status = .errInvalidArg ∧ r.bufferSize > INITIAL_BUFFER_SIZE then
    mxlGetFlowDef isUuid second (List.replicate r.bufferSize 0) r.bufferSize
  else r

/-- The end of `MxlInstance::get_flow_def`: the zero at the end is dropped. -/
def intoString (r : CallResult) : Except Error String :=
  let bufferSize :=
    if 0 < r.bufferSize ∧ r.buffer[r.bufferSize - 1]? = some 0 then r.bufferSize - 1
    else r.bufferSize
  match String.fromUTF8? ⟨(r.buffer.take bufferSize).toArray⟩ with
  | some text => .ok text
  | none => .error (.other "Invalid UTF-8 in flow definition")

/-- `MxlInstance::get_flow_def`. -/
def getFlowDef (isUuid : Bool) (first second : DefinitionFile) : Except Error String := do
  let r := callTwice isUuid first second
  Error.fromStatus r.status
  intoString r

/-- `getMediaType` of the probe, up to the text it parses: a C string. -/
def probeFlowDef (isUuid : Bool) (first second : DefinitionFile) : Except MxlStatus (List UInt8) :=
  let r := callTwice isUuid first second
  if r.status ≠ .statusOk then .error r.status else .ok (cString r.buffer)

/-- `readFlowDescriptor` of the sink. -/
def readFlowDescriptor (isUuid : Bool) (file : DefinitionFile) : Except MxlStatus (List UInt8) :=
  let r := mxlGetFlowDef isUuid file (List.replicate INITIAL_BUFFER_SIZE 0) INITIAL_BUFFER_SIZE
  if r.status ≠ .statusOk then .error r.status else .ok (r.buffer.take (r.bufferSize - 1))

/-! ### What they get -/

/-- The definition that the last call found, if that call had room for it. -/
def Seen (first second : DefinitionFile) (bytes : List UInt8) : Prop :=
  (first = .text bytes ∧ bytes.length < INITIAL_BUFFER_SIZE) ∨
    ∃ old, first = .text old ∧ INITIAL_BUFFER_SIZE ≤ old.length ∧ second = .text bytes ∧
      bytes.length ≤ old.length

/-- A definition as `strncpy` copies it: there are zeros from the first one on. -/
def copied (bytes : List UInt8) : List UInt8 :=
  (cString bytes ++ List.replicate bytes.length 0).take bytes.length

theorem length_cString_le (bytes : List UInt8) : (cString bytes).length ≤ bytes.length :=
  (List.takeWhile_sublist _).length_le

theorem length_copied (bytes : List UInt8) : (copied bytes).length = bytes.length := by
  rw [copied, List.length_take, List.length_append, List.length_replicate]
  omega

theorem copied_of_plain {bytes : List UInt8} (h : ∀ b ∈ bytes, b ≠ 0) : copied bytes = bytes := by
  rw [copied, cString_of_plain_all h, List.take_left]

/-- A C string ends at the first zero, wherever the copy has more of them. -/
theorem cString_append_replicate (bytes rest : List UInt8) (n : Nat) :
    cString (cString bytes ++ List.replicate n 0 ++ 0 :: rest) = cString bytes := by
  have hne : ∀ b ∈ cString bytes, b ≠ 0 := by
    intro b hb
    simpa using List.mem_takeWhile_imp hb
  cases n with
  | zero => simpa using TargetInfoExchange.cString_of_plain hne rest
  | succ n =>
    rw [List.replicate_succ, List.append_assoc, List.cons_append]
    exact TargetInfoExchange.cString_of_plain hne _

theorem copied_eq (bytes : List UInt8) : copied bytes =
    cString bytes ++ List.replicate (bytes.length - (cString bytes).length) 0 := by
  have hle := length_cString_le bytes
  rw [copied, List.take_append, List.take_of_length_le hle, List.take_replicate]
  congr 2
  omega

theorem cString_copied (bytes rest : List UInt8) :
    cString (copied bytes ++ 0 :: rest) = cString bytes := by
  rw [copied_eq, cString_append_replicate]

/-- A call that has the room copies the definition, with a zero behind it. -/
theorem strncpy_definition (buffer bytes : List UInt8) :
    strncpy buffer bytes (bytes.length + 1) =
      copied bytes ++ 0 :: buffer.drop (bytes.length + 1) := by
  have hle := length_cString_le bytes
  have hzeros : List.replicate (bytes.length + 1 - (cString bytes).length) (0 : UInt8) =
      List.replicate (bytes.length - (cString bytes).length) 0 ++ [0] := by
    rw [← List.replicate_succ']
    congr 1
    omega
  rw [strncpy, List.take_append, List.take_of_length_le (Nat.le_succ_of_le hle),
    List.take_replicate, Nat.min_eq_left (Nat.sub_le _ _), hzeros, copied_eq]
  simp

/-- A call that succeeds has found a definition and has the room for it. -/
theorem mxlGetFlowDef_ok_iff {file : DefinitionFile} {size : Nat} :
    (mxlGetFlowDef true file (List.replicate size 0) size).status = .statusOk ↔
      ∃ bytes, file = .text bytes ∧ bytes.length < size := by
  cases file with
  | text bytes =>
    by_cases hroom : size < bytes.length + 1
    · simp only [mxlGetFlowDef, flowManagerGetFlowDef, if_pos hroom, if_true]
      constructor
      · intro h
        cases h
      · rintro ⟨other, h, hlt⟩
        obtain rfl := DefinitionFile.text.inj h
        omega
    · simp only [mxlGetFlowDef, flowManagerGetFlowDef, if_neg hroom, if_true, true_iff]
      exact ⟨bytes, rfl, by omega⟩
  | missing => simp [mxlGetFlowDef, flowManagerGetFlowDef]
  | unreadable => simp [mxlGetFlowDef, flowManagerGetFlowDef]

/-- Nothing is written behind the buffer. -/
theorem mxlGetFlowDef_text {bytes : List UInt8} {size : Nat} (hroom : bytes.length < size) :
    ∃ rest, mxlGetFlowDef true (.text bytes) (List.replicate size 0) size =
        { status := .statusOk, buffer := copied bytes ++ 0 :: rest
          bufferSize := bytes.length + 1 } ∧
      (copied bytes ++ 0 :: rest).length = size := by
  have hnot : ¬ size < bytes.length + 1 := Nat.not_lt.mpr hroom
  refine ⟨(List.replicate size 0).drop (bytes.length + 1), ?_, ?_⟩
  · simp only [mxlGetFlowDef, flowManagerGetFlowDef, if_neg hnot, if_true, strncpy_definition]
  · rw [List.length_append, length_copied, List.length_cons, List.length_drop,
      List.length_replicate]
    omega

/-- The first call tells the size of a definition it has no room for. -/
theorem mxlGetFlowDef_short {bytes buffer : List UInt8} {size : Nat} (hshort : size ≤ bytes.length) :
    mxlGetFlowDef true (.text bytes) buffer size =
      { status := .errInvalidArg, buffer, bufferSize := bytes.length + 1 } := by
  simp only [mxlGetFlowDef, flowManagerGetFlowDef, if_pos (Nat.lt_succ_of_le hshort), if_true]

/-- The two calls together. -/
theorem callTwice_of_seen {first second : DefinitionFile} {bytes : List UInt8}
    (h : Seen first second bytes) : ∃ rest, callTwice true first second =
      { status := .statusOk, buffer := copied bytes ++ 0 :: rest
        bufferSize := bytes.length + 1 } := by
  rcases h with ⟨rfl, hroom⟩ | ⟨old, rfl, hlong, rfl, hroom⟩
  · obtain ⟨rest, hcall, -⟩ := mxlGetFlowDef_text hroom
    exact ⟨rest, by simp [callTwice, hcall]⟩
  · obtain ⟨rest, hcall, -⟩ := mxlGetFlowDef_text (Nat.lt_succ_of_le hroom)
    have hlonger : old.length + 1 > INITIAL_BUFFER_SIZE := Nat.lt_succ_of_le hlong
    refine ⟨rest, ?_⟩
    simp only [callTwice, mxlGetFlowDef_short hlong, hlonger, and_self, if_true, hcall]

theorem seen_of_callTwice {first second : DefinitionFile}
    (h : (callTwice true first second).status = .statusOk) :
    ∃ bytes, Seen first second bytes := by
  unfold callTwice at h
  dsimp only at h
  split at h
  · rename_i hagain
    cases first with
    | text old =>
      by_cases hroom : old.length < INITIAL_BUFFER_SIZE
      · obtain ⟨rest, hcall, -⟩ := mxlGetFlowDef_text hroom
        rw [hcall] at hagain
        cases hagain.1
      · have hlong : INITIAL_BUFFER_SIZE ≤ old.length := Nat.le_of_not_lt hroom
        rw [mxlGetFlowDef_short hlong] at h
        obtain ⟨bytes, hsecond, hlt⟩ := mxlGetFlowDef_ok_iff.mp h
        exact ⟨bytes, .inr ⟨old, rfl, hlong, hsecond, Nat.le_of_lt_succ hlt⟩⟩
    | missing => cases hagain.1
    | unreadable => cases hagain.1
  · obtain ⟨bytes, hfirst, hlt⟩ := mxlGetFlowDef_ok_iff.mp h
    exact ⟨bytes, .inl ⟨hfirst, hlt⟩⟩

/-- No call succeeds with what is no UUID. -/
theorem callTwice_false (first second : DefinitionFile) :
    callTwice false first second =
      { status := .errInvalidArg, buffer := List.replicate INITIAL_BUFFER_SIZE 0
        bufferSize := INITIAL_BUFFER_SIZE } := by
  simp [callTwice, mxlGetFlowDef]

theorem intoString_copied (bytes rest : List UInt8) :
    intoString { status := .statusOk, buffer := copied bytes ++ 0 :: rest
                 bufferSize := bytes.length + 1 } =
      match String.fromUTF8? ⟨(copied bytes).toArray⟩ with
      | some text => .ok text
      | none => .error (.other "Invalid UTF-8 in flow definition") := by
  have hzero : (copied bytes ++ 0 :: rest)[bytes.length]? = some 0 := by
    rw [List.getElem?_append_right (length_copied bytes).le, length_copied, Nat.sub_self]
    rfl
  have htake : (copied bytes ++ 0 :: rest).take bytes.length = copied bytes := by
    rw [List.take_append_of_le_length (length_copied bytes).ge,
      List.take_of_length_le (length_copied bytes).le]
  simp [intoString, hzero, htake]

theorem getFlowDef_of_seen {first second : DefinitionFile} {bytes : List UInt8}
    (h : Seen first second bytes) : getFlowDef true first second =
      match String.fromUTF8? ⟨(copied bytes).toArray⟩ with
      | some text => .ok text
      | none => .error (.other "Invalid UTF-8 in flow definition") := by
  obtain ⟨rest, hcall⟩ := callTwice_of_seen h
  rw [← intoString_copied bytes rest, getFlowDef, hcall]
  rfl

theorem getFlowDef_ok_iff {first second : DefinitionFile} {text : String} :
    getFlowDef true first second = .ok text ↔ ∃ bytes, Seen first second bytes ∧
      String.fromUTF8? ⟨(copied bytes).toArray⟩ = some text := by
  constructor
  · intro h
    have hstatus : (callTwice true first second).status = .statusOk := by
      obtain ⟨u, hok, -⟩ := bind_eq_ok.mp h
      exact fromStatus_eq_ok.mp hok
    obtain ⟨bytes, hseen⟩ := seen_of_callTwice hstatus
    refine ⟨bytes, hseen, ?_⟩
    rw [getFlowDef_of_seen hseen] at h
    split at h
    · rename_i text' htext
      obtain rfl := Except.ok.inj h
      exact htext
    · cases h
  · rintro ⟨bytes, hseen, htext⟩
    rw [getFlowDef_of_seen hseen, htext]

theorem probeFlowDef_ok_iff {first second : DefinitionFile} {seen : List UInt8} :
    probeFlowDef true first second = .ok seen ↔
      ∃ bytes, Seen first second bytes ∧ cString bytes = seen := by
  unfold probeFlowDef
  constructor
  · intro h
    dsimp only at h
    split at h
    · cases h
    · rename_i hstatus
      obtain ⟨bytes, hseen⟩ := seen_of_callTwice (not_not.mp hstatus)
      obtain ⟨rest, hcall⟩ := callTwice_of_seen hseen
      rw [hcall] at h
      refine ⟨bytes, hseen, ?_⟩
      rw [← cString_copied bytes rest]
      exact Except.ok.inj h
  · rintro ⟨bytes, hseen, rfl⟩
    obtain ⟨rest, hcall⟩ := callTwice_of_seen hseen
    simp [hcall, cString_copied]

theorem readFlowDescriptor_ok_iff {file : DefinitionFile} {seen : List UInt8} :
    readFlowDescriptor true file = .ok seen ↔
      ∃ bytes, file = .text bytes ∧ bytes.length < INITIAL_BUFFER_SIZE ∧ copied bytes = seen := by
  have hread : ∀ bytes : List UInt8, bytes.length < INITIAL_BUFFER_SIZE →
      readFlowDescriptor true (.text bytes) = .ok (copied bytes) := by
    intro bytes hroom
    obtain ⟨rest, hcall, -⟩ := mxlGetFlowDef_text hroom
    simp only [readFlowDescriptor, hcall, ne_eq, not_true, if_false, Nat.add_sub_cancel]
    rw [List.take_append_of_le_length (length_copied bytes).ge,
      List.take_of_length_le (length_copied bytes).le]
  constructor
  · intro h
    have hstatus := h
    unfold readFlowDescriptor at hstatus
    dsimp only at hstatus
    split at hstatus
    · cases hstatus
    · rename_i hok
      obtain ⟨bytes, rfl, hroom⟩ := mxlGetFlowDef_ok_iff.mp (not_not.mp hok)
      rw [hread bytes hroom] at h
      exact ⟨bytes, rfl, hroom, Except.ok.inj h⟩
  · rintro ⟨bytes, rfl, hroom, rfl⟩
    exact hread bytes hroom

/-- **The definition of a flow.**  Of what two calls find, the bindings return the text
    that the last of them copied, if it had room for it and it is UTF-8; the probe sees
    the same, as far as its first zero; the sink, with one call, what fits 4096 bytes. -/
theorem getFlowDef_eq_ok (isUuid : Bool) (first second : DefinitionFile) :
    (∀ text, getFlowDef isUuid first second = .ok text ↔ isUuid = true ∧
      ∃ bytes, Seen first second bytes ∧
        String.fromUTF8? ⟨(copied bytes).toArray⟩ = some text) ∧
    (∀ seen, probeFlowDef isUuid first second = .ok seen ↔ isUuid = true ∧
      ∃ bytes, Seen first second bytes ∧ cString bytes = seen) ∧
    ∀ seen, readFlowDescriptor isUuid first = .ok seen ↔ isUuid = true ∧
      ∃ bytes, first = .text bytes ∧ bytes.length < INITIAL_BUFFER_SIZE ∧ copied bytes = seen := by
  cases isUuid with
  | true =>
    simp only [true_and]
    exact ⟨fun text => getFlowDef_ok_iff, fun seen => probeFlowDef_ok_iff,
      fun seen => readFlowDescriptor_ok_iff⟩
  | false =>
    refine ⟨fun text => ?_, fun seen => ?_, fun seen => ?_⟩
    · rw [getFlowDef, callTwice_false]
      simp [Error.fromStatus, bind, Except.bind]
    · simp [probeFlowDef, callTwice_false]
    · simp [readFlowDescriptor, mxlGetFlowDef]

end MediaExchange.DefinitionText
