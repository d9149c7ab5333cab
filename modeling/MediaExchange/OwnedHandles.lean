/-
  MediaExchange/OwnedHandles.lean
  ===============================
  **Who owns the handles of an instance** (`mxl/src/instance.rs`, `flow/reader.rs`,
  `flow/writer.rs`, `grain/*.rs`, `samples/*.rs`, over `Instance.cpp`).

  In Rust an instance is shared by an `Arc`: every reader, writer and write access keeps
  a clone, and the instance is destroyed with the last one.  A reader or writer releases
  its handle when it is dropped, and hands it over when it is converted.  Underneath, the
  instance gives out one object for all the readers of a flow and counts them.

  Values may be used from any thread, and a destructor is not atomic: it makes its call,
  and then gives its clone back.  A run is any order of these steps.  What borrows keep
  apart is a condition on the steps; `forget` leaks a value.

  Main result: `handles_sound`.  No call is made on an object that is gone, the counts are
  the number of owners, and the instance is destroyed exactly when no value is left.
-/
import MediaExchange.CachedHandles
import Mathlib.Algebra.Group.Nat.Defs

namespace MediaExchange.OwnedHandles

open MediaExchange.LabelledRun
open MediaExchange.CachedHandles (RefCounted)

variable {φ : Type*} [DecidableEq φ]

/-! ### The instance underneath -/

/-- A `FlowReader` or `FlowWriter` of the instance, and the pointer to it. -/
structure Object (φ : Type*) where
  id : φ
  address : Nat
deriving DecidableEq, Repr

/-- `_readers` or `_writers`. -/
structure Cache (φ : Type*) where
  entries : φ → Option (RefCounted (Object φ))
  nextAddress : Nat

namespace Cache

def empty : Cache φ := { entries := fun _ => none, nextAddress := 0 }

/-- The pointer is to an object that exists. -/
def Live (c : Cache φ) (o : Object φ) : Prop := (c.entries o.id).map RefCounted.value = some o

instance (c : Cache φ) (o : Object φ) : Decidable (c.Live o) := inferInstanceAs (Decidable (_ = _))

/-- The object of the map, or a new one, if it can be `constructed`. -/
def refer (c : Cache φ) (x : φ) (constructed : Bool) : Option (Object φ) × Cache φ :=
  match c.entries x with
  | some r =>
      (some r.value, { c with entries := Function.update c.entries x (some r.addReference) })
  | none =>
      if constructed then
        let o : Object φ := ⟨x, c.nextAddress⟩
        (some o,
          { entries := Function.update c.entries x (some ⟨o, 1⟩)
            nextAddress := c.nextAddress + 1 })
      else (none, c)

/-- `removed`: the last release takes the entry out of the map. -/
def release (c : Cache φ) (o : Object φ) (removed : Bool) : Cache φ :=
  match c.entries o.id with
  | some r =>
      let (r, last) := r.releaseReference
      { c with
        entries := Function.update c.entries o.id (if last && removed then none else some r) }
  | none => c

end Cache

/-- A handle of the C API. -/
inductive Pointer (φ : Type*) where
  | reader (o : Object φ)
  | writer (o : Object φ)
deriving DecidableEq, Repr

structure Library (φ : Type*) where
  readers : Cache φ
  writers : Cache φ

def Library.Live (lib : Library φ) : Pointer φ → Prop
  | .reader o => lib.readers.Live o
  | .writer o => lib.writers.Live o

instance (lib : Library φ) : (p : Pointer φ) → Decidable (lib.Live p)
  | .reader o => inferInstanceAs (Decidable (lib.readers.Live o))
  | .writer o => inferInstanceAs (Decidable (lib.writers.Live o))

/-- A reader is always erased; a writer is not if deleting its flow throws. -/
def Library.release (lib : Library φ) (deleted : Bool) : Pointer φ → Library φ
  | .reader o => { lib with readers := lib.readers.release o true }
  | .writer o => { lib with writers := lib.writers.release o deleted }

/-- The `mxlInstance`; `misused` after a call with a pointer to what does not exist. -/
inductive Native (φ : Type*) where
  | live (lib : Library φ)
  | destroyed
  | misused

namespace Native

/-- Any call on a handle that leaves the maps alone. -/
def use (native : Native φ) (p : Pointer φ) : Native φ :=
  match native with
  | .live lib => if lib.Live p then native else .misused
  | _ => .misused

def release (native : Native φ) (p : Pointer φ) (deleted : Bool) : Native φ :=
  match native with
  | .live lib => if lib.Live p then .live (lib.release deleted p) else .misused
  | _ => .misused

def createFlowReader (native : Native φ) (x : φ) (opened : Bool) : Option (Object φ) × Native φ :=
  match native with
  | .live lib =>
      let (o, readers) := lib.readers.refer x opened
      (o, .live { lib with readers })
  | _ => (none, .misused)

/-- The flow is opened or created before the map is looked at. -/
def createFlowWriter (native : Native φ) (x : φ) (opened constructed : Bool) :
    Option (Object φ) × Native φ :=
  match native with
  | .live lib =>
      if opened then
        let (o, writers) := lib.writers.refer x constructed
        (o, .live { lib with writers })
      else (none, native)
  | _ => (none, .misused)

def destroyInstance (native : Native φ) : Native φ :=
  match native with
  | .live _ => .destroyed
  | _ => .misused

end Native

/-! ### The values -/

inductive Kind where
  | mxlInstance
  | flowReader
  | grainReader
  | samplesReader
  | flowWriter
  | grainWriter
  | samplesWriter
  | grainWriteAccess
  | samplesWriteAccess
deriving DecidableEq, Repr

def Kind.isAccess : Kind → Bool
  | .grainWriteAccess | .samplesWriteAccess => true
  | _ => false

/-- `MXL_DATA_FORMAT_VIDEO` and `MXL_DATA_FORMAT_DATA`. -/
def isDiscreteDataFormat (format : UInt32) : Bool := format = 1 || format = 3

/-- What `to_grain_*` and `to_samples_*` make of a value. -/
def Kind.converted (toGrain : Bool) : Kind → Option Kind
  | .flowReader => some (if toGrain then .grainReader else .samplesReader)
  | .flowWriter => some (if toGrain then .grainWriter else .samplesWriter)
  | _ => none

/-- What `open_grain` and `open_samples` return. -/
def Kind.access : Kind → Option Kind
  | .grainWriter => some .grainWriteAccess
  | .samplesWriter => some .samplesWriteAccess
  | _ => none

/-- `dropping`: the destructor is running.  `forgotten`: it never will. -/
inductive Stage where
  | usable
  | dropping
  | forgotten
deriving DecidableEq, Repr

/-- A value of the bindings.  It keeps a clone of the `Arc`.  `pointer` is null once the
    handle is released or handed over; `borrows` is the writer that an access is of, and
    `closed` its flag `committed_or_canceled`. -/
structure Value (φ : Type*) where
  name : Nat
  kind : Kind
  stage : Stage
  pointer : Option (Pointer φ)
  borrows : Option Nat
  closed : Bool
deriving DecidableEq, Repr

/-- The reader that the value has to release. -/
def Value.heldReader (v : Value φ) : Option (Object φ) :=
  match v.pointer with
  | some (.reader o) => if v.kind.isAccess then none else some o
  | _ => none

def Value.heldWriter (v : Value φ) : Option (Object φ) :=
  match v.pointer with
  | some (.writer o) => if v.kind.isAccess then none else some o
  | _ => none

/-- `strong` is the strong count of the `Arc`. -/
structure State (φ : Type*) where
  native : Native φ
  strong : Nat
  values : List (Value φ)
  nextName : Nat

/-- `MxlInstance::new`. -/
def State.initial : State φ :=
  { native := .live ⟨.empty, .empty⟩
    strong := 1
    values := [⟨0, .mxlInstance, .usable, none, none, false⟩]
    nextName := 1 }

/-- `isize::MAX`: a clone of an `Arc` with more references aborts. -/
def maxRefCount : Nat := 2 ^ 63 - 1

/-- A new value with its clone of the `Arc`. -/
def State.clone (s : State φ) (kind : Kind) (pointer : Option (Pointer φ)) (borrows : Option Nat) :
    Option (State φ) :=
  if s.strong ≤ maxRefCount then
    some { s with
      strong := s.strong + 1
      values := ⟨s.nextName, kind, .usable, pointer, borrows, false⟩ :: s.values
      nextName := s.nextName + 1 }
  else none

/-- The value is changed in place. -/
def State.change (s : State φ) (v : Value φ) (f : Value φ → Value φ) : State φ :=
  { s with values := f v :: s.values.erase v }

/-- The value's `Arc` is dropped, and the instance with the last one. -/
def State.dropArc (s : State φ) (v : Value φ) : State φ :=
  { s with
    native := if s.strong = 1 then s.native.destroyInstance else s.native
    strong := s.strong - 1
    values := s.values.erase v }

/-! ### Steps -/

/-- `convert` is with the format in the flow's info, if there is any; a value whose
    conversion fails is dropped.  `close`: a commit or cancel of an access; `called`: it
    reaches the C API.  `release` and `finish` are the two halves of a destructor. -/
inductive Action (φ : Type*) where
  | clone (n : Nat)
  | createFlowReader (n : Nat) (x : φ) (opened : Bool)
  | createFlowWriter (n : Nat) (x : φ) (opened constructed : Bool)
  | convert (n : Nat) (toGrain : Bool) (format : Option UInt32)
  | call (n : Nat)
  | openAccess (n : Nat) (opened : Bool)
  | close (n : Nat) (called : Bool)
  | drop (n : Nat)
  | forget (n : Nat)
  | release (n : Nat) (deleted : Bool)
  | finish (n : Nat)

/-- The value, if it is at that stage. -/
def State.value? (s : State φ) (n : Nat) (stage : Stage) : Option (Value φ) :=
  s.values.find? fun v => v.name = n ∧ v.stage = stage

/-- No access is alive that borrows the value. -/
def State.Unborrowed (s : State φ) (n : Nat) : Prop :=
  ∀ a ∈ s.values, a.stage = .forgotten ∨ a.borrows ≠ some n

instance (s : State φ) (n : Nat) : Decidable (s.Unborrowed n) :=
  inferInstanceAs (Decidable (∀ a ∈ s.values, _))

/-- A reader of any flow from an instance; of its own one from a writer that asks for
    the flow's format. -/
def Value.mayOpen (v : Value φ) (x : φ) : Bool :=
  match v.kind with
  | .mxlInstance => true
  | .flowWriter => v.heldWriter.any fun o => o.id = x
  | _ => false

def createFlowReader (s : State φ) (v : Value φ) (x : φ) (opened : Bool) : Option (State φ) :=
  if v.mayOpen x then
    match s.native.createFlowReader x opened with
    | (some o, native) => { s with native }.clone .flowReader (some (.reader o)) none
    | (none, native) => some { s with native }
  else none

def createFlowWriter (s : State φ) (v : Value φ) (x : φ) (opened constructed : Bool) :
    Option (State φ) :=
  if v.kind = .mxlInstance then
    match s.native.createFlowWriter x opened constructed with
    | (some o, native) => { s with native }.clone .flowWriter (some (.writer o)) none
    | (none, native) => some { s with native }
  else none

/-- The new value takes the pointer; the old one keeps it if the format is not right. -/
def convert (s : State φ) (v : Value φ) (toGrain : Bool) (format : Option UInt32) :
    Option (State φ) :=
  match v.kind.converted toGrain with
  | none => none
  | some kind =>
      if format.any fun f => isDiscreteDataFormat f = toGrain then
        let t := s.change v fun v => { v with stage := .dropping, pointer := none }
        t.clone kind v.pointer none
      else some (s.change v fun v => { v with stage := .dropping })

/-- A null pointer is turned down by the C API. -/
def call (s : State φ) (v : Value φ) : State φ :=
  match v.pointer with
  | some p => { s with native := s.native.use p }
  | none => s

def openAccess (s : State φ) (v : Value φ) (opened : Bool) : Option (State φ) :=
  match v.kind.access with
  | none => none
  | some kind =>
      if opened then (call s v).clone kind v.pointer (some v.name) else some (call s v)

def close (s : State φ) (v : Value φ) (called : Bool) : Option (State φ) :=
  if v.kind.isAccess then
    let t := if called then call s v else s
    some (t.change v fun v => { v with stage := .dropping, closed := true })
  else none

/-- `drop`: the handle is released, or the grain cancelled unless it is closed. -/
def release (s : State φ) (v : Value φ) (deleted : Bool) : Option (State φ) :=
  if v.kind.isAccess then
    if v.closed then none
    else some ((call s v).change v fun v => { v with closed := true })
  else
    match v.pointer with
    | some p =>
        some ({ s with native := s.native.release p deleted }.change v fun v =>
          { v with pointer := none })
    | none => none

def finish (s : State φ) (v : Value φ) : Option (State φ) :=
  if if v.kind.isAccess then v.closed else v.pointer.isNone then some (s.dropArc v) else none

/-- Leaving the program's hands, at a stage from which it does not come back. -/
def leave (s : State φ) (v : Value φ) (stage : Stage) : Option (State φ) :=
  if s.Unborrowed v.name then some (s.change v fun v => { v with stage }) else none

def step (s : State φ) : Action φ → Option (State φ)
  | .clone n => do
      let v ← s.value? n .usable
      if v.kind = .mxlInstance then s.clone .mxlInstance none none else none
  | .createFlowReader n x opened => do createFlowReader s (← s.value? n .usable) x opened
  | .createFlowWriter n x opened constructed => do
      createFlowWriter s (← s.value? n .usable) x opened constructed
  | .convert n toGrain format => do
      let v ← s.value? n .usable
      if s.Unborrowed v.name then convert s v toGrain format else none
  | .call n => do return call s (← s.value? n .usable)
  | .openAccess n opened => do openAccess s (← s.value? n .usable) opened
  | .close n called => do close s (← s.value? n .usable) called
  | .drop n => do leave s (← s.value? n .usable) .dropping
  | .forget n => do leave s (← s.value? n .usable) .forgotten
  | .release n deleted => do release s (← s.value? n .dropping) deleted
  | .finish n => do finish s (← s.value? n .dropping)

/-! ### What is to hold -/

/-- The number of values that hold an object of the flow. -/
def owners (held : Value φ → Option (Object φ)) (values : List (Value φ)) (x : φ) : Nat :=
  values.countP fun v => (held v).any fun o => o.id = x

/-- The count of each entry is the number of its owners, and what they hold exists. -/
structure Counted (c : Cache φ) (held : Value φ → Option (Object φ)) (values : List (Value φ)) :
    Prop where
  entry : ∀ x r, c.entries x = some r → r.value.id = x ∧ r.refCount.toNat = owners held values x
  live : ∀ v ∈ values, ∀ o, held v = some o → c.Live o

/-- While values are left the instance exists, its counts are right and it keeps no reader
    that nobody owns; and it is gone with the last of them. -/
def Owned : Native φ → List (Value φ) → Prop
  | .live lib, values =>
      values ≠ [] ∧ Counted lib.readers Value.heldReader values ∧
        Counted lib.writers Value.heldWriter values ∧
        ∀ x r, lib.readers.entries x = some r → 0 < owners Value.heldReader values x
  | .destroyed, values => values = []
  | .misused, _ => False

def Sound (s : State φ) : Prop := Owned s.native s.values

/-! ### Owners -/

section Owners

variable {held : Value φ → Option (Object φ)} {values rest : List (Value φ)} {v v' : Value φ}
  {c : Cache φ} {o : Object φ} {x : φ}

theorem owners_cons : owners held (v :: rest) x =
    owners held rest x + if (held v).any fun o => o.id = x then 1 else 0 :=
  List.countP_cons

theorem owners_cons_some (h : held v = some o) :
    owners held (v :: rest) x = owners held rest x + if o.id = x then 1 else 0 := by
  simp [owners_cons, h]

theorem owners_cons_none (h : held v = none) : owners held (v :: rest) x = owners held rest x := by
  simp [owners_cons, h]

theorem owners_le_length : owners held values x ≤ values.length := List.countP_le_length

theorem owners_pos (hv : v ∈ values) (h : held v = some o) : 0 < owners held values o.id := by
  apply List.countP_pos_iff.mpr
  exact ⟨v, hv, by simp [h]⟩

theorem Counted.perm (h : Counted c held values) (hperm : values.Perm rest) :
    Counted c held rest where
  entry y r hr := by
    obtain ⟨hid, hcount⟩ := h.entry y r hr
    exact ⟨hid, hcount.trans (hperm.countP_eq _)⟩
  live w hw := h.live w (hperm.mem_iff.mpr hw)

theorem counted_cons_none (hv : held v = none) :
    Counted c held (v :: rest) ↔ Counted c held rest := by
  constructor
  · intro h
    refine ⟨fun y r hr => ?_, fun w hw => h.live w (List.mem_cons_of_mem v hw)⟩
    obtain ⟨hid, hcount⟩ := h.entry y r hr
    exact ⟨hid, hcount.trans (owners_cons_none hv)⟩
  · intro h
    refine ⟨fun y r hr => ?_, fun w hw p hp => ?_⟩
    · obtain ⟨hid, hcount⟩ := h.entry y r hr
      exact ⟨hid, hcount.trans (owners_cons_none hv).symm⟩
    · rcases List.mem_cons.mp hw with rfl | hw
      · rw [hv] at hp
        cases hp
      · exact h.live w hw p hp

theorem counted_cons_congr (hv : held v' = held v) :
    Counted c held (v' :: rest) ↔ Counted c held (v :: rest) := by
  have howners : ∀ y, owners held (v' :: rest) y = owners held (v :: rest) y := by
    intro y
    rw [owners_cons, owners_cons, hv]
  constructor
  · intro h
    refine ⟨fun y r hr => howners y ▸ h.entry y r hr, fun w hw p hp => ?_⟩
    rcases List.mem_cons.mp hw with rfl | hw
    · exact h.live v' List.mem_cons_self p (hv.trans hp)
    · exact h.live w (List.mem_cons_of_mem v' hw) p hp
  · intro h
    refine ⟨fun y r hr => howners y ▸ h.entry y r hr, fun w hw p hp => ?_⟩
    rcases List.mem_cons.mp hw with rfl | hw
    · exact h.live v List.mem_cons_self p (hv.symm.trans hp)
    · exact h.live w (List.mem_cons_of_mem v hw) p hp

omit [DecidableEq φ] in
theorem Cache.live_iff : c.Live o ↔ ∃ r, c.entries o.id = some r ∧ r.value = o := by
  rw [Cache.Live, Option.map_eq_some_iff]

theorem Counted.entry_of_held (h : Counted c held values) (hv : v ∈ values)
    (ho : held v = some o) : ∃ r, c.entries o.id = some r ∧ r.value = o ∧
      r.refCount.toNat = owners held values o.id := by
  obtain ⟨r, hr, hvalue⟩ := Cache.live_iff.mp (h.live v hv o ho)
  exact ⟨r, hr, hvalue, (h.entry o.id r hr).2⟩

/-! ### Getting an object -/

/-- What `refer` does to the map: nothing, or one more reference to the object. -/
theorem Cache.refer_cases (c : Cache φ) (x : φ) (constructed : Bool) :
    c.refer x constructed = (none, c) ∨
      ∃ r, (c.refer x constructed).1 = some r.value ∧
        (c.refer x constructed).2.entries = Function.update c.entries x (some r) ∧
        ((∃ r₀, c.entries x = some r₀ ∧ r = r₀.addReference) ∨
          c.entries x = none ∧ r.value.id = x ∧ r.refCount = 1) := by
  cases hentry : c.entries x with
  | some r =>
    refine .inr ⟨r.addReference, ?_, ?_, .inl ⟨r, rfl, rfl⟩⟩
    · simp [refer, hentry, RefCounted.addReference]
    · simp [refer, hentry]
  | none =>
    cases constructed with
    | true =>
      refine .inr ⟨⟨⟨x, c.nextAddress⟩, 1⟩, ?_, ?_, .inr ⟨rfl, rfl, rfl⟩⟩
      · simp [refer, hentry]
      · simp [refer, hentry]
    | false => exact .inl (by simp [refer, hentry])

theorem owners_eq_zero (h : Counted c held values) (hnone : c.entries x = none) :
    owners held values x = 0 := by
  apply List.countP_eq_zero.mpr
  intro v hv hany
  obtain ⟨o, ho, hid⟩ := (Option.any_eq_true _ _).mp hany
  obtain ⟨r, hr, -⟩ := h.entry_of_held hv ho
  rw [of_decide_eq_true hid, hnone] at hr
  cases hr

/-- An object that was referred to has one owner more. -/
theorem Counted.refer (h : Counted c held values) (hlength : values.length < 2 ^ 63)
    {constructed : Bool} {c' : Cache φ} (hrefer : c.refer x constructed = (some o, c'))
    (hv : held v = some o) : Counted c' held (v :: values) := by
  rcases Cache.refer_cases c x constructed with hnone | ⟨r, hobject, hentries, hcases⟩
  · rw [hnone] at hrefer
    cases hrefer
  rw [hrefer] at hobject hentries
  obtain rfl := Option.some.inj hobject
  have hid : r.value.id = x := by
    rcases hcases with ⟨r₀, hentry, rfl⟩ | ⟨-, hid, -⟩
    · exact (h.entry x r₀ hentry).1
    · exact hid
  have hcount : r.refCount.toNat = owners held values x + 1 := by
    have hle : owners held values x ≤ values.length := owners_le_length
    rcases hcases with ⟨r₀, hentry, rfl⟩ | ⟨hentry, -, hone⟩
    · change (r₀.refCount + 1).toNat = _
      rw [UInt64.toNat_add, (h.entry x r₀ hentry).2]
      exact Nat.mod_eq_of_lt (by change _ + 1 < _; omega)
    · rw [hone, owners_eq_zero h hentry]
      rfl
  constructor
  · intro y r' hr'
    rw [hentries] at hr'
    rw [owners_cons_some hv]
    by_cases hy : y = x
    · subst hy
      rw [Function.update_self] at hr'
      obtain rfl := Option.some.inj hr'
      exact ⟨hid, by rw [hcount, if_pos hid]⟩
    · rw [Function.update_of_ne hy] at hr'
      obtain ⟨hid', hcount'⟩ := h.entry y r' hr'
      exact ⟨hid', by rw [hcount', if_neg fun hyx => hy (hyx.symm.trans hid), Nat.add_zero]⟩
  · intro w hw p hp
    apply Cache.live_iff.mpr
    rw [hentries]
    rcases List.mem_cons.mp hw with rfl | hw
    · obtain rfl := Option.some.inj (hv.symm.trans hp)
      exact ⟨r, by rw [hid, Function.update_self], rfl⟩
    obtain ⟨r', hr', hvalue, -⟩ := h.entry_of_held hw hp
    by_cases hpx : p.id = x
    · refine ⟨r, by rw [hpx, Function.update_self], ?_⟩
      rcases hcases with ⟨r₀, hentry, rfl⟩ | ⟨hentry, -⟩
      · rw [hpx, hentry] at hr'
        obtain rfl := Option.some.inj hr'
        exact hvalue
      · rw [hpx, hentry] at hr'
        cases hr'
    · exact ⟨r', by rw [Function.update_of_ne hpx, hr'], hvalue⟩

theorem Cache.refer_none {constructed : Bool} {c' : Cache φ}
    (hrefer : c.refer x constructed = (none, c')) : c = c' := by
  rcases Cache.refer_cases c x constructed with hnone | ⟨r, hobject, -⟩
  · rw [hnone] at hrefer
    exact (Prod.mk.inj hrefer).2
  · rw [hrefer] at hobject
    cases hobject

theorem referenced_refer {constructed : Bool} {c' : Cache φ}
    (hrefer : c.refer x constructed = (some o, c')) (hv : held v = some o)
    (hreferenced : ∀ y r, c.entries y = some r → 0 < owners held values y) :
    ∀ y r, c'.entries y = some r → 0 < owners held (v :: values) y := by
  intro y r hr
  rcases Cache.refer_cases c x constructed with hnone | ⟨r', hobject, hentries, hcases⟩
  · rw [hnone] at hrefer
    cases hrefer
  rw [hrefer] at hobject hentries
  obtain rfl := Option.some.inj hobject
  rw [owners_cons_some hv]
  by_cases hy : y = x
  · subst hy
    rcases hcases with ⟨r₀, hentry, rfl⟩ | ⟨-, hid, -⟩
    · have hpos := hreferenced y r₀ hentry
      omega
    · rw [if_pos hid]
      omega
  · rw [hentries, Function.update_of_ne hy] at hr
    have hpos := hreferenced y r hr
    omega

/-! ### Giving an object back -/

omit [DecidableEq φ] in
/-- One of `n + 1` references is released. -/
theorem releaseReference_of_count {r : RefCounted (Object φ)} {n : Nat}
    (hcount : r.refCount.toNat = n + 1) : r.releaseReference.1.value = r.value ∧
      r.releaseReference.1.refCount.toNat = n ∧ (r.releaseReference.2 = true ↔ n = 0) := by
  have hpos : r.refCount > 0 := by
    rw [gt_iff_lt, UInt64.lt_iff_toNat_lt, hcount]
    exact Nat.succ_pos n
  have hless : r.releaseReference.1.refCount.toNat = n := by
    change (r.refCount - if r.refCount > 0 then 1 else 0).toNat = n
    rw [if_pos hpos, UInt64.toNat_sub_of_le r.refCount 1 (UInt64.le_iff_toNat_le.mpr
      (UInt64.lt_iff_toNat_lt.mp hpos)), hcount]
    rfl
  refine ⟨rfl, hless, ?_⟩
  change decide (r.releaseReference.1.refCount = 0) = true ↔ _
  rw [decide_eq_true_iff, ← UInt64.toNat_inj, hless]
  rfl

theorem Counted.release_entries (h : Counted c held (v :: rest)) (hv : held v = some o)
    (removed : Bool) : ∃ r, c.entries o.id = some r ∧ r.value = o ∧
      r.releaseReference.1.value = o ∧
      r.releaseReference.1.refCount.toNat = owners held rest o.id ∧
      (c.release o removed).entries = Function.update c.entries o.id
        (if owners held rest o.id = 0 ∧ removed = true then none
          else some r.releaseReference.1) := by
  obtain ⟨r, hr, hvalue, hcount⟩ := h.entry_of_held List.mem_cons_self hv
  rw [owners_cons_some hv, if_pos rfl] at hcount
  obtain ⟨hsame, hless, hlast⟩ := releaseReference_of_count hcount
  refine ⟨r, hr, hvalue, hsame.trans hvalue, hless, ?_⟩
  simp only [Cache.release, hr, Bool.and_eq_true, hlast]

/-- The owner of an object releases it. -/
theorem Counted.release (h : Counted c held (v :: rest)) (hv : held v = some o) (removed : Bool) :
    Counted (c.release o removed) held rest := by
  obtain ⟨r, hr, hvalue, hsame, hless, hentries⟩ := h.release_entries hv removed
  constructor
  · intro y r' hr'
    rw [hentries] at hr'
    by_cases hy : y = o.id
    · subst hy
      rw [Function.update_self] at hr'
      obtain ⟨-, hr'⟩ := Option.ite_none_left_eq_some.mp hr'
      obtain rfl := Option.some.inj hr'
      exact ⟨by rw [hsame], hless⟩
    · rw [Function.update_of_ne hy] at hr'
      obtain ⟨hid, hcount⟩ := h.entry y r' hr'
      rw [owners_cons_some hv, if_neg fun hyo => hy hyo.symm] at hcount
      exact ⟨hid, hcount⟩
  · intro w hw p hp
    apply Cache.live_iff.mpr
    rw [hentries]
    obtain ⟨r', hr', hvalue', -⟩ := h.entry_of_held (List.mem_cons_of_mem v hw) hp
    by_cases hpo : p.id = o.id
    · -- another owner is left, so that this was not the last one
      have hpos : 0 < owners held rest o.id := hpo ▸ owners_pos hw hp
      have hsome : r' = r := by
        rw [hpo, hr] at hr'
        exact (Option.some.inj hr').symm
      refine ⟨r.releaseReference.1, ?_, ?_⟩
      · rw [hpo, Function.update_self, if_neg fun hzero => Nat.pos_iff_ne_zero.mp hpos hzero.1]
      · rw [hsame, ← hvalue', hsome, hvalue]
    · exact ⟨r', by rw [Function.update_of_ne hpo, hr'], hvalue'⟩

/-- A map that keeps nothing without an owner goes on to do so. -/
theorem referenced_release (h : Counted c held (v :: rest)) (hv : held v = some o)
    (hreferenced : ∀ y r, c.entries y = some r → 0 < owners held (v :: rest) y) :
    ∀ y r, (c.release o true).entries y = some r → 0 < owners held rest y := by
  intro y r hr
  obtain ⟨r', -, -, -, -, hentries⟩ := h.release_entries hv true
  rw [hentries] at hr
  by_cases hy : y = o.id
  · subst hy
    rw [Function.update_self] at hr
    obtain ⟨hnot, -⟩ := Option.ite_none_left_eq_some.mp hr
    exact Nat.pos_of_ne_zero fun hzero => hnot ⟨hzero, rfl⟩
  · rw [Function.update_of_ne hy] at hr
    have hpos := hreferenced y r hr
    rw [owners_cons_some hv, if_neg fun hyo => hy hyo.symm] at hpos
    exact hpos

end Owners

/-! ### Values over the instance -/

section Values

variable {native : Native φ} {values rest : List (Value φ)} {v v' : Value φ} {s t : State φ}

/-- The value has nothing to release. -/
def Value.Free (v : Value φ) : Prop := v.heldReader = none ∧ v.heldWriter = none

omit [DecidableEq φ] in
theorem Value.free_of_access (h : v.kind.isAccess = true) : v.Free := by
  constructor
  · simp only [heldReader, h, if_true]
    split <;> rfl
  · simp only [heldWriter, h, if_true]
    split <;> rfl

omit [DecidableEq φ] in
theorem Value.free_of_null (h : v.pointer = none) : v.Free := by
  simp [Free, heldReader, heldWriter, h]

omit [DecidableEq φ] in
/-- What a value holds depends on its pointer and on whether it is an access. -/
theorem Value.held_congr (hpointer : v'.pointer = v.pointer)
    (hkind : v'.kind.isAccess = v.kind.isAccess) :
    v'.heldReader = v.heldReader ∧ v'.heldWriter = v.heldWriter := by
  simp [heldReader, heldWriter, hpointer, hkind]

theorem Owned.live (h : Owned native values) (hne : values ≠ []) : ∃ lib, native = .live lib := by
  cases native with
  | live lib => exact ⟨lib, rfl⟩
  | destroyed => exact absurd h hne
  | misused => exact absurd h not_false

theorem Owned.perm (h : Owned native values) (hperm : values.Perm rest) : Owned native rest := by
  cases native with
  | live lib =>
    obtain ⟨hne, hreaders, hwriters, hreferenced⟩ := h
    refine ⟨?_, hreaders.perm hperm, hwriters.perm hperm, fun x r hr => ?_⟩
    · rintro rfl
      exact hne hperm.eq_nil
    · rw [owners, ← hperm.countP_eq]
      exact hreferenced x r hr
  | destroyed =>
    subst h
    exact hperm.nil_eq.symm
  | misused => exact h

theorem Owned.congr (h : Owned native (v :: rest)) (hheld : v'.heldReader = v.heldReader ∧
    v'.heldWriter = v.heldWriter) : Owned native (v' :: rest) := by
  cases native with
  | live lib =>
    obtain ⟨-, hreaders, hwriters, hreferenced⟩ := h
    refine ⟨List.cons_ne_nil v' rest, (counted_cons_congr hheld.1).mpr hreaders,
      (counted_cons_congr hheld.2).mpr hwriters, fun x r hr => ?_⟩
    rw [owners_cons, hheld.1, ← owners_cons]
    exact hreferenced x r hr
  | destroyed => cases h
  | misused => exact h

theorem Owned.cons_free (h : Owned native values) (hne : values ≠ []) (hfree : v.Free) :
    Owned native (v :: values) := by
  obtain ⟨lib, rfl⟩ := h.live hne
  obtain ⟨-, hreaders, hwriters, hreferenced⟩ := h
  refine ⟨List.cons_ne_nil v values, (counted_cons_none hfree.1).mpr hreaders,
    (counted_cons_none hfree.2).mpr hwriters, fun x r hr => ?_⟩
  rw [owners_cons_none hfree.1]
  exact hreferenced x r hr

theorem Owned.of_cons_free (h : Owned native (v :: rest)) (hne : rest ≠ []) (hfree : v.Free) :
    Owned native rest := by
  obtain ⟨lib, rfl⟩ := h.live (List.cons_ne_nil v rest)
  obtain ⟨-, hreaders, hwriters, hreferenced⟩ := h
  refine ⟨hne, (counted_cons_none hfree.1).mp hreaders, (counted_cons_none hfree.2).mp hwriters,
    fun x r hr => ?_⟩
  rw [← owners_cons_none hfree.1]
  exact hreferenced x r hr

/-- The pointer of a value that has to release it. -/
def Value.Holds (v : Value φ) (p : Pointer φ) : Prop := v.pointer = some p ∧ v.kind.isAccess = false

omit [DecidableEq φ] in
theorem Value.Holds.reader {o : Object φ} (h : v.Holds (.reader o)) :
    v.heldReader = some o ∧ v.heldWriter = none := by
  simp [heldReader, heldWriter, h.1, h.2]

omit [DecidableEq φ] in
theorem Value.Holds.writer {o : Object φ} (h : v.Holds (.writer o)) :
    v.heldReader = none ∧ v.heldWriter = some o := by
  simp [heldReader, heldWriter, h.1, h.2]

/-- A call on what some value holds is a proper one. -/
theorem Owned.use (h : Owned native values) (hv : v ∈ values) {p : Pointer φ} (hp : v.Holds p) :
    native.use p = native := by
  obtain ⟨lib, rfl⟩ := h.live (List.ne_nil_of_mem hv)
  obtain ⟨-, hreaders, hwriters, -⟩ := h
  apply if_pos
  cases p with
  | reader o => exact hreaders.live v hv o hp.reader.1
  | writer o => exact hwriters.live v hv o hp.writer.2

/-- The owner releases its handle. -/
theorem Owned.release (h : Owned native (v :: rest)) {p : Pointer φ} (hp : v.Holds p)
    (deleted : Bool) (hfree : v'.Free) : Owned (native.release p deleted) (v' :: rest) := by
  obtain ⟨lib, rfl⟩ := h.live (List.cons_ne_nil v rest)
  obtain ⟨-, hreaders, hwriters, hreferenced⟩ := h
  have hne : v' :: rest ≠ [] := List.cons_ne_nil v' rest
  cases p with
  | reader o =>
    obtain ⟨hreader, hwriter⟩ := hp.reader
    have hlive : lib.Live (.reader o) := hreaders.live v List.mem_cons_self o hreader
    rw [Native.release, if_pos hlive]
    have hreleased := hreaders.release hreader true
    refine ⟨hne, (counted_cons_none hfree.1).mpr hreleased,
      (counted_cons_none hfree.2).mpr ((counted_cons_none hwriter).mp hwriters), fun x r hr => ?_⟩
    rw [owners_cons_none hfree.1]
    exact referenced_release hreaders hreader hreferenced x r hr
  | writer o =>
    obtain ⟨hreader, hwriter⟩ := hp.writer
    have hlive : lib.Live (.writer o) := hwriters.live v List.mem_cons_self o hwriter
    rw [Native.release, if_pos hlive]
    refine ⟨hne, (counted_cons_none hfree.1).mpr ((counted_cons_none hreader).mp hreaders),
      (counted_cons_none hfree.2).mpr (hwriters.release hwriter deleted), fun x r hr => ?_⟩
    rw [owners_cons_none hfree.1, ← owners_cons_none hreader]
    exact hreferenced x r hr

theorem Native.createFlowReader_live (lib : Library φ) (x : φ) (opened : Bool) :
    (Native.live lib).createFlowReader x opened = ((lib.readers.refer x opened).1,
      .live { lib with readers := (lib.readers.refer x opened).2 }) := rfl

theorem Native.createFlowWriter_live (lib : Library φ) (x : φ) (constructed : Bool) :
    (Native.live lib).createFlowWriter x true constructed = ((lib.writers.refer x constructed).1,
      .live { lib with writers := (lib.writers.refer x constructed).2 }) := rfl

theorem Owned.createFlowReader_none (h : Owned native values) (hne : values ≠ []) {x : φ}
    {opened : Bool} {native' : Native φ}
    (hcall : native.createFlowReader x opened = (none, native')) : Owned native' values := by
  obtain ⟨lib, rfl⟩ := h.live hne
  rw [Native.createFlowReader_live] at hcall
  obtain ⟨hobject, rfl⟩ := Prod.mk.inj hcall
  have hsame : lib.readers = (lib.readers.refer x opened).2 :=
    Cache.refer_none (Prod.ext hobject rfl)
  rw [← hsame]
  exact h

theorem Owned.createFlowReader_some (h : Owned native values) (hne : values ≠ [])
    (hlength : values.length < 2 ^ 63) {x : φ} {opened : Bool} {o : Object φ} {native' : Native φ}
    (hcall : native.createFlowReader x opened = (some o, native')) (hv : v.Holds (.reader o)) :
    Owned native' (v :: values) := by
  obtain ⟨lib, rfl⟩ := h.live hne
  obtain ⟨-, hreaders, hwriters, hreferenced⟩ := h
  rw [Native.createFlowReader_live] at hcall
  obtain ⟨hobject, rfl⟩ := Prod.mk.inj hcall
  obtain ⟨hreader, hwriter⟩ := hv.reader
  have hrefer : lib.readers.refer x opened = (some o, (lib.readers.refer x opened).2) :=
    Prod.ext hobject rfl
  refine ⟨List.cons_ne_nil v values, hreaders.refer hlength hrefer hreader,
    (counted_cons_none hwriter).mpr hwriters, ?_⟩
  exact referenced_refer hrefer hreader hreferenced

theorem Owned.createFlowWriter_none (h : Owned native values) (hne : values ≠ []) {x : φ}
    {opened constructed : Bool} {native' : Native φ}
    (hcall : native.createFlowWriter x opened constructed = (none, native')) :
    Owned native' values := by
  obtain ⟨lib, rfl⟩ := h.live hne
  cases opened with
  | false =>
    obtain ⟨-, rfl⟩ := Prod.mk.inj hcall
    exact h
  | true =>
    rw [Native.createFlowWriter_live] at hcall
    obtain ⟨hobject, rfl⟩ := Prod.mk.inj hcall
    have hsame : lib.writers = (lib.writers.refer x constructed).2 :=
      Cache.refer_none (Prod.ext hobject rfl)
    rw [← hsame]
    exact h

theorem Owned.createFlowWriter_some (h : Owned native values) (hne : values ≠ [])
    (hlength : values.length < 2 ^ 63) {x : φ} {opened constructed : Bool} {o : Object φ}
    {native' : Native φ}
    (hcall : native.createFlowWriter x opened constructed = (some o, native'))
    (hv : v.Holds (.writer o)) : Owned native' (v :: values) := by
  obtain ⟨lib, rfl⟩ := h.live hne
  obtain ⟨-, hreaders, hwriters, hreferenced⟩ := h
  cases opened with
  | false => cases (Prod.mk.inj hcall).1
  | true =>
    rw [Native.createFlowWriter_live] at hcall
    obtain ⟨hobject, rfl⟩ := Prod.mk.inj hcall
    obtain ⟨hreader, hwriter⟩ := hv.writer
    have hrefer : lib.writers.refer x constructed =
        (some o, (lib.writers.refer x constructed).2) := Prod.ext hobject rfl
    refine ⟨List.cons_ne_nil v values, (counted_cons_none hreader).mpr hreaders,
      hwriters.refer hlength hrefer hwriter, fun y r hr => ?_⟩
    rw [owners_cons_none hreader]
    exact hreferenced y r hr

end Values

/-! ### Accesses and their writers -/

/-- The writer that the access borrows is there, and is left alone. -/
def Borrowing (values : List (Value φ)) (a : Value φ) : Prop :=
  ∃ w ∈ values, a.borrows = some w.name ∧ w.stage = .usable ∧ w.kind.isAccess = false ∧
    a.pointer = w.pointer

def Accesses (values : List (Value φ)) : Prop :=
  ∀ a ∈ values, a.kind.isAccess = true → a.stage ≠ .forgotten → Borrowing values a

/-- No access can have borrowed the value. -/
def NoLender (v : Value φ) (values : List (Value φ)) : Prop :=
  v.stage ≠ .usable ∨ v.kind.isAccess = true ∨
    ∀ a ∈ values, a.stage = .forgotten ∨ a.borrows ≠ some v.name

section Accesses

variable {values rest : List (Value φ)} {v v' a : Value φ}

omit [DecidableEq φ] in
theorem Borrowing.mono (h : Borrowing values a) (hsub : ∀ w ∈ values, w ∈ rest) :
    Borrowing rest a := by
  obtain ⟨w, hw, hspec⟩ := h
  exact ⟨w, hsub w hw, hspec⟩

omit [DecidableEq φ] in
theorem Accesses.perm (h : Accesses values) (hperm : values.Perm rest) : Accesses rest := by
  intro a ha hkind hstage
  exact (h a (hperm.mem_iff.mpr ha) hkind hstage).mono fun w hw => hperm.mem_iff.mp hw

omit [DecidableEq φ] in
/-- A value that nothing is borrowed from can be set aside. -/
theorem Borrowing.of_cons (h : Borrowing (v :: rest) a) (ha : a ∈ v :: rest)
    (hstage : a.stage ≠ .forgotten) (hlender : NoLender v (v :: rest)) : Borrowing rest a := by
  obtain ⟨w, hw, hborrows, husable, hkind, hpointer⟩ := h
  rcases List.mem_cons.mp hw with rfl | hw
  · rcases hlender with hnot | haccess | hfree
    · exact absurd husable hnot
    · rw [haccess] at hkind
      cases hkind
    · exact ((hfree a ha).resolve_left hstage hborrows).elim
  · exact ⟨w, hw, hborrows, husable, hkind, hpointer⟩

omit [DecidableEq φ] in
theorem Accesses.of_cons (h : Accesses (v :: rest)) (hlender : NoLender v (v :: rest)) :
    Accesses rest := by
  intro a ha hkind hstage
  have hmem : a ∈ v :: rest := List.mem_cons_of_mem v ha
  exact (h a hmem hkind hstage).of_cons hmem hstage hlender

omit [DecidableEq φ] in
theorem Accesses.cons (h : Accesses values)
    (hv : v.kind.isAccess = true → v.stage ≠ .forgotten → Borrowing values v) :
    Accesses (v :: values) := by
  intro a ha hkind hstage
  refine Borrowing.mono ?_ fun w hw => List.mem_cons_of_mem v hw
  rcases List.mem_cons.mp ha with rfl | ha
  · exact hv hkind hstage
  · exact h a ha hkind hstage

omit [DecidableEq φ] in
/-- A value that nothing is borrowed from is changed; an access keeps its pointer. -/
theorem Accesses.change (h : Accesses (v :: rest)) (hlender : NoLender v (v :: rest))
    (hstage : v.stage ≠ .forgotten) (hkind : v'.kind = v.kind)
    (hsame : v.kind.isAccess = true → v'.borrows = v.borrows ∧ v'.pointer = v.pointer) :
    Accesses (v' :: rest) := by
  apply (h.of_cons hlender).cons
  intro haccess _
  rw [hkind] at haccess
  obtain ⟨hborrows, hpointer⟩ := hsame haccess
  have hv : Borrowing rest v :=
    (h v List.mem_cons_self haccess hstage).of_cons List.mem_cons_self hstage hlender
  obtain ⟨w, hw, hspec⟩ := hv
  exact ⟨w, hw, by rwa [hborrows, hpointer]⟩

end Accesses

/-! ### The invariant -/

/-- What holds of the values by themselves. -/
structure Balanced (s : State φ) : Prop where
  strong : s.strong = s.values.length
  bound : s.strong ≤ 2 ^ 63
  accesses : Accesses s.values

structure Invariant (s : State φ) : Prop extends Balanced s where
  owned : Owned s.native s.values

section Steps

variable {s t : State φ} {v : Value φ} {f : Value φ → Value φ}

theorem invariant_initial : Invariant (State.initial : State φ) where
  strong := rfl
  bound := Nat.one_le_two_pow
  accesses a ha hkind := by
    obtain rfl := List.mem_singleton.mp ha
    cases hkind
  owned := by
    have hempty : ∀ held : Value φ → Option (Object φ),
        held ⟨0, .mxlInstance, .usable, none, none, false⟩ = none →
        Counted Cache.empty held [⟨0, .mxlInstance, .usable, none, none, false⟩] := by
      intro held hnone
      refine ⟨fun x r hr => absurd hr (by simp [Cache.empty]), fun v hv o ho => ?_⟩
      rw [List.mem_singleton.mp hv, hnone] at ho
      cases ho
    refine ⟨List.cons_ne_nil _ _, hempty _ rfl, hempty _ rfl, fun x r hr => ?_⟩
    cases hr

/-- The value in front. -/
theorem Invariant.front (h : Invariant s) (hv : v ∈ s.values) :
    Accesses (v :: s.values.erase v) ∧ Owned s.native (v :: s.values.erase v) :=
  ⟨h.accesses.perm (List.perm_cons_erase hv), h.owned.perm (List.perm_cons_erase hv)⟩

omit [DecidableEq φ] in
/-- A clone of the `Arc` for a new value. -/
theorem Balanced.clone (h : Balanced s) {kind : Kind} {pointer : Option (Pointer φ)}
    {borrows : Option Nat} (haccess : kind.isAccess = true →
      Borrowing s.values ⟨s.nextName, kind, .usable, pointer, borrows, false⟩)
    (hclone : s.clone kind pointer borrows = some t) :
    Balanced t ∧ t.native = s.native ∧
      t.values = ⟨s.nextName, kind, .usable, pointer, borrows, false⟩ :: s.values := by
  obtain ⟨hmax, heq⟩ := Option.ite_none_right_eq_some.mp hclone
  obtain rfl := Option.some.inj heq
  refine ⟨⟨?_, ?_, ?_⟩, rfl, rfl⟩
  · rw [List.length_cons]
    exact congrArg (· + 1) h.strong
  · change s.strong ≤ 2 ^ 63 - 1 at hmax
    change s.strong + 1 ≤ 2 ^ 63
    omega
  · exact h.accesses.cons fun hkind _ => haccess hkind

theorem Balanced.change (h : Balanced s) (hv : v ∈ s.values) (native : Native φ)
    (haccesses : Accesses (f v :: s.values.erase v)) :
    Balanced ({ s with native }.change v f) where
  strong := by
    rw [State.change, List.length_cons, List.length_erase_of_mem hv,
      Nat.sub_add_cancel (List.length_pos_of_mem hv)]
    exact h.strong
  bound := h.bound
  accesses := haccesses

theorem Invariant.change (h : Invariant s) (hv : v ∈ s.values) {native : Native φ}
    (haccesses : Accesses (f v :: s.values.erase v))
    (howned : Owned native (f v :: s.values.erase v)) :
    Invariant ({ s with native }.change v f) :=
  { h.toBalanced.change hv native haccesses with owned := howned }

omit [DecidableEq φ] in
theorem Balanced.with_native (h : Balanced s) (native : Native φ) :
    Balanced { s with native } := { h with }

theorem Invariant.length_lt (h : Invariant s) (hmax : s.strong ≤ maxRefCount) :
    s.values.length < 2 ^ 63 := by
  rw [← h.strong]
  change s.strong ≤ 2 ^ 63 - 1 at hmax
  omega

omit [DecidableEq φ] in
theorem value?_spec {n : Nat} {stage : Stage} (h : s.value? n stage = some v) :
    v ∈ s.values ∧ v.stage = stage := by
  have hprop := List.find?_some h
  simp only [decide_eq_true_eq] at hprop
  exact ⟨List.mem_of_find?_eq_some h, hprop.2⟩

end Steps

/-! ### Steps keep the invariant -/

section Preservation

variable {s t : State φ} {v : Value φ}

theorem invariant_createFlowReader (h : Invariant s) (hv : v ∈ s.values) {x : φ} {opened : Bool}
    (hstep : createFlowReader s v x opened = some t) : Invariant t := by
  obtain ⟨-, hstep⟩ := Option.ite_none_right_eq_some.mp hstep
  have hne : s.values ≠ [] := List.ne_nil_of_mem hv
  split at hstep
  · rename_i o native heq
    have hmax := (Option.ite_none_right_eq_some.mp hstep).1
    obtain ⟨hbalanced, hnative, hvalues⟩ :=
      (h.with_native native).clone (fun hkind => by cases hkind) hstep
    refine ⟨hbalanced, ?_⟩
    rw [hnative, hvalues]
    exact h.owned.createFlowReader_some hne (h.length_lt hmax) heq ⟨rfl, rfl⟩
  · rename_i native heq
    obtain rfl := Option.some.inj hstep
    exact { h with owned := h.owned.createFlowReader_none hne heq }

theorem invariant_createFlowWriter (h : Invariant s) (hv : v ∈ s.values) {x : φ}
    {opened constructed : Bool} (hstep : createFlowWriter s v x opened constructed = some t) :
    Invariant t := by
  obtain ⟨-, hstep⟩ := Option.ite_none_right_eq_some.mp hstep
  have hne : s.values ≠ [] := List.ne_nil_of_mem hv
  split at hstep
  · rename_i o native heq
    have hmax := (Option.ite_none_right_eq_some.mp hstep).1
    obtain ⟨hbalanced, hnative, hvalues⟩ :=
      (h.with_native native).clone (fun hkind => by cases hkind) hstep
    refine ⟨hbalanced, ?_⟩
    rw [hnative, hvalues]
    exact h.owned.createFlowWriter_some hne (h.length_lt hmax) heq ⟨rfl, rfl⟩
  · rename_i native heq
    obtain rfl := Option.some.inj hstep
    exact { h with owned := h.owned.createFlowWriter_none hne heq }

theorem Kind.not_access_of_converted {kind kind' : Kind} {toGrain : Bool}
    (h : kind.converted toGrain = some kind') :
    kind.isAccess = false ∧ kind'.isAccess = false := by
  cases kind with
  | flowReader | flowWriter =>
    cases toGrain with
    | true | false =>
      obtain rfl := Option.some.inj h
      exact ⟨rfl, rfl⟩
  | _ => cases h

theorem Kind.isAccess_of_access {kind kind' : Kind} (h : kind.access = some kind') :
    kind.isAccess = false ∧ kind'.isAccess = true := by
  cases kind with
  | grainWriter | samplesWriter =>
    obtain rfl := Option.some.inj h
    exact ⟨rfl, rfl⟩
  | _ => cases h

/-- A value that nobody borrows from gives its pointer away, or is only dropped. -/
theorem invariant_convert (h : Invariant s) (hv : v ∈ s.values) (hstage : v.stage = .usable)
    (hfree : s.Unborrowed v.name) {toGrain : Bool} {format : Option UInt32}
    (hstep : convert s v toGrain format = some t) : Invariant t := by
  obtain ⟨haccesses, howned⟩ := h.front hv
  have hlender : NoLender v (v :: s.values.erase v) := by
    refine .inr (.inr fun a ha => hfree a ?_)
    exact (List.perm_cons_erase hv).mem_iff.mpr ha
  have hforgotten : v.stage ≠ .forgotten := by simp [hstage]
  unfold convert at hstep
  cases hkind : v.kind.converted toGrain with
  | none =>
    rw [hkind] at hstep
    cases hstep
  | some kind =>
    rw [hkind] at hstep
    have hnot := Kind.not_access_of_converted hkind
    dsimp only at hstep
    split at hstep
    · have hnull : Accesses ({ v with stage := .dropping, pointer := none } :: s.values.erase v) :=
        haccesses.change hlender hforgotten rfl fun haccess => by
          rw [hnot.1] at haccess
          cases haccess
      obtain ⟨hbalanced, hnative, hvalues⟩ :=
        (h.toBalanced.change hv s.native hnull).clone (fun haccess => by
          rw [hnot.2] at haccess
          cases haccess) hstep
      refine ⟨hbalanced, ?_⟩
      rw [hnative, hvalues]
      -- the new value holds what the old one held
      have htaken : Owned s.native
          (⟨s.nextName, kind, .usable, v.pointer, none, false⟩ :: s.values.erase v) :=
        howned.congr (Value.held_congr rfl (hnot.2.trans hnot.1.symm))
      have hfree : ({ v with stage := .dropping, pointer := none } : Value φ).Free :=
        Value.free_of_null rfl
      exact (htaken.cons_free (List.cons_ne_nil _ _) hfree).perm (List.Perm.swap _ _ _)
    · obtain rfl := Option.some.inj hstep
      apply h.change hv
      · exact haccesses.change hlender hforgotten rfl fun _ => ⟨rfl, rfl⟩
      · exact howned.congr (Value.held_congr rfl rfl)

/-- The pointer of a value in the program's hands, or being dropped, is a good one. -/
theorem Invariant.call_eq (h : Invariant s) (hv : v ∈ s.values) (hstage : v.stage ≠ .forgotten) :
    call s v = s := by
  unfold call
  cases hpointer : v.pointer with
  | none => rfl
  | some p =>
    cases hkind : v.kind.isAccess with
    | false =>
      simp only
      rw [h.owned.use hv ⟨hpointer, hkind⟩]
    | true =>
      obtain ⟨w, hw, -, -, hnot, hsame⟩ := h.accesses v hv hkind hstage
      simp only
      rw [h.owned.use hw ⟨hsame.symm.trans hpointer, hnot⟩]

theorem invariant_openAccess (h : Invariant s) (hv : v ∈ s.values) (hstage : v.stage = .usable)
    {opened : Bool} (hstep : openAccess s v opened = some t) : Invariant t := by
  unfold openAccess at hstep
  rw [h.call_eq hv (by simp [hstage])] at hstep
  cases hkind : v.kind.access with
  | none =>
    rw [hkind] at hstep
    cases hstep
  | some kind =>
    rw [hkind] at hstep
    obtain ⟨hwriter, haccess⟩ := Kind.isAccess_of_access hkind
    dsimp only at hstep
    split at hstep
    · obtain ⟨hbalanced, hnative, hvalues⟩ := h.toBalanced.clone
        (fun _ => ⟨v, hv, rfl, hstage, hwriter, rfl⟩) hstep
      refine ⟨hbalanced, ?_⟩
      rw [hnative, hvalues]
      exact h.owned.cons_free (List.ne_nil_of_mem hv) (Value.free_of_access haccess)
    · obtain rfl := Option.some.inj hstep
      exact h

theorem invariant_close (h : Invariant s) (hv : v ∈ s.values) (hstage : v.stage = .usable)
    {called : Bool} (hstep : close s v called = some t) : Invariant t := by
  obtain ⟨haccesses, howned⟩ := h.front hv
  obtain ⟨hkind, hstep⟩ := Option.ite_none_right_eq_some.mp hstep
  rw [h.call_eq hv (by simp [hstage]), ite_self] at hstep
  obtain rfl := Option.some.inj hstep
  apply h.change hv
  · exact haccesses.change (.inr (.inl hkind)) (by simp [hstage]) rfl fun _ => ⟨rfl, rfl⟩
  · exact howned.congr (Value.held_congr rfl rfl)

theorem invariant_release (h : Invariant s) (hv : v ∈ s.values) (hstage : v.stage = .dropping)
    {deleted : Bool} (hstep : release s v deleted = some t) : Invariant t := by
  obtain ⟨haccesses, howned⟩ := h.front hv
  have hlender : NoLender v (v :: s.values.erase v) := .inl (by simp [hstage])
  have hforgotten : v.stage ≠ .forgotten := by simp [hstage]
  unfold release at hstep
  rw [h.call_eq hv hforgotten] at hstep
  split at hstep
  · rename_i hkind
    obtain ⟨-, heq⟩ := Option.ite_none_left_eq_some.mp hstep
    obtain rfl := Option.some.inj heq
    apply h.change hv
    · exact haccesses.change hlender hforgotten rfl fun _ => ⟨rfl, rfl⟩
    · exact howned.congr (Value.held_congr rfl rfl)
  · rename_i hkind
    split at hstep
    · rename_i p hpointer
      obtain rfl := Option.some.inj hstep
      apply h.change hv
      · exact haccesses.change hlender hforgotten rfl fun haccess => absurd haccess hkind
      · exact howned.release ⟨hpointer, Bool.eq_false_iff.mpr hkind⟩ deleted
          (Value.free_of_null rfl)
    · cases hstep

theorem invariant_finish (h : Invariant s) (hv : v ∈ s.values) (hstage : v.stage = .dropping)
    (hstep : finish s v = some t) : Invariant t := by
  obtain ⟨haccesses, howned⟩ := h.front hv
  obtain ⟨hdone, heq⟩ := Option.ite_none_right_eq_some.mp hstep
  obtain rfl := Option.some.inj heq
  have hlender : NoLender v (v :: s.values.erase v) := .inl (by simp [hstage])
  have hlength : (s.values.erase v).length = s.strong - 1 := by
    rw [List.length_erase_of_mem hv, h.strong]
  refine ⟨⟨hlength.symm, Nat.le_trans (Nat.sub_le s.strong 1) h.bound,
    haccesses.of_cons hlender⟩, ?_⟩
  have hpos : 0 < s.strong := by
    rw [h.strong]
    exact List.length_pos_of_mem hv
  have hfree : v.Free := by
    split at hdone
    · rename_i hkind
      exact Value.free_of_access hkind
    · exact Value.free_of_null (Option.isNone_iff_eq_none.mp hdone)
  by_cases hone : s.strong = 1
  · obtain ⟨lib, hlib⟩ := h.owned.live (List.ne_nil_of_mem hv)
    have hnil : s.values.erase v = [] := List.length_eq_zero_iff.mp (by rw [hlength, hone])
    simp only [State.dropArc, if_pos hone, hlib, hnil]
    rfl
  · have hne : s.values.erase v ≠ [] := by
      intro hnil
      rw [hnil, List.length_nil] at hlength
      omega
    simp only [State.dropArc, if_neg hone]
    exact howned.of_cons_free hne hfree

theorem invariant_leave (h : Invariant s) (hv : v ∈ s.values) (hstage : v.stage = .usable)
    {stage : Stage} (hstep : leave s v stage = some t) : Invariant t := by
  obtain ⟨haccesses, howned⟩ := h.front hv
  obtain ⟨hfree, heq⟩ := Option.ite_none_right_eq_some.mp hstep
  obtain rfl := Option.some.inj heq
  have hlender : NoLender v (v :: s.values.erase v) := by
    refine .inr (.inr fun a ha => hfree a ?_)
    exact (List.perm_cons_erase hv).mem_iff.mpr ha
  apply h.change hv
  · exact haccesses.change hlender (by simp [hstage]) rfl fun _ => ⟨rfl, rfl⟩
  · exact howned.congr (Value.held_congr rfl rfl)

theorem invariant_step {a : Action φ} (h : Invariant s) (hstep : step s a = some t) :
    Invariant t := by
  cases a with
  | clone n =>
    obtain ⟨v, hvalue, hstep⟩ := Option.bind_eq_some_iff.mp hstep
    obtain ⟨hv, -⟩ := value?_spec hvalue
    obtain ⟨-, hstep⟩ := Option.ite_none_right_eq_some.mp hstep
    obtain ⟨hbalanced, hnative, hvalues⟩ := h.toBalanced.clone (fun hkind => by cases hkind) hstep
    refine ⟨hbalanced, ?_⟩
    rw [hnative, hvalues]
    exact h.owned.cons_free (List.ne_nil_of_mem hv) (Value.free_of_null rfl)
  | createFlowReader n x opened =>
    obtain ⟨v, hvalue, hstep⟩ := Option.bind_eq_some_iff.mp hstep
    exact invariant_createFlowReader h (value?_spec hvalue).1 hstep
  | createFlowWriter n x opened constructed =>
    obtain ⟨v, hvalue, hstep⟩ := Option.bind_eq_some_iff.mp hstep
    exact invariant_createFlowWriter h (value?_spec hvalue).1 hstep
  | convert n toGrain format =>
    obtain ⟨v, hvalue, hstep⟩ := Option.bind_eq_some_iff.mp hstep
    obtain ⟨hv, hstage⟩ := value?_spec hvalue
    obtain ⟨hfree, hstep⟩ := Option.ite_none_right_eq_some.mp hstep
    exact invariant_convert h hv hstage hfree hstep
  | call n =>
    obtain ⟨v, hvalue, hstep⟩ := Option.bind_eq_some_iff.mp hstep
    obtain ⟨hv, hstage⟩ := value?_spec hvalue
    obtain rfl := Option.some.inj hstep
    rw [h.call_eq hv (by simp [hstage])]
    exact h
  | openAccess n opened =>
    obtain ⟨v, hvalue, hstep⟩ := Option.bind_eq_some_iff.mp hstep
    obtain ⟨hv, hstage⟩ := value?_spec hvalue
    exact invariant_openAccess h hv hstage hstep
  | close n called =>
    obtain ⟨v, hvalue, hstep⟩ := Option.bind_eq_some_iff.mp hstep
    obtain ⟨hv, hstage⟩ := value?_spec hvalue
    exact invariant_close h hv hstage hstep
  | drop n =>
    obtain ⟨v, hvalue, hstep⟩ := Option.bind_eq_some_iff.mp hstep
    obtain ⟨hv, hstage⟩ := value?_spec hvalue
    exact invariant_leave h hv hstage hstep
  | forget n =>
    obtain ⟨v, hvalue, hstep⟩ := Option.bind_eq_some_iff.mp hstep
    obtain ⟨hv, hstage⟩ := value?_spec hvalue
    exact invariant_leave h hv hstage hstep
  | release n deleted =>
    obtain ⟨v, hvalue, hstep⟩ := Option.bind_eq_some_iff.mp hstep
    obtain ⟨hv, hstage⟩ := value?_spec hvalue
    exact invariant_release h hv hstage hstep
  | finish n =>
    obtain ⟨v, hvalue, hstep⟩ := Option.bind_eq_some_iff.mp hstep
    obtain ⟨hv, hstage⟩ := value?_spec hvalue
    exact invariant_finish h hv hstage hstep

end Preservation

/-- **Owned handles.**  Whatever is done with the values of an instance, and in whatever
    order their destructors get on, no call is made on an object or an instance that is
    gone; each object's count is the number of values that have to release it, a reader is
    kept only while there is one, and the instance is there exactly while a value is left. -/
theorem handles_sound (as : List (Action φ)) :
    Throughout step Sound (State.initial : State φ) as := by
  have hall : Throughout step Invariant (State.initial : State φ) as :=
    throughout_of_step (fun s a t h hstep => invariant_step h hstep) invariant_initial as
  exact hall.mono fun s h => h.owned

/-- A reader that outlives the instance value it came from. -/
example : ((run step (State.initial : State Unit)
    [.createFlowReader 0 () true, .drop 0, .finish 0, .convert 1 true (some 1), .finish 1,
      .call 2, .drop 2, .release 2 true, .finish 2]).map fun s =>
        (s.strong, s.values.length)) = some (0, 0) := by decide

end MediaExchange.OwnedHandles
