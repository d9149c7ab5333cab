/-
  MediaExchange/CachedHandles.lean
  ================================
  **The readers and writers an instance keeps.**

  `Instance.cpp`: an instance keeps one reader and one writer for each flow id, with
  a count of the references given out.  `getFlowReader` opens the flow that lives in
  the domain only if it has no reader for the id yet; `createFlowWriter` creates or
  opens the flow first, and lets it go again if it has a writer for the id.  The maps
  know a flow by its id alone.  The file behind the id is what the instances of the
  domain agree on, and others may remove it and put another in its place at any time,
  also between two system calls of one call.

  A call holds `_mutex`, so that the instance runs one at a time.  A flow's directory
  is removed and published in one step.  Files are numbered as they are published, as
  inodes are: no two of them that exist or are open have one number.  `removals` and
  `removalsAtOpen` are history: nothing of the code reads them.

  What is returned belongs to the flow in the domain if and only if the flow's
  directory has not been removed since the file behind the handle was opened
  (`handles_live_iff`).
-/
import MediaExchange.Library.LabelledRun
import Mathlib.Logic.Function.Basic

namespace MediaExchange.CachedHandles

open MediaExchange.LabelledRun

variable {φ κ : Type*} [DecidableEq φ]

/-! ### The domain -/

/-- A flow's data file: its number, which it also holds in its flow state, and the
    flow's configuration. -/
structure DataFile (κ : Type*) where
  inode : Nat
  config : κ
  deriving DecidableEq

structure Domain (φ κ : Type*) where
  published : φ → Option (DataFile κ)
  nextInode : Nat
  removals : φ → Nat

namespace Domain

def empty : Domain φ κ := { published := fun _ => none, nextInode := 0, removals := fun _ => 0 }

/-- Remove the flow's directory, if there is one. -/
def remove (d : Domain φ κ) (x : φ) : Domain φ κ :=
  match d.published x with
  | none => d
  | some _ =>
      { d with
        published := Function.update d.published x none
        removals := Function.update d.removals x (d.removals x + 1) }

/-- Rename a new flow's directory to its public name. -/
def publish (d : Domain φ κ) (x : φ) (config : κ) : Domain φ κ :=
  { d with
    published := Function.update d.published x (some ⟨d.nextInode, config⟩)
    nextInode := d.nextInode + 1 }

end Domain

/-! ### The instance -/

/-- A `FlowReader` or `FlowWriter`, or the `FlowData` that one is made of. -/
structure Handle (φ κ : Type*) where
  id : φ
  file : DataFile κ
  removalsAtOpen : Nat

structure RefCounted (α : Type*) where
  value : α
  refCount : UInt64

namespace RefCounted

variable {α : Type*}

def addReference (r : RefCounted α) : RefCounted α := { r with refCount := r.refCount + 1 }

/-- Also whether it was the last one. -/
def releaseReference (r : RefCounted α) : RefCounted α × Bool :=
  let r := { r with refCount := r.refCount - if r.refCount > 0 then 1 else 0 }
  (r, r.refCount = 0)

end RefCounted

/-- How far the call is that holds the mutex.  `openReader`: the map has no reader;
    `openedReader`: the flow is open; `foundReader`: the reader is in the map.
    `buildWriter`: the flow is being built in a temporary directory; `openWriter`:
    its public name is taken; `openedWriter`: there is flow data, created or not;
    `foundWriter`: and the writer is in the map.  `lastWriter`: the writer's last
    reference is gone; `exclusiveWriter`: and it may delete the flow. -/
inductive Call (φ κ : Type*) where
  | openReader (x : φ)
  | openedReader (h : Handle φ κ)
  | foundReader (h : Handle φ κ)
  | buildWriter (x : φ) (config : κ)
  | openWriter (x : φ)
  | openedWriter (flowData : Handle φ κ) (created : Bool)
  | foundWriter (flowData : Handle φ κ) (created : Bool) (h : Handle φ κ)
  | lastWriter (x : φ)
  | exclusiveWriter (x : φ)

/-- What a call has just returned. -/
inductive Returned (φ κ : Type*) where
  | reader (h : Handle φ κ)
  | writer (flow : DataFile κ) (created : Bool) (h : Handle φ κ)

structure State (φ κ : Type*) where
  domain : Domain φ κ
  readers : φ → Option (RefCounted (Handle φ κ))
  writers : φ → Option (RefCounted (Handle φ κ))
  call : Option (Call φ κ)
  returned : Option (Returned φ κ)

def State.initial : State φ κ :=
  { domain := .empty, readers := fun _ => none, writers := fun _ => none, call := none
    returned := none }

/-- `remove` and `create` are steps of others, the rest are the instance's own. -/
inductive Action (φ κ : Type*) where
  | remove (x : φ)
  | create (x : φ) (config : κ)
  | getFlowReader (x : φ)
  | releaseReader (x : φ)
  | createFlowWriter (x : φ) (config : κ)
  | releaseWriter (x : φ)
  | publish
  | openFlow
  | emplace
  | fail
  | makeExclusive (granted : Bool)
  | deleteFlow
  | returnHandle

/-! ### Steps -/

/-- `FlowManager::openFlow`. -/
def openFlow (d : Domain φ κ) (x : φ) : Option (Handle φ κ) :=
  (d.published x).map fun file => ⟨x, file, d.removals x⟩

/-- The map and the call, as a call of the instance leaves them. -/
def State.after (s : State φ κ) (call : Option (Call φ κ)) : State φ κ :=
  { s with call, returned := none }

/-- `getFlowReader`, up to the map's lookup. -/
def getFlowReader (s : State φ κ) (x : φ) : State φ κ :=
  match s.readers x with
  | some r =>
      ({ s with readers := Function.update s.readers x (some r.addReference) }).after
        (some (.foundReader r.value))
  | none => s.after (some (.openReader x))

def releaseReader (s : State φ κ) (x : φ) : State φ κ :=
  match s.readers x with
  | some r =>
      let (r, last) := r.releaseReference
      ({ s with readers := Function.update s.readers x (if last then none else some r) }).after none
  | none => s.after none

/-- `releaseWriter`, up to the release of the reference. -/
def releaseWriter (s : State φ κ) (x : φ) : State φ κ :=
  match s.writers x with
  | some r =>
      let (r, last) := r.releaseReference
      ({ s with writers := Function.update s.writers x (some r) }).after
        (if last then some (.lastWriter x) else none)
  | none => s.after none

/-- The reader is put into the map; the writer, if there is none yet. -/
def emplace (s : State φ κ) : Option (State φ κ) :=
  match s.call with
  | some (.openedReader h) =>
      some (({ s with readers := Function.update s.readers h.id (some ⟨h, 1⟩) }).after
        (some (.foundReader h)))
  | some (.openedWriter flowData created) =>
      match s.writers flowData.id with
      | some r =>
          some (({ s with
            writers := Function.update s.writers flowData.id (some r.addReference) }).after
              (some (.foundWriter flowData created r.value)))
      | none =>
          some (({ s with
            writers := Function.update s.writers flowData.id (some ⟨flowData, 1⟩) }).after
              (some (.foundWriter flowData created flowData)))
  | _ => none

/-- `publishFlowDirectory`, and what is opened if the name is taken. -/
def publish (s : State φ κ) : Option (State φ κ) :=
  match s.call with
  | some (.buildWriter x config) =>
      match s.domain.published x with
      | none =>
          some (({ s with domain := s.domain.publish x config }).after
            (some (.openedWriter ⟨x, ⟨s.domain.nextInode, config⟩, s.domain.removals x⟩ true)))
      | some _ => some (s.after (some (.openWriter x)))
  | _ => none

def openFlowStep (s : State φ κ) : Option (State φ κ) :=
  match s.call with
  | some (.openReader x) => some (s.after ((openFlow s.domain x).map .openedReader))
  | some (.openWriter x) =>
      some (s.after ((openFlow s.domain x).map fun flowData => .openedWriter flowData false))
  | _ => none

/-- An exception: what the call has opened is closed again. -/
def fail (s : State φ κ) : Option (State φ κ) :=
  match s.call with
  | some (.openedReader _) | some (.buildWriter ..) | some (.openedWriter ..) => some (s.after none)
  | _ => none

/-- The exclusive lock on the writer's own file is granted or not. -/
def makeExclusive (s : State φ κ) (granted : Bool) : Option (State φ κ) :=
  match s.call with
  | some (.lastWriter x) =>
      if granted then some (s.after (some (.exclusiveWriter x)))
      else some (({ s with writers := Function.update s.writers x none }).after none)
  | _ => none

/-- `deleteFlow` removes what is at the path, and the writer is erased. -/
def deleteFlow (s : State φ κ) : Option (State φ κ) :=
  match s.call with
  | some (.exclusiveWriter x) =>
      some (({ s with
        domain := s.domain.remove x, writers := Function.update s.writers x none }).after none)
  | _ => none

def returnHandle (s : State φ κ) : Option (State φ κ) :=
  match s.call with
  | some (.foundReader h) => some { s with call := none, returned := some (.reader h) }
  | some (.foundWriter flowData created h) =>
      some { s with call := none, returned := some (.writer flowData.file created h) }
  | _ => none

def step (s : State φ κ) : Action φ κ → Option (State φ κ)
  | .remove x => some { s with domain := s.domain.remove x, returned := none }
  | .create x config =>
      if s.domain.published x = none then
        some { s with domain := s.domain.publish x config, returned := none }
      else none
  | .getFlowReader x => if s.call.isNone then some (getFlowReader s x) else none
  | .releaseReader x => if s.call.isNone then some (releaseReader s x) else none
  | .createFlowWriter x config =>
      if s.call.isNone then some (s.after (some (.buildWriter x config))) else none
  | .releaseWriter x => if s.call.isNone then some (releaseWriter s x) else none
  | .publish => publish s
  | .openFlow => openFlowStep s
  | .emplace => emplace s
  | .fail => fail s
  | .makeExclusive granted => makeExclusive s granted
  | .deleteFlow => deleteFlow s
  | .returnHandle => returnHandle s

/-! ### What is to hold, and when it does -/

/-- `isFlowValid`: the file at the flow's path is the one the reader has open. -/
def isFlowValid (d : Domain φ κ) (reader : Handle φ κ) : Bool :=
  match d.published reader.id with
  | none => false
  | some file => file.inode = reader.file.inode

/-- The reader just returned is valid; the writer just returned writes the flow whose
    configuration is reported, and that flow lives in the domain. -/
def Live (s : State φ κ) : Prop :=
  match s.returned with
  | none => True
  | some (.reader h) => isFlowValid s.domain h = true
  | some (.writer flow _ h) => h.file = flow ∧ s.domain.published h.id = some h.file

/-- The handle that a call is about to return. -/
def Call.result : Call φ κ → Option (Handle φ κ)
  | .foundReader h => some h
  | .foundWriter _ _ h => some h
  | _ => none

/-- A handle is returned only if its flow has not been removed since it was opened. -/
def NotRemoved (s : State φ κ) : Action φ κ → Prop
  | .returnHandle =>
      ∀ call h, s.call = some call → call.result = some h →
        h.removalsAtOpen = s.domain.removals h.id
  | _ => True

/-! ### Handles and the domain -/

def Domain.WellFormed (d : Domain φ κ) : Prop :=
  ∀ x file, d.published x = some file → file.inode < d.nextInode

/-- What an open file has to do with the one at its flow's path. -/
structure Tracks (d : Domain φ κ) (h : Handle φ κ) : Prop where
  opened : h.removalsAtOpen ≤ d.removals h.id
  same : h.removalsAtOpen = d.removals h.id → d.published h.id = some h.file
  other : h.removalsAtOpen < d.removals h.id →
    ∀ file, d.published h.id = some file → file.inode ≠ h.file.inode
  old : h.file.inode < d.nextInode

section Domains

variable {d : Domain φ κ} {h : Handle φ κ} {x : φ} {config : κ}

theorem Domain.remove_of_none (hx : d.published x = none) : d.remove x = d := by
  rw [Domain.remove, hx]

theorem Domain.remove_of_some {file : DataFile κ} (hx : d.published x = some file) :
    d.remove x = { d with
      published := Function.update d.published x none
      removals := Function.update d.removals x (d.removals x + 1) } := by
  rw [Domain.remove, hx]

theorem Domain.nextInode_remove (d : Domain φ κ) (x : φ) : (d.remove x).nextInode = d.nextInode := by
  rw [Domain.remove]
  split <;> rfl

theorem Domain.WellFormed.remove (hd : d.WellFormed) (x : φ) : (d.remove x).WellFormed := by
  cases hx : d.published x with
  | none =>
    rw [Domain.remove_of_none hx]
    exact hd
  | some removed =>
    intro y file hy
    rw [Domain.remove_of_some hx] at hy
    change Function.update d.published x none y = some file at hy
    rw [Domain.nextInode_remove]
    rw [Function.update_apply] at hy
    split at hy
    · cases hy
    · exact hd y file hy

theorem Domain.WellFormed.publish (hd : d.WellFormed) (x : φ) (config : κ) :
    (d.publish x config).WellFormed := by
  intro y file hy
  change Function.update d.published x (some ⟨d.nextInode, config⟩) y = some file at hy
  change file.inode < d.nextInode + 1
  rw [Function.update_apply] at hy
  split at hy
  · obtain rfl := Option.some.inj hy
    exact Nat.lt_succ_self _
  · exact Nat.lt_succ_of_lt (hd y file hy)

theorem Tracks.remove (ht : Tracks d h) (x : φ) : Tracks (d.remove x) h := by
  cases hx : d.published x with
  | none =>
    rw [Domain.remove_of_none hx]
    exact ht
  | some removed =>
    have hopened := ht.opened
    have hold := ht.old
    rw [← Domain.nextInode_remove d x] at hold
    by_cases hid : h.id = x
    · have hremovals : (d.remove x).removals h.id = d.removals h.id + 1 := by
        rw [Domain.remove_of_some hx, hid]
        exact Function.update_self ..
      have hpublished : (d.remove x).published h.id = none := by
        rw [Domain.remove_of_some hx, hid]
        exact Function.update_self ..
      refine ⟨by omega, fun hsame => by omega, fun _ file hfile => ?_, hold⟩
      rw [hpublished] at hfile
      cases hfile
    · have hremovals : (d.remove x).removals h.id = d.removals h.id := by
        rw [Domain.remove_of_some hx]
        exact Function.update_of_ne hid _ _
      have hpublished : (d.remove x).published h.id = d.published h.id := by
        rw [Domain.remove_of_some hx]
        exact Function.update_of_ne hid _ _
      refine ⟨by omega, fun hsame => ?_, fun hother file hfile => ?_, hold⟩
      · exact hpublished.trans (ht.same (hsame.trans hremovals))
      · exact ht.other (by omega) file (hpublished.symm.trans hfile)

theorem Tracks.publish (ht : Tracks d h) (hnone : d.published x = none) :
    Tracks (d.publish x config) h := by
  have hold := ht.old
  by_cases hid : h.id = x
  · have hremoved : h.removalsAtOpen ≠ d.removals h.id := by
      intro hsame
      have hsome := ht.same hsame
      rw [hid, hnone] at hsome
      cases hsome
    constructor
    · exact ht.opened
    · intro hsame
      exact absurd hsame hremoved
    · intro _ file hfile
      change Function.update d.published x _ h.id = some file at hfile
      rw [hid, Function.update_self] at hfile
      obtain rfl := Option.some.inj hfile
      exact Nat.ne_of_gt hold
    · exact Nat.lt_succ_of_lt hold
  · have hpublished : Function.update d.published x (some ⟨d.nextInode, config⟩) h.id =
        d.published h.id := Function.update_of_ne hid _ _
    constructor
    · exact ht.opened
    · intro hsame
      exact hpublished.trans (ht.same hsame)
    · intro hother file hfile
      exact ht.other hother file (hpublished ▸ hfile)
    · exact Nat.lt_succ_of_lt hold

omit [DecidableEq φ] in
/-- What has just been opened is what is at the path. -/
theorem tracks_openFlow {flowData : Handle φ κ} (hd : d.WellFormed)
    (h : openFlow d x = some flowData) :
    Tracks d flowData ∧ flowData.removalsAtOpen = d.removals flowData.id := by
  obtain ⟨file, hfile, rfl⟩ := Option.map_eq_some_iff.mp h
  exact ⟨⟨Nat.le_refl _, fun _ => hfile, fun hlt => absurd hlt (Nat.lt_irrefl _),
    hd x file hfile⟩, rfl⟩

theorem tracks_created (d : Domain φ κ) (x : φ) (config : κ) :
    Tracks (d.publish x config) ⟨x, ⟨d.nextInode, config⟩, d.removals x⟩ :=
  ⟨Nat.le_refl _, fun _ => Function.update_self x _ _, fun hlt => absurd hlt (Nat.lt_irrefl _),
    Nat.lt_succ_self _⟩

omit [DecidableEq φ] in
/-- A handle's file is at the path exactly if it has not been removed since. -/
theorem Tracks.isFlowValid_iff (ht : Tracks d h) :
    isFlowValid d h = true ↔ h.removalsAtOpen = d.removals h.id := by
  rw [isFlowValid]
  constructor
  · intro hvalid
    by_contra hremoved
    have hlt := Nat.lt_of_le_of_ne ht.opened hremoved
    cases hfile : d.published h.id with
    | none =>
      rw [hfile] at hvalid
      cases hvalid
    | some file =>
      rw [hfile] at hvalid
      exact ht.other hlt file hfile (of_decide_eq_true hvalid)
  · intro hsame
    rw [ht.same hsame]
    exact decide_eq_true rfl

omit [DecidableEq φ] in
theorem Tracks.published_iff (ht : Tracks d h) :
    d.published h.id = some h.file ↔ h.removalsAtOpen = d.removals h.id := by
  constructor
  · intro hfile
    apply ht.isFlowValid_iff.mp
    rw [isFlowValid, hfile]
    exact decide_eq_true rfl
  · exact ht.same

end Domains

/-! ### What every step keeps -/

/-- A map has a handle under its flow's id. -/
def Kept (d : Domain φ κ) (handles : φ → Option (RefCounted (Handle φ κ))) : Prop :=
  ∀ x r, handles x = some r → r.value.id = x ∧ Tracks d r.value

/-- What a call has open; a writer that was in the map was opened before. -/
def Call.Tracks (d : Domain φ κ) (writers : φ → Option (RefCounted (Handle φ κ))) :
    Call φ κ → Prop
  | .openedReader h | .foundReader h => CachedHandles.Tracks d h
  | .openedWriter flowData _ =>
      CachedHandles.Tracks d flowData ∧
        ∀ r, writers flowData.id = some r → r.value.removalsAtOpen ≤ flowData.removalsAtOpen
  | .foundWriter flowData _ h =>
      CachedHandles.Tracks d flowData ∧ CachedHandles.Tracks d h ∧ h.id = flowData.id ∧
        h.removalsAtOpen ≤ flowData.removalsAtOpen
  | _ => True

structure Invariant (s : State φ κ) : Prop where
  domain : s.domain.WellFormed
  readers : Kept s.domain s.readers
  writers : Kept s.domain s.writers
  call : ∀ call, s.call = some call → call.Tracks s.domain s.writers

section Steps

variable {s t : State φ κ} {d : Domain φ κ} {x : φ}
  {handles : φ → Option (RefCounted (Handle φ κ))}

omit [DecidableEq φ] in
theorem invariant_initial : Invariant (State.initial : State φ κ) :=
  ⟨fun _ _ h => (Option.some_ne_none _ h.symm).elim, fun _ _ h => (Option.some_ne_none _ h.symm).elim,
    fun _ _ h => (Option.some_ne_none _ h.symm).elim, fun _ h => (Option.some_ne_none _ h.symm).elim⟩

theorem Kept.put (h : Kept d handles) {r : RefCounted (Handle φ κ)} (hid : r.value.id = x)
    (htracks : Tracks d r.value) : Kept d (Function.update handles x (some r)) := by
  intro y r' hy
  rw [Function.update_apply] at hy
  split at hy
  · next hxy =>
    obtain rfl := Option.some.inj hy
    exact ⟨hid.trans hxy.symm, htracks⟩
  · exact h y r' hy

theorem Kept.drop (h : Kept d handles) (x : φ) : Kept d (Function.update handles x none) := by
  intro y r hy
  rw [Function.update_apply] at hy
  split at hy
  · cases hy
  · exact h y r hy

omit [DecidableEq φ] in
theorem Kept.mono {d' : Domain φ κ} (h : Kept d handles)
    (hmoves : ∀ handle, Tracks d handle → Tracks d' handle) : Kept d' handles :=
  fun x r hr => ⟨(h x r hr).1, hmoves _ (h x r hr).2⟩

omit [DecidableEq φ] in
theorem Call.Tracks.mono {d' : Domain φ κ} {call : Call φ κ} (h : call.Tracks d handles)
    (hmoves : ∀ handle, CachedHandles.Tracks d handle → CachedHandles.Tracks d' handle) :
    call.Tracks d' handles := by
  cases call with
  | openedReader | foundReader => exact hmoves _ h
  | openedWriter => exact ⟨hmoves _ h.1, h.2⟩
  | foundWriter => exact ⟨hmoves _ h.1, hmoves _ h.2.1, h.2.2⟩
  | _ => trivial

omit [DecidableEq φ] in
/-- What others do to the domain. -/
theorem Invariant.others (h : Invariant s) (hd : d.WellFormed)
    (hmoves : ∀ handle, Tracks s.domain handle → Tracks d handle) :
    Invariant { s with domain := d, returned := none } :=
  ⟨hd, h.readers.mono hmoves, h.writers.mono hmoves,
    fun call hcall => (h.call call hcall).mono hmoves⟩

omit [DecidableEq φ] in
/-- What only moves the call on. -/
theorem Invariant.after (h : Invariant s) {call : Option (Call φ κ)}
    (hcall : ∀ c, call = some c → c.Tracks s.domain s.writers) : Invariant (s.after call) :=
  ⟨h.domain, h.readers, h.writers, hcall⟩

omit [DecidableEq φ] in
theorem tracks_none {writers : φ → Option (RefCounted (Handle φ κ))} :
    ∀ c : Call φ κ, none = some c → c.Tracks d writers :=
  fun _ h => (Option.some_ne_none _ h.symm).elim

omit [DecidableEq φ] in
theorem tracks_some {writers : φ → Option (RefCounted (Handle φ κ))} {call : Call φ κ}
    (h : call.Tracks d writers) : ∀ c, some call = some c → c.Tracks d writers := by
  intro c hc
  obtain rfl := Option.some.inj hc
  exact h

theorem invariant_getFlowReader (h : Invariant s) (x : φ) : Invariant (getFlowReader s x) := by
  rw [getFlowReader]
  cases hx : s.readers x with
  | none => exact h.after (tracks_some trivial)
  | some r =>
    obtain ⟨hid, htracks⟩ := h.readers x r hx
    exact ⟨h.domain, h.readers.put hid htracks, h.writers, tracks_some htracks⟩

theorem invariant_releaseReader (h : Invariant s) (x : φ) : Invariant (releaseReader s x) := by
  rw [releaseReader]
  cases hx : s.readers x with
  | none => exact h.after tracks_none
  | some r =>
    obtain ⟨hid, htracks⟩ := h.readers x r hx
    refine ⟨h.domain, ?_, h.writers, tracks_none⟩
    change Kept s.domain (Function.update s.readers x
      (if r.releaseReference.2 then none else some r.releaseReference.1))
    by_cases hlast : r.releaseReference.2 = true
    · rw [if_pos hlast]
      exact h.readers.drop x
    · rw [if_neg hlast]
      exact h.readers.put hid htracks

theorem invariant_releaseWriter (h : Invariant s) (x : φ) : Invariant (releaseWriter s x) := by
  rw [releaseWriter]
  cases hx : s.writers x with
  | none => exact h.after tracks_none
  | some r =>
    obtain ⟨hid, htracks⟩ := h.writers x r hx
    refine ⟨h.domain, h.readers, h.writers.put (r := r.releaseReference.1) hid htracks, ?_⟩
    intro c hc
    change (if r.releaseReference.2 then some (Call.lastWriter x) else none) = some c at hc
    obtain ⟨-, hc⟩ := Option.ite_none_right_eq_some.mp hc
    obtain rfl := Option.some.inj hc
    trivial

theorem invariant_publish (h : Invariant s) (hstep : publish s = some t) : Invariant t := by
  rw [publish] at hstep
  split at hstep
  · next x config hcall =>
    split at hstep
    · next hnone =>
      obtain rfl := Option.some.inj hstep
      have hmoves (handle : Handle φ κ) (ht : Tracks s.domain handle) :
          Tracks (s.domain.publish x config) handle := ht.publish hnone
      refine ⟨h.domain.publish x config, h.readers.mono hmoves, h.writers.mono hmoves,
        tracks_some ⟨tracks_created s.domain x config, ?_⟩⟩
      intro r hr
      obtain ⟨hid, htracks⟩ := h.writers x r hr
      have hopened := htracks.opened
      rwa [hid] at hopened
    · obtain rfl := Option.some.inj hstep
      exact h.after (tracks_some trivial)
  · cases hstep

omit [DecidableEq φ] in
theorem invariant_openFlow (h : Invariant s) (hstep : openFlowStep s = some t) : Invariant t := by
  rw [openFlowStep] at hstep
  split at hstep
  · next x hcall =>
    obtain rfl := Option.some.inj hstep
    apply h.after
    intro c hc
    obtain ⟨handle, hopen, rfl⟩ := Option.map_eq_some_iff.mp hc
    exact (tracks_openFlow h.domain hopen).1
  · next x hcall =>
    obtain rfl := Option.some.inj hstep
    apply h.after
    intro c hc
    obtain ⟨flowData, hopen, rfl⟩ := Option.map_eq_some_iff.mp hc
    obtain ⟨htracks, hlast⟩ := tracks_openFlow h.domain hopen
    refine ⟨htracks, fun r hr => ?_⟩
    obtain ⟨hid, hold⟩ := h.writers _ r hr
    have hopened := hold.opened
    rwa [hid, ← hlast] at hopened
  · cases hstep

theorem invariant_emplace (h : Invariant s) (hstep : emplace s = some t) : Invariant t := by
  rw [emplace] at hstep
  split at hstep
  · next handle hcall =>
    obtain rfl := Option.some.inj hstep
    have htracks : Tracks s.domain handle := h.call _ hcall
    exact ⟨h.domain, h.readers.put rfl htracks, h.writers, tracks_some htracks⟩
  · next flowData created hcall =>
    obtain ⟨htracks, hlater⟩ := h.call _ hcall
    split at hstep
    · next r hr =>
      obtain rfl := Option.some.inj hstep
      obtain ⟨hid, hold⟩ := h.writers _ r hr
      exact ⟨h.domain, h.readers, h.writers.put hid hold,
        tracks_some ⟨htracks, hold, hid, hlater r hr⟩⟩
    · obtain rfl := Option.some.inj hstep
      exact ⟨h.domain, h.readers, h.writers.put rfl htracks,
        tracks_some ⟨htracks, htracks, rfl, Nat.le_refl _⟩⟩
  · cases hstep

omit [DecidableEq φ] in
theorem invariant_fail (h : Invariant s) (hstep : fail s = some t) : Invariant t := by
  rw [fail] at hstep
  split at hstep
  · obtain rfl := Option.some.inj hstep
    exact h.after tracks_none
  · obtain rfl := Option.some.inj hstep
    exact h.after tracks_none
  · obtain rfl := Option.some.inj hstep
    exact h.after tracks_none
  · cases hstep

theorem invariant_makeExclusive (h : Invariant s) {granted : Bool}
    (hstep : makeExclusive s granted = some t) : Invariant t := by
  rw [makeExclusive] at hstep
  split at hstep
  · next x hcall =>
    split at hstep
    · obtain rfl := Option.some.inj hstep
      exact h.after (tracks_some trivial)
    · obtain rfl := Option.some.inj hstep
      exact ⟨h.domain, h.readers, h.writers.drop x, tracks_none⟩
  · cases hstep

theorem invariant_deleteFlow (h : Invariant s) (hstep : deleteFlow s = some t) : Invariant t := by
  rw [deleteFlow] at hstep
  split at hstep
  · next x hcall =>
    obtain rfl := Option.some.inj hstep
    have hmoves (handle : Handle φ κ) (ht : Tracks s.domain handle) :
        Tracks (s.domain.remove x) handle := ht.remove x
    exact ⟨h.domain.remove x, h.readers.mono hmoves, (h.writers.mono hmoves).drop x, tracks_none⟩
  · cases hstep

omit [DecidableEq φ] in
/-- What a call returns is what it has found. -/
theorem of_returnHandle (hstep : returnHandle s = some t) :
    (∃ h, s.call = some (.foundReader h) ∧
      t = { s with call := none, returned := some (.reader h) }) ∨
    ∃ flowData created h, s.call = some (.foundWriter flowData created h) ∧
      t = { s with call := none, returned := some (.writer flowData.file created h) } := by
  rw [returnHandle] at hstep
  split at hstep
  · next h hcall => exact .inl ⟨h, hcall, (Option.some.inj hstep).symm⟩
  · next flowData created h hcall =>
    exact .inr ⟨flowData, created, h, hcall, (Option.some.inj hstep).symm⟩
  · cases hstep

theorem invariant_step {a : Action φ κ} (h : Invariant s) (hstep : step s a = some t) :
    Invariant t := by
  cases a with
  | remove x =>
    obtain rfl := Option.some.inj hstep
    exact h.others (h.domain.remove x) fun _ ht => ht.remove x
  | create x config =>
    obtain ⟨hnone, hstep⟩ := Option.ite_none_right_eq_some.mp hstep
    obtain rfl := Option.some.inj hstep
    exact h.others (h.domain.publish x config) fun _ ht => ht.publish hnone
  | getFlowReader x =>
    obtain ⟨-, hstep⟩ := Option.ite_none_right_eq_some.mp hstep
    obtain rfl := Option.some.inj hstep
    exact invariant_getFlowReader h x
  | releaseReader x =>
    obtain ⟨-, hstep⟩ := Option.ite_none_right_eq_some.mp hstep
    obtain rfl := Option.some.inj hstep
    exact invariant_releaseReader h x
  | createFlowWriter x config =>
    obtain ⟨-, hstep⟩ := Option.ite_none_right_eq_some.mp hstep
    obtain rfl := Option.some.inj hstep
    exact h.after (tracks_some trivial)
  | releaseWriter x =>
    obtain ⟨-, hstep⟩ := Option.ite_none_right_eq_some.mp hstep
    obtain rfl := Option.some.inj hstep
    exact invariant_releaseWriter h x
  | publish => exact invariant_publish h hstep
  | openFlow => exact invariant_openFlow h hstep
  | emplace => exact invariant_emplace h hstep
  | fail => exact invariant_fail h hstep
  | makeExclusive granted => exact invariant_makeExclusive h hstep
  | deleteFlow => exact invariant_deleteFlow h hstep
  | returnHandle =>
    obtain ⟨handle, -, rfl⟩ | ⟨flowData, created, handle, -, rfl⟩ := of_returnHandle hstep
    · exact ⟨h.domain, h.readers, h.writers, tracks_none⟩
    · exact ⟨h.domain, h.readers, h.writers, tracks_none⟩

omit [DecidableEq φ] in
theorem live_of_none (h : s.returned = none) : Live s := by
  rw [Live, h]
  trivial

/-- Only a return returns something. -/
theorem returned_step {a : Action φ κ} (hstep : step s a = some t) (ha : a ≠ .returnHandle) :
    t.returned = none := by
  cases a with
  | remove x =>
    obtain rfl := Option.some.inj hstep
    rfl
  | create x config =>
    obtain ⟨-, hstep⟩ := Option.ite_none_right_eq_some.mp hstep
    obtain rfl := Option.some.inj hstep
    rfl
  | getFlowReader x =>
    obtain ⟨-, hstep⟩ := Option.ite_none_right_eq_some.mp hstep
    obtain rfl := Option.some.inj hstep
    rw [getFlowReader]
    split <;> rfl
  | releaseReader x =>
    obtain ⟨-, hstep⟩ := Option.ite_none_right_eq_some.mp hstep
    obtain rfl := Option.some.inj hstep
    rw [releaseReader]
    split <;> rfl
  | createFlowWriter x config =>
    obtain ⟨-, hstep⟩ := Option.ite_none_right_eq_some.mp hstep
    obtain rfl := Option.some.inj hstep
    rfl
  | releaseWriter x =>
    obtain ⟨-, hstep⟩ := Option.ite_none_right_eq_some.mp hstep
    obtain rfl := Option.some.inj hstep
    rw [releaseWriter]
    split <;> rfl
  | publish =>
    change publish s = some t at hstep
    rw [publish] at hstep
    split at hstep
    · split at hstep <;> obtain rfl := Option.some.inj hstep <;> rfl
    · cases hstep
  | openFlow =>
    change openFlowStep s = some t at hstep
    rw [openFlowStep] at hstep
    split at hstep
    · obtain rfl := Option.some.inj hstep
      rfl
    · obtain rfl := Option.some.inj hstep
      rfl
    · cases hstep
  | emplace =>
    change emplace s = some t at hstep
    rw [emplace] at hstep
    split at hstep
    · obtain rfl := Option.some.inj hstep
      rfl
    · split at hstep <;> obtain rfl := Option.some.inj hstep <;> rfl
    · cases hstep
  | fail =>
    change fail s = some t at hstep
    rw [fail] at hstep
    split at hstep
    · obtain rfl := Option.some.inj hstep
      rfl
    · obtain rfl := Option.some.inj hstep
      rfl
    · obtain rfl := Option.some.inj hstep
      rfl
    · cases hstep
  | makeExclusive granted =>
    change makeExclusive s granted = some t at hstep
    rw [makeExclusive] at hstep
    split at hstep
    · split at hstep <;> obtain rfl := Option.some.inj hstep <;> rfl
    · cases hstep
  | deleteFlow =>
    change deleteFlow s = some t at hstep
    rw [deleteFlow] at hstep
    split at hstep
    · obtain rfl := Option.some.inj hstep
      rfl
    · cases hstep
  | returnHandle => exact absurd rfl ha

omit [DecidableEq φ] in
/-- A return is live exactly if the handle's flow has not been removed. -/
theorem live_returnHandle (h : Invariant s) (hstep : returnHandle s = some t) :
    Live t ↔ NotRemoved s (.returnHandle : Action φ κ) := by
  obtain ⟨handle, hcall, rfl⟩ | ⟨flowData, created, handle, hcall, rfl⟩ := of_returnHandle hstep
  · have htracks : Tracks s.domain handle := h.call _ hcall
    change isFlowValid s.domain handle = true ↔ _
    rw [htracks.isFlowValid_iff]
    constructor
    · intro hsame call result hcall' hresult
      obtain rfl := Option.some.inj (hcall.symm.trans hcall')
      obtain rfl := Option.some.inj hresult
      exact hsame
    · intro hreturn
      exact hreturn _ _ hcall rfl
  · obtain ⟨hflow, htracks, hid, hbefore⟩ := h.call _ hcall
    change handle.file = flowData.file ∧ s.domain.published handle.id = some handle.file ↔ _
    constructor
    · rintro ⟨-, hlives⟩ call result hcall' hresult
      obtain rfl := Option.some.inj (hcall.symm.trans hcall')
      obtain rfl := Option.some.inj hresult
      exact htracks.published_iff.mp hlives
    · intro hreturn
      have hsame := hreturn _ _ hcall rfl
      have hlives := htracks.same hsame
      -- the flow data was opened after the writer, so that it is the same file
      have hflowOpened := hflow.opened
      rw [hid] at hsame hlives
      have hflowLives := hflow.same (by omega)
      refine ⟨Option.some.inj (hlives.symm.trans hflowLives), ?_⟩
      rw [hid]
      exact hlives

end Steps

/-- **Live handles.**  In any run, every reader that is returned is valid then and
    every writer that is returned writes the flow that is reported and lives in the
    domain, if and only if no handle is returned whose flow has been removed since
    its file was opened. -/
theorem handles_live_iff (as : List (Action φ κ)) :
    Throughout step Live (State.initial : State φ κ) as ↔ Along step NotRemoved State.initial as := by
  apply throughout_iff_along (J := fun s => Invariant s ∧ Live s)
  · intro s h
    exact h.2
  · rintro s a t ⟨h, -⟩ hnot hstep
    refine ⟨invariant_step h hstep, ?_⟩
    cases a with
    | returnHandle => exact (live_returnHandle h hstep).mpr hnot
    | _ => exact live_of_none (returned_step hstep (by simp))
  · rintro s a t ⟨h, -⟩ hnot hstep
    cases a with
    | returnHandle => exact fun hlive => hnot ((live_returnHandle h hstep).mp hlive)
    | _ => exact absurd trivial hnot
  · exact ⟨invariant_initial, trivial⟩

/-! ### Flows that are replaced -/

/-- A reader is opened; the flow is removed and created again; a reader is asked for. -/
def replacedRead : List (Action Unit Bool) :=
  [.create () false, .getFlowReader (), .openFlow, .emplace, .returnHandle, .remove (),
    .create () true, .getFlowReader (), .returnHandle]

/-- A writer is created; its flow is removed; a writer is created again. -/
def replacedWrite : List (Action Unit Bool) :=
  [.createFlowWriter () false, .publish, .emplace, .returnHandle, .remove (),
    .createFlowWriter () true, .publish, .emplace, .returnHandle]

/-- The reader that is kept is handed out for the new flow; the writer that is kept is
    handed out as the writer of the flow just created. -/
theorem stale_handles :
    ¬Throughout step Live State.initial replacedRead ∧
      ¬Throughout step Live State.initial replacedWrite := by
  constructor
  · intro h
    obtain ⟨s, hrun⟩ : ∃ s, run step State.initial replacedRead = some s := ⟨_, rfl⟩
    have hlive := h.last hrun
    obtain rfl := Option.some.inj hrun
    change isFlowValid _ _ = true at hlive
    exact absurd hlive (by decide)
  · intro h
    obtain ⟨s, hrun⟩ : ∃ s, run step State.initial replacedWrite = some s := ⟨_, rfl⟩
    have hlive := h.last hrun
    obtain rfl := Option.some.inj hrun
    exact absurd hlive.1 (by decide)

end MediaExchange.CachedHandles
