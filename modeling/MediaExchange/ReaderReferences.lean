/-
  MediaExchange/ReaderReferences.lean
  ===================================
  **Readers, their references and the groups that list them** (`Instance.cpp`,
  `FlowSynchronizationGroup.cpp`).

  An instance owns the readers it gives out and counts their references; its
  synchronization groups hold bare pointers to them.  The release that drops the
  last reference takes the reader out of all groups before it destroys it.

  Readers and groups are told apart by the number they are created with, which is
  never given out twice.  A call is made with handles that are live: the reader is
  in the map, the group is in the list.  `acquisitions`, `releases`, `handed` and
  `destroyed` are history: nothing of the code reads them.

  The count has 64 bits and wraps, which the release notices too late; this is the
  only way to break the bookkeeping (`consistent_iff_along`).
-/
import MediaExchange.CachedHandles
import MediaExchange.SyncGroupMembership

namespace MediaExchange.ReaderReferences

open MediaExchange.LabelledRun MediaExchange.FlowSynchronizationGroup
open MediaExchange.CachedHandles (RefCounted)
open MediaExchange.SyncGroupMembership (readersOf readersOf_addEntry readersOf_removeReader)

variable {φ : Type*} [DecidableEq φ]

/-! ### The instance -/

/-- A reader object; `object` is the pointer to it. -/
structure Reader (φ : Type*) where
  id : φ
  object : FlowReader Nat Nat
  deriving DecidableEq

structure SyncGroup where
  handle : Nat
  readers : List (ListEntry Nat Nat)

/-- What `openFlow` and `createFlowReader` make of the flow. -/
inductive Opened where
  | failed
  | discrete
  | continuous

def Opened.object? (opened : Opened) (address : Nat) : Option (FlowReader Nat Nat) :=
  match opened with
  | .failed => none
  | .discrete => some (.discrete address)
  | .continuous => some (.continuous address)

structure State (φ : Type*) where
  readers : φ → Option (RefCounted (Reader φ))
  syncGroups : List SyncGroup
  nextObject : Nat
  nextGroup : Nat
  returned : Option (Reader φ)
  acquisitions : φ → Nat
  releases : φ → Nat
  handed : List (Reader φ)
  destroyed : List (Reader φ)

def State.initial : State φ :=
  { readers := fun _ => none, syncGroups := [], nextObject := 0, nextGroup := 0, returned := none
    acquisitions := fun _ => 0, releases := fun _ => 0, handed := [], destroyed := [] }

inductive Action (φ : Type*) where
  | getFlowReader (x : φ) (opened : Opened)
  | releaseReader (reader : Reader φ)
  | createFlowSynchronizationGroup
  | releaseFlowSynchronizationGroup (group : Nat)
  | addReader (group : Nat) (reader : Reader φ) (minValidSlices : UInt16)
  | removeReader (group : Nat) (reader : Reader φ)

/-! ### Steps -/

/-- `r` is in the map and its reader is returned. -/
def State.acquired (s : State φ) (r : RefCounted (Reader φ)) : State φ :=
  { s with
    readers := Function.update s.readers r.value.id (some r)
    returned := some r.value
    acquisitions := Function.update s.acquisitions r.value.id (s.acquisitions r.value.id + 1)
    handed := r.value :: s.handed }

def getFlowReader (s : State φ) (x : φ) (opened : Opened) : State φ :=
  match s.readers x with
  | some r => s.acquired r.addReference
  | none =>
      match opened.object? s.nextObject with
      | some object =>
          { s.acquired ⟨⟨x, object⟩, 1⟩ with nextObject := s.nextObject + 1 }
      | none => { s with returned := none }

/-- The map and the groups, as `releaseReader` leaves them. -/
def State.released (s : State φ) (x : φ) (r : Option (RefCounted (Reader φ))) : State φ :=
  { s with
    readers := Function.update s.readers x r
    returned := none
    releases := Function.update s.releases x (s.releases x + 1) }

def releaseReader (s : State φ) (reader : Reader φ) : State φ :=
  match s.readers reader.id with
  | some r =>
      let (r, last) := r.releaseReference
      if last then
        { s.released reader.id none with
          syncGroups := s.syncGroups.map fun group =>
            { group with readers := removeReader reader.object group.readers }
          destroyed := r.value :: s.destroyed }
      else s.released reader.id (some r)
  | none => { s with returned := none }

def addReader (rate : FlowReader Nat Nat → MxlRational) (object : FlowReader Nat Nat)
    (minValidSlices : UInt16) : List (ListEntry Nat Nat) → List (ListEntry Nat Nat) :=
  match object with
  | .discrete r => addDiscreteReader rate r minValidSlices
  | .continuous r => addContinuousReader rate r

/-- What a call does to the group it is made on. -/
def State.onGroup (s : State φ) (handle : Nat)
    (f : List (ListEntry Nat Nat) → List (ListEntry Nat Nat)) : State φ :=
  { s with
    syncGroups := s.syncGroups.map fun group =>
      if group.handle = handle then { group with readers := f group.readers } else group
    returned := none }

/-- The reader of the handle exists. -/
def LiveReader (s : State φ) (reader : Reader φ) : Prop :=
  (s.readers reader.id).map RefCounted.value = some reader

instance (s : State φ) (reader : Reader φ) : Decidable (LiveReader s reader) :=
  inferInstanceAs (Decidable (_ = _))

/-- The group of the handle exists. -/
def LiveGroup (s : State φ) (handle : Nat) : Prop := handle ∈ s.syncGroups.map SyncGroup.handle

instance (s : State φ) (handle : Nat) : Decidable (LiveGroup s handle) :=
  inferInstanceAs (Decidable (_ ∈ _))

def step (rate : FlowReader Nat Nat → MxlRational) (s : State φ) : Action φ → Option (State φ)
  | .getFlowReader x opened => some (getFlowReader s x opened)
  | .releaseReader reader => if LiveReader s reader then some (releaseReader s reader) else none
  | .createFlowSynchronizationGroup =>
      some { s with
        syncGroups := ⟨s.nextGroup, []⟩ :: s.syncGroups
        nextGroup := s.nextGroup + 1
        returned := none }
  | .releaseFlowSynchronizationGroup handle =>
      if LiveGroup s handle then
        some { s with
          syncGroups := s.syncGroups.eraseP fun group => group.handle = handle
          returned := none }
      else none
  | .addReader handle reader minValidSlices =>
      if LiveGroup s handle ∧ LiveReader s reader then
        some (s.onGroup handle (addReader rate reader.object minValidSlices))
      else none
  | .removeReader handle reader =>
      if LiveGroup s handle ∧ LiveReader s reader then
        some (s.onGroup handle (FlowSynchronizationGroup.removeReader reader.object))
      else none

/-! ### What is to hold, and when it does -/

/-- References to the reader of `x` that are not released. -/
def State.live (s : State φ) (x : φ) : Nat := s.acquisitions x - s.releases x

/-- A reader exists exactly while it is referenced; as long as a reader exists, no
    other one is returned for its flow; and no group points to a destroyed one. -/
structure Consistent (s : State φ) : Prop where
  exists_iff : ∀ x, (s.readers x).isSome ↔ s.releases x < s.acquisitions x
  same : ∀ r ∈ s.handed, r ∉ s.destroyed →
    ∀ reader, s.returned = some reader → reader.id = r.id → reader = r
  listed : ∀ group ∈ s.syncGroups, ∀ entry ∈ group.readers, ∀ r ∈ s.destroyed,
    entry.reader ≠ r.object

/-- A reference is released only if the 64-bit count tells whether it is the last one. -/
def CountTells (s : State φ) : Action φ → Prop
  | .releaseReader reader => s.live reader.id < 2 ^ 64 ∨ 1 < s.live reader.id % 2 ^ 64
  | _ => True

/-! ### The invariant -/

def address : FlowReader Nat Nat → Nat
  | .discrete address => address
  | .continuous address => address

theorem address_of_object? {opened : Opened} {n : Nat} {object : FlowReader Nat Nat}
    (h : opened.object? n = some object) : address object = n := by
  cases opened with
  | failed => cases h
  | discrete =>
    obtain rfl := Option.some.inj h
    rfl
  | continuous =>
    obtain rfl := Option.some.inj h
    rfl

/-- The pointer is one to a reader of the map. -/
def Held (readers : φ → Option (RefCounted (Reader φ))) (object : FlowReader Nat Nat) : Prop :=
  ∃ x r, readers x = some r ∧ r.value.object = object

/-- What the entry of `x` says about the calls made so far. -/
def Counted (s : State φ) (x : φ) : Option (RefCounted (Reader φ)) → Prop
  | none => s.acquisitions x = s.releases x
  | some r =>
      r.value.id = x ∧ r.value ∈ s.handed ∧ r.value ∉ s.destroyed ∧
        s.releases x < s.acquisitions x ∧ r.refCount.toNat = s.live x % 2 ^ 64

structure Invariant (s : State φ) : Prop where
  counted : ∀ x, Counted s x (s.readers x)
  handed : ∀ r ∈ s.handed, address r.object < s.nextObject
  destroyed : ∀ r ∈ s.destroyed, r ∈ s.handed
  exists_or : ∀ r ∈ s.handed, r ∈ s.destroyed ∨ LiveReader s r
  distinct : ∀ r ∈ s.handed, ∀ r' ∈ s.handed, r.object = r'.object → r = r'
  returned : ∀ reader, s.returned = some reader → LiveReader s reader
  listed : ∀ group ∈ s.syncGroups, (readersOf group.readers).Nodup ∧
    ∀ object ∈ readersOf group.readers, Held s.readers object

omit [DecidableEq φ] in
theorem invariant_initial : Invariant (State.initial : State φ) where
  counted _ := rfl
  handed _ h := nomatch h
  destroyed _ h := nomatch h
  exists_or _ h := nomatch h
  distinct _ h := nomatch h
  returned _ h := nomatch h
  listed _ h := nomatch h

section Facts

variable {s : State φ} {reader r : Reader φ}

omit [DecidableEq φ] in
theorem liveReader_iff : LiveReader s reader ↔ ∃ r, s.readers reader.id = some r ∧
    r.value = reader := by
  rw [LiveReader, Option.map_eq_some_iff]

omit [DecidableEq φ] in
theorem LiveReader.unique (hr : LiveReader s r) (hreader : LiveReader s reader)
    (hid : reader.id = r.id) : reader = r := by
  rw [LiveReader, hid] at hreader
  exact Option.some.inj (hreader.symm.trans hr)

omit [DecidableEq φ] in
theorem Invariant.counted_none (h : Invariant s) {x : φ} (hx : s.readers x = none) :
    s.acquisitions x = s.releases x := by
  have hcounted := h.counted x
  rwa [hx] at hcounted

omit [DecidableEq φ] in
theorem Invariant.counted_some (h : Invariant s) {x : φ} {rc : RefCounted (Reader φ)}
    (hx : s.readers x = some rc) : Counted s x (some rc) := by
  have hcounted := h.counted x
  rwa [hx] at hcounted

omit [DecidableEq φ] in
theorem Invariant.releases_le (h : Invariant s) (x : φ) : s.releases x ≤ s.acquisitions x := by
  cases hreader : s.readers x with
  | none => exact Nat.le_of_eq (h.counted_none hreader).symm
  | some rc =>
    obtain ⟨-, -, -, hlt, -⟩ := h.counted_some hreader
    exact hlt.le

omit [DecidableEq φ] in
theorem Invariant.live_of_entry (h : Invariant s) {x : φ} {rc : RefCounted (Reader φ)}
    (hx : s.readers x = some rc) : LiveReader s rc.value := by
  obtain ⟨hid, -⟩ := h.counted_some hx
  rw [LiveReader, hid, hx]
  rfl

omit [DecidableEq φ] in
/-- A reader that exists has been handed out and not been destroyed. -/
theorem Invariant.handed_of_live (h : Invariant s) (hlive : LiveReader s reader) :
    reader ∈ s.handed ∧ reader ∉ s.destroyed := by
  obtain ⟨rc, hrc, rfl⟩ := liveReader_iff.mp hlive
  obtain ⟨-, hhanded, hnot, -⟩ := h.counted_some hrc
  exact ⟨hhanded, hnot⟩

omit [DecidableEq φ] in
/-- A call for another flow leaves an entry as good as it was. -/
theorem Counted.mono {t : State φ} {x : φ} {entry : Option (RefCounted (Reader φ))}
    (h : Counted s x entry) (hacquisitions : t.acquisitions x = s.acquisitions x)
    (hreleases : t.releases x = s.releases x) (hhanded : ∀ r ∈ s.handed, r ∈ t.handed)
    (hdestroyed : ∀ r, r.id = x → r ∈ t.destroyed → r ∈ s.destroyed) : Counted t x entry := by
  cases entry with
  | none =>
    change t.acquisitions x = t.releases x
    rw [hacquisitions, hreleases]
    exact h
  | some rc =>
    obtain ⟨hid, hmem, hnot, hlt, hcount⟩ := h
    refine ⟨hid, hhanded _ hmem, fun hgone => hnot (hdestroyed _ hid hgone), ?_, ?_⟩
    · rwa [hacquisitions, hreleases]
    · rwa [State.live, hacquisitions, hreleases]

omit [DecidableEq φ] in
theorem Invariant.consistent (h : Invariant s) : Consistent s where
  exists_iff x := by
    cases hreader : s.readers x with
    | none =>
      have hcounted := h.counted_none hreader
      simp only [Option.isSome_none, Bool.false_eq_true, false_iff]
      omega
    | some rc =>
      obtain ⟨-, -, -, hlt, -⟩ := h.counted_some hreader
      exact ⟨fun _ => hlt, fun _ => rfl⟩
  same r hr hnot reader hreturned hid := by
    have hlive := (h.exists_or r hr).resolve_left hnot
    exact hlive.unique (h.returned reader hreturned) hid
  listed group hgroup entry hentry r hr heq := by
    -- the pointer is to a reader of the map, which is not destroyed
    obtain ⟨x, rc, hx, hobject⟩ :=
      (h.listed group hgroup).2 entry.reader (List.mem_map_of_mem hentry)
    obtain ⟨hhanded, hnot⟩ := h.handed_of_live (h.live_of_entry hx)
    have hsame : rc.value = r := h.distinct _ hhanded r (h.destroyed r hr) (hobject.trans heq)
    exact hnot (hsame ▸ hr)

/-! ### Acquiring a reader -/

theorem State.acquired_live_self (s : State φ) (rc : RefCounted (Reader φ)) :
    LiveReader (s.acquired rc) rc.value := by
  simp [LiveReader, State.acquired]

/-- The reader is in the map, or it is a new one for a flow that has none. -/
def Acquirable (s : State φ) (r : Reader φ) : Prop :=
  LiveReader s r ∨ s.readers r.id = none ∧ s.nextObject ≤ address r.object

theorem LiveReader.acquired {rc : RefCounted (Reader φ)} (hr : LiveReader s r)
    (hold : Acquirable s rc.value) : LiveReader (s.acquired rc) r := by
  by_cases hid : r.id = rc.value.id
  · rcases hold with hlive | ⟨hnone, -⟩
    · rw [hlive.unique hr hid]
      exact State.acquired_live_self s rc
    · rw [LiveReader, hid, hnone] at hr
      cases hr
  · simpa [LiveReader, State.acquired, Function.update_of_ne hid] using hr

omit [DecidableEq φ] in
theorem Invariant.not_destroyed_of_acquirable (h : Invariant s) (hold : Acquirable s r) :
    r ∉ s.destroyed := by
  intro hdestroyed
  rcases hold with hlive | ⟨-, hfresh⟩
  · exact (h.handed_of_live hlive).2 hdestroyed
  · have hlt := h.handed _ (h.destroyed _ hdestroyed)
    omega

omit [DecidableEq φ] in
/-- An object that was handed out already is the one of this reader or another one. -/
theorem Invariant.eq_of_acquirable (h : Invariant s) (hold : Acquirable s r) {r' : Reader φ}
    (hr' : r' ∈ s.handed) (hobject : r'.object = r.object) : r' = r := by
  rcases hold with hlive | ⟨-, hfresh⟩
  · exact h.distinct r' hr' r (h.handed_of_live hlive).1 hobject
  · have hlt := h.handed r' hr'
    rw [hobject] at hlt
    omega

/-- An acquired reference to a reader that is in the map, or to a new one. -/
theorem Invariant.acquired (h : Invariant s) {rc : RefCounted (Reader φ)} {next : Nat}
    (hnext : s.nextObject ≤ next) (haddress : address rc.value.object < next)
    (hcount : rc.refCount.toNat = (s.live rc.value.id + 1) % 2 ^ 64)
    (hold : Acquirable s rc.value) : Invariant { s.acquired rc with nextObject := next } := by
  constructor
  · intro x
    by_cases hx : x = rc.value.id
    · subst hx
      have hle := h.releases_le rc.value.id
      simp only [State.acquired, Function.update_self, Counted, State.live]
      refine ⟨trivial, List.mem_cons_self, h.not_destroyed_of_acquirable hold, by omega, ?_⟩
      rw [hcount, State.live]
      congr 1
      omega
    · have hcounted := h.counted x
      simp only [State.acquired, Function.update_of_ne hx]
      exact hcounted.mono (Function.update_of_ne hx _ _) rfl
        (fun r hr => List.mem_cons_of_mem _ hr) fun r _ hr => hr
  · intro r hr
    rcases List.mem_cons.mp hr with rfl | hr
    · exact haddress
    · exact Nat.lt_of_lt_of_le (h.handed r hr) hnext
  · intro r hr
    exact List.mem_cons_of_mem _ (h.destroyed r hr)
  · intro r hr
    rcases List.mem_cons.mp hr with rfl | hr
    · exact .inr (State.acquired_live_self s rc)
    · exact (h.exists_or r hr).imp_right fun hlive => hlive.acquired hold
  · intro r hr r' hr' hobject
    rcases List.mem_cons.mp hr with rfl | hr
    · rcases List.mem_cons.mp hr' with rfl | hr'
      · rfl
      · exact (h.eq_of_acquirable hold hr' hobject.symm).symm
    · rcases List.mem_cons.mp hr' with rfl | hr'
      · exact h.eq_of_acquirable hold hr hobject
      · exact h.distinct r hr r' hr' hobject
  · intro reader hreader
    obtain rfl := Option.some.inj hreader
    exact State.acquired_live_self s rc
  · intro group hgroup
    refine ⟨(h.listed group hgroup).1, fun object hobject => ?_⟩
    obtain ⟨x, r, hr, hvalue⟩ := (h.listed group hgroup).2 object hobject
    have hlive := (h.live_of_entry hr).acquired hold
    obtain ⟨r', hr', hsame⟩ := liveReader_iff.mp hlive
    exact ⟨_, r', hr', hsame ▸ hvalue⟩

theorem invariant_getFlowReader (h : Invariant s) (x : φ) (opened : Opened) :
    Invariant (getFlowReader s x opened) := by
  unfold getFlowReader
  cases hreader : s.readers x with
  | some r =>
    obtain ⟨hid, hhanded, -, -, hcount⟩ := h.counted_some hreader
    have hlive : LiveReader s r.value := h.live_of_entry hreader
    refine @Invariant.acquired φ _ s h r.addReference s.nextObject le_rfl
      (h.handed _ hhanded) ?_ (.inl hlive)
    change (r.refCount + 1).toNat = (s.live r.value.id + 1) % 2 ^ 64
    rw [UInt64.toNat_add, hcount, hid]
    simp
  | none =>
    cases hobject : opened.object? s.nextObject with
    | some object =>
      have haddress := address_of_object? hobject
      refine @Invariant.acquired φ _ s h ⟨⟨x, object⟩, 1⟩ _ (Nat.le_succ _)
        (by change address object < _; omega) ?_
        (.inr ⟨hreader, haddress.ge⟩)
      have hzero : s.live x = 0 :=
        Nat.sub_eq_zero_of_le (Nat.le_of_eq (h.counted_none hreader))
      change (1 : UInt64).toNat = (s.live x + 1) % 2 ^ 64
      rw [hzero]
      rfl
    | none => exact { h with returned := fun _ h => nomatch h }

/-! ### Releasing a reader -/

/-- A release that is not the last one. -/
theorem Invariant.released (h : Invariant s) {rc rc' : RefCounted (Reader φ)}
    (hreader : s.readers reader.id = some rc) (hvalue : rc'.value = rc.value)
    (hlt : s.releases reader.id + 1 < s.acquisitions reader.id)
    (hcount : rc'.refCount.toNat = (s.live reader.id - 1) % 2 ^ 64) :
    Invariant (s.released reader.id (some rc')) := by
  have hmap : ∀ x, ((s.released reader.id (some rc')).readers x).map RefCounted.value =
      (s.readers x).map RefCounted.value := by
    intro x
    by_cases hx : x = reader.id
    · subst hx
      simp [State.released, hreader, hvalue]
    · simp [State.released, Function.update_of_ne hx]
  have hlive : ∀ r, LiveReader (s.released reader.id (some rc')) r ↔ LiveReader s r := by
    intro r
    rw [LiveReader, LiveReader, hmap]
  constructor
  · intro x
    by_cases hx : x = reader.id
    · subst hx
      obtain ⟨hid, hhanded, hnot, -⟩ := h.counted_some hreader
      simp only [State.released, Function.update_self, Counted, State.live, hvalue]
      refine ⟨hid, hhanded, hnot, hlt, ?_⟩
      rw [hcount, State.live, Nat.sub_sub]
    · have hcounted := h.counted x
      simp only [State.released, Function.update_of_ne hx]
      exact hcounted.mono rfl (Function.update_of_ne hx _ _) (fun r hr => hr) fun r _ hr => hr
  · exact h.handed
  · exact h.destroyed
  · intro r hr
    exact (h.exists_or r hr).imp_right (hlive r).mpr
  · exact h.distinct
  · intro _ h
    exact nomatch h
  · intro group hgroup
    refine ⟨(h.listed group hgroup).1, fun object hobject => ?_⟩
    obtain ⟨x, r, hr, hsame⟩ := (h.listed group hgroup).2 object hobject
    have hother : ((s.released reader.id (some rc')).readers x).map RefCounted.value =
        some r.value := by
      rw [hmap, hr]
      rfl
    obtain ⟨r', hr', hvalue'⟩ := Option.map_eq_some_iff.mp hother
    exact ⟨x, r', hr', hvalue' ▸ hsame⟩

/-- The release of the last reference: the groups forget the reader first. -/
theorem Invariant.destroyed_last (h : Invariant s) {rc : RefCounted (Reader φ)}
    (hreader : s.readers reader.id = some rc) (hvalue : rc.value = reader)
    (hlast : s.acquisitions reader.id = s.releases reader.id + 1) :
    Invariant { s.released reader.id none with
      syncGroups := s.syncGroups.map fun group =>
        { group with readers := removeReader reader.object group.readers }
      destroyed := rc.value :: s.destroyed } := by
  obtain ⟨-, hhanded, -⟩ := h.counted_some hreader
  constructor
  · intro x
    by_cases hx : x = reader.id
    · subst hx
      simpa [State.released, Counted] using hlast
    · have hcounted := h.counted x
      simp only [State.released, Function.update_of_ne hx]
      refine hcounted.mono rfl (Function.update_of_ne hx _ _) (fun r hr => hr) fun r hid hr => ?_
      rcases List.mem_cons.mp hr with rfl | hr
      · exact absurd (hid.symm.trans (by rw [hvalue])) hx
      · exact hr
  · exact h.handed
  · intro r hr
    rcases List.mem_cons.mp hr with rfl | hr
    · exact hhanded
    · exact h.destroyed r hr
  · intro r hr
    by_cases heq : r = reader
    · exact .inl (List.mem_cons.mpr (.inl (heq.trans hvalue.symm)))
    · apply (h.exists_or r hr).imp (List.mem_cons_of_mem _)
      intro hlive
      have hlive' : LiveReader s reader := liveReader_iff.mpr ⟨rc, hreader, hvalue⟩
      have hid : r.id ≠ reader.id := fun hid => heq (hlive'.unique hlive hid)
      simpa [LiveReader, State.released, Function.update_of_ne hid] using hlive
  · exact h.distinct
  · intro _ h
    exact nomatch h
  · intro group hgroup
    obtain ⟨old, hold, rfl⟩ := List.mem_map.mp hgroup
    obtain ⟨hnodup, hheld⟩ := h.listed old hold
    change (readersOf (removeReader reader.object old.readers)).Nodup ∧
      ∀ object ∈ readersOf (removeReader reader.object old.readers), _
    rw [readersOf_removeReader]
    refine ⟨hnodup.erase _, fun object hobject => ?_⟩
    obtain ⟨hne, hmem⟩ := hnodup.mem_erase_iff.mp hobject
    obtain ⟨x, r, hr, hsame⟩ := hheld object hmem
    have hx : x ≠ reader.id := by
      rintro rfl
      rw [hreader] at hr
      obtain rfl := Option.some.inj hr
      exact hne (hsame.symm.trans (by rw [hvalue]))
    refine ⟨x, r, ?_, hsame⟩
    simpa [State.released, Function.update_of_ne hx] using hr

omit [DecidableEq φ] in
theorem releaseReference_fst (r : RefCounted (Reader φ)) :
    r.releaseReference.1.value = r.value ∧
      r.releaseReference.1.refCount.toNat = r.refCount.toNat - 1 := by
  refine ⟨rfl, ?_⟩
  change (r.refCount - if r.refCount > 0 then 1 else 0).toNat = _
  split
  · rename_i hpos
    exact UInt64.toNat_sub_of_le r.refCount 1 (UInt64.le_iff_toNat_le.mpr
      (UInt64.lt_iff_toNat_lt.mp hpos))
  · rename_i hzero
    have hzero' : r.refCount.toNat = 0 := by
      rw [gt_iff_lt, UInt64.lt_iff_toNat_lt] at hzero
      exact Nat.eq_zero_of_not_pos hzero
    simp [hzero']

omit [DecidableEq φ] in
theorem releaseReference_snd (r : RefCounted (Reader φ)) :
    r.releaseReference.2 = true ↔ r.refCount.toNat ≤ 1 := by
  have hcount := (releaseReference_fst r).2
  change decide (r.releaseReference.1.refCount = 0) = true ↔ _
  rw [decide_eq_true_iff, ← UInt64.toNat_inj, hcount]
  change _ - 1 = 0 ↔ _
  omega

/-- `releaseReader` called with a live handle. -/
theorem releaseReader_cases (hlive : LiveReader s reader) :
    ∃ rc, s.readers reader.id = some rc ∧ rc.value = reader ∧
      ((rc.refCount.toNat ≤ 1 ∧ releaseReader s reader =
          { s.released reader.id none with
            syncGroups := s.syncGroups.map fun group =>
              { group with readers := removeReader reader.object group.readers }
            destroyed := rc.value :: s.destroyed }) ∨
        (1 < rc.refCount.toNat ∧
          releaseReader s reader = s.released reader.id (some rc.releaseReference.1))) := by
  obtain ⟨rc, hrc, hvalue⟩ := liveReader_iff.mp hlive
  refine ⟨rc, hrc, hvalue, ?_⟩
  by_cases hlast : rc.refCount.toNat ≤ 1
  · refine .inl ⟨hlast, ?_⟩
    simp only [releaseReader, hrc, (releaseReference_snd rc).mpr hlast, if_true]
    rw [(releaseReference_fst rc).1]
  · refine .inr ⟨Nat.lt_of_not_le hlast, ?_⟩
    have hnot : rc.releaseReference.2 ≠ true := fun h => hlast ((releaseReference_snd rc).mp h)
    simp only [releaseReader, hrc, if_neg hnot]

theorem invariant_releaseReader (h : Invariant s) (hlive : LiveReader s reader)
    (htells : CountTells s (.releaseReader reader)) : Invariant (releaseReader s reader) := by
  obtain ⟨rc, hrc, hvalue, hcases⟩ := releaseReader_cases hlive
  obtain ⟨-, -, -, hlt, hcount⟩ := h.counted_some hrc
  have htells' : s.live reader.id < 2 ^ 64 ∨ 1 < s.live reader.id % 2 ^ 64 := htells
  have hcases' : s.live reader.id = s.acquisitions reader.id - s.releases reader.id := rfl
  rcases hcases with ⟨hlast, heq⟩ | ⟨hmore, heq⟩
  · rw [heq]
    exact h.destroyed_last hrc hvalue (by omega)
  · rw [heq]
    obtain ⟨hsame, hrefs⟩ := releaseReference_fst rc
    exact h.released hrc hsame (by omega) (by omega)

/-- Where the count does not tell, a reader is destroyed that is still referenced. -/
theorem not_consistent_releaseReader (h : Invariant s) (hlive : LiveReader s reader)
    (htells : ¬ CountTells s (.releaseReader reader)) :
    ¬ Consistent (releaseReader s reader) := by
  obtain ⟨rc, hrc, hvalue, hcases⟩ := releaseReader_cases hlive
  obtain ⟨-, -, -, -, hcount⟩ := h.counted_some hrc
  have htells' : ¬ (s.live reader.id < 2 ^ 64 ∨ 1 < s.live reader.id % 2 ^ 64) := htells
  rw [not_or, not_lt, not_lt] at htells'
  have hlarge : 2 ^ 64 ≤ s.acquisitions reader.id - s.releases reader.id := htells'.1
  rcases hcases with ⟨-, heq⟩ | ⟨hmore, -⟩
  · intro hconsistent
    have hexists := (hconsistent.exists_iff reader.id).mpr
    rw [heq] at hexists
    simp only [State.released, Function.update_self] at hexists
    have hgone := hexists (by omega)
    cases hgone
  · omega

/-! ### Groups -/

omit [DecidableEq φ] in
/-- A change of the readers of groups that lists only readers that exist. -/
theorem Invariant.groups (h : Invariant s) {syncGroups : List SyncGroup} {nextGroup : Nat}
    (hlisted : ∀ group ∈ syncGroups, (readersOf group.readers).Nodup ∧
      ∀ object ∈ readersOf group.readers, Held s.readers object) :
    Invariant { s with syncGroups, nextGroup, returned := none } where
  counted := h.counted
  handed := h.handed
  destroyed := h.destroyed
  exists_or := h.exists_or
  distinct := h.distinct
  returned _ hnone := nomatch hnone
  listed := hlisted

omit [DecidableEq φ] in
theorem Invariant.onGroup (h : Invariant s) (handle : Nat)
    {f : List (ListEntry Nat Nat) → List (ListEntry Nat Nat)}
    (hf : ∀ readers, (readersOf readers).Nodup →
      (∀ object ∈ readersOf readers, Held s.readers object) →
      (readersOf (f readers)).Nodup ∧ ∀ object ∈ readersOf (f readers), Held s.readers object) :
    Invariant (s.onGroup handle f) := by
  apply h.groups
  intro group hgroup
  obtain ⟨old, hold, rfl⟩ := List.mem_map.mp hgroup
  obtain ⟨hnodup, hheld⟩ := h.listed old hold
  by_cases hhandle : old.handle = handle
  · rw [if_pos hhandle]
    exact hf old.readers hnodup hheld
  · rw [if_neg hhandle]
    exact ⟨hnodup, hheld⟩

theorem readersOf_addReader (rate : FlowReader Nat Nat → MxlRational)
    (object : FlowReader Nat Nat) (minValidSlices : UInt16) (readers : List (ListEntry Nat Nat)) :
    readersOf (addReader rate object minValidSlices readers) =
      if object ∈ readersOf readers then readersOf readers
      else readersOf readers ++ [object] := by
  cases object with
  | discrete r =>
    exact @readersOf_addEntry Nat Nat _ _ ⟨.discrete r, minValidSlices, rate (.discrete r), 0⟩
      (fun current => { current with minValidSlices }) (fun _ => rfl) readers
  | continuous r =>
    exact @readersOf_addEntry Nat Nat _ _ ⟨.continuous r, 0, rate (.continuous r), 0⟩ id
      (fun _ => rfl) readers

omit [DecidableEq φ] in
theorem invariant_addReader (h : Invariant s) (rate : FlowReader Nat Nat → MxlRational)
    (handle : Nat) (hlive : LiveReader s reader) (minValidSlices : UInt16) :
    Invariant (s.onGroup handle (addReader rate reader.object minValidSlices)) := by
  obtain ⟨rc, hrc, hvalue⟩ := liveReader_iff.mp hlive
  apply h.onGroup handle
  intro readers hnodup hheld
  rw [readersOf_addReader]
  split
  · exact ⟨hnodup, hheld⟩
  · rename_i hnew
    refine ⟨List.Nodup.append hnodup (List.nodup_singleton _)
      (List.disjoint_singleton.mpr hnew), fun object hobject => ?_⟩
    rcases List.mem_append.mp hobject with hold | hself
    · exact hheld object hold
    · rw [List.mem_singleton] at hself
      exact ⟨reader.id, rc, hrc, by rw [hvalue, hself]⟩

omit [DecidableEq φ] in
theorem invariant_removeReader (h : Invariant s) (handle : Nat) (object : FlowReader Nat Nat) :
    Invariant (s.onGroup handle (removeReader object)) := by
  apply h.onGroup handle
  intro readers hnodup hheld
  rw [readersOf_removeReader]
  exact ⟨hnodup.erase object, fun other hother => hheld other (List.mem_of_mem_erase hother)⟩

/-! ### Runs -/

variable {rate : FlowReader Nat Nat → MxlRational} {t : State φ}

theorem invariant_step {a : Action φ} (h : Invariant s) (htells : CountTells s a)
    (hstep : step rate s a = some t) : Invariant t := by
  cases a with
  | getFlowReader x opened =>
    obtain rfl := Option.some.inj hstep
    exact invariant_getFlowReader h x opened
  | releaseReader reader =>
    obtain ⟨hlive, heq⟩ := Option.ite_none_right_eq_some.mp hstep
    obtain rfl := Option.some.inj heq
    exact invariant_releaseReader h hlive htells
  | createFlowSynchronizationGroup =>
    obtain rfl := Option.some.inj hstep
    apply h.groups
    intro group hgroup
    rcases List.mem_cons.mp hgroup with rfl | hold
    · exact ⟨List.nodup_nil, fun _ hnil => nomatch hnil⟩
    · exact h.listed group hold
  | releaseFlowSynchronizationGroup handle =>
    obtain ⟨-, heq⟩ := Option.ite_none_right_eq_some.mp hstep
    obtain rfl := Option.some.inj heq
    exact h.groups fun group hgroup => h.listed group (List.mem_of_mem_eraseP hgroup)
  | addReader handle reader minValidSlices =>
    obtain ⟨⟨-, hlive⟩, heq⟩ := Option.ite_none_right_eq_some.mp hstep
    obtain rfl := Option.some.inj heq
    exact invariant_addReader h rate handle hlive minValidSlices
  | removeReader handle reader =>
    obtain ⟨-, heq⟩ := Option.ite_none_right_eq_some.mp hstep
    obtain rfl := Option.some.inj heq
    exact invariant_removeReader h handle reader.object

end Facts

/-- The reader of the only flow. -/
def onlyReader : Reader Unit := ⟨(), .discrete 0⟩

theorem run_acquisitions (rate : FlowReader Nat Nat → MxlRational) (n : Nat) :
    ∃ s, run (step rate) State.initial (List.replicate (n + 1) (.getFlowReader () .discrete)) =
        some s ∧
      s.readers () = some ⟨onlyReader, UInt64.ofNat (n + 1)⟩ ∧
      s.acquisitions () = n + 1 ∧ s.releases () = 0 := by
  induction n with
  | zero => exact ⟨_, rfl, rfl, rfl, rfl⟩
  | succ n ih =>
    obtain ⟨s, hrun, hreader, hacquisitions, hreleases⟩ := ih
    refine ⟨getFlowReader s () .discrete, ?_, ?_, ?_, ?_⟩
    · rw [List.replicate_succ', run_append, hrun]
      rfl
    · simp only [getFlowReader, hreader, State.acquired, RefCounted.addReference,
        UInt64.ofNat_add (n + 1)]
      exact Function.update_self _ _ _
    · simp only [getFlowReader, hreader, State.acquired]
      change Function.update s.acquisitions () (s.acquisitions () + 1) () = _
      rw [Function.update_self, hacquisitions]
    · simp only [getFlowReader, hreader, State.acquired]
      exact hreleases

def pal : FlowReader Nat Nat → MxlRational := fun _ => ⟨25, 1⟩

end MediaExchange.ReaderReferences
