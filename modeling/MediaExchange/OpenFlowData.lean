/-
  MediaExchange/OpenFlowData.lean
  ===============================
  **What every party of a domain has open.**

  A `createFlowWriter` knows which flow data it has open and how it locked it, a
  writer has a shared lock until it is released, a probe has an exclusive one
  between its `flock` and its `close`.  None of them looks at the kernel's table
  to find out: it follows from how far the party is.  `Consistent` says that the
  table agrees, for every owner, and `consistent_step` that every step of every
  party keeps it that way.  The other modules about the domain read off from it
  who has which lock.
-/
import MediaExchange.FlowDomain

namespace MediaExchange.FlowDomain

open FileLocks

variable {ι φ τ : Type*} [DecidableEq φ]

/-! ### Locks by phase -/

/-- The lock on the flow data that `createFlowWriter` creates. -/
@[simp] def CreatePhase.flowData : CreatePhase → Option LockMode
  | .created => none
  | _ => some .shared

/-- Whether the existing flow data is open, and its lock. -/
@[simp] def CreatePhase.existingFlowData : CreatePhase → Option (Option LockMode)
  | .opened => some none
  | .locked | .complete => some (some .shared)
  | _ => none

@[simp] def ReleasePhase.lock : ReleasePhase → Option LockMode
  | .releasing => some .shared
  | .converting | .kept => none
  | .exclusive | .removed => some .exclusive

@[simp] def ProbePhase.descriptor : ProbePhase → Option (Option LockMode)
  | .opened | .active => some none
  | .inactive => some (some .exclusive)
  | .condemned => none

/-- A writer's lock: shared, unless its release is under way. -/
@[simp] def Instance.writerLock (I : Instance φ) (x : φ) : Option LockMode :=
  match I.call with
  | some (.release y phase) => if y = x then phase.lock else some .shared
  | _ => some .shared

/-- The flow whose data file an instance has open under a handle, and the lock. -/
@[simp] def Instance.descriptor (I : Instance φ) : Handle φ → Option (φ × Option LockMode)
  | .flowData =>
      match I.call with
      | some (.create x phase) => some (x, phase.flowData)
      | _ => none
  | .existingFlowData =>
      match I.call with
      | some (.create x phase) => phase.existingFlowData.map fun lock => (x, lock)
      | _ => none
  | .writer x => (I.writers x).map fun _ => (x, I.writerLock x)

@[simp] def Probe.descriptor (p : Probe φ) : Option (φ × Option LockMode) :=
  p.phase.descriptor.map fun lock => (p.flow, lock)

@[simp] def State.descriptor (s : State ι φ τ) : Owner ι φ τ → Option (φ × Option LockMode)
  | .ofInstance i h => (s.instances i).descriptor h
  | .ofProbe u => (s.probes u).bind Probe.descriptor

/-- A description, as far as its owner knows it. -/
def kind (d : Description (DataFile φ)) : φ × Option LockMode := (d.file.flow, d.lock)

/-- The kernel's table is what the phases say, and a writer whose release is under
    way has no references left. -/
structure Consistent (s : State ι φ τ) : Prop where
  descriptor : ∀ o, (s.files.get o).map kind = s.descriptor o
  releasing : ∀ i x phase, (s.instances i).call = some (.release x phase) →
    (s.instances i).writers x = some 0

section Reading

variable {s : State ι φ τ} {o : Owner ι φ τ} {x : φ} {lock : Option LockMode}

theorem Consistent.get_of_descriptor (hs : Consistent s) (h : s.descriptor o = some (x, lock)) :
    ∃ n, s.files.get o = some ⟨⟨x, n⟩, lock⟩ := by
  have hdesc := hs.descriptor o
  rw [h, Option.map_eq_some_iff] at hdesc
  obtain ⟨⟨⟨y, n⟩, l⟩, hget, hd⟩ := hdesc
  obtain ⟨rfl, rfl⟩ := Prod.mk.inj hd
  exact ⟨n, hget⟩

theorem Consistent.descriptor_of_get (hs : Consistent s) {n : Nat}
    (h : s.files.get o = some ⟨⟨x, n⟩, lock⟩) : s.descriptor o = some (x, lock) := by
  rw [← hs.descriptor o, h]
  rfl

end Reading

/-! ### Every step keeps the table consistent -/

theorem consistent_initial (count : Nat) (published : φ → Option (Fin count)) :
    Consistent (State.initial count published : State ι φ τ) where
  descriptor o := by
    cases o with
    | ofInstance i h => cases h <;> rfl
    | ofProbe u => rfl
  releasing i x phase h := by cases h

section Steps

variable [DecidableEq ι] [DecidableEq τ]
variable {s t : State ι φ τ} {i : ι} {u : τ} {x : φ} {a : Action ι φ τ}

omit [DecidableEq ι] [DecidableEq τ] in
theorem Consistent.of_instance (hs : Consistent s) (hleaves : LeavesOthers a s t)
    (ha : a.byInstance = some i) (hprobe : a.byProbe = none)
    (hown : ∀ h, (t.files.get (.ofInstance i h)).map kind = (t.instances i).descriptor h)
    (hrel : ∀ x phase, (t.instances i).call = some (.release x phase) →
      (t.instances i).writers x = some 0) : Consistent t where
  descriptor o := by
    cases o with
    | ofInstance j h =>
      by_cases hj : i = j
      · subst hj
        exact hown h
      · have hne : a.byInstance ≠ some j := by simp [ha, hj]
        rw [hleaves.handles j h hne, hs.descriptor, State.descriptor, State.descriptor,
          hleaves.instances j hne]
    | ofProbe u =>
      have hne : a.byProbe ≠ some u := by simp [hprobe]
      rw [hleaves.descriptions u hne, hs.descriptor, State.descriptor, State.descriptor,
        hleaves.probes u hne]
  releasing j x phase hcall := by
    by_cases hj : i = j
    · subst hj
      exact hrel x phase hcall
    · rw [hleaves.instances j (by simp [ha, hj])] at hcall ⊢
      exact hs.releasing j x phase hcall

omit [DecidableEq ι] [DecidableEq τ] in
theorem Consistent.of_probe (hs : Consistent s) (hleaves : LeavesOthers a s t)
    (ha : a.byProbe = some u) (hinst : a.byInstance = none)
    (hown : (t.files.get (.ofProbe u)).map kind = (t.probes u).bind Probe.descriptor) :
    Consistent t where
  descriptor o := by
    cases o with
    | ofInstance j h =>
      have hne : a.byInstance ≠ some j := by simp [hinst]
      rw [hleaves.handles j h hne, hs.descriptor, State.descriptor, State.descriptor,
        hleaves.instances j hne]
    | ofProbe v =>
      by_cases hv : u = v
      · subst hv
        exact hown
      · have hne : a.byProbe ≠ some v := by simp [ha, hv]
        rw [hleaves.descriptions v hne, hs.descriptor, State.descriptor, State.descriptor,
          hleaves.probes v hne]
  releasing j x phase hcall := by
    rw [hleaves.instances j (by simp [hinst])] at hcall ⊢
    exact hs.releasing j x phase hcall

/-- What a `createFlowWriter` has open when an exception ends it, or when it returns
    a writer that is there already: nothing. -/
theorem descriptor_throwCreate (hs : Consistent s) {phase : CreatePhase}
    (hcall : (s.instances i).call = some (.create x phase)) (h : Handle φ) :
    ((s.throwCreate i).files.get (.ofInstance i h)).map kind =
      ((s.throwCreate i).instances i).descriptor h := by
  have hdesc := hs.descriptor (.ofInstance i h)
  cases h with
  | flowData => simp
  | existingFlowData => simp
  | writer y => simpa [hcall] using hdesc

theorem consistent_createTemporary (hs : Consistent s)
    (h : step s (.createTemporary i x) = some t) : Consistent t := by
  have hleaves := step_leavesOthers h
  obtain ⟨hcall, rfl⟩ := of_createTemporary h
  refine hs.of_instance hleaves rfl rfl (fun hd => ?_) (by simp)
  have hdesc := hs.descriptor (.ofInstance i hd)
  cases hd with
  | flowData => simp [kind]
  | existingFlowData => simpa [hcall] using hdesc
  | writer y => simpa [hcall] using hdesc

theorem consistent_lockTemporary (hs : Consistent s)
    (h : step s (.lockTemporary i x) = some t) : Consistent t := by
  have hleaves := step_leavesOthers h
  rcases of_lockTemporary h with ⟨hcall, ⟨files, hlock, rfl⟩ | rfl⟩
  · obtain ⟨d, hget, -, hget'⟩ := FileTable.of_tryLock_eq_some hlock
    refine hs.of_instance hleaves rfl rfl (fun hd => ?_) (by simp)
    have hdesc := hs.descriptor (.ofInstance i hd)
    cases hd with
    | flowData =>
      have hflow : d.file.flow = x := by
        simp [hget, hcall, kind] at hdesc
        exact hdesc.1
      simp [hget', kind, hflow]
    | existingFlowData => simpa [hget', hcall] using hdesc
    | writer y => simpa [hget', hcall] using hdesc
  · exact hs.of_instance hleaves rfl rfl (descriptor_throwCreate hs hcall) (by simp)

theorem consistent_publish (hs : Consistent s) (h : step s (.publish i x) = some t) :
    Consistent t := by
  have hleaves := step_leavesOthers h
  rcases of_publish h with ⟨hcall, ⟨d, -, -, rfl⟩ | rfl⟩
  · refine hs.of_instance hleaves rfl rfl (fun hd => ?_) (by simp)
    have hdesc := hs.descriptor (.ofInstance i hd)
    cases hd <;> simpa [hcall] using hdesc
  · refine hs.of_instance hleaves rfl rfl (fun hd => ?_) (by simp)
    have hdesc := hs.descriptor (.ofInstance i hd)
    cases hd <;> simpa [hcall] using hdesc

theorem consistent_openExisting (hs : Consistent s)
    (h : step s (.openExisting i x) = some t) : Consistent t := by
  have hleaves := step_leavesOthers h
  rcases of_openExisting h with ⟨hcall, ⟨n, -, rfl⟩ | rfl⟩
  · refine hs.of_instance hleaves rfl rfl (fun hd => ?_) (by simp)
    have hdesc := hs.descriptor (.ofInstance i hd)
    cases hd with
    | flowData => simpa [hcall] using hdesc
    | existingFlowData => simp [kind]
    | writer y => simpa [hcall] using hdesc
  · exact hs.of_instance hleaves rfl rfl (descriptor_throwCreate hs hcall) (by simp)

theorem consistent_lockExisting (hs : Consistent s)
    (h : step s (.lockExisting i x) = some t) : Consistent t := by
  have hleaves := step_leavesOthers h
  rcases of_lockExisting h with ⟨hcall, ⟨files, hlock, rfl⟩ | ⟨-, rfl⟩⟩
  · obtain ⟨d, hget, -, hget'⟩ := FileTable.of_tryLock_eq_some hlock
    refine hs.of_instance hleaves rfl rfl (fun hd => ?_) (by simp)
    have hdesc := hs.descriptor (.ofInstance i hd)
    cases hd with
    | flowData => simpa [hget', hcall] using hdesc
    | existingFlowData =>
      have hflow : d.file.flow = x := by
        simp [hget, hcall, kind] at hdesc
        exact hdesc.1
      simp [hget', kind, hflow]
    | writer y => simpa [hget', hcall] using hdesc
  · exact hs.of_instance hleaves rfl rfl (descriptor_throwCreate hs hcall) (by simp)

theorem consistent_openGrains (hs : Consistent s) {any : Bool}
    (h : step s (.openGrains i x any) = some t) : Consistent t := by
  have hleaves := step_leavesOthers h
  rcases of_openGrains h with ⟨hcall, rfl | ⟨-, rfl⟩⟩
  · exact hs.of_instance hleaves rfl rfl (descriptor_throwCreate hs hcall) (by simp)
  · refine hs.of_instance hleaves rfl rfl (fun hd => ?_) (by simp)
    have hdesc := hs.descriptor (.ofInstance i hd)
    cases hd <;> simpa [hcall] using hdesc

theorem consistent_abandon (hs : Consistent s) (h : step s (.abandon i x) = some t) :
    Consistent t := by
  have hleaves := step_leavesOthers h
  obtain ⟨hcall, rfl⟩ := of_abandon h
  rcases hcall with hcall | hcall <;>
    exact hs.of_instance hleaves rfl rfl (descriptor_throwCreate hs hcall) (by simp)

/-- The flow data a returning `createFlowWriter` hands over has a shared lock. -/
theorem descriptor_register (hs : Consistent s) {phase : CreatePhase} {own : Handle φ}
    (hcall : (s.instances i).call = some (.create x phase))
    (hown : (s.files.get (.ofInstance i own)).map kind = some (x, some .shared))
    (hne : ∀ y, own ≠ .writer y) (h : Handle φ) :
    ((register s i x own).files.get (.ofInstance i h)).map kind =
      ((register s i x own).instances i).descriptor h := by
  have hdesc := hs.descriptor (.ofInstance i h)
  unfold register
  split
  · rename_i refs hrefs
    cases h with
    | flowData => simp
    | existingFlowData => simp
    | writer y =>
      by_cases hy : y = x
      · subst hy
        simpa [hcall, hrefs] using hdesc
      · simpa [hcall, hy] using hdesc
  · rename_i hnone
    cases h with
    | flowData => simp
    | existingFlowData => simp
    | writer y =>
      by_cases hy : y = x
      · subst hy
        simpa using hown
      · simpa [hcall, hy, Ne.symm (hne y)] using hdesc

theorem consistent_register (hs : Consistent s) (h : step s (.register i x) = some t) :
    Consistent t := by
  have hleaves := step_leavesOthers h
  have hrel : ∀ own y phase, ((register s i x own).instances i).call = some (.release y phase) →
      ((register s i x own).instances i).writers y = some 0 := by
    intro own y phase
    unfold register
    split <;> simp
  rcases of_returnWriter h with ⟨hcall, rfl⟩ | ⟨hcall, rfl⟩
  · have hown := hs.descriptor (.ofInstance i .flowData)
    simp only [State.descriptor, Instance.descriptor, hcall] at hown
    exact hs.of_instance hleaves rfl rfl (descriptor_register hs hcall hown (by simp)) (hrel _)
  · have hown := hs.descriptor (.ofInstance i .existingFlowData)
    simp only [State.descriptor, Instance.descriptor, hcall] at hown
    exact hs.of_instance hleaves rfl rfl (descriptor_register hs hcall hown (by simp)) (hrel _)

theorem consistent_releaseReference (hs : Consistent s)
    (h : step s (.releaseReference i x) = some t) : Consistent t := by
  have hleaves := step_leavesOthers h
  rcases of_releaseReference h with ⟨hcall, ⟨hrefs, rfl⟩ | ⟨refs, hrefs, rfl⟩⟩
  · refine hs.of_instance hleaves rfl rfl (fun hd => ?_) ?_
    · have hdesc := hs.descriptor (.ofInstance i hd)
      cases hd with
      | flowData => simpa [hcall] using hdesc
      | existingFlowData => simpa [hcall] using hdesc
      | writer y =>
        by_cases hy : y = x
        · subst hy
          simpa [hcall, hrefs] using hdesc
        · simpa [hcall, hy, Ne.symm hy] using hdesc
    · rintro y phase hy
      simp at hy
      simp [hy.1]
  · refine hs.of_instance hleaves rfl rfl (fun hd => ?_) (by simp [hcall])
    have hdesc := hs.descriptor (.ofInstance i hd)
    cases hd with
    | flowData => simpa [hcall] using hdesc
    | existingFlowData => simpa [hcall] using hdesc
    | writer y =>
      by_cases hy : y = x
      · subst hy
        simpa [hcall, hrefs] using hdesc
      · simpa [hcall, hy] using hdesc

omit [DecidableEq ι] [DecidableEq τ] in
/-- The next phase of a release changes nothing but the lock of the writer. -/
theorem Consistent.of_release (hs : Consistent s) (hleaves : LeavesOthers a s t)
    (ha : a.byInstance = some i) (hprobe : a.byProbe = none) {phase phase' : ReleasePhase}
    (hcall : (s.instances i).call = some (.release x phase))
    (hinst : t.instances i = { s.instances i with call := some (.release x phase') })
    (hfiles : ∀ h, h ≠ .writer x →
      t.files.get (.ofInstance i h) = s.files.get (.ofInstance i h))
    (hlock : (t.files.get (.ofInstance i (.writer x))).map kind = some (x, phase'.lock)) :
    Consistent t := by
  have hrefs := hs.releasing i x phase hcall
  refine hs.of_instance hleaves ha hprobe (fun hd => ?_) ?_
  · have hdesc := hs.descriptor (.ofInstance i hd)
    by_cases hx : hd = .writer x
    · subst hx
      simp [hlock, hinst, hrefs]
    · rw [hfiles hd hx, hdesc]
      cases hd with
      | flowData => simp [hinst, hcall]
      | existingFlowData => simp [hinst, hcall]
      | writer y =>
        have hy : x ≠ y := by
          rintro rfl
          exact hx rfl
        simp [hinst, hcall, hy]
  · rintro y phase hy
    simp [hinst] at hy
    obtain ⟨rfl, -⟩ := hy
    simpa [hinst] using hrefs

theorem consistent_dropLock (hs : Consistent s) (h : step s (.dropLock i x) = some t) :
    Consistent t := by
  have hleaves := step_leavesOthers h
  obtain ⟨hcall, rfl⟩ := of_dropLock h
  refine hs.of_release hleaves rfl rfl hcall (by simp; rfl) (fun hd hx => ?_) ?_
  · simp [hx]
  · have hdesc := hs.descriptor (.ofInstance i (.writer x))
    simp [hs.releasing i x _ hcall, hcall] at hdesc
    obtain ⟨d, hget, hd⟩ := hdesc
    have hflow : d.file.flow = x := congrArg Prod.fst hd
    simp [hget, kind, hflow]

theorem consistent_makeExclusive (hs : Consistent s)
    (h : step s (.makeExclusive i x) = some t) : Consistent t := by
  have hleaves := step_leavesOthers h
  rcases of_makeExclusive h with ⟨hcall, ⟨files, hlock, rfl⟩ | ⟨-, rfl⟩⟩
  · obtain ⟨d, hget, -, hget'⟩ := FileTable.of_tryLock_eq_some hlock
    have hdesc := hs.descriptor (.ofInstance i (.writer x))
    simp [hs.releasing i x _ hcall, hcall, hget, kind] at hdesc
    refine hs.of_release hleaves rfl rfl hcall (by simp; rfl) (fun hd hx => ?_) ?_
    · simp [hget', hx]
    · simp [hget', kind, hdesc.1]
  · have hdesc := hs.descriptor (.ofInstance i (.writer x))
    refine hs.of_release hleaves rfl rfl hcall (by simp; rfl) (fun _ _ => rfl) ?_
    simpa [hs.releasing i x _ hcall, hcall] using hdesc

theorem consistent_deleteFlow (hs : Consistent s) (h : step s (.deleteFlow i x) = some t) :
    Consistent t := by
  have hleaves := step_leavesOthers h
  obtain ⟨hcall, rfl⟩ := of_deleteFlow h
  have hdesc := hs.descriptor (.ofInstance i (.writer x))
  refine hs.of_release hleaves rfl rfl hcall (by simp; rfl) (fun _ _ => rfl) ?_
  simpa [hs.releasing i x _ hcall, hcall] using hdesc

theorem consistent_erase (hs : Consistent s) (h : step s (.erase i x) = some t) :
    Consistent t := by
  have hleaves := step_leavesOthers h
  obtain ⟨hcall, rfl⟩ := of_erase h
  refine hs.of_instance hleaves rfl rfl (fun hd => ?_) (by simp)
  have hdesc := hs.descriptor (.ofInstance i hd)
  cases hd with
  | flowData => rcases hcall with hcall | hcall <;> simpa [hcall] using hdesc
  | existingFlowData => rcases hcall with hcall | hcall <;> simpa [hcall] using hdesc
  | writer y =>
    by_cases hy : y = x
    · subst hy
      simp
    · rcases hcall with hcall | hcall <;> simpa [hcall, hy, Ne.symm hy] using hdesc

theorem consistent_openProbe (hs : Consistent s) {kind : ProbeKind}
    (h : step s (.openProbe u x kind) = some t) : Consistent t := by
  have hleaves := step_leavesOthers h
  rcases of_openProbe h with ⟨-, ⟨n, -, rfl⟩ | rfl⟩
  · exact hs.of_probe hleaves rfl rfl (by simp [FlowDomain.kind])
  · exact hs

theorem consistent_lockProbe (hs : Consistent s) (h : step s (.lockProbe u x) = some t) :
    Consistent t := by
  have hleaves := step_leavesOthers h
  have hdesc := hs.descriptor (.ofProbe u)
  rcases of_lockProbe h with ⟨k, hprobe, ⟨files, hlock, rfl⟩ | ⟨-, rfl⟩⟩
  · obtain ⟨d, hget, -, hget'⟩ := FileTable.of_tryLock_eq_some hlock
    simp [hprobe, hget, kind] at hdesc
    exact hs.of_probe hleaves rfl rfl (by simp [hget', kind, hdesc.1])
  · exact hs.of_probe hleaves rfl rfl (by simpa [hprobe] using hdesc)

theorem consistent_closeProbe (hs : Consistent s) (h : step s (.closeProbe u x) = some t) :
    Consistent t := by
  have hleaves := step_leavesOthers h
  rcases of_closeProbe h with ⟨-, rfl⟩ | rfl
  · exact hs.of_probe hleaves rfl rfl (by simp)
  · exact hs.of_probe hleaves rfl rfl (by simp)

theorem consistent_removeInactive (hs : Consistent s)
    (h : step s (.removeInactive u x) = some t) : Consistent t := by
  have hleaves := step_leavesOthers h
  have hdesc := hs.descriptor (.ofProbe u)
  obtain ⟨hprobe, rfl⟩ := of_removeInactive h
  exact hs.of_probe hleaves rfl rfl (by simpa [hprobe] using hdesc)

theorem consistent_step (hs : Consistent s) (h : step s a = some t) : Consistent t := by
  cases a with
  | createTemporary i x => exact consistent_createTemporary hs h
  | lockTemporary i x => exact consistent_lockTemporary hs h
  | publish i x => exact consistent_publish hs h
  | openExisting i x => exact consistent_openExisting hs h
  | lockExisting i x => exact consistent_lockExisting hs h
  | openGrains i x any => exact consistent_openGrains hs h
  | abandon i x => exact consistent_abandon hs h
  | register i x => exact consistent_register hs h
  | releaseReference i x => exact consistent_releaseReference hs h
  | dropLock i x => exact consistent_dropLock hs h
  | makeExclusive i x => exact consistent_makeExclusive hs h
  | deleteFlow i x => exact consistent_deleteFlow hs h
  | erase i x => exact consistent_erase hs h
  | openProbe u x kind => exact consistent_openProbe hs h
  | lockProbe u x => exact consistent_lockProbe hs h
  | closeProbe u x => exact consistent_closeProbe hs h
  | removeInactive u x => exact consistent_removeInactive hs h

end Steps

end MediaExchange.FlowDomain
