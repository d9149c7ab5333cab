/-
  MediaExchange/LiveWriters.lean
  ==============================
  **A live writer's flow is at its path, if the path does not change under a call.**

  `createFlowWriter` opens the data file at the flow's path and locks it in a second
  system call; `releaseWriter` drops its shared lock and asks for the exclusive one
  in a second system call.  If the flow is removed between the two, the lock is
  granted all the same, on a file that has no name any more.  With another flow at
  the path by then, the grains of that one are opened and a writer of the removed
  flow is returned (`writer_of_removed_flow`), or that one is removed although its
  writers are at work.

  If the path still leads to the locked file when the grains are opened and when
  the directory is removed (`FollowsPath`), the lock does what it is for: flow data
  that stands for a writer has a lock on the published file (`AllPublished`), so
  the exclusive lock of a release says that there is no other, and nothing is
  renamed over a flow.  Every live writer is then bound to the file at its flow's
  path in every state of every run (`writers_stay_bound`), whoever takes part.
-/
import MediaExchange.OpenFlowData

namespace MediaExchange.FlowDomain

open FileLocks LabelledRun

variable {ι φ τ : Type*} [DecidableEq φ]

/-! ### Flow data that stands for a writer -/

/-- The instance holds a writer of the flow that is not being released. -/
@[simp] def Instance.Live (I : Instance φ) (x : φ) : Prop :=
  (I.writers x).isSome = true ∧ ∀ phase, I.call ≠ some (.release x phase)

/-- Flow data that stands for a writer: a live one's, and that of a
    `createFlowWriter` which is about to return. -/
@[simp] def Instance.Attached (I : Instance φ) : Handle φ → Prop
  | .flowData => ∃ x, I.call = some (.create x .published)
  | .existingFlowData => ∃ x, I.call = some (.create x .complete)
  | .writer x => I.Live x

/-- The instance has a lock on the file through attached flow data. -/
def Bears (s : State ι φ τ) (i : ι) (h : Handle φ) (f : DataFile φ) : Prop :=
  (s.instances i).Attached h ∧ ∃ lock, s.files.get (.ofInstance i h) = some ⟨f, some lock⟩

/-- Attached flow data is that of the flow at the path. -/
def AllPublished (s : State ι φ τ) : Prop :=
  ∀ i h f, Bears s i h f → s.published f.flow = some f.serial

/-- Every live writer is bound to the data file at its flow's path, with a shared
    lock on it. -/
def WritersBound (s : State ι φ τ) : Prop :=
  ∀ i x, (s.instances i).Live x → ∃ n, s.published x = some n ∧
    s.files.get (.ofInstance i (.writer x)) = some ⟨⟨x, n⟩, some .shared⟩

/-- A live writer has a shared lock on a data file of its flow. -/
theorem Consistent.get_of_live {s : State ι φ τ} (hs : Consistent s) {i : ι} {x : φ}
    (hlive : (s.instances i).Live x) :
    ∃ n, s.files.get (.ofInstance i (.writer x)) = some ⟨⟨x, n⟩, some .shared⟩ := by
  obtain ⟨hentry, hcall⟩ := hlive
  obtain ⟨refs, hrefs⟩ := Option.isSome_iff_exists.mp hentry
  have hlock : (s.instances i).writerLock x = some .shared := by
    simp only [Instance.writerLock]
    split
    · rename_i y phase hrelease
      have hy : y ≠ x := by
        rintro rfl
        exact hcall phase hrelease
      simp [hy]
    · rfl
  refine hs.get_of_descriptor ?_
  simp only [State.descriptor, Instance.descriptor, hrefs, hlock, Option.map_some]

theorem Consistent.writersBound {s : State ι φ τ} (hs : Consistent s) (hall : AllPublished s) :
    WritersBound s := by
  intro i x hlive
  obtain ⟨n, hget⟩ := hs.get_of_live hlive
  exact ⟨n, hall i (.writer x) ⟨x, n⟩ ⟨hlive, .shared, hget⟩, hget⟩

section Steps

variable [DecidableEq ι] [DecidableEq τ]
variable {s t : State ι φ τ} {i : ι} {u : τ} {x : φ} {a : Action ι φ τ}
variable {h : Handle φ} {f : DataFile φ}

/-! ### How flow data comes to stand for a writer -/

/-- The steps that attach flow data: a rename that succeeds, and the opening of what
    belongs to a locked data file. -/
inductive Attaches (s t : State ι φ τ) (i : ι) : DataFile φ → Action ι φ τ → Prop
  | publish {x n} (hnone : s.published x = none) (hpub : t.published x = some n) :
      Attaches s t i ⟨x, n⟩ (.publish i x)
  | openGrains {f lock any} (hthere : ¬ (s.published f.flow = none ∧ any = true))
      (hget : s.files.get (.ofInstance i .existingFlowData) = some ⟨f, lock⟩) :
      Attaches s t i f (.openGrains i f.flow any)

omit [DecidableEq φ] [DecidableEq ι] [DecidableEq τ] in
/-- Where only live writers are attached, they were attached before. -/
theorem Bears.of_live (hb : Bears t i h f) (hflow : ¬ (t.instances i).Attached .flowData)
    (hexisting : ¬ (t.instances i).Attached .existingFlowData)
    (hwriter : ∀ y, (t.instances i).Attached (.writer y) → (s.instances i).Live y ∧
      t.files.get (.ofInstance i (.writer y)) = s.files.get (.ofInstance i (.writer y))) :
    ∃ h', Bears s i h' f := by
  rcases hb with ⟨hatt, lock, hget⟩
  cases h with
  | flowData => exact absurd hatt hflow
  | existingFlowData => exact absurd hatt hexisting
  | writer y =>
    obtain ⟨hlive, hsame⟩ := hwriter y hatt
    exact ⟨.writer y, hlive, lock, hsame ▸ hget⟩

theorem bears_throwCreate {phase : CreatePhase}
    (hcall : (s.instances i).call = some (.create x phase))
    (hb : Bears (s.throwCreate i) i h f) : ∃ h', Bears s i h' f := by
  refine hb.of_live (by simp) (by simp) (fun y hy => ?_)
  simpa [hcall] using hy

theorem bears_register {own : Handle φ} {phase : CreatePhase}
    (hcall : (s.instances i).call = some (.create x phase))
    (hatt : (s.instances i).Attached own) (hne : ∀ y, own ≠ .writer y)
    (hb : Bears (register s i x own) i h f) : ∃ h', Bears s i h' f := by
  unfold register at hb
  split at hb
  · rename_i refs hrefs
    refine hb.of_live (by simp) (by simp) (fun y hy => ?_)
    by_cases hyx : y = x
    · subst hyx
      simp [hcall, hrefs]
    · simpa [hcall, hyx] using hy
  · rcases hb with ⟨hatt', lock, hget⟩
    cases h with
    | flowData => simp at hatt'
    | existingFlowData => simp at hatt'
    | writer y =>
      by_cases hy : y = x
      · subst hy
        exact ⟨own, hatt, lock, by simpa using hget⟩
      · refine ⟨.writer y, ?_, lock, ?_⟩
        · simpa [hcall, hy] using hatt'
        · simpa [hy, Ne.symm (hne y)] using hget

theorem bears_deleteFlow {j : ι} (hstep : step s (.deleteFlow j x) = some t)
    (hb : Bears t i h f) :
    Bears s i h f ∧ (.ofInstance i h : Owner ι φ τ) ≠ .ofInstance j (.writer x) := by
  obtain ⟨hcall, rfl⟩ := of_deleteFlow hstep
  rcases hb with ⟨hatt, lock, hget⟩
  by_cases hij : i = j
  · subst hij
    cases h with
    | flowData => simp at hatt
    | existingFlowData => simp at hatt
    | writer y =>
      by_cases hy : y = x
      · simp [hy] at hatt
      · refine ⟨⟨?_, lock, hget⟩, by simp [hy]⟩
        simpa [hcall, hy, Ne.symm hy] using hatt
  · exact ⟨⟨by simpa [hij] using hatt, lock, hget⟩, by simp [hij]⟩

/-- Flow data that is attached after a step was attached before, or has just been
    published or locked. -/
theorem bears_step (hs : Consistent s) (hstep : step s a = some t) (hb : Bears t i h f) :
    (∃ h', Bears s i h' f) ∨ Attaches s t i f a := by
  by_cases hi : a.byInstance = some i
  swap
  · have hleaves := step_leavesOthers hstep
    rcases hb with ⟨hatt, lock, hget⟩
    rw [hleaves.instances i hi] at hatt
    rw [hleaves.handles i h hi] at hget
    exact Or.inl ⟨h, hatt, lock, hget⟩
  have ht := consistent_step hs hstep
  cases a with
  | createTemporary j x =>
    obtain rfl : j = i := Option.some.inj hi
    obtain ⟨hcall, rfl⟩ := of_createTemporary hstep
    refine Or.inl (hb.of_live (by simp) (by simp) (fun y hy => ?_))
    simpa [hcall] using hy
  | lockTemporary j x =>
    obtain rfl : j = i := Option.some.inj hi
    rcases of_lockTemporary hstep with ⟨hcall, ⟨files, hlock, rfl⟩ | rfl⟩
    · refine Or.inl (hb.of_live (by simp) (by simp) (fun y hy => ?_))
      simpa [hcall, FileTable.get_of_tryLock hlock] using hy
    · exact Or.inl (bears_throwCreate hcall hb)
  | publish j x =>
    obtain rfl : j = i := Option.some.inj hi
    rcases of_publish hstep with ⟨hcall, ⟨d, hnone, hd, rfl⟩ | rfl⟩
    · rcases hb with ⟨hatt, lock, hget⟩
      cases h with
      | flowData =>
        have hflow := ht.descriptor_of_get hget
        simp at hflow
        simp [hd] at hget
        obtain ⟨rfl, -⟩ := hflow
        exact Or.inr (.publish hnone (by simp [hget]))
      | existingFlowData => simp at hatt
      | writer y => exact Or.inl ⟨.writer y, by simpa [hcall] using hatt, lock, hget⟩
    · refine Or.inl (hb.of_live (by simp) (by simp) (fun y hy => ?_))
      simpa [hcall] using hy
  | openExisting j x =>
    obtain rfl : j = i := Option.some.inj hi
    rcases of_openExisting hstep with ⟨hcall, ⟨n, -, rfl⟩ | rfl⟩
    · refine Or.inl (hb.of_live (by simp) (by simp) (fun y hy => ?_))
      simpa [hcall] using hy
    · exact Or.inl (bears_throwCreate hcall hb)
  | lockExisting j x =>
    obtain rfl : j = i := Option.some.inj hi
    rcases of_lockExisting hstep with ⟨hcall, ⟨files, hlock, rfl⟩ | ⟨-, rfl⟩⟩
    · refine Or.inl (hb.of_live (by simp) (by simp) (fun y hy => ?_))
      simpa [hcall, FileTable.get_of_tryLock hlock] using hy
    · exact Or.inl (bears_throwCreate hcall hb)
  | openGrains j x any =>
    obtain rfl : j = i := Option.some.inj hi
    rcases of_openGrains hstep with ⟨hcall, rfl | ⟨hthere, rfl⟩⟩
    · exact Or.inl (bears_throwCreate hcall hb)
    · rcases hb with ⟨hatt, lock, hget⟩
      cases h with
      | flowData => simp at hatt
      | existingFlowData =>
        have hflow := ht.descriptor_of_get hget
        simp at hflow
        obtain ⟨rfl, -⟩ := hflow
        exact Or.inr (.openGrains hthere hget)
      | writer y => exact Or.inl ⟨.writer y, by simpa [hcall] using hatt, lock, hget⟩
  | abandon j x =>
    obtain rfl : j = i := Option.some.inj hi
    obtain ⟨hcall, rfl⟩ := of_abandon hstep
    rcases hcall with hcall | hcall <;> exact Or.inl (bears_throwCreate hcall hb)
  | register j x =>
    obtain rfl : j = i := Option.some.inj hi
    rcases of_returnWriter hstep with ⟨hcall, rfl⟩ | ⟨hcall, rfl⟩
    · have hatt : (s.instances j).Attached .flowData := ⟨x, hcall⟩
      exact Or.inl (bears_register hcall hatt (by simp) hb)
    · have hatt : (s.instances j).Attached .existingFlowData := ⟨x, hcall⟩
      exact Or.inl (bears_register hcall hatt (by simp) hb)
  | releaseReference j x =>
    obtain rfl : j = i := Option.some.inj hi
    rcases of_releaseReference hstep with ⟨hcall, ⟨hrefs, rfl⟩ | ⟨refs, hrefs, rfl⟩⟩
    · refine Or.inl (hb.of_live (by simp) (by simp) (fun y hy => ?_))
      by_cases hyx : y = x
      · simp [hyx] at hy
      · simpa [hcall, hyx, Ne.symm hyx] using hy
    · refine Or.inl (hb.of_live (by simp [hcall]) (by simp [hcall]) (fun y hy => ?_))
      by_cases hyx : y = x
      · subst hyx
        simp [hcall, hrefs]
      · simpa [hcall, hyx] using hy
  | dropLock j x =>
    obtain rfl : j = i := Option.some.inj hi
    obtain ⟨hcall, rfl⟩ := of_dropLock hstep
    refine Or.inl (hb.of_live (by simp) (by simp) (fun y hy => ?_))
    by_cases hyx : y = x
    · simp [hyx] at hy
    · simpa [hcall, hyx, Ne.symm hyx] using hy
  | makeExclusive j x =>
    obtain rfl : j = i := Option.some.inj hi
    have hother : ∀ y, (t.instances j).Attached (.writer y) → y ≠ x := by
      rcases of_makeExclusive hstep with ⟨-, ⟨files, -, rfl⟩ | ⟨-, rfl⟩⟩ <;>
        (rintro y hy rfl; simp at hy)
    rcases of_makeExclusive hstep with ⟨hcall, ⟨files, hlock, rfl⟩ | ⟨-, rfl⟩⟩
    · refine Or.inl (hb.of_live (by simp) (by simp) (fun y hy => ?_))
      have hyx := hother y hy
      simpa [hcall, hyx, Ne.symm hyx, FileTable.get_of_tryLock hlock] using hy
    · refine Or.inl (hb.of_live (by simp) (by simp) (fun y hy => ?_))
      have hyx := hother y hy
      simpa [hcall, hyx, Ne.symm hyx] using hy
  | deleteFlow j x => exact Or.inl ⟨h, (bears_deleteFlow hstep hb).1⟩
  | erase j x =>
    obtain rfl : j = i := Option.some.inj hi
    obtain ⟨hcall, rfl⟩ := of_erase hstep
    refine Or.inl (hb.of_live (by simp) (by simp) (fun y hy => ?_))
    by_cases hyx : y = x
    · simp [hyx] at hy
    · rcases hcall with hcall | hcall <;> simpa [hcall, hyx, Ne.symm hyx] using hy
  | openProbe v y kind => cases hi
  | lockProbe v y => cases hi
  | closeProbe v y => cases hi
  | removeInactive v y => cases hi

/-! ### The condition -/

/-- The path leads to the file that the owner has open. -/
def StillPublished (s : State ι φ τ) (o : Owner ι φ τ) (x : φ) : Prop :=
  (s.files.get o).map (fun d => d.file.serial) = s.published x

/-- The path is followed a second time only to the locked data file: when the grains
    of an existing flow are opened, and when a flow is removed. -/
def FollowsPath (s : State ι φ τ) : Action ι φ τ → Prop
  | .openGrains i x any => ¬ (s.published x = none ∧ any = true) →
      StillPublished s (.ofInstance i .existingFlowData) x
  | .deleteFlow i x => s.published x = none ∨ StillPublished s (.ofInstance i (.writer x)) x
  | _ => True

instance decidableStillPublished (s : State ι φ τ) (o : Owner ι φ τ) (x : φ) :
    Decidable (StillPublished s o x) :=
  inferInstanceAs (Decidable (Option.map _ _ = s.published x))

instance decidableFollowsPath (s : State ι φ τ) :
    (a : Action ι φ τ) → Decidable (FollowsPath s a)
  | .openGrains _ x _ => inferInstanceAs (Decidable (¬ (s.published x = none ∧ _) → _))
  | .deleteFlow _ x => inferInstanceAs (Decidable (s.published x = none ∨ _))
  | .createTemporary _ _ | .lockTemporary _ _ | .publish _ _ | .openExisting _ _
  | .lockExisting _ _ | .abandon _ _ | .register _ _ | .releaseReference _ _
  | .dropLock _ _ | .makeExclusive _ _ | .erase _ _ | .openProbe _ _ _ | .lockProbe _ _
  | .closeProbe _ _ | .removeInactive _ _ => isTrue trivial

/-- What a step does to the paths. -/
theorem published_step (hstep : step s a = some t) :
    t.published = s.published ∨
      (∃ i x n, a = .publish i x ∧ s.published x = none ∧
        t.published = Function.update s.published x (some n)) ∨
      (∃ i x, a = .deleteFlow i x ∧ (s.instances i).call = some (.release x .exclusive) ∧
        t.published = Function.update s.published x none) ∨
      ∃ u x, a = .removeInactive u x ∧ s.probes u = some ⟨x, .garbageCollect, .condemned⟩ ∧
        t.published = Function.update s.published x none := by
  cases a with
  | createTemporary i x =>
    obtain ⟨-, rfl⟩ := of_createTemporary hstep
    exact Or.inl rfl
  | lockTemporary i x =>
    rcases of_lockTemporary hstep with ⟨-, ⟨files, -, rfl⟩ | rfl⟩ <;> exact Or.inl rfl
  | publish i x =>
    rcases of_publish hstep with ⟨-, ⟨d, hnone, -, rfl⟩ | rfl⟩
    · exact Or.inr (Or.inl ⟨i, x, d.file.serial, rfl, hnone, rfl⟩)
    · exact Or.inl rfl
  | openExisting i x =>
    rcases of_openExisting hstep with ⟨-, ⟨n, -, rfl⟩ | rfl⟩ <;> exact Or.inl rfl
  | lockExisting i x =>
    rcases of_lockExisting hstep with ⟨-, ⟨files, -, rfl⟩ | ⟨-, rfl⟩⟩ <;> exact Or.inl rfl
  | openGrains i x any =>
    rcases of_openGrains hstep with ⟨-, rfl | ⟨-, rfl⟩⟩ <;> exact Or.inl rfl
  | abandon i x =>
    obtain ⟨-, rfl⟩ := of_abandon hstep
    exact Or.inl rfl
  | register i x =>
    have hsame : ∀ own, (register s i x own).published = s.published := by
      intro own
      unfold register
      split <;> rfl
    rcases of_returnWriter hstep with ⟨-, rfl⟩ | ⟨-, rfl⟩ <;> exact Or.inl (hsame _)
  | releaseReference i x =>
    rcases of_releaseReference hstep with ⟨-, ⟨-, rfl⟩ | ⟨refs, -, rfl⟩⟩ <;> exact Or.inl rfl
  | dropLock i x =>
    obtain ⟨-, rfl⟩ := of_dropLock hstep
    exact Or.inl rfl
  | makeExclusive i x =>
    rcases of_makeExclusive hstep with ⟨-, ⟨files, -, rfl⟩ | ⟨-, rfl⟩⟩ <;> exact Or.inl rfl
  | deleteFlow i x =>
    obtain ⟨hcall, rfl⟩ := of_deleteFlow hstep
    exact Or.inr (Or.inr (Or.inl ⟨i, x, rfl, hcall, rfl⟩))
  | erase i x =>
    obtain ⟨-, rfl⟩ := of_erase hstep
    exact Or.inl rfl
  | openProbe u x kind =>
    rcases of_openProbe hstep with ⟨-, ⟨n, -, rfl⟩ | rfl⟩ <;> exact Or.inl rfl
  | lockProbe u x =>
    rcases of_lockProbe hstep with ⟨kind, -, ⟨files, -, rfl⟩ | ⟨-, rfl⟩⟩ <;> exact Or.inl rfl
  | closeProbe u x =>
    rcases of_closeProbe hstep with ⟨-, rfl⟩ | rfl <;> exact Or.inl rfl
  | removeInactive u x =>
    obtain ⟨hprobe, rfl⟩ := of_removeInactive hstep
    exact Or.inr (Or.inr (Or.inr ⟨u, x, rfl, hprobe, rfl⟩))

/-! ### Attached flow data stays published -/

theorem Attaches.published (hcond : FollowsPath s a) (hstep : step s a = some t)
    (hatt : Attaches s t i f a) : t.published f.flow = some f.serial := by
  cases hatt with
  | publish hnone hpub => exact hpub
  | openGrains hthere hget =>
    have hsame : t.published = s.published := by
      rcases of_openGrains hstep with ⟨-, rfl | ⟨-, rfl⟩⟩ <;> rfl
    have hpub := hcond hthere
    simp only [StillPublished, hget, Option.map_some] at hpub
    rw [hsame, ← hpub]

omit [DecidableEq ι] [DecidableEq τ] in
/-- A release that is about to remove the published flow is the only one that has a
    lock on it. -/
theorem eq_of_deleteFlow (hs : Consistent s) (hall : AllPublished s)
    (hcall : (s.instances i).call = some (.release x .exclusive))
    (hcond : FollowsPath s (.deleteFlow i x)) {j : ι} (hb : Bears s j h f)
    (hflow : f.flow = x) :
    (.ofInstance j h : Owner ι φ τ) = .ofInstance i (.writer x) := by
  have hrefs := hs.releasing i x _ hcall
  have hdesc : s.descriptor (.ofInstance i (.writer x)) = some (x, some .exclusive) := by
    simp [hrefs, hcall]
  obtain ⟨n, hget⟩ := hs.get_of_descriptor hdesc
  have htheirs : s.published x = some f.serial := hflow ▸ hall j h f hb
  have hmine : s.published x = some n := by
    rcases hcond with hnone | hstill
    · rw [hnone] at htheirs
      cases htheirs
    · simpa [StillPublished, hget] using hstill.symm
  have hf : f = ⟨x, n⟩ := by
    cases f
    simp_all
  obtain ⟨-, lock, hget'⟩ := hb
  exact s.files.eq_of_exclusive hget (hf ▸ hget')

theorem allPublished_step (hs : Consistent s) (hall : AllPublished s) (hcond : FollowsPath s a)
    (hremove : ∀ u x, a = .removeInactive u x → ∀ i h f, Bears s i h f → f.flow ≠ x)
    (hstep : step s a = some t) : AllPublished t := by
  intro i h f hb
  rcases bears_step hs hstep hb with ⟨h', hb'⟩ | hatt
  · have hpub := hall i h' f hb'
    rcases published_step hstep with hsame | ⟨j, x, n, rfl, hnone, hsame⟩ |
      ⟨j, x, rfl, hcall, hsame⟩ | ⟨u, x, rfl, -, hsame⟩
    · rw [hsame, hpub]
    · -- nothing is renamed over a published flow
      have hne : f.flow ≠ x := by
        rintro rfl
        rw [hnone] at hpub
        cases hpub
      rw [hsame, Function.update_of_ne hne, hpub]
    · obtain ⟨hbs, hother⟩ := bears_deleteFlow hstep hb
      have hne : f.flow ≠ x := fun hflow =>
        hother (eq_of_deleteFlow hs hall hcall hcond hbs hflow)
      rw [hsame, Function.update_of_ne hne, hpub]
    · rw [hsame, Function.update_of_ne (hremove u x rfl i h' f hb'), hpub]
  · exact hatt.published hcond hstep

omit [DecidableEq φ] [DecidableEq ι] [DecidableEq τ] in
theorem allPublished_initial (count : Nat) (published : φ → Option (Fin count)) :
    AllPublished (State.initial count published : State ι φ τ) := by
  rintro i h f ⟨-, lock, hget⟩
  cases hget

/-- **Live writers keep their flow.**  In every run of `createFlowWriter` and
    `releaseWriter` calls of any number of instances in which the path leads to the
    locked data file whenever it is followed again, a writer that has been returned
    and is not being released is bound to the file at its flow's path at all times.
    So no release removes a flow that has such a writer, and none is returned of a
    removed flow. -/
theorem writers_stay_bound (count : Nat) (published : φ → Option (Fin count))
    (as : List (Action ι φ τ)) (hwriters : ∀ a ∈ as, a.ofWriters = true)
    (hpaths : Along step FollowsPath (State.initial count published) as) :
    Throughout step WritersBound (State.initial count published) as := by
  have hof : Along step (fun _ a => a.ofWriters = true) (State.initial count published) as :=
    along_of_labels _ fun a ha _ => hwriters a ha
  have hkeep : ∀ (s : State ι φ τ) a t, Consistent s ∧ AllPublished s →
      FollowsPath s a ∧ a.ofWriters = true → step s a = some t →
      Consistent t ∧ AllPublished t := by
    rintro s a t ⟨hs, hall⟩ ⟨hcond, hof⟩ hstep
    refine ⟨consistent_step hs hstep, allPublished_step hs hall hcond ?_ hstep⟩
    rintro u x rfl
    cases hof
  refine (throughout_of_along hkeep ⟨?_, ?_⟩ (hpaths.and hof)).mono fun s hs =>
    hs.1.writersBound hs.2
  · exact consistent_initial count published
  · exact allPublished_initial count published

/-- The first instance creates a flow, the second opens it, and both release: the
    first release is refused the exclusive lock, the second removes the flow. -/
theorem writers_stay_bound_two :
    Throughout step WritersBound (State.initial 0 fun _ => none : State Bool Unit Empty)
      [.createTemporary false (), .lockTemporary false (), .publish false (),
        .register false (), .createTemporary true (), .lockTemporary true (),
        .publish true (), .openExisting true (), .lockExisting true (),
        .openGrains true () true, .register true (),
        .releaseReference false (), .dropLock false (), .makeExclusive false (),
        .erase false (), .releaseReference true (), .dropLock true (),
        .makeExclusive true (), .deleteFlow true (), .erase true ()] :=
  writers_stay_bound 0 (fun _ => none) _ (by decide) (by decide)

/-- The second instance opens the data file; the first releases its writer, removes
    the flow and creates it anew; then the second is granted its lock on the old data
    file, finds the new grains and returns a writer. -/
def lateLock : List (Action Bool Unit Empty) :=
  [.createTemporary false (), .lockTemporary false (), .publish false (), .register false (),
    .createTemporary true (), .lockTemporary true (), .publish true (), .openExisting true (),
    .releaseReference false (), .dropLock false (), .makeExclusive false (),
    .deleteFlow false (), .erase false (),
    .createTemporary false (), .lockTemporary false (), .publish false (), .register false (),
    .lockExisting true (), .openGrains true () true, .register true ()]

theorem writer_of_removed_flow :
    (∀ a ∈ lateLock, a.ofWriters = true) ∧
      ¬ Throughout step WritersBound (State.initial 0 fun _ => none : State Bool Unit Empty)
        lateLock := by
  refine ⟨by decide, fun hbound => ?_⟩
  obtain ⟨t, hrun⟩ : ∃ t, run step (State.initial 0 fun _ => none) lateLock = some t := ⟨_, rfl⟩
  have hpub : t.published () = some 2 := by
    obtain rfl := Option.some.inj hrun
    rfl
  have hget : t.files.get (.ofInstance true (.writer ())) = some ⟨⟨(), 0⟩, some .shared⟩ := by
    obtain rfl := Option.some.inj hrun
    rfl
  have hlive : (t.instances true).Live () := by
    obtain rfl := Option.some.inj hrun
    exact ⟨rfl, by rintro phase ⟨⟩⟩
  obtain ⟨n, hn, hbinding⟩ := hbound.last hrun true () hlive
  rw [hget] at hbinding
  rw [hpub] at hn
  cases hn
  cases hbinding

end Steps

end MediaExchange.FlowDomain
