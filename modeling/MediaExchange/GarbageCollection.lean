/-
  MediaExchange/GarbageCollection.lean
  ====================================
  **What garbage collection may remove, and when it removes a live flow.**

  `garbageCollect` opens a flow's data file, tries the exclusive lock, closes the
  file and then removes the directory.  From the moment the lock is granted the flow
  is condemned, but nothing is locked any more once the file is closed: a
  `createFlowWriter` that opens or creates the flow before the directory is removed
  returns a writer, and loses its flow (`collected_live_flow`).

  A removal spares live writers if the condemned file is the one at the path when
  the lock is granted, and no `createFlowWriter` completes at a condemned path
  (`SparesWriters`).  Then no flow data stands for a writer of a condemned flow
  (`NoneCondemned`), garbage collection removes no flow with a live writer, and
  every flow with a live writer stays listed (`collection_spares_writers`).
-/
import MediaExchange.LiveWriters
import Mathlib.Data.Fintype.Basic

namespace MediaExchange.FlowDomain

open FileLocks LabelledRun

variable {ι φ τ : Type*}

/-! ### Condemned flows -/

/-- A garbage collection has been granted the lock for the flow, and has not
    removed it yet. -/
def Condemned (s : State ι φ τ) (x : φ) : Prop :=
  ∃ u, s.probes u = some ⟨x, .garbageCollect, .inactive⟩ ∨
    s.probes u = some ⟨x, .garbageCollect, .condemned⟩

/-- No flow data stands for a writer of a condemned flow. -/
def NoneCondemned (s : State ι φ τ) : Prop :=
  ∀ i h f, Bears s i h f → ¬ Condemned s f.flow

variable [DecidableEq ι] [DecidableEq φ] [DecidableEq τ]

/-- No `createFlowWriter` completes at a condemned path, and the lock of a garbage
    collection is on the file at the path. -/
def SparesWriters (s : State ι φ τ) : Action ι φ τ → Prop
  | .publish _ x => s.published x = none → ¬ Condemned s x
  | .openGrains i x any => ¬ (s.published x = none ∧ any = true) →
      StillPublished s (.ofInstance i .existingFlowData) x ∧ ¬ Condemned s x
  | .deleteFlow i x => FollowsPath s (.deleteFlow i x)
  | .lockProbe u x => s.probes u = some ⟨x, .garbageCollect, .opened⟩ →
      (s.files.tryLock (.ofProbe u) .exclusive).isSome = true →
        s.published x = none ∨ StillPublished s (.ofProbe u) x
  | _ => True

section Steps

variable {s t : State ι φ τ} {i : ι} {u : τ} {x : φ} {a : Action ι φ τ}
variable {h : Handle φ} {f : DataFile φ}

theorem SparesWriters.followsPath (hcond : SparesWriters s a) : FollowsPath s a := by
  cases a with
  | openGrains i x any => exact fun hthere => (hcond hthere).1
  | deleteFlow i x => exact hcond
  | _ => trivial

theorem Attaches.not_condemned (hcond : SparesWriters s a) (hatt : Attaches s t i f a) :
    ¬ Condemned s f.flow := by
  cases hatt with
  | publish hnone hpub => exact hcond hnone
  | openGrains hthere hget => exact (hcond hthere).2

/-- A step condemns a flow only by a lock that garbage collection is granted. -/
theorem condemned_step (hstep : step s a = some t) (hc : Condemned t x) :
    Condemned s x ∨
      ∃ u files, a = .lockProbe u x ∧ s.probes u = some ⟨x, .garbageCollect, .opened⟩ ∧
        s.files.tryLock (.ofProbe u) .exclusive = some files := by
  obtain ⟨u, hu⟩ := hc
  by_cases ha : a.byProbe = some u
  swap
  · rw [(step_leavesOthers hstep).probes u ha] at hu
    exact Or.inl ⟨u, hu⟩
  cases a with
  | openProbe v y kind =>
    obtain rfl : v = u := Option.some.inj ha
    rcases of_openProbe hstep with ⟨hnone, ⟨n, -, rfl⟩ | rfl⟩
    · simp at hu
    · simp [hnone] at hu
  | lockProbe v y =>
    obtain rfl : v = u := Option.some.inj ha
    rcases of_lockProbe hstep with ⟨kind, hprobe, ⟨files, hlock, rfl⟩ | ⟨-, rfl⟩⟩
    · simp at hu
      obtain ⟨rfl, rfl⟩ := hu
      exact Or.inr ⟨v, files, rfl, hprobe, hlock⟩
    · simp at hu
  | closeProbe v y =>
    obtain rfl : v = u := Option.some.inj ha
    rcases of_closeProbe hstep with ⟨hprobe, rfl⟩ | rfl
    · simp at hu
      subst hu
      exact Or.inl ⟨v, Or.inl hprobe⟩
    · simp at hu
  | removeInactive v y =>
    obtain rfl : v = u := Option.some.inj ha
    obtain ⟨-, rfl⟩ := of_removeInactive hstep
    simp at hu
  | _ => cases ha

/-- Garbage collection is granted the lock on the published file only if no flow
    data stands for a writer of the flow. -/
theorem no_bearer_of_granted (hs : Consistent s) (hall : AllPublished s)
    {files : FileTable (Owner ι φ τ) (DataFile φ)}
    (hprobe : s.probes u = some ⟨x, .garbageCollect, .opened⟩)
    (hlock : s.files.tryLock (.ofProbe u) .exclusive = some files)
    (hcond : SparesWriters s (.lockProbe u x)) (hb : Bears s i h f) : f.flow ≠ x := by
  rintro rfl
  obtain ⟨d, hget, hfree, -⟩ := FileTable.of_tryLock_exclusive hlock
  have hpub := hall i h f hb
  have hserial : s.published f.flow = some d.file.serial := by
    rcases hcond hprobe (by simp [hlock]) with hnone | hstill
    · rw [hnone] at hpub
      cases hpub
    · simpa [StillPublished, hget] using hstill.symm
  have hflow : d.file.flow = f.flow := by
    have hdesc := hs.descriptor (.ofProbe u)
    simp [hprobe, hget, kind] at hdesc
    exact hdesc.1
  have hfile : d.file = f := by
    cases hd : d.file
    cases f
    simp_all
  obtain ⟨-, lock, hget'⟩ := hb
  exact hfree _ lock (by simp) (hfile ▸ hget')

theorem noneCondemned_step (hs : Consistent s) (hall : AllPublished s) (hnone : NoneCondemned s)
    (hcond : SparesWriters s a) (hstep : step s a = some t) : NoneCondemned t := by
  intro i h f hb hc
  rcases condemned_step hstep hc with hc | ⟨u, files, rfl, hprobe, hlock⟩
  · rcases bears_step hs hstep hb with ⟨h', hb'⟩ | hatt
    · exact hnone i h' f hb' hc
    · exact hatt.not_condemned hcond hc
  · rcases bears_step hs hstep hb with ⟨h', hb'⟩ | hatt
    · exact no_bearer_of_granted hs hall hprobe hlock hcond hb' rfl
    · cases hatt

/-! ### Whole runs -/

/-- When garbage collection removes a flow, no instance has a live writer of it. -/
def RemovesUnused (s : State ι φ τ) : Action ι φ τ → Prop
  | .removeInactive _ x => ∀ i, ¬ (s.instances i).Live x
  | _ => True

/-- The invariant of the runs in which garbage collection spares writers. -/
structure Spared (s : State ι φ τ) : Prop where
  consistent : Consistent s
  published : AllPublished s
  noneCondemned : NoneCondemned s

omit [DecidableEq ι] [DecidableEq τ] in
theorem Spared.not_live (hs : Spared s) (hc : Condemned s x) : ¬ (s.instances i).Live x := by
  intro hlive
  obtain ⟨n, -, hget⟩ := hs.consistent.writersBound hs.published i x hlive
  exact hs.noneCondemned i (.writer x) ⟨x, n⟩ ⟨hlive, .shared, hget⟩ hc

theorem condemned_of_removeInactive (hstep : step s (.removeInactive u x) = some t) :
    Condemned s x :=
  ⟨u, Or.inr (of_removeInactive hstep).1⟩

omit [DecidableEq ι] [DecidableEq τ] in
theorem spared_initial (count : Nat) (published : φ → Option (Fin count)) :
    Spared (State.initial count published : State ι φ τ) where
  consistent := consistent_initial count published
  published := allPublished_initial count published
  noneCondemned := by
    rintro i h f ⟨-, lock, hget⟩
    cases hget

theorem spared_step (hs : Spared s) (hcond : SparesWriters s a) (hstep : step s a = some t) :
    Spared t where
  consistent := consistent_step hs.consistent hstep
  published := by
    refine allPublished_step hs.consistent hs.published hcond.followsPath ?_ hstep
    rintro u x rfl i h f hb rfl
    exact hs.noneCondemned i h f hb (condemned_of_removeInactive hstep)
  noneCondemned :=
    noneCondemned_step hs.consistent hs.published hs.noneCondemned hcond hstep

/-- **Garbage collection spares live flows**, in every run with any number of
    instances and collections in which no writer comes up at a condemned path: a flow
    is removed only when no instance has a live writer of it, and at all times the
    flow of every live writer is at its path. -/
theorem collection_spares_writers (count : Nat) (published : φ → Option (Fin count))
    (as : List (Action ι φ τ))
    (hcond : Along step SparesWriters (State.initial count published) as) :
    Along step RemovesUnused (State.initial count published) as ∧
      Throughout step WritersBound (State.initial count published) as := by
  have hkeep : ∀ (s : State ι φ τ) a t, Spared s → SparesWriters s a → step s a = some t →
      Spared t := fun s a t hs hq hstep => spared_step hs hq hstep
  have hinit : Spared (State.initial count published : State ι φ τ) :=
    spared_initial count published
  constructor
  · refine along_of_invariant hkeep ?_ hinit hcond
    intro s a t hs _ hstep
    cases a with
    | removeInactive u x => exact fun i => hs.not_live (condemned_of_removeInactive hstep)
    | _ => trivial
  · apply (throughout_of_along hkeep hinit hcond).mono
    intro s hs
    exact hs.consistent.writersBound hs.published

instance decidableCondemned [Fintype τ] (s : State ι φ τ) (x : φ) : Decidable (Condemned s x) :=
  inferInstanceAs (Decidable (∃ u, s.probes u = _ ∨ s.probes u = _))

instance decidableSparesWriters [Fintype τ] (s : State ι φ τ) :
    (a : Action ι φ τ) → Decidable (SparesWriters s a)
  | .publish _ x => inferInstanceAs (Decidable (s.published x = none → ¬ Condemned s x))
  | .openGrains _ x _ =>
      inferInstanceAs (Decidable (¬ (s.published x = none ∧ _) → _ ∧ ¬ Condemned s x))
  | .deleteFlow i x => decidableFollowsPath s (.deleteFlow i x)
  | .lockProbe u x =>
      inferInstanceAs (Decidable (s.probes u = _ → _ = true → s.published x = none ∨ _))
  | .createTemporary _ _ | .lockTemporary _ _ | .openExisting _ _ | .lockExisting _ _
  | .abandon _ _ | .register _ _ | .releaseReference _ _ | .dropLock _ _
  | .makeExclusive _ _ | .erase _ _ | .openProbe _ _ _ | .closeProbe _ _
  | .removeInactive _ _ => isTrue trivial

/-- A flow that was left behind is collected; an instance creates it anew, a second
    collection finds it active, and after its release it is gone. -/
theorem collection_spares_writers_left_behind :
    Along step RemovesUnused (State.initial 1 fun _ => some 0 : State Unit Unit Unit)
        [.openProbe () () .garbageCollect, .lockProbe () (), .closeProbe () (),
          .createTemporary () (), .lockTemporary () (), .removeInactive () (), .publish () (),
          .register () (), .openProbe () () .garbageCollect, .lockProbe () (),
          .closeProbe () (), .releaseReference () (), .dropLock () (), .makeExclusive () (),
          .deleteFlow () (), .erase () ()] ∧
      Throughout step WritersBound (State.initial 1 fun _ => some 0 : State Unit Unit Unit)
        [.openProbe () () .garbageCollect, .lockProbe () (), .closeProbe () (),
          .createTemporary () (), .lockTemporary () (), .removeInactive () (), .publish () (),
          .register () (), .openProbe () () .garbageCollect, .lockProbe () (),
          .closeProbe () (), .releaseReference () (), .dropLock () (), .makeExclusive () (),
          .deleteFlow () (), .erase () ()] :=
  collection_spares_writers 1 (fun _ => some 0) _ (by decide)

/-- Garbage collection finds a flow inactive and closes its data file; an instance
    opens the flow and returns a writer; then the directory is removed. -/
def lateRemoval : List (Action Unit Unit Unit) :=
  [.openProbe () () .garbageCollect, .lockProbe () (), .closeProbe () (),
    .createTemporary () (), .lockTemporary () (), .publish () (), .openExisting () (),
    .lockExisting () (), .openGrains () () true, .register () (), .removeInactive () ()]

theorem collected_live_flow :
    ¬ Along step RemovesUnused (State.initial 1 fun _ => some 0) lateRemoval ∧
      ¬ Throughout step WritersBound (State.initial 1 fun _ => some 0) lateRemoval := by
  constructor
  · intro halong
    obtain ⟨s, hrun⟩ : ∃ s, run step (State.initial 1 fun _ => some 0) (lateRemoval.take 10) =
        some s := ⟨_, rfl⟩
    rw [← List.take_append_drop 10 lateRemoval] at halong
    have hrest : Along step RemovesUnused s (lateRemoval.drop 10) := halong.drop hrun
    obtain ⟨t, ht⟩ : ∃ t, step s (.removeInactive () ()) = some t := by
      obtain rfl := Option.some.inj hrun
      exact ⟨_, rfl⟩
    have hunused : ∀ i, ¬ (s.instances i).Live () := (hrest t ht).1
    refine hunused () ?_
    obtain rfl := Option.some.inj hrun
    exact ⟨rfl, by rintro phase ⟨⟩⟩
  · intro hbound
    obtain ⟨t, hrun⟩ : ∃ t, run step (State.initial 1 fun _ => some 0) lateRemoval = some t :=
      ⟨_, rfl⟩
    have hpub : t.published () = none := by
      obtain rfl := Option.some.inj hrun
      rfl
    have hlive : (t.instances ()).Live () := by
      obtain rfl := Option.some.inj hrun
      exact ⟨rfl, by rintro phase ⟨⟩⟩
    obtain ⟨n, hn, -⟩ := hbound.last hrun () () hlive
    rw [hpub] at hn
    cases hn

end Steps

end MediaExchange.FlowDomain
