/-
  MediaExchange/NoLostWakeup.lean
  ===============================
  **A reader never sleeps through the grain it waits for.**

  The reader loads the counter, looks at the flow, and goes to sleep only if the
  counter has not moved; the writer moves the counter after everything else.
  While no commit has touched the flow since the counter was loaded (`Quiet`),
  what the reader has seen is what is there (`Observed`); once one has, the
  counter will move before the commit is over, and the reader is woken or does
  not fall asleep.  Only `2 ^ 32` commits in between could hide this from it.
-/
import MediaExchange.DiscreteInterleaving

namespace MediaExchange.NoLostWakeup

open MediaExchange.LabelledRun MediaExchange.DiscreteInterleaving

/-! ### What the reader has seen -/

/-- What the reader has loaded so far is what the flow holds; where it waits, it
    would be too early again. -/
def Observed (flow : DiscreteFlowData) (r : DiscreteReader) : Prop :=
  match r.pc with
  | .loadValid total =>
      flow.inRange r.index ∧ ∀ t, total = some t → t = (flow.grainInfo r.index).totalSlices
  | .loadTotal valid =>
      flow.inRange r.index ∧ ∀ v, valid = some v → v = (flow.grainInfo r.index).validSlices
  | .loadFlags valid total =>
      flow.inRange r.index ∧ ¬ min r.minValidSlices total ≤ valid ∧
        valid = (flow.grainInfo r.index).validSlices ∧
        total = (flow.grainInfo r.index).totalSlices
  | .waitLoad | .checkDeadline | .futexWait | .asleep =>
      flow.getGrainImpl r.index r.minValidSlices = .error .errOutOfRangeTooEarly
  | _ => True

section Reader

variable {flow : DiscreteFlowData} {r r' : DiscreteReader}

theorem observed_tooEarly
    (h : flow.getGrainImpl r.index r.minValidSlices = .error .errOutOfRangeTooEarly) :
    Observed flow r.tooEarly := by
  unfold DiscreteReader.tooEarly
  cases hblocking : r.blocking with
  | true => simpa [Observed] using h
  | false => simp [Observed]

theorem observed_afterSlices (hrange : flow.inRange r.index) :
    Observed flow (r.afterSlices (flow.grainInfo r.index).validSlices
      (flow.grainInfo r.index).totalSlices) := by
  unfold DiscreteReader.afterSlices
  by_cases hvalid : min r.minValidSlices (flow.grainInfo r.index).totalSlices ≤
      (flow.grainInfo r.index).validSlices
  · simp [Observed, hvalid]
  · simp [Observed, hvalid, hrange]

theorem observed_iff_of_waiting {pc : ReaderPc} (hpc : pc.waiting = true) :
    Observed flow { r with pc := pc } ↔
      flow.getGrainImpl r.index r.minValidSlices = .error .errOutOfRangeTooEarly := by
  cases pc with
  | waitLoad | checkDeadline | futexWait | asleep => exact Iff.rfl
  | _ => cases hpc

theorem observed_next_waiting {expired : Bool} (hpc : r.pc.waiting = true)
    (hr : Observed flow r) (h : r.next flow expired = some r') : Observed flow r' := by
  obtain ⟨pc, rfl, hwait | rfl | rfl⟩ := next_waiting hpc h
  · have hearly := (observed_iff_of_waiting (r := r) hpc).mp hr
    exact (observed_iff_of_waiting hwait).mpr hearly
  · trivial
  · trivial

/-- In a flow that does not change the reader keeps seeing what is there. -/
theorem observed_next {expired : Bool} (hr : Observed flow r)
    (h : r.next flow expired = some r') : Observed flow r' := by
  by_cases hwait : r.pc.waiting = true
  · exact observed_next_waiting hwait hr h
  obtain ⟨index, minValidSlices, blocking, totalFirst, previous, pc⟩ := r
  cases pc with
  | loadSync =>
    obtain rfl := Option.some.inj h
    trivial
  | loadHead =>
    rcases next_loadHead rfl h with ⟨hrange, rfl | rfl⟩ | rfl | ⟨hhead, rfl⟩
    · exact ⟨hrange, by simp⟩
    · exact ⟨hrange, by simp⟩
    · trivial
    · apply observed_tooEarly
      exact DiscreteFlowData.getGrainImpl_eq_tooEarly.mpr (Or.inl hhead)
  | loadValid total =>
    cases total with
    | none =>
      obtain rfl := Option.some.inj h
      exact ⟨hr.1, by simp⟩
    | some total =>
      obtain rfl := Option.some.inj h
      rw [hr.2 total rfl]
      exact observed_afterSlices hr.1
  | loadTotal valid =>
    cases valid with
    | none =>
      obtain rfl := Option.some.inj h
      exact ⟨hr.1, by simp⟩
    | some valid =>
      obtain rfl := Option.some.inj h
      rw [hr.2 valid rfl]
      exact observed_afterSlices hr.1
  | loadFlags valid total =>
    obtain ⟨hrange, hfew, hvalid, htotal⟩ := hr
    simp only [DiscreteReader.next] at h
    split at h
    · obtain rfl := Option.some.inj h
      trivial
    · next hflags =>
      obtain rfl := Option.some.inj h
      apply observed_tooEarly
      apply DiscreteFlowData.getGrainImpl_eq_tooEarly.mpr
      refine Or.inr ⟨hrange, ?_⟩
      rw [hvalid, htotal] at hfew
      simp [hasSlices, hfew, hflags]
  | copyInfo valid total =>
    obtain rfl := Option.some.inj h
    trivial
  | waitLoad | checkDeadline | futexWait | asleep => exact absurd rfl hwait
  | idle | returnedOk _ _ _ | returnedError _ => cases h

theorem observed_wake (hr : Observed flow r) : Observed flow r.wake := by
  obtain ⟨index, minValidSlices, blocking, totalFirst, previous, pc⟩ := r
  cases pc with
  | asleep => exact hr
  | _ => exact hr

/-- The index in a slot's header is not what the reader looks at. -/
theorem observed_storeGrainIndex (hr : Observed flow r) (index : UInt64) :
    Observed (flow.storeGrainIndex index) r := by
  obtain ⟨j, hfields⟩ := DiscreteFlowData.grainInfo_storeGrainIndex_fields flow index r.index
  have hearly : flow.getGrainImpl r.index r.minValidSlices = .error .errOutOfRangeTooEarly →
      (flow.storeGrainIndex index).getGrainImpl r.index r.minValidSlices =
        .error .errOutOfRangeTooEarly := by
    intro h
    rw [DiscreteFlowData.getGrainImpl_eq_tooEarly] at h ⊢
    rw [hfields]
    exact h
  obtain ⟨request, minValidSlices, blocking, totalFirst, previous, pc⟩ := r
  cases pc with
  | loadValid total =>
    obtain ⟨hrange, htotal⟩ := hr
    refine ⟨hrange, ?_⟩
    rw [hfields]
    exact htotal
  | loadTotal valid =>
    obtain ⟨hrange, hvalid⟩ := hr
    refine ⟨hrange, ?_⟩
    rw [hfields]
    exact hvalid
  | loadFlags valid total =>
    obtain ⟨hrange, hfew, hslices⟩ := hr
    refine ⟨hrange, hfew, ?_⟩
    rw [hfields]
    exact hslices
  | waitLoad | checkDeadline | futexWait | asleep => exact hearly hr
  | _ => trivial

theorem next_previousSyncCounter {expired : Bool} (h : r.next flow expired = some r') :
    r'.previousSyncCounter =
      if r.pc = .loadSync then flow.syncCounter else r.previousSyncCounter := by
  revert h
  fun_cases DiscreteReader.next r flow expired
  all_goals
    intro h
    cases h <;> simp [*, DiscreteReader.tooEarly, DiscreteReader.afterSlices]

@[simp] theorem tooEarly_ne_asleep (r : DiscreteReader) : r.tooEarly.pc ≠ .asleep := by
  unfold DiscreteReader.tooEarly
  cases r.blocking <;> simp

@[simp] theorem afterSlices_ne_asleep (r : DiscreteReader) (valid total : UInt16) :
    (r.afterSlices valid total).pc ≠ .asleep := by
  unfold DiscreteReader.afterSlices
  dsimp only
  split <;> simp

/-- The reader falls asleep only on an unchanged counter. -/
theorem next_asleep {expired : Bool} (h : r.next flow expired = some r')
    (hasleep : r'.pc = .asleep) :
    r.pc = .futexWait ∧ flow.syncCounter = r.previousSyncCounter := by
  revert h
  fun_cases DiscreteReader.next r flow expired
  case case3 =>
    intro h
    cases h
    split at hasleep <;> cases hasleep
  all_goals
    intro h
    cases h <;> simp [*] at hasleep ⊢

end Reader

/-! ### The invariant -/

/-- No commit has stored anything since the reader loaded the counter. -/
def Quiet (s : DiscreteSystem) : Prop :=
  s.commitsSinceLoad = 0 ∧
    match s.writerPc with
    | .idle | .storeHead _ | .wake => True
    | _ => False

structure WakeupInv (s : DiscreteSystem) : Prop where
  observed : Quiet s → Observed s.flow s.reader
  counter : s.flow.syncCounter.toNat =
    (s.reader.previousSyncCounter.toNat + s.commitsSinceLoad) % 2 ^ 32
  sleeping : s.reader.pc = .asleep → s.commitsSinceLoad = 0 ∨ s.writerPc = .wake

/-- The reader goes to sleep before the counter has come around. -/
def FewCommits (s : DiscreteSystem) : Action → Prop
  | .readerStep _ => s.reader.pc = .futexWait → s.commitsSinceLoad < 2 ^ 32
  | _ => True

instance (s : DiscreteSystem) (a : Action) : Decidable (FewCommits s a) :=
  match a with
  | .readerStep _ =>
      inferInstanceAs (Decidable (s.reader.pc = .futexWait → s.commitsSinceLoad < 2 ^ 32))
  | .openGrain _ | .commit _ | .cancel | .writerStep _ | .getGrain _ _ _ _ => isTrue trivial

theorem wakeupInv_init (flow : DiscreteFlowData) : WakeupInv (.init flow) := by
  constructor
  · intro _
    trivial
  · exact (Nat.mod_eq_of_lt flow.syncCounter.toNat_lt).symm
  · intro h
    cases h

/-- From its first store to its last one a commit may do to the memory what it likes:
    nothing is quiet. -/
theorem wakeupInv_storing {s : DiscreteSystem} (hs : WakeupInv s) (hwake : s.writerPc ≠ .wake)
    {flow : DiscreteFlowData} (hcounter : flow.syncCounter = s.flow.syncCounter)
    {writerPc : WriterPc} (hloud : ¬ Quiet { s with writerPc := writerPc })
    (writer : PosixDiscreteFlowWriter) (published : List GrainInfo) :
    WakeupInv { s with flow := flow, writer := writer, writerPc := writerPc
                       published := published } := by
  constructor
  · intro hquiet
    exact absurd hquiet hloud
  · dsimp only
    rw [hcounter]
    exact hs.counter
  · intro hasleep
    exact Or.inl ((hs.sleeping hasleep).resolve_right hwake)

theorem wakeupInv_writerStep {s t : DiscreteSystem} {now : UInt64} (hs : WakeupInv s)
    (h : step s (.writerStep now) = some t) : WakeupInv t := by
  simp only [step, writerNext] at h
  split at h
  · cases h
  · next hpc =>
    obtain rfl := Option.some.inj h
    apply wakeupInv_storing hs (by simp [hpc])
    · rfl
    · intro hquiet
      exact hquiet.2
  · next hpc =>
    obtain rfl := Option.some.inj h
    apply wakeupInv_storing hs (by simp [hpc])
    · rfl
    · intro hquiet
      exact hquiet.2
  · next hpc =>
    obtain rfl := Option.some.inj h
    apply wakeupInv_storing hs (by simp [hpc])
    · rfl
    · intro hquiet
      exact hquiet.2
  -- the counter moves, and the sleeper is about to be woken
  · obtain rfl := Option.some.inj h
    constructor
    · rintro ⟨hzero, -⟩
      cases hzero
    · change (s.flow.syncCounter + 1).toNat = _
      rw [UInt32.toNat_add, hs.counter, UInt32.toNat_one, Nat.mod_add_mod, Nat.add_assoc]
    · intro _
      exact Or.inr rfl
  · next hpc =>
    obtain rfl := Option.some.inj h
    constructor
    · rintro ⟨hzero, -⟩
      apply observed_wake
      apply hs.observed
      exact ⟨hzero, by simp [hpc]⟩
    · have hprevious : s.reader.wake.previousSyncCounter = s.reader.previousSyncCounter := by
        unfold DiscreteReader.wake
        split <;> rfl
      rw [hprevious]
      exact hs.counter
    · intro hasleep
      exfalso
      revert hasleep
      unfold DiscreteReader.wake
      split
      · simp
      · next hawake => exact hawake

theorem wakeupInv_readerStep {s t : DiscreteSystem} {expired : Bool} (hs : WakeupInv s)
    (hfew : FewCommits s (.readerStep expired)) (h : step s (.readerStep expired) = some t) :
    WakeupInv t := by
  obtain ⟨reader, hnext, rfl⟩ := step_readerStep h
  have hprevious := next_previousSyncCounter hnext
  by_cases hload : s.reader.pc = .loadSync
  · have hreader : reader.pc = .loadHead := by
      simp only [DiscreteReader.next, hload] at hnext
      obtain rfl := Option.some.inj hnext
      rfl
    constructor
    · intro _
      simp [Observed, hreader]
    · rw [if_pos hload] at hprevious
      simp only [hload, if_true, hprevious, Nat.add_zero]
      exact (Nat.mod_eq_of_lt s.flow.syncCounter.toNat_lt).symm
    · intro hasleep
      simp [hreader] at hasleep
  · simp only [hload, if_false] at hprevious ⊢
    constructor
    · intro hquiet
      exact observed_next (hs.observed hquiet) hnext
    · rw [hprevious]
      exact hs.counter
    · intro hasleep
      left
      obtain ⟨hwait, hequal⟩ := next_asleep hnext hasleep
      have hcounter := hs.counter
      have hlt := hfew hwait
      have hprev := s.reader.previousSyncCounter.toNat_lt
      rw [hequal] at hcounter
      dsimp only
      omega

theorem wakeupInv_step {s t : DiscreteSystem} {a : Action} (hs : WakeupInv s)
    (hfew : FewCommits s a) (h : step s a = some t) : WakeupInv t := by
  cases a with
  | openGrain index =>
    obtain ⟨-, rfl⟩ := step_openGrain h
    constructor
    · intro hquiet
      exact observed_storeGrainIndex (hs.observed hquiet) index
    · exact hs.counter
    · exact hs.sleeping
  | commit info =>
    obtain ⟨hidle, rfl | ⟨-, rfl⟩⟩ := step_commit h
    · exact hs
    · constructor
      · rintro ⟨hzero, -⟩
        exact hs.observed ⟨hzero, by simp [hidle]⟩
      · exact hs.counter
      · intro hasleep
        exact Or.inl ((hs.sleeping hasleep).resolve_right (by simp [hidle]))
  | cancel =>
    obtain ⟨-, rfl⟩ := step_cancel h
    constructor
    · exact hs.observed
    · exact hs.counter
    · exact hs.sleeping
  | writerStep now => exact wakeupInv_writerStep hs h
  | getGrain index minValidSlices blocking totalFirst =>
    obtain rfl := step_getGrain h
    constructor
    · intro _
      cases blocking with
      | true => trivial
      | false => trivial
    · exact hs.counter
    · intro hasleep
      cases blocking with
      | true => cases hasleep
      | false => cases hasleep
  | readerStep expired => exact wakeupInv_readerStep hs hfew h

/-! ### Sleeping -/

/-- **No lost wake-up.**  In every interleaving in which the reader goes to sleep
    before `2 ^ 32` commits have passed since it loaded the counter: whenever no
    commit is under way and the reader is asleep, its request would find the grain
    too early. -/
theorem asleep_tooEarly (flow : DiscreteFlowData) (actions : List Action) {s : DiscreteSystem}
    (hfew : Along step FewCommits (.init flow) actions)
    (hrun : run step (.init flow) actions = some s) (hdone : s.writerPc = .idle)
    (hasleep : s.reader.pc = .asleep) :
    s.flow.getGrainImpl s.reader.index s.reader.minValidSlices =
      .error .errOutOfRangeTooEarly := by
  have hs : WakeupInv s := (throughout_of_along (fun s a t hs hfew h => wakeupInv_step hs hfew h)
    (wakeupInv_init flow) hfew).last hrun
  have hzero := (hs.sleeping hasleep).resolve_right (by simp [hdone])
  have hobserved := hs.observed ⟨hzero, by simp [hdone]⟩
  simp only [Observed, hasleep] at hobserved
  exact hobserved

/-- Grain 0 is committed while the reader, which waits for grain 1, goes to sleep; it
    is woken, looks again, and goes back to sleep. -/
def sleepingRun : List Action :=
  let record : GrainInfo :=
    { version := 1, size := 4096, index := 0, flags := 0, grainSize := 16, totalSlices := 1,
      validSlices := 1 }
  [.getGrain 1 1 true false, .readerStep false, .openGrain 0, .commit record, .readerStep false,
    .writerStep 7, .writerStep 7, .readerStep false, .readerStep false, .readerStep false,
    .writerStep 7, .writerStep 7, .writerStep 7, .readerStep false, .readerStep false,
    .readerStep false, .readerStep false, .readerStep false, .readerStep false]

theorem asleep_tooEarly_woken :
    ∃ s, run step (.init (.create ⟨2, 16, 1, by decide⟩ 0)) sleepingRun = some s ∧
      s.published.length = 1 ∧ s.reader.index = 1 ∧
      s.flow.getGrainImpl s.reader.index s.reader.minValidSlices =
        .error .errOutOfRangeTooEarly := by
  obtain ⟨s, hrun⟩ :
      ∃ s, run step (.init (.create ⟨2, 16, 1, by decide⟩ 0)) sleepingRun = some s := ⟨_, rfl⟩
  have hstate : s.published.length = 1 ∧ s.reader.index = 1 ∧ s.writerPc = .idle ∧
      s.reader.pc = .asleep := by
    obtain rfl := Option.some.inj hrun
    exact ⟨rfl, rfl, rfl, rfl⟩
  obtain ⟨hpublished, hindex, hdone, hasleep⟩ := hstate
  refine ⟨s, hrun, hpublished, hindex, ?_⟩
  exact asleep_tooEarly _ sleepingRun (by decide) hrun hdone hasleep

end MediaExchange.NoLostWakeup
