/-
  MediaExchange/CommitRequiresOpen.lean
  =====================================
  **Commits with nothing open.**

  Both writers note that nothing is open by setting `_currentIndex` to
  `MXL_UNDEFINED_INDEX`.  The discrete writer compares it with the index of the
  record it is given, so that a record of the undefined index goes through; the
  continuous writer compares it with nothing at all and moves the head there.

  Whether something is open is a matter of the calls: a grain stays open over
  partial commits until it is completed or cancelled, a range until it is
  committed or cancelled.
-/
import MediaExchange.DiscreteWriterRuns
import MediaExchange.ContinuousWriterRuns

namespace MediaExchange.CommitRequiresOpen

open MediaExchange.LabelledRun
open MediaExchange.DiscreteWriterRuns (WriterSystem WriterCall isOpen)
open MediaExchange.ContinuousWriterRuns (SampleSystem SampleCall)

variable {ι : Type*} [DecidableEq ι]

/-! ### The discrete writer -/

/-- The commit fails and leaves the shared flow as it was. -/
def DiscreteTurnedDown (s : WriterSystem ι) (w : ι) (info : GrainInfo) (now : UInt64) : Prop :=
  ((s.writers w).commit s.flow info now).1 ≠ .statusOk ∧
    ((s.writers w).commit s.flow info now).2.2 = s.flow

/-- A writer without an open grain has the undefined index as its current one. -/
def ClosedIsUndefined (s : WriterSystem ι) : Prop :=
  ∀ w, isOpen w s.history = false → (s.writers w).currentIndex = MXL_UNDEFINED_INDEX

theorem closedIsUndefined_init (flow : DiscreteFlowData) :
    ClosedIsUndefined (.init flow : WriterSystem ι) := by
  intro w _
  rfl

theorem afterCommit_currentIndex {writer : PosixDiscreteFlowWriter} {info : GrainInfo}
    (h : writer.currentIndex = MXL_UNDEFINED_INDEX ∨ info.validSlices = info.totalSlices) :
    (writer.afterCommit info).currentIndex = MXL_UNDEFINED_INDEX := by
  unfold PosixDiscreteFlowWriter.afterCommit
  split
  · rfl
  · next hpartial =>
    rcases h with hundef | hfull
    · exact hundef
    · exact absurd hfull hpartial

theorem closedIsUndefined_step {s t : WriterSystem ι} {call : ι × WriterCall}
    (hs : ClosedIsUndefined s) (h : DiscreteWriterRuns.step s call = some t) :
    ClosedIsUndefined t := by
  intro v hclosed
  rcases call with ⟨w, index | ⟨info, now⟩ | _⟩
  · obtain ⟨-, hwriters, hhist⟩ := DiscreteWriterRuns.step_openGrain h
    rw [hhist] at hclosed
    by_cases hvw : w = v
    · simp [isOpen, hvw] at hclosed
    · simp only [isOpen, if_neg hvw] at hclosed
      rw [hwriters, Function.update_of_ne (Ne.symm hvw)]
      exact hs v hclosed
  · rcases DiscreteWriterRuns.step_commit h with ⟨-, rfl⟩ | ⟨-, -, hwriters, hhist⟩
    · exact hs v hclosed
    · rw [hhist] at hclosed
      by_cases hvw : w = v
      · subst hvw
        simp only [isOpen, if_true, Bool.and_eq_false_iff, bne_eq_false_iff_eq] at hclosed
        rw [hwriters, Function.update_self]
        apply afterCommit_currentIndex
        rcases hclosed with hclosed | hfull
        · exact Or.inl (hs w hclosed)
        · exact Or.inr hfull
      · simp only [isOpen, if_neg hvw] at hclosed
        rw [hwriters, Function.update_of_ne (Ne.symm hvw)]
        exact hs v hclosed
  · obtain ⟨-, hwriters, hhist⟩ := DiscreteWriterRuns.step_cancel h
    by_cases hvw : w = v
    · rw [hwriters, hvw, Function.update_self]
    · rw [hhist] at hclosed
      simp only [isOpen, if_neg hvw] at hclosed
      rw [hwriters, Function.update_of_ne (Ne.symm hvw)]
      exact hs v hclosed

omit [DecidableEq ι] in
theorem discreteTurnedDown_iff {s : WriterSystem ι} {w : ι} {info : GrainInfo} {now : UInt64} :
    DiscreteTurnedDown s w info now ↔ info.index ≠ (s.writers w).currentIndex := by
  constructor
  · rintro ⟨hstatus, -⟩ heq
    rw [PosixDiscreteFlowWriter.commit_accepted heq] at hstatus
    exact hstatus rfl
  · intro hne
    simp [DiscreteTurnedDown, PosixDiscreteFlowWriter.commit_rejected hne]

/-! ### The continuous writer -/

/-- The commit fails and leaves the shared flow as it was. -/
def ContinuousTurnedDown (s : SampleSystem) : Prop :=
  (s.writer.commit s.flow).1 ≠ .statusOk ∧ (s.writer.commit s.flow).2.2 = s.flow

theorem not_continuousTurnedDown (s : SampleSystem) : ¬ ContinuousTurnedDown s := by
  rintro ⟨hstatus, -⟩
  obtain ⟨signal, writer', -, hcommit⟩ := s.writer.commit_spec s.flow
  rw [hcommit] at hstatus
  exact hstatus rfl

/-- A writer without an open range has the undefined index as its current one. -/
theorem currentIndex_of_closed {flow : ContinuousFlowData} {last : Int} {calls : List SampleCall}
    {s : SampleSystem} (hrun : run ContinuousWriterRuns.step (.init flow last) calls = some s)
    (hclosed : s.opened = none) : s.writer.currentIndex = MXL_UNDEFINED_INDEX := by
  have hinv : s.opened = none → s.writer.currentIndex = MXL_UNDEFINED_INDEX := by
    apply invariant_of_run _ _ hrun
    · intro s call t hs h
      cases call with
      | openSamples index count =>
        rcases ContinuousWriterRuns.step_openSamples h with ⟨-, rfl⟩ | rfl
        · intro hnone
          cases hnone
        · exact hs
      | fill channel offset byte =>
        obtain ⟨range, hopened, -, -, rfl⟩ := ContinuousWriterRuns.step_fill h
        exact hs
      | commit =>
        intro _
        exact (ContinuousWriterRuns.step_commit h).2.2.2.1
      | cancel =>
        obtain rfl := ContinuousWriterRuns.step_cancel h
        intro _
        rfl
    · intro _
      rfl
  exact hinv hclosed

/-! ### Both -/

/-- **Commits with nothing open.**  After any run of calls that leaves a discrete
    writer with nothing open, its commit of a record is turned down exactly when the
    record is not of the undefined index.  A continuous writer with nothing open
    turns no commit down: the commit succeeds and the head becomes the undefined
    index. -/
theorem commit_turned_down_iff :
    (∀ (geometry : DiscreteGeometry) (created : UInt64) (calls : List (ι × WriterCall))
        (s : WriterSystem ι),
      run DiscreteWriterRuns.step (.init (.create geometry created)) calls = some s →
      ∀ w, isOpen w s.history = false → ∀ (info : GrainInfo) (now : UInt64),
        DiscreteTurnedDown s w info now ↔ info.index ≠ MXL_UNDEFINED_INDEX) ∧
    ∀ (flow : ContinuousFlowData) (last : Int) (calls : List SampleCall) (s : SampleSystem),
      run ContinuousWriterRuns.step (.init flow last) calls = some s → s.opened = none →
      ¬ ContinuousTurnedDown s ∧ (s.writer.commit s.flow).1 = .statusOk ∧
        (s.writer.commit s.flow).2.2.headIndex = MXL_UNDEFINED_INDEX := by
  constructor
  · intro geometry created calls s hrun w hclosed info now
    have hs : ClosedIsUndefined s := invariant_of_run
      (fun s call t hs h => closedIsUndefined_step hs h) (closedIsUndefined_init _) hrun
    rw [discreteTurnedDown_iff, hs w hclosed]
  · intro flow last calls s hrun hclosed
    have hindex := currentIndex_of_closed hrun hclosed
    obtain ⟨signal, writer', -, hcommit⟩ := s.writer.commit_spec s.flow
    refine ⟨not_continuousTurnedDown s, ?_, ?_⟩
    · rw [hcommit]
    · rw [hcommit]
      exact hindex

def undefinedRecord : GrainInfo :=
  { version := 1, size := 4096, index := MXL_UNDEFINED_INDEX, flags := 0, grainSize := 16,
    totalSlices := 1, validSlices := 1 }

def tinyFlow : ContinuousFlowData where
  channelCount := 1
  bufferLength := 2
  sampleWordSize := 1
  maxCommitBatchSizeHint := 1
  maxSyncBatchSizeHint := 1
  headIndex := 0
  syncCounter := 0
  channelData _ := 0
  channelCount_pos := Nat.one_pos
  bufferLength_pos := Nat.two_pos
  sampleWordSize_pos := Nat.one_pos
  mapped := by decide

/-- Writers that have not opened anything yet take a commit and move the head of
    their flow to the undefined index. -/
theorem fresh_writer_commits :
    (∃ s : WriterSystem Unit,
      run DiscreteWriterRuns.step (.init (.create ⟨2, 16, 1, by decide⟩ 0)) [] = some s ∧
      isOpen () s.history = false ∧
      ((s.writers ()).commit s.flow undefinedRecord 1).1 = .statusOk ∧
      ((s.writers ()).commit s.flow undefinedRecord 1).2.2.headIndex = MXL_UNDEFINED_INDEX ∧
      ¬ DiscreteTurnedDown s () undefinedRecord 1) ∧
    ∃ s, run ContinuousWriterRuns.step (.init tinyFlow 0) [] = some s ∧ s.opened = none ∧
      (s.writer.commit s.flow).1 = .statusOk ∧
      (s.writer.commit s.flow).2.2.headIndex = MXL_UNDEFINED_INDEX ∧
      ¬ ContinuousTurnedDown s := by
  refine ⟨⟨_, rfl, rfl, rfl, rfl, ?_⟩, _, rfl, rfl, rfl, rfl, ?_⟩
  · rw [discreteTurnedDown_iff]
    decide
  · exact not_continuousTurnedDown _

end MediaExchange.CommitRequiresOpen
