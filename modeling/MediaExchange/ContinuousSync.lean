/-
  MediaExchange/ContinuousSync.lean
  =================================
  **How often a continuous writer wakes its readers.**

  `commit` increments `syncCounter` when `signalCompletedBatch` says that a sync
  batch is complete.  By then `_currentIndex` has been reset, so the batch number
  is always that of `MXL_UNDEFINED_INDEX`, the same for every commit.  The first
  commit of a writer signals; the second one does so only if the undefined index
  lies past the early threshold of its own batch; no later commit ever does.

  The runs are those of a writer that opens and commits one range after the
  other.  `wakeup_bound_iff` says exactly which of them keep the number of
  samples a reader can miss within one sync batch.
-/
import MediaExchange.Library.LabelledRun
import MediaExchange.ContinuousFlow

namespace MediaExchange.ContinuousSync

open MediaExchange.LabelledRun

/-- A writer, its flow, the index of the last range, and the number of samples
    committed since `syncCounter` was last incremented. -/
structure SyncState where
  writer : PosixContinuousFlowWriter
  flow : ContinuousFlowData
  index : UInt64
  sinceSync : Nat

def SyncState.init (flow : ContinuousFlowData) (index : UInt64) : SyncState where
  writer := .init flow
  flow := flow
  index := index
  sinceSync := 0

def step (s : SyncState) (count : UInt64) : Option SyncState :=
  match s.writer.openSamples s.flow (s.index + count) count with
  | (.statusOk, _, writer) =>
      match writer.commit s.flow with
      | (_, writer, flow) =>
          some { writer := writer, flow := flow, index := s.index + count,
                 sinceSync :=
                   if flow.syncCounter = s.flow.syncCounter then s.sinceSync + count.toNat else 0 }
  | _ => none

/-- At most one sync batch has been committed since readers were last woken. -/
def WithinSyncBatch (s : SyncState) : Prop := s.sinceSync ≤ s.flow.maxSyncBatchSizeHint.toNat

/-- How many commits of a writer signal at all. -/
def signallingCommits (flow : ContinuousFlowData) : Nat :=
  if MXL_UNDEFINED_INDEX.toNat % flow.maxSyncBatchSizeHint.toNat >
      flow.maxSyncBatchSizeHint.toNat - flow.maxCommitBatchSizeHint.toNat then 2 else 1

def samples (counts : List UInt64) : Nat := (counts.map UInt64.toNat).sum

/-! ### What one range does -/

/-- The writer after the reset of its index, which is when it decides whether to
    signal. -/
def resetWriter (writer : PosixContinuousFlowWriter) : PosixContinuousFlowWriter :=
  { writer with currentIndex := MXL_UNDEFINED_INDEX }

/-- A range either is signalled, or adds its samples to those not signalled. -/
theorem step_spec {s t : SyncState} {count : UInt64} (h : step s count = some t) :
    t.writer = (resetWriter s.writer).signalCompletedBatch.2 ∧
      t.flow.maxSyncBatchSizeHint = s.flow.maxSyncBatchSizeHint ∧
      t.sinceSync =
        if (resetWriter s.writer).signalCompletedBatch.1 then 0
        else s.sinceSync + count.toNat := by
  unfold step at h
  rcases hopen : s.writer.openSamples s.flow (s.index + count) count with ⟨status, slices, writer⟩
  rw [hopen] at h
  cases status with
  | statusOk =>
    obtain ⟨-, -, rfl⟩ := PosixContinuousFlowWriter.openSamples_ok hopen
    obtain ⟨signal, writer', hsignal, hcommit⟩ := PosixContinuousFlowWriter.commit_spec
      { s.writer with currentIndex := s.index + count } s.flow
    have hreset : (resetWriter s.writer).signalCompletedBatch = (signal, writer') := hsignal
    dsimp only at h
    rw [hcommit] at h
    dsimp only at h
    obtain rfl := Option.some.inj h
    rw [hreset]
    refine ⟨rfl, rfl, ?_⟩
    cases signal with
    | false => simp
    | true =>
      have hne : s.flow.syncCounter + 1 ≠ s.flow.syncCounter := by
        intro heq
        have hnat := congrArg UInt32.toNat heq
        have hlt := s.flow.syncCounter.toNat_lt
        rw [UInt32.toNat_add, UInt32.toNat_one] at hnat
        omega
      simp [hne]
  | _ => simp at h

/-! ### The batch numbers of the undefined index -/

section Batch

variable {writer : PosixContinuousFlowWriter}

/-- The batch number every commit computes. -/
def undefinedBatch (writer : PosixContinuousFlowWriter) : UInt64 :=
  MXL_UNDEFINED_INDEX / writer.syncBatchSize.toUInt64

/-- Whether the undefined index is past the early threshold of its batch. -/
def pastThreshold (writer : PosixContinuousFlowWriter) : Prop :=
  MXL_UNDEFINED_INDEX % writer.syncBatchSize.toUInt64 > writer.earlySyncThreshold.toUInt64

theorem signal_first (hlast : writer.lastSyncSampleBatch < undefinedBatch writer) :
    (resetWriter writer).signalCompletedBatch =
      (true, { resetWriter writer with lastSyncSampleBatch := undefinedBatch writer }) := by
  have hlt : ¬ undefinedBatch writer < writer.lastSyncSampleBatch := by
    rw [UInt64.lt_iff_toNat_lt] at hlast ⊢
    omega
  have hne : undefinedBatch writer ≠ writer.lastSyncSampleBatch := by
    rintro heq
    rw [heq] at hlast
    exact UInt64.lt_irrefl _ hlast
  exact (if_neg hlt).trans (if_neg hne)

theorem signal_second (hlast : writer.lastSyncSampleBatch = undefinedBatch writer)
    (hpast : pastThreshold writer) :
    (resetWriter writer).signalCompletedBatch =
      (true, { resetWriter writer with lastSyncSampleBatch := undefinedBatch writer + 1 }) := by
  have hlt : ¬ undefinedBatch writer < writer.lastSyncSampleBatch := by
    rw [hlast]
    exact UInt64.lt_irrefl _
  exact (if_neg hlt).trans ((if_pos hlast.symm).trans (if_pos hpast))

/-- The writer no longer signals: it has signalled the batch of the undefined index
    and is not past its threshold, or it has signalled the one after. -/
def Silent (writer : PosixContinuousFlowWriter) : Prop :=
  (writer.lastSyncSampleBatch = undefinedBatch writer ∧ ¬ pastThreshold writer) ∨
    undefinedBatch writer < writer.lastSyncSampleBatch

theorem signal_silent (h : Silent writer) :
    (resetWriter writer).signalCompletedBatch = (false, resetWriter writer) := by
  rcases h with ⟨hlast, hpast⟩ | hlt
  · have hnlt : ¬ undefinedBatch writer < writer.lastSyncSampleBatch := by
      rw [hlast]
      exact UInt64.lt_irrefl _
    exact (if_neg hnlt).trans ((if_pos hlast.symm).trans (if_neg hpast))
  · exact if_pos hlt

end Batch

/-! ### Silent writers -/

theorem step_silent {s t : SyncState} {count : UInt64} (hs : Silent s.writer)
    (h : step s count = some t) :
    Silent t.writer ∧ t.flow.maxSyncBatchSizeHint = s.flow.maxSyncBatchSizeHint ∧
      t.sinceSync = s.sinceSync + count.toNat := by
  obtain ⟨hwriter, hhint, hsince⟩ := step_spec h
  rw [signal_silent hs] at hwriter hsince
  refine ⟨?_, hhint, hsince⟩
  rw [hwriter]
  exact hs

theorem withinSyncBatch_silent {s t : SyncState} {counts : List UInt64} (hs : Silent s.writer)
    (hrun : run step s counts = some t) :
    Throughout step WithinSyncBatch s counts ↔
      s.sinceSync + samples counts ≤ s.flow.maxSyncBatchSizeHint.toNat := by
  induction counts generalizing s with
  | nil => exact Iff.rfl
  | cons count counts ih =>
    obtain ⟨u, hstep, hrest⟩ := run_cons_eq_some.mp hrun
    obtain ⟨hu, hhint, hsince⟩ := step_silent hs hstep
    have htail := ih hu hrest
    rw [hhint, hsince] at htail
    have hsum : samples (count :: counts) = count.toNat + samples counts := rfl
    rw [hsum, ← Nat.add_assoc, ← htail]
    constructor
    · intro hall
      exact hall.2 u hstep
    · intro hall
      refine ⟨?_, ?_⟩
      · have hle := htail.mp hall
        unfold WithinSyncBatch
        omega
      · intro v hv
        obtain rfl : u = v := Option.some.inj (hstep.symm.trans hv)
        exact hall

/-! ### The first two ranges -/

section Init

variable {flow : ContinuousFlowData}

theorem toNat_syncBatchSize (hsync : 1 ≤ flow.maxSyncBatchSizeHint.toNat) :
    (PosixContinuousFlowWriter.init flow).syncBatchSize.toNat =
      flow.maxSyncBatchSizeHint.toNat := by
  change (max flow.maxSyncBatchSizeHint 1).toNat = _
  rw [UInt32.toNat_max, UInt32.toNat_one]
  omega

theorem toNat_earlySyncThreshold (hcommit : 1 ≤ flow.maxCommitBatchSizeHint.toNat)
    (hsync : 1 ≤ flow.maxSyncBatchSizeHint.toNat) :
    (PosixContinuousFlowWriter.init flow).earlySyncThreshold.toNat =
      flow.maxSyncBatchSizeHint.toNat - flow.maxCommitBatchSizeHint.toNat := by
  have hcommitted : (PosixContinuousFlowWriter.commitBatchSize flow).toNat =
      flow.maxCommitBatchSizeHint.toNat := by
    change (max flow.maxCommitBatchSizeHint 1).toNat = _
    rw [UInt32.toNat_max, UInt32.toNat_one]
    omega
  have hsynced := toNat_syncBatchSize hsync
  change (max flow.maxSyncBatchSizeHint 1).toNat = _ at hsynced
  change (if max flow.maxSyncBatchSizeHint 1 ≥ PosixContinuousFlowWriter.commitBatchSize flow then
    max flow.maxSyncBatchSizeHint 1 - PosixContinuousFlowWriter.commitBatchSize flow
    else 0).toNat = _
  split
  · next hge => rw [UInt32.toNat_sub_of_le _ _ hge, hcommitted, hsynced]
  · next hlt =>
    rw [ge_iff_le, UInt32.le_iff_toNat_le, hcommitted, hsynced] at hlt
    rw [UInt32.toNat_zero]
    omega

theorem pastThreshold_init_iff (hcommit : 1 ≤ flow.maxCommitBatchSizeHint.toNat)
    (hsync : 1 ≤ flow.maxSyncBatchSizeHint.toNat) :
    pastThreshold (.init flow) ↔
      MXL_UNDEFINED_INDEX.toNat % flow.maxSyncBatchSizeHint.toNat >
        flow.maxSyncBatchSizeHint.toNat - flow.maxCommitBatchSizeHint.toNat := by
  unfold pastThreshold
  rw [gt_iff_lt, UInt64.lt_iff_toNat_lt, UInt64.toNat_mod, UInt32.toNat_toUInt64,
    UInt32.toNat_toUInt64, toNat_syncBatchSize hsync, toNat_earlySyncThreshold hcommit hsync]

/-- A batch has fewer than `2 ^ 32` samples, so the batch of the undefined index is
    not the first one. -/
theorem undefinedBatch_pos (hsync : 1 ≤ flow.maxSyncBatchSizeHint.toNat) :
    0 < undefinedBatch (.init flow) := by
  have hlt := flow.maxSyncBatchSizeHint.toNat_lt
  rw [UInt64.lt_iff_toNat_lt, undefinedBatch, UInt64.toNat_div, UInt32.toNat_toUInt64,
    toNat_syncBatchSize hsync, UInt64.toNat_zero]
  apply Nat.div_pos
  · rw [toNat_MXL_UNDEFINED_INDEX]
    omega
  · omega

/-- Past its threshold the batch of the undefined index is not the last number that
    fits, so the one after is larger. -/
theorem undefinedBatch_lt_succ (hsync : 1 ≤ flow.maxSyncBatchSizeHint.toNat)
    (hpast : pastThreshold (.init flow)) :
    undefinedBatch (.init flow) < undefinedBatch (.init flow) + 1 := by
  unfold pastThreshold at hpast
  rw [gt_iff_lt, UInt64.lt_iff_toNat_lt, UInt64.toNat_mod, UInt32.toNat_toUInt64,
    UInt32.toNat_toUInt64, toNat_syncBatchSize hsync] at hpast
  have htwo : 2 ≤ flow.maxSyncBatchSizeHint.toNat := by
    by_contra hlt
    have hone : flow.maxSyncBatchSizeHint.toNat = 1 := by omega
    rw [hone, Nat.mod_one] at hpast
    omega
  have hbatch : (undefinedBatch (.init flow)).toNat ≤ (2 ^ 64 - 1) / 2 := by
    rw [undefinedBatch, UInt64.toNat_div, UInt32.toNat_toUInt64, toNat_syncBatchSize hsync,
      toNat_MXL_UNDEFINED_INDEX]
    exact Nat.div_le_div_left htwo (by decide)
  rw [UInt64.lt_iff_toNat_lt, UInt64.toNat_add, UInt64.toNat_one]
  omega

end Init

theorem withinSyncBatch_of_sinceSync_zero {s : SyncState} (h : s.sinceSync = 0) :
    WithinSyncBatch s := by
  unfold WithinSyncBatch
  omega

/-- A range that is signalled leaves only the rest of the run to look at. -/
theorem throughout_cons_iff {s t : SyncState} {count : UInt64} {counts : List UInt64}
    (hs : s.sinceSync = 0) (h : step s count = some t) :
    Throughout step WithinSyncBatch s (count :: counts) ↔
      Throughout step WithinSyncBatch t counts := by
  constructor
  · intro hall
    exact hall.2 t h
  · intro hall
    refine ⟨withinSyncBatch_of_sinceSync_zero hs, ?_⟩
    intro u hu
    obtain rfl : t = u := Option.some.inj (h.symm.trans hu)
    exact hall

/-- A new writer that has signalled the batch of the undefined index. -/
def afterFirst (flow : ContinuousFlowData) : PosixContinuousFlowWriter :=
  { resetWriter (.init flow) with lastSyncSampleBatch := undefinedBatch (.init flow) }

theorem step_first {flow : ContinuousFlowData} {index count : UInt64} {t : SyncState}
    (hsync : 1 ≤ flow.maxSyncBatchSizeHint.toNat) (h : step (.init flow index) count = some t) :
    t.writer = afterFirst flow ∧ t.flow.maxSyncBatchSizeHint = flow.maxSyncBatchSizeHint ∧
      t.sinceSync = 0 := by
  obtain ⟨hwriter, hhint, hsince⟩ := step_spec h
  have hlast : (PosixContinuousFlowWriter.init flow).lastSyncSampleBatch <
      undefinedBatch (.init flow) := undefinedBatch_pos hsync
  have hsignal := signal_first hlast
  change t.writer = (resetWriter (.init flow)).signalCompletedBatch.2 at hwriter
  change t.sinceSync = if (resetWriter (.init flow)).signalCompletedBatch.1 then 0 else _ at hsince
  rw [hsignal] at hwriter hsince
  exact ⟨hwriter, hhint, hsince⟩

/-- Past the threshold of the undefined index the second one is signalled, too, and
    that is the end of it. -/
theorem step_second {flow : ContinuousFlowData} {count : UInt64} {s t : SyncState}
    (hsync : 1 ≤ flow.maxSyncBatchSizeHint.toNat) (hpast : pastThreshold (.init flow))
    (hs : s.writer = afterFirst flow) (h : step s count = some t) :
    Silent t.writer ∧ t.flow.maxSyncBatchSizeHint = s.flow.maxSyncBatchSizeHint ∧
      t.sinceSync = 0 := by
  obtain ⟨hwriter, hhint, hsince⟩ := step_spec h
  rw [hs] at hwriter hsince
  have hsignal : (resetWriter (afterFirst flow)).signalCompletedBatch = _ :=
    signal_second rfl hpast
  rw [hsignal] at hwriter hsince
  refine ⟨?_, hhint, hsince⟩
  right
  rw [hwriter]
  exact undefinedBatch_lt_succ hsync hpast

/-- **When readers are woken within one sync batch.**  For a new writer on a flow
    with hints of at least one, and any sequence of ranges it can open, the number
    of samples committed since the last increment of `syncCounter` stays within
    `maxSyncBatchSizeHint` exactly when the ranges after the one or two signalled
    ones hold no more samples than that altogether. -/
theorem wakeup_bound_iff (flow : ContinuousFlowData)
    (hcommit : 1 ≤ flow.maxCommitBatchSizeHint.toNat)
    (hsync : 1 ≤ flow.maxSyncBatchSizeHint.toNat) (index : UInt64) (counts : List UInt64)
    {t : SyncState} (hrun : run step (.init flow index) counts = some t) :
    Throughout step WithinSyncBatch (.init flow index) counts ↔
      samples (counts.drop (signallingCommits flow)) ≤ flow.maxSyncBatchSizeHint.toNat := by
  cases counts with
  | nil =>
    refine iff_of_true (withinSyncBatch_of_sinceSync_zero rfl) ?_
    rw [List.drop_nil]
    exact Nat.zero_le _
  | cons first rest =>
    obtain ⟨s₁, hstep₁, hrun₁⟩ := run_cons_eq_some.mp hrun
    obtain ⟨hwriter₁, hhint₁, hsince₁⟩ := step_first hsync hstep₁
    rw [throughout_cons_iff rfl hstep₁]
    by_cases hpast : pastThreshold (.init flow)
    · have htwo : signallingCommits flow = 2 :=
        if_pos ((pastThreshold_init_iff hcommit hsync).mp hpast)
      rw [htwo]
      cases rest with
      | nil =>
        refine iff_of_true (withinSyncBatch_of_sinceSync_zero hsince₁) ?_
        exact Nat.zero_le _
      | cons second rest =>
        obtain ⟨s₂, hstep₂, hrun₂⟩ := run_cons_eq_some.mp hrun₁
        obtain ⟨hsilent, hhint₂, hsince₂⟩ := step_second hsync hpast hwriter₁ hstep₂
        rw [throughout_cons_iff hsince₁ hstep₂, withinSyncBatch_silent hsilent hrun₂, hsince₂,
          hhint₂, hhint₁]
        simp
    · have hone : signallingCommits flow = 1 :=
        if_neg fun hgt => hpast ((pastThreshold_init_iff hcommit hsync).mpr hgt)
      have hsilent : Silent s₁.writer := by
        rw [hwriter₁]
        exact Or.inl ⟨rfl, hpast⟩
      rw [hone, withinSyncBatch_silent hsilent hrun₁, hsince₁, hhint₁]
      simp

/-- One channel of 2048 samples of four bytes, committed and signalled every 480
    samples. -/
def monoFlow : ContinuousFlowData where
  channelCount := 1
  bufferLength := 2048
  sampleWordSize := 4
  maxCommitBatchSizeHint := 480
  maxSyncBatchSizeHint := 480
  headIndex := 0
  syncCounter := 0
  channelData _ := 0
  channelCount_pos := Nat.one_pos
  bufferLength_pos := by decide
  sampleWordSize_pos := by decide
  mapped := by decide

/-- The third and the fourth batch go by without waking anybody. -/
theorem readers_not_woken :
    ∃ t, run step (.init monoFlow 0) [480, 480, 480, 480] = some t ∧
      t.flow.headIndex = 1920 ∧ t.flow.syncCounter = 2 ∧ t.sinceSync = 960 ∧
      ¬ WithinSyncBatch t := by
  refine ⟨_, rfl, rfl, rfl, rfl, ?_⟩
  unfold WithinSyncBatch
  decide

theorem wakeup_bound_three :
    Throughout step WithinSyncBatch (.init monoFlow 0) [480, 480, 480] ↔
      samples ([480, 480, 480].drop (signallingCommits monoFlow)) ≤
        monoFlow.maxSyncBatchSizeHint.toNat :=
  wakeup_bound_iff monoFlow (by decide) (by decide) 0 [480, 480, 480] rfl

end MediaExchange.ContinuousSync
