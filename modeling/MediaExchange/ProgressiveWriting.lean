/-
  MediaExchange/ProgressiveWriting.lean
  =====================================
  **Writing a grain in batches of slices** (`PosixDiscreteFlowWriter.cpp`,
  `test_flows.cpp`).

  The loop of the partial write test: open the grain, and for every batch add
  the number of slices just written to `validSlices` of the record that
  `openGrain` handed out and commit the record.  The record starts from whatever
  is in the ring slot, and nothing between two laps resets it: `openGrain` only
  stamps the new index into it.

  Main result: `progressive_iff`.  After any run of any number of writers the
  loop publishes its progress exactly when the record last committed into the
  slot, if there is one, left no valid slices and no INVALID flag behind.
-/
import MediaExchange.DiscreteWriterRuns

namespace MediaExchange.ProgressiveWriting

open MediaExchange.LabelledRun MediaExchange.DiscreteWriterRuns

/-! ### The loop -/

/-- One round of the loop: how many slices were written, and when they are
    committed. -/
structure SliceBatch where
  slices : UInt16
  now : UInt64
deriving DecidableEq, Repr

/-- `gInfo.validSlices += batchSize`, in the 16 bits of the field. -/
def addSlices (info : GrainInfo) (batch : SliceBatch) : GrainInfo :=
  { info with validSlices := info.validSlices + batch.slices }

/-- The rounds of the loop; each is reported with the status of its commit and
    the shared memory after it. -/
def commitBatches (writer : PosixDiscreteFlowWriter) (flow : DiscreteFlowData)
    (info : GrainInfo) : List SliceBatch → List (MxlStatus × DiscreteFlowData)
  | [] => []
  | batch :: batches =>
      let info := addSlices info batch
      let (status, writer, flow) := writer.commit flow info batch.now
      (status, flow) :: commitBatches writer flow info batches

def writeGrain (writer : PosixDiscreteFlowWriter) (flow : DiscreteFlowData) (index : UInt64)
    (batches : List SliceBatch) : List (MxlStatus × DiscreteFlowData) :=
  let (_, info, writer, flow) := writer.openGrain flow index
  commitBatches writer flow info batches

/-- The record `openGrain` hands out. -/
def handedOut (flow : DiscreteFlowData) (index : UInt64) : GrainInfo :=
  { flow.grainInfo index with index := index }

def written (batches : List SliceBatch) : Nat :=
  (batches.map fun batch => batch.slices.toNat).sum

/-- What a reader of `index` finds after a commit of the loop. -/
structure Published (flow : DiscreteFlowData) (index : UInt64) (slices : Nat) : Prop where
  head : flow.headIndex = index
  grain : (flow.grainInfo index).index = index
  slices : (flow.grainInfo index).validSlices.toNat = slices
  valid : (flow.grainInfo index).isInvalid = false

/-- Every commit of the loop is accepted and publishes what was written so far,
    and the last one completes the grain. -/
structure Progressive (index : UInt64) (batches : List SliceBatch)
    (results : List (MxlStatus × DiscreteFlowData)) : Prop where
  published : ∀ j < batches.length, ∃ flow, results[j]? = some (.statusOk, flow) ∧
    Published flow index (written (batches.take (j + 1)))
  complete : ∀ status flow, results.getLast? = some (status, flow) →
    (flow.grainInfo index).validSlices = (flow.grainInfo index).totalSlices

section Loop

variable {writer : PosixDiscreteFlowWriter} {flow : DiscreteFlowData} {info : GrainInfo}
  {index : UInt64} {batch : SliceBatch} {batches : List SliceBatch}

@[simp] theorem written_nil : written [] = 0 := rfl

@[simp] theorem written_cons :
    written (batch :: batches) = batch.slices.toNat + written batches := rfl

theorem openGrain_eq : writer.openGrain flow index =
    (.statusOk, handedOut flow index, { currentIndex := index }, flow.storeGrainIndex index) := by
  have hinfo : (flow.storeGrainIndex index).grainInfo index = handedOut flow index := by
    rw [DiscreteFlowData.grainInfo_storeGrainIndex, if_pos rfl, handedOut]
  rw [PosixDiscreteFlowWriter.openGrain, hinfo]

theorem commitBatches_cons (hopen : info.index = writer.currentIndex) :
    commitBatches writer flow info (batch :: batches) =
      (.statusOk, flow.afterCommit info.index (addSlices info batch) batch.now) ::
        commitBatches (writer.afterCommit (addSlices info batch))
          (flow.afterCommit info.index (addSlices info batch) batch.now) (addSlices info batch)
          batches := by
  have hindex : (addSlices info batch).index = writer.currentIndex := hopen
  rw [commitBatches, PosixDiscreteFlowWriter.commit_accepted hindex]
  rfl

theorem grainInfo_committed (flow : DiscreteFlowData) (index : UInt64) (info : GrainInfo)
    (now : UInt64) :
    (flow.afterCommit index info now).grainInfo index = info := by
  rw [DiscreteFlowData.grainInfo_afterCommit, if_pos rfl]

/-- The loop from any round on: as long as the slices already counted in the
    record and those still to be written make up the whole grain, no sum wraps
    and the grain stays open until its last slice. -/
theorem commitBatches_progress (hindex : info.index = index)
    (hopen : batches ≠ [] → info.index = writer.currentIndex)
    (hvalid : info.isInvalid = false) (hpos : ∀ batch ∈ batches, 0 < batch.slices.toNat)
    (hsum : info.validSlices.toNat + written batches = info.totalSlices.toNat) :
    (∀ j < batches.length, ∃ after,
        (commitBatches writer flow info batches)[j]? = some (.statusOk, after) ∧
        Published after index (info.validSlices.toNat + written (batches.take (j + 1)))) ∧
      ∀ status after, (commitBatches writer flow info batches).getLast? = some (status, after) →
        (after.grainInfo index).validSlices = (after.grainInfo index).totalSlices := by
  induction batches generalizing writer flow info with
  | nil => simp [commitBatches]
  | cons batch batches ih =>
    have hwriter := hopen (List.cons_ne_nil _ _)
    rw [written_cons] at hsum
    have hadd : (addSlices info batch).validSlices.toNat =
        info.validSlices.toNat + batch.slices.toNat := by
      have hlt := info.totalSlices.toNat_lt
      rw [addSlices, UInt16.toNat_add, Nat.mod_eq_of_lt]
      omega
    have hrest : (addSlices info batch).validSlices.toNat + written batches =
        (addSlices info batch).totalSlices.toNat := by
      rw [hadd, Nat.add_assoc]
      exact hsum
    -- the commit closes the grain only if nothing is left to write
    have hstill : batches ≠ [] → (addSlices info batch).index =
        (writer.afterCommit (addSlices info batch)).currentIndex := by
      intro hne
      obtain ⟨next, rest, rfl⟩ := List.exists_cons_of_ne_nil hne
      have hnext : 0 < next.slices.toNat := hpos next (by simp)
      have hpartial : (addSlices info batch).validSlices ≠ (addSlices info batch).totalSlices := by
        intro heq
        rw [written_cons, heq] at hrest
        omega
      rw [PosixDiscreteFlowWriter.afterCommit, if_neg hpartial]
      exact hwriter
    obtain ⟨ihall, ihlast⟩ :=
      @ih (writer.afterCommit (addSlices info batch))
        (flow.afterCommit info.index (addSlices info batch) batch.now)
        (addSlices info batch) hindex hstill hvalid
        (fun b hb => hpos b (List.mem_cons_of_mem _ hb)) hrest
    rw [commitBatches_cons hwriter]
    constructor
    · intro j hj
      cases j with
      | zero =>
        refine ⟨_, rfl, ?_⟩
        have hrecord := grainInfo_committed flow index (addSlices info batch) batch.now
        rw [hindex]
        exact ⟨rfl, by rw [hrecord]; exact hindex, by rw [hrecord, hadd]; simp,
          by rw [hrecord]; exact hvalid⟩
      | succ j =>
        obtain ⟨after, hafter, hpublished⟩ := ihall j (by simpa using hj)
        refine ⟨after, hafter, ?_⟩
        rw [List.take_succ_cons, written_cons, ← Nat.add_assoc, ← hadd]
        exact hpublished
    · intro status after hlast
      cases batches with
      | nil =>
        obtain ⟨-, rfl⟩ : status = .statusOk ∧ _ = after := by
          simpa [commitBatches, eq_comm] using hlast
        rw [hindex, grainInfo_committed, ← UInt16.toNat_inj]
        simpa using hrest
      | cons next rest =>
        apply ihlast status after
        have hnext := hstill (List.cons_ne_nil _ _)
        rw [commitBatches_cons hnext, List.getLast?_cons_cons] at hlast
        rw [commitBatches_cons hnext]
        exact hlast

/-- **The loop and the record it starts from.**  It reports its progress exactly
    when the slot it is handed carries neither valid slices nor an INVALID flag. -/
theorem progressive_iff_handedOut (hne : batches ≠ [])
    (hpos : ∀ batch ∈ batches, 0 < batch.slices.toNat)
    (hsum : written batches = (handedOut flow index).totalSlices.toNat) :
    Progressive index batches (writeGrain writer flow index batches) ↔
      (handedOut flow index).validSlices = 0 ∧ (handedOut flow index).isInvalid = false := by
  have hwrite : writeGrain writer flow index batches =
      commitBatches { currentIndex := index } (flow.storeGrainIndex index)
        (handedOut flow index) batches := by
    rw [writeGrain, openGrain_eq]
  rw [hwrite]
  constructor
  · intro hprogress
    -- the first commit already shows what the record started from
    obtain ⟨first, rest, rfl⟩ := List.exists_cons_of_ne_nil hne
    obtain ⟨after, hfirst, hpublished⟩ := hprogress.published 0 (by simp)
    rw [commitBatches_cons rfl] at hfirst
    obtain rfl := (Prod.mk.inj (Option.some.inj hfirst)).2
    have hslices := hpublished.slices
    have hvalid := hpublished.valid
    rw [show (handedOut flow index).index = index from rfl, grainInfo_committed] at hslices hvalid
    refine ⟨?_, hvalid⟩
    have hself : (handedOut flow index).validSlices + first.slices = 0 + first.slices := by
      rw [← UInt16.toNat_inj, UInt16.zero_add]
      simpa [addSlices] using hslices
    exact (UInt16.add_left_inj first.slices).mp hself
  · rintro ⟨hzero, hvalid⟩
    have hstart : (handedOut flow index).validSlices.toNat = 0 := by rw [hzero]; rfl
    have hsum' : (handedOut flow index).validSlices.toNat + written batches =
        (handedOut flow index).totalSlices.toNat := by
      rw [hstart, Nat.zero_add]
      exact hsum
    obtain ⟨hall, hlast⟩ := @commitBatches_progress { currentIndex := index }
      (flow.storeGrainIndex index) (handedOut flow index) index batches rfl
      (fun _ => rfl) hvalid hpos hsum'
    refine ⟨fun j hj => ?_, hlast⟩
    have hj' := hall j hj
    rwa [hstart, Nat.zero_add] at hj'

end Loop

/-! ### What a run leaves in a slot -/

variable {ι : Type*} [DecidableEq ι]

/-- The record last committed into a slot of a ring of `grainCount` grains. -/
def lastCommitted (grainCount slot : Nat) : History ι → Option GrainInfo
  | [] => none
  | (_, .commit info _) :: history =>
      if info.index.toNat % grainCount = slot then some info
      else lastCommitted grainCount slot history
  | (_, _) :: history => lastCommitted grainCount slot history

/-- Every slot holds the record last committed into it, or the one the flow was
    created with, under the index it was last opened for. -/
def HoldsLastCommitted (flow₀ : DiscreteFlowData) (s : WriterSystem ι) : Prop :=
  s.flow.grainCount = flow₀.grainCount ∧ ∀ i, ∃ j, s.flow.grainInfo i =
    { (lastCommitted flow₀.grainCount.toNat (flow₀.offset i) s.history).getD (flow₀.grainInfo i)
      with index := j }

omit [DecidableEq ι] in
theorem holdsLastCommitted_init (flow : DiscreteFlowData) :
    HoldsLastCommitted flow (.init flow : WriterSystem ι) :=
  ⟨rfl, fun i => ⟨(flow.grainInfo i).index, rfl⟩⟩

theorem holdsLastCommitted_step {flow₀ : DiscreteFlowData} {s t : WriterSystem ι}
    {call : ι × WriterCall} (hs : HoldsLastCommitted flow₀ s) (h : step s call = some t) :
    HoldsLastCommitted flow₀ t := by
  obtain ⟨hcount, hslots⟩ := hs
  refine ⟨(step_grainCount h).trans hcount, fun i => ?_⟩
  obtain ⟨j, hj⟩ := hslots i
  rcases call with ⟨w, index | ⟨info, now⟩ | _⟩
  · obtain ⟨hflow, -, hhist⟩ := step_openGrain h
    obtain ⟨k, hk⟩ := DiscreteFlowData.grainInfo_storeGrainIndex_fields s.flow index i
    refine ⟨k, ?_⟩
    rw [hflow, hk, hhist, hj]
    rfl
  · rcases step_commit h with ⟨_, rfl⟩ | ⟨_, hflow, -, hhist⟩
    · exact ⟨j, hj⟩
    · rw [hflow, hhist, DiscreteFlowData.grainInfo_afterCommit,
        DiscreteFlowData.offset_congr hcount, DiscreteFlowData.offset_congr hcount, lastCommitted,
        ← DiscreteFlowData.offset_eq]
      by_cases hslot : flow₀.offset i = flow₀.offset info.index
      · rw [if_pos hslot, if_pos hslot.symm]
        exact ⟨info.index, rfl⟩
      · rw [if_neg hslot, if_neg (Ne.symm hslot)]
        exact ⟨j, hj⟩
  · obtain ⟨hflow, -, hhist⟩ := step_cancel h
    refine ⟨j, ?_⟩
    rw [hflow, hhist, hj]
    rfl

theorem cleared_getD_iff {last : Option GrainInfo} {initial : GrainInfo}
    (hslices : initial.validSlices = 0) (hvalid : initial.isInvalid = false) :
    (last.getD initial).validSlices = 0 ∧ (last.getD initial).isInvalid = false ↔
      ∀ info, last = some info → info.validSlices = 0 ∧ info.isInvalid = false := by
  cases last with
  | none => simp [hslices, hvalid]
  | some info => simp

/-- **Progressive writing, on every lap.**  After any run of any number of writers
    on a new flow (complete, partial, invalid and cancelled grains in any order)
    the loop for any index publishes its progress exactly when nothing was ever
    committed into the grain's slot, or the last record committed there has no
    valid slices and no INVALID flag. -/
theorem progressive_iff (geometry : DiscreteGeometry) (now : UInt64)
    {calls : List (ι × WriterCall)} {s : WriterSystem ι}
    (hrun : run step (.init (.create geometry now)) calls = some s) (w : ι) (index : UInt64)
    {batches : List SliceBatch} (hne : batches ≠ [])
    (hpos : ∀ batch ∈ batches, 0 < batch.slices.toNat)
    (hsum : written batches = (handedOut s.flow index).totalSlices.toNat) :
    Progressive index batches (writeGrain (s.writers w) s.flow index batches) ↔
      ∀ info, lastCommitted geometry.grainCount.toNat
          (index.toNat % geometry.grainCount.toNat) s.history = some info →
        info.validSlices = 0 ∧ info.isInvalid = false := by
  have hholds : HoldsLastCommitted (.create geometry now) s :=
    invariant_of_run (fun _ _ _ hs h => holdsLastCommitted_step hs h)
      (holdsLastCommitted_init _) hrun
  obtain ⟨j, hj⟩ := hholds.2 index
  rw [progressive_iff_handedOut hne hpos hsum, handedOut, hj, DiscreteFlowData.offset_eq]
  exact cleared_getD_iff rfl
    (by simp [GrainInfo.isInvalid, DiscreteFlowData.grainInfo, DiscreteFlowData.create])

/-! ### The second lap of a ring of one grain -/

def twoSlices (index : UInt64) (validSlices : UInt16) : GrainInfo :=
  { version := 1, size := 4096, index := index, flags := 0, grainSize := 16, totalSlices := 2,
    validSlices := validSlices }

/-- Grain 0 is opened and cancelled; grain 1, which takes the same slot, can
    still be written slice by slice. -/
theorem progressive_after_cancel :
    ∃ s, run step (.init (.create ⟨1, 16, 2, Nat.one_pos⟩ 0))
        [((), .openGrain 0), ((), .cancel)] = some s ∧
      Progressive 1 [⟨1, 5⟩, ⟨1, 6⟩] (writeGrain (s.writers ()) s.flow 1 [⟨1, 5⟩, ⟨1, 6⟩]) := by
  obtain ⟨s, hrun⟩ : ∃ s, run step (.init (.create ⟨1, 16, 2, Nat.one_pos⟩ 0))
      [((), .openGrain 0), ((), .cancel)] = some s := ⟨_, rfl⟩
  refine ⟨s, hrun, ?_⟩
  have hsum : written [⟨1, 5⟩, ⟨1, 6⟩] = (handedOut s.flow 1).totalSlices.toNat := by
    obtain rfl := Option.some.inj hrun
    rfl
  have hlast : lastCommitted 1 0 s.history = none := by
    obtain rfl := Option.some.inj hrun
    rfl
  apply (progressive_iff ⟨1, 16, 2, Nat.one_pos⟩ 0 hrun () 1 (List.cons_ne_nil _ _) (by decide)
    hsum).mpr
  intro info hinfo
  cases hlast.symm.trans hinfo

/-- Grain 0 is completed.  The record of grain 1 then starts with both slices
    valid: the first commit publishes three slices of two. -/
theorem second_lap_overcounts :
    ∃ s, run step (.init (.create ⟨1, 16, 2, Nat.one_pos⟩ 0))
        [((), .openGrain 0), ((), .commit (twoSlices 0 2) 1)] = some s ∧
      ∃ flow, (writeGrain (s.writers ()) s.flow 1 [⟨1, 5⟩, ⟨1, 6⟩])[0]? =
          some (.statusOk, flow) ∧ (flow.grainInfo 1).validSlices = 3 ∧
        ¬ Progressive 1 [⟨1, 5⟩, ⟨1, 6⟩] (writeGrain (s.writers ()) s.flow 1 [⟨1, 5⟩, ⟨1, 6⟩]) := by
  refine ⟨_, rfl, _, rfl, rfl, ?_⟩
  intro hprogress
  obtain ⟨flow, hflow, hpublished⟩ := hprogress.published 0 (by decide)
  obtain rfl := (Prod.mk.inj (Option.some.inj hflow)).2
  exact absurd hpublished.slices (by decide)

end MediaExchange.ProgressiveWriting
