/-
  MediaExchange/DiscreteInterleaving.lean
  =======================================
  **A writer and a reader of a discrete flow, one memory access at a time.**

  `commit` is the sequence of its stores (head, record, time, counter) followed by
  the wake-up; `getGrain` is the sequence of its loads and, when it blocks, of
  the steps of `waitUntilChanged` (`Sync.cpp`).  The two program counters move
  independently, which gives every sequentially consistent interleaving.

  The kernel's part of the futex is atomic: `FUTEX_WAIT` compares the counter and
  puts the reader to sleep in one step, `FUTEX_WAKE` takes it out of its sleep.

  Two ghosts are kept: the records stored so far, and the number of commits since
  the reader last loaded the counter.
-/
import MediaExchange.Library.LabelledRun
import MediaExchange.DiscreteFlow

namespace MediaExchange.DiscreteInterleaving

open MediaExchange.LabelledRun

/-! ### The reader -/

/-- The next access of the reader.  The two slice counts are operands of one
    comparison and are loaded in either order; what has been loaded is kept. -/
inductive ReaderPc where
  | idle
  | loadSync
  | loadHead
  | loadValid (total : Option UInt16)
  | loadTotal (valid : Option UInt16)
  | loadFlags (valid total : UInt16)
  | copyInfo (valid total : UInt16)
  | waitLoad
  | checkDeadline
  | futexWait
  | asleep
  | returnedOk (info : GrainInfo) (valid total : UInt16)
  | returnedError (status : MxlStatus)
deriving DecidableEq, Repr

/-- A call of `getGrain`, with or without a deadline. -/
structure DiscreteReader where
  index : UInt64
  minValidSlices : UInt16
  blocking : Bool
  /-- The total is loaded before the valid slices. -/
  totalFirst : Bool
  previousSyncCounter : UInt32
  pc : ReaderPc
deriving DecidableEq, Repr

/-- The reader is in `waitUntilChanged`. -/
def ReaderPc.waiting : ReaderPc → Bool
  | .waitLoad | .checkDeadline | .futexWait | .asleep => true
  | _ => false

namespace DiscreteReader

/-- `getGrainImpl` was too early: wait for the counter, or give up. -/
def tooEarly (r : DiscreteReader) : DiscreteReader :=
  { r with pc := if r.blocking then .waitLoad else .returnedError .errOutOfRangeTooEarly }

def afterSlices (r : DiscreteReader) (valid total : UInt16) : DiscreteReader :=
  { r with pc :=
      if valid ≥ min r.minValidSlices total then .copyInfo valid total
      else .loadFlags valid total }

/-- One access.  `expired` is what the clock says when it is asked, and whether a
    sleep ends by its timeout. -/
def next (r : DiscreteReader) (flow : DiscreteFlowData) (expired : Bool) :
    Option DiscreteReader :=
  match r.pc with
  | .idle => none
  | .loadSync => some { r with previousSyncCounter := flow.syncCounter, pc := .loadHead }
  | .loadHead =>
      if r.index ≤ flow.headIndex then
        if r.index ≥ minIndex flow.headIndex flow.grainCount then
          some { r with pc := if r.totalFirst then .loadTotal none else .loadValid none }
        else some { r with pc := .returnedError .errOutOfRangeTooLate }
      else some r.tooEarly
  | .loadValid none => some { r with pc := .loadTotal (some (flow.grainInfo r.index).validSlices) }
  | .loadValid (some total) => some (r.afterSlices (flow.grainInfo r.index).validSlices total)
  | .loadTotal none => some { r with pc := .loadValid (some (flow.grainInfo r.index).totalSlices) }
  | .loadTotal (some valid) => some (r.afterSlices valid (flow.grainInfo r.index).totalSlices)
  | .loadFlags valid total =>
      if (flow.grainInfo r.index).isInvalid then some { r with pc := .copyInfo valid total }
      else some r.tooEarly
  | .copyInfo valid total =>
      some { r with pc := .returnedOk (flow.grainInfo r.index) valid total }
  | .waitLoad =>
      if flow.syncCounter = r.previousSyncCounter then some { r with pc := .checkDeadline }
      else some { r with pc := .loadSync }
  | .checkDeadline =>
      if expired then some { r with pc := .returnedError .errOutOfRangeTooEarly }
      else some { r with pc := .futexWait }
  | .futexWait =>
      if flow.syncCounter = r.previousSyncCounter then some { r with pc := .asleep }
      else some { r with pc := .waitLoad }
  | .asleep =>
      if expired then some { r with pc := .returnedError .errOutOfRangeTooEarly }
      else some { r with pc := .waitLoad }
  | .returnedOk _ _ _ => none
  | .returnedError _ => none

def atRest (r : DiscreteReader) : Bool :=
  match r.pc with
  | .idle | .returnedOk _ _ _ | .returnedError _ => true
  | _ => false

/-- `FUTEX_WAKE`. -/
def wake (r : DiscreteReader) : DiscreteReader :=
  match r.pc with
  | .asleep => { r with pc := .waitLoad }
  | _ => r

end DiscreteReader

/-! ### The writer and the system -/

inductive WriterPc where
  | idle
  | storeHead (info : GrainInfo)
  | storeInfo (info : GrainInfo)
  | storeTime (info : GrainInfo)
  | fetchAdd
  | wake
deriving DecidableEq, Repr

structure DiscreteSystem where
  flow : DiscreteFlowData
  writer : PosixDiscreteFlowWriter
  writerPc : WriterPc
  reader : DiscreteReader
  /-- The records stored so far, latest first. -/
  published : List GrainInfo
  /-- Increments of the counter since the reader loaded it. -/
  commitsSinceLoad : Nat

inductive Action where
  | openGrain (index : UInt64)
  | commit (info : GrainInfo)
  | cancel
  | writerStep (now : UInt64)
  | getGrain (index : UInt64) (minValidSlices : UInt16) (blocking totalFirst : Bool)
  | readerStep (expired : Bool)
deriving DecidableEq, Repr

def DiscreteSystem.init (flow : DiscreteFlowData) : DiscreteSystem where
  flow := flow
  writer := .init
  writerPc := .idle
  reader :=
    { index := 0, minValidSlices := 0, blocking := false, totalFirst := false,
      previousSyncCounter := flow.syncCounter, pc := .idle }
  published := []
  commitsSinceLoad := 0

def writerNext (s : DiscreteSystem) (now : UInt64) : Option DiscreteSystem :=
  match s.writerPc with
  | .idle => none
  | .storeHead info =>
      some { s with flow := s.flow.storeHeadIndex s.writer.currentIndex
                    writerPc := .storeInfo info }
  | .storeInfo info =>
      some { s with flow := s.flow.storeGrainInfo s.writer.currentIndex info
                    writerPc := .storeTime info
                    published := info :: s.published }
  | .storeTime info =>
      some { s with flow := s.flow.storeLastWriteTime now
                    writer := s.writer.afterCommit info
                    writerPc := .fetchAdd }
  | .fetchAdd =>
      some { s with flow := s.flow.addSyncCounter
                    writerPc := .wake
                    commitsSinceLoad := s.commitsSinceLoad + 1 }
  | .wake => some { s with writerPc := .idle, reader := s.reader.wake }

def step (s : DiscreteSystem) : Action → Option DiscreteSystem
  | .openGrain index =>
      if s.writerPc = .idle then
        let (_, _, writer, flow) := s.writer.openGrain s.flow index
        some { s with flow := flow, writer := writer }
      else none
  | .commit info =>
      if s.writerPc = .idle then
        if info.index ≠ s.writer.currentIndex then some s
        else some { s with writerPc := .storeHead info }
      else none
  | .cancel =>
      if s.writerPc = .idle then some { s with writer := s.writer.cancel.2 } else none
  | .writerStep now => writerNext s now
  | .getGrain index minValidSlices blocking totalFirst =>
      if s.reader.atRest then
        some { s with reader := { s.reader with
          index := index
          minValidSlices := minValidSlices
          blocking := blocking
          totalFirst := totalFirst
          pc := if blocking then .loadSync else .loadHead } }
      else none
  | .readerStep expired =>
      (s.reader.next s.flow expired).map fun reader =>
        { s with reader := reader
                 commitsSinceLoad :=
                   if s.reader.pc = .loadSync then 0 else s.commitsSinceLoad }

/-! ### What one step does -/

section ReaderSteps

variable {flow : DiscreteFlowData} {r r' : DiscreteReader} {expired : Bool}

theorem next_loadHead (hpc : r.pc = .loadHead) (h : r.next flow expired = some r') :
    (flow.inRange r.index ∧
        (r' = { r with pc := .loadTotal none } ∨ r' = { r with pc := .loadValid none })) ∨
      r' = { r with pc := .returnedError .errOutOfRangeTooLate } ∨
      (flow.headIndex < r.index ∧ r' = r.tooEarly) := by
  simp only [DiscreteReader.next, hpc] at h
  split at h
  · next hhead =>
    split at h
    · next hmin =>
      obtain rfl := Option.some.inj h
      left
      refine ⟨⟨hmin, hhead⟩, ?_⟩
      cases r.totalFirst with
      | true => exact Or.inl rfl
      | false => exact Or.inr rfl
    · exact Or.inr (Or.inl (Option.some.inj h).symm)
  · next hhead => exact Or.inr (Or.inr ⟨UInt64.not_le.mp hhead, (Option.some.inj h).symm⟩)

/-- A waiting reader goes on waiting, starts over, or gives up. -/
theorem next_waiting (hpc : r.pc.waiting = true) (h : r.next flow expired = some r') :
    ∃ pc, r' = { r with pc := pc } ∧
      (pc.waiting = true ∨ pc = .loadSync ∨ pc = .returnedError .errOutOfRangeTooEarly) := by
  obtain ⟨index, minValidSlices, blocking, totalFirst, previous, pc⟩ := r
  cases pc with
  | waitLoad =>
    simp only [DiscreteReader.next] at h
    split at h
    · exact ⟨_, (Option.some.inj h).symm, Or.inl rfl⟩
    · exact ⟨_, (Option.some.inj h).symm, Or.inr (Or.inl rfl)⟩
  | checkDeadline =>
    simp only [DiscreteReader.next] at h
    split at h
    · exact ⟨_, (Option.some.inj h).symm, Or.inr (Or.inr rfl)⟩
    · exact ⟨_, (Option.some.inj h).symm, Or.inl rfl⟩
  | futexWait =>
    simp only [DiscreteReader.next] at h
    split at h
    · exact ⟨_, (Option.some.inj h).symm, Or.inl rfl⟩
    · exact ⟨_, (Option.some.inj h).symm, Or.inl rfl⟩
  | asleep =>
    simp only [DiscreteReader.next] at h
    split at h
    · exact ⟨_, (Option.some.inj h).symm, Or.inr (Or.inr rfl)⟩
    · exact ⟨_, (Option.some.inj h).symm, Or.inl rfl⟩
  | _ => cases hpc

end ReaderSteps

section Steps

variable {s t : DiscreteSystem}

theorem step_openGrain {index : UInt64} (h : step s (.openGrain index) = some t) :
    s.writerPc = .idle ∧
      t = { s with flow := s.flow.storeGrainIndex index, writer := { currentIndex := index } } := by
  simp only [step, PosixDiscreteFlowWriter.openGrain] at h
  split at h
  · next hidle => exact ⟨hidle, (Option.some.inj h).symm⟩
  · cases h

theorem step_commit {info : GrainInfo} (h : step s (.commit info) = some t) :
    s.writerPc = .idle ∧
      (t = s ∨ info.index = s.writer.currentIndex ∧ t = { s with writerPc := .storeHead info }) := by
  simp only [step] at h
  split at h
  · next hidle =>
    refine ⟨hidle, ?_⟩
    split at h
    · exact Or.inl (Option.some.inj h).symm
    · next hindex => exact Or.inr ⟨not_not.mp hindex, (Option.some.inj h).symm⟩
  · cases h

theorem step_cancel (h : step s .cancel = some t) :
    s.writerPc = .idle ∧ t = { s with writer := { currentIndex := MXL_UNDEFINED_INDEX } } := by
  simp only [step, PosixDiscreteFlowWriter.cancel] at h
  split at h
  · next hidle => exact ⟨hidle, (Option.some.inj h).symm⟩
  · cases h

theorem step_getGrain {index : UInt64} {minValidSlices : UInt16} {blocking totalFirst : Bool}
    (h : step s (.getGrain index minValidSlices blocking totalFirst) = some t) :
    t = { s with reader :=
      { index := index, minValidSlices := minValidSlices, blocking := blocking,
        totalFirst := totalFirst, previousSyncCounter := s.reader.previousSyncCounter,
        pc := if blocking then .loadSync else .loadHead } } := by
  simp only [step] at h
  split at h
  · exact (Option.some.inj h).symm
  · cases h

theorem step_readerStep {expired : Bool} (h : step s (.readerStep expired) = some t) :
    ∃ reader, s.reader.next s.flow expired = some reader ∧
      t = { s with reader := reader
                   commitsSinceLoad :=
                     if s.reader.pc = .loadSync then 0 else s.commitsSinceLoad } := by
  simp only [step, Option.map_eq_some_iff] at h
  obtain ⟨reader, hnext, rfl⟩ := h
  exact ⟨reader, hnext, rfl⟩

end Steps

/-! ### Undisturbed calls -/

/-- The steps of a commit, with nothing in between, are the commit. -/
theorem commit_alone {s t : DiscreteSystem} {info : GrainInfo} {now n₁ n₂ n₃ n₄ : UInt64}
    (hidle : s.writerPc = .idle) (hindex : info.index = s.writer.currentIndex)
    (hrun : run step s [.commit info, .writerStep n₁, .writerStep n₂, .writerStep now,
      .writerStep n₃, .writerStep n₄] = some t) :
    s.writer.commit s.flow info now = (.statusOk, t.writer, t.flow) ∧ t.writerPc = .idle := by
  simp only [run_cons, run_nil, step, writerNext, hidle, hindex, ne_eq, not_true_eq_false, if_true,
    if_false, Option.bind_some, Option.some.injEq] at hrun
  subst hrun
  rw [PosixDiscreteFlowWriter.commit_accepted hindex, hindex]
  exact ⟨rfl, rfl⟩

/-- What a call has come to when `getGrainImpl` gives the result. -/
def Returned : Except MxlStatus GrainInfo → ReaderPc → Prop
  | .ok info, pc => ∃ valid total, pc = .returnedOk info valid total
  | .error status, pc => pc = .returnedError status

/-- Whatever the order of the two loads, the slices are compared as they are. -/
theorem slices_alone {r : DiscreteReader} {flow : DiscreteFlowData} (hpc : r.pc = .loadHead)
    (hrange : flow.inRange r.index) :
    run (fun r expired => DiscreteReader.next r flow expired) r [false, false, false] =
      some (r.afterSlices (flow.grainInfo r.index).validSlices
        (flow.grainInfo r.index).totalSlices) := by
  have hhead : r.index ≤ flow.headIndex := hrange.2
  have hmin : minIndex flow.headIndex flow.grainCount ≤ r.index := hrange.1
  cases hfirst : r.totalFirst with
  | true => simp [DiscreteReader.next, DiscreteReader.afterSlices, hpc, hhead, hmin, hfirst]
  | false => simp [DiscreteReader.next, DiscreteReader.afterSlices, hpc, hhead, hmin, hfirst]

/-- From there on it takes one load for the record, or the flags and then the record. -/
theorem afterSlices_alone {r : DiscreteReader} {flow : DiscreteFlowData}
    (hblocking : r.blocking = false) (hrange : flow.inRange r.index) :
    ∃ n r', run (fun r expired => DiscreteReader.next r flow expired)
        (r.afterSlices (flow.grainInfo r.index).validSlices (flow.grainInfo r.index).totalSlices)
        (List.replicate n false) = some r' ∧
      Returned (flow.getGrainImpl r.index r.minValidSlices) r'.pc := by
  let returned : ReaderPc := .returnedOk (flow.grainInfo r.index)
    (flow.grainInfo r.index).validSlices (flow.grainInfo r.index).totalSlices
  by_cases hvalid : min r.minValidSlices (flow.grainInfo r.index).totalSlices ≤
      (flow.grainInfo r.index).validSlices
  · have hslices : hasSlices (flow.grainInfo r.index) r.minValidSlices = true := by
      simp [hasSlices, hvalid]
    rw [DiscreteFlowData.getGrainImpl_eq_ok.mpr ⟨hrange, hslices, rfl⟩]
    refine ⟨1, { r with pc := returned }, ?_, _, _, rfl⟩
    simp only [DiscreteReader.afterSlices, ge_iff_le, if_pos hvalid]
    rfl
  · by_cases hinvalid : (flow.grainInfo r.index).isInvalid = true
    · have hslices : hasSlices (flow.grainInfo r.index) r.minValidSlices = true := by
        simp [hasSlices, hinvalid]
      rw [DiscreteFlowData.getGrainImpl_eq_ok.mpr ⟨hrange, hslices, rfl⟩]
      refine ⟨2, { r with pc := returned }, ?_, _, _, rfl⟩
      simp only [DiscreteReader.afterSlices, ge_iff_le, if_neg hvalid, List.replicate, run_cons,
        DiscreteReader.next, if_pos hinvalid]
      rfl
    · have hslices : hasSlices (flow.grainInfo r.index) r.minValidSlices = false := by
        simp [hasSlices, hinvalid, hvalid]
      rw [DiscreteFlowData.getGrainImpl_eq_tooEarly.mpr (Or.inr ⟨hrange, hslices⟩)]
      refine ⟨1, { r with pc := .returnedError .errOutOfRangeTooEarly }, ?_, rfl⟩
      simp [DiscreteReader.next, DiscreteReader.afterSlices, DiscreteReader.tooEarly, hvalid,
        hinvalid, hblocking]

/-- The loads of a call without a deadline, with nothing in between, are
    `getGrainImpl`. -/
theorem getGrainImpl_alone (r : DiscreteReader) (flow : DiscreteFlowData)
    (hpc : r.pc = .loadHead) (hblocking : r.blocking = false) :
    ∃ n r', run (fun r expired => DiscreteReader.next r flow expired) r (List.replicate n false) =
        some r' ∧ Returned (flow.getGrainImpl r.index r.minValidSlices) r'.pc := by
  by_cases hrange : flow.inRange r.index
  · obtain ⟨n, r', hrun, hreturned⟩ := afterSlices_alone hblocking hrange
    refine ⟨3 + n, r', ?_, hreturned⟩
    rw [List.replicate_add, run_append,
      show List.replicate 3 false = [false, false, false] from rfl, slices_alone hpc hrange]
    exact hrun
  · by_cases hhead : r.index ≤ flow.headIndex
    · have hmin : ¬ minIndex flow.headIndex flow.grainCount ≤ r.index := fun h => hrange ⟨h, hhead⟩
      refine ⟨1, { r with pc := .returnedError .errOutOfRangeTooLate }, ?_, ?_⟩
      · simp [DiscreteReader.next, hpc, hhead, hmin]
      · simp [DiscreteFlowData.getGrainImpl, Returned, hhead, hmin]
    · refine ⟨1, { r with pc := .returnedError .errOutOfRangeTooEarly }, ?_, ?_⟩
      · simp [DiscreteReader.next, DiscreteReader.tooEarly, hpc, hhead, hblocking]
      · simp [DiscreteFlowData.getGrainImpl, Returned, hhead]

end MediaExchange.DiscreteInterleaving
