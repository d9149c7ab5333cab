/-
  MediaExchange/DiscreteFlow.lean
  ===============================
  **The discrete flow: its shared memory, its writer and its reader**
  (`Flow.hpp`, `DiscreteFlowData.hpp`, `PosixDiscreteFlowWriter.cpp`,
  `PosixDiscreteFlowReader.cpp`).

  A discrete flow is a ring of `grainCount` grains.  Grain `i` lives in slot
  `i % grainCount`; the slot's header carries a copy of the index it was last
  used for.  Readers decide from `headIndex` and the ring length alone whether
  an index is in range, and from the slot's header whether enough of the grain
  is there.

  The writer's `commit` is written as the sequence of the stores it performs
  (`storeHeadIndex`, `storeGrainInfo`, `storeLastWriteTime`, `addSyncCounter`),
  so that the same stores can later be interleaved with a reader's loads.
-/
import MediaExchange.Status
import MediaExchange.Library.RingWindow
import Mathlib.Logic.Function.Basic

namespace MediaExchange

/-! ### Shared memory -/

/-- `mxlGrainInfo`, without the reserved bytes, which nothing reads. -/
structure GrainInfo where
  version : UInt32
  size : UInt32
  index : UInt64
  flags : UInt32
  grainSize : UInt32
  totalSlices : UInt16
  validSlices : UInt16
deriving DecidableEq, Repr

def GrainInfo.isInvalid (info : GrainInfo) : Bool :=
  (info.flags &&& MXL_GRAIN_FLAG_INVALID) != 0

/-- What a discrete flow is created with.  A ring without a grain cannot be
    indexed. -/
structure DiscreteGeometry where
  grainCount : UInt32
  grainSize : UInt32
  totalSlices : UInt16
  grainCount_pos : 0 < grainCount.toNat

/-- The memory of a discrete flow as it is shared by writers and readers: the
    fields of `Flow` that change or that are read while the flow is in use, and
    the header of every grain. -/
structure DiscreteFlowData where
  grainCount : UInt32
  headIndex : UInt64
  lastWriteTime : UInt64
  syncCounter : UInt32
  grains : Nat → GrainInfo
  grainCount_pos : 0 < grainCount.toNat

namespace DiscreteFlowData

/-- The ring slot of an index, `index % grainCount`. -/
def offset (flow : DiscreteFlowData) (index : UInt64) : Nat :=
  (index % flow.grainCount.toUInt64).toNat

def grainInfo (flow : DiscreteFlowData) (index : UInt64) : GrainInfo :=
  flow.grains (flow.offset index)

theorem offset_eq (flow : DiscreteFlowData) (index : UInt64) :
    flow.offset index = index.toNat % flow.grainCount.toNat := by
  simp [offset]

/-! ### The writer's stores -/

/-- `grain->header.info.index = in_index`. -/
def storeGrainIndex (flow : DiscreteFlowData) (index : UInt64) : DiscreteFlowData :=
  { flow with
    grains := Function.update flow.grains (flow.offset index)
      { flow.grainInfo index with index := index } }

/-- `flow->info.runtime.headIndex = _currentIndex`. -/
def storeHeadIndex (flow : DiscreteFlowData) (index : UInt64) : DiscreteFlowData :=
  { flow with headIndex := index }

/-- `*_flowData->grainInfoAt(_currentIndex % grainCount) = mxlGrainInfo`. -/
def storeGrainInfo (flow : DiscreteFlowData) (index : UInt64) (info : GrainInfo) :
    DiscreteFlowData :=
  { flow with grains := Function.update flow.grains (flow.offset index) info }

/-- `flow->info.runtime.lastWriteTime = currentTime(Clock::TAI).value`. -/
def storeLastWriteTime (flow : DiscreteFlowData) (now : UInt64) : DiscreteFlowData :=
  { flow with lastWriteTime := now }

/-- `flow->state.syncCounter++`. -/
def addSyncCounter (flow : DiscreteFlowData) : DiscreteFlowData :=
  { flow with syncCounter := flow.syncCounter + 1 }

/-- The four stores of a commit of `info`, in the order in which they are made. -/
def afterCommit (flow : DiscreteFlowData) (index : UInt64) (info : GrainInfo) (now : UInt64) :
    DiscreteFlowData :=
  (((flow.storeHeadIndex index).storeGrainInfo index info).storeLastWriteTime now).addSyncCounter

section Stores

variable (flow : DiscreteFlowData) (index i now : UInt64) (info : GrainInfo)

theorem offset_congr {flow flow' : DiscreteFlowData} (h : flow.grainCount = flow'.grainCount)
    (index : UInt64) : flow.offset index = flow'.offset index := by
  rw [offset, offset, h]

@[simp] theorem offset_storeGrainIndex :
    (flow.storeGrainIndex index).offset i = flow.offset i := rfl
@[simp] theorem offset_storeGrainInfo :
    (flow.storeGrainInfo index info).offset i = flow.offset i := rfl
/-- Storing an index relabels the slot and keeps the rest of its header. -/
theorem grainInfo_storeGrainIndex :
    (flow.storeGrainIndex index).grainInfo i =
      if flow.offset i = flow.offset index then { flow.grainInfo i with index := index }
      else flow.grainInfo i := by
  unfold grainInfo
  rw [offset_storeGrainIndex]
  by_cases h : flow.offset i = flow.offset index
  · rw [if_pos h, h]
    exact Function.update_self ..
  · rw [if_neg h]
    exact Function.update_of_ne h ..

theorem grainInfo_storeGrainIndex_fields :
    ∃ j, (flow.storeGrainIndex index).grainInfo i = { flow.grainInfo i with index := j } := by
  rw [grainInfo_storeGrainIndex]
  split
  · exact ⟨index, rfl⟩
  · exact ⟨(flow.grainInfo i).index, rfl⟩

theorem grainInfo_storeGrainInfo :
    (flow.storeGrainInfo index info).grainInfo i =
      if flow.offset i = flow.offset index then info else flow.grainInfo i := by
  unfold grainInfo
  rw [offset_storeGrainInfo]
  by_cases h : flow.offset i = flow.offset index
  · rw [if_pos h, h]
    exact Function.update_self ..
  · rw [if_neg h]
    exact Function.update_of_ne h ..

theorem grainInfo_afterCommit :
    (flow.afterCommit index info now).grainInfo i =
      if flow.offset i = flow.offset index then info else flow.grainInfo i := by
  change (flow.storeGrainInfo index info).grainInfo i = _
  exact grainInfo_storeGrainInfo flow index i info

end Stores

/-- The flow as `createOrOpenDiscreteFlow` leaves it: zeroed memory in which the
    creation loop has filled in every grain header. -/
def create (geometry : DiscreteGeometry) (now : UInt64) : DiscreteFlowData where
  grainCount := geometry.grainCount
  headIndex := 0
  lastWriteTime := now
  syncCounter := 0
  grains _ :=
    { version := 1, size := 4096, index := 0, flags := 0, grainSize := geometry.grainSize,
      totalSlices := geometry.totalSlices, validSlices := 0 }
  grainCount_pos := geometry.grainCount_pos

end DiscreteFlowData

/-! ### The writer -/

/-- The state of a `PosixDiscreteFlowWriter` besides the flow it is bound to. -/
structure PosixDiscreteFlowWriter where
  currentIndex : UInt64
deriving DecidableEq, Repr

namespace PosixDiscreteFlowWriter

def init : PosixDiscreteFlowWriter := { currentIndex := MXL_UNDEFINED_INDEX }

/-- `openGrain`: the status, the record handed to the caller, the writer and the
    flow afterwards. -/
def openGrain (_writer : PosixDiscreteFlowWriter) (flow : DiscreteFlowData) (index : UInt64) :
    MxlStatus × GrainInfo × PosixDiscreteFlowWriter × DiscreteFlowData :=
  let opened := flow.storeGrainIndex index
  (.statusOk, opened.grainInfo index, { currentIndex := index }, opened)

def cancel (_writer : PosixDiscreteFlowWriter) : MxlStatus × PosixDiscreteFlowWriter :=
  (.statusOk, { currentIndex := MXL_UNDEFINED_INDEX })

/-- The writer after a commit of `info` was accepted: a complete grain is closed. -/
def afterCommit (writer : PosixDiscreteFlowWriter) (info : GrainInfo) : PosixDiscreteFlowWriter :=
  if info.validSlices = info.totalSlices then { currentIndex := MXL_UNDEFINED_INDEX } else writer

/-- `commit`, the current time being `now`. -/
def commit (writer : PosixDiscreteFlowWriter) (flow : DiscreteFlowData) (info : GrainInfo)
    (now : UInt64) : MxlStatus × PosixDiscreteFlowWriter × DiscreteFlowData :=
  if info.index ≠ writer.currentIndex then
    (.errInvalidArg, writer, flow)
  else
    (.statusOk, writer.afterCommit info, flow.afterCommit writer.currentIndex info now)

variable {writer : PosixDiscreteFlowWriter} {flow : DiscreteFlowData} {info : GrainInfo}
  {now : UInt64}

/-- A record of another grain is turned down and nothing is stored. -/
theorem commit_rejected (h : info.index ≠ writer.currentIndex) :
    writer.commit flow info now = (.errInvalidArg, writer, flow) := by
  rw [commit, if_pos h]

/-- A record of the open grain is taken whatever the state of the flow. -/
theorem commit_accepted (h : info.index = writer.currentIndex) :
    writer.commit flow info now =
      (.statusOk, writer.afterCommit info, flow.afterCommit info.index info now) := by
  rw [commit, if_neg (not_not_intro h), h]

end PosixDiscreteFlowWriter

/-! ### The reader -/

/-- The oldest index the reader still accepts for a given head. -/
def minIndex (headIndex : UInt64) (grainCount : UInt32) : UInt64 :=
  if headIndex ≥ grainCount.toUInt64 then headIndex - grainCount.toUInt64 + 1 else 0

/-- The reader's test on a slot header: enough valid slices, or an invalid grain. -/
def hasSlices (info : GrainInfo) (minValidSlices : UInt16) : Bool :=
  decide (min minValidSlices info.totalSlices ≤ info.validSlices) || info.isInvalid

namespace DiscreteFlowData

def inRange (flow : DiscreteFlowData) (index : UInt64) : Prop :=
  minIndex flow.headIndex flow.grainCount ≤ index ∧ index ≤ flow.headIndex

instance (flow : DiscreteFlowData) (index : UInt64) : Decidable (flow.inRange index) :=
  inferInstanceAs (Decidable (_ ∧ _))

/-- `PosixDiscreteFlowReader::getGrainImpl` without a deadline: the record it
    copies out on `MXL_STATUS_OK`, the error status otherwise. -/
def getGrainImpl (flow : DiscreteFlowData) (index : UInt64) (minValidSlices : UInt16) :
    Except MxlStatus GrainInfo :=
  if index ≤ flow.headIndex then
    if index ≥ minIndex flow.headIndex flow.grainCount then
      if hasSlices (flow.grainInfo index) minValidSlices then
        .ok (flow.grainInfo index)
      else
        .error .errOutOfRangeTooEarly
    else
      .error .errOutOfRangeTooLate
  else
    .error .errOutOfRangeTooEarly

/-- `PosixDiscreteFlowReader::getGrain` without a deadline; `flowValid` is what
    `isFlowValidImpl` finds in the file system. -/
def getGrain (flow : DiscreteFlowData) (flowValid : Bool) (index : UInt64)
    (minValidSlices : UInt16) : Except MxlStatus GrainInfo :=
  match flow.getGrainImpl index minValidSlices with
  | .error .errOutOfRangeTooEarly =>
      .error (if flowValid then .errOutOfRangeTooEarly else .errFlowInvalid)
  | result => result

section Reader

variable {flow : DiscreteFlowData} {index : UInt64} {minValidSlices : UInt16} {info : GrainInfo}

theorem getGrainImpl_eq_ok :
    flow.getGrainImpl index minValidSlices = .ok info ↔
      flow.inRange index ∧ hasSlices (flow.grainInfo index) minValidSlices ∧
        info = flow.grainInfo index := by
  unfold getGrainImpl inRange
  constructor
  · intro h
    split at h
    · next hhead =>
      split at h
      · next hmin =>
        split at h
        · next hslices => exact ⟨⟨hmin, hhead⟩, hslices, (Except.ok.inj h).symm⟩
        · cases h
      · cases h
    · cases h
  · rintro ⟨⟨hmin, hhead⟩, hslices, rfl⟩
    rw [if_pos hhead, if_pos hmin, if_pos hslices]

theorem getGrainImpl_ne_error_ok :
    flow.getGrainImpl index minValidSlices ≠ .error .statusOk := by
  unfold getGrainImpl
  split_ifs <;> simp

/-- The validity check only ever replaces one error by another. -/
theorem getGrain_eq_ok {flowValid : Bool} :
    flow.getGrain flowValid index minValidSlices = .ok info ↔
      flow.getGrainImpl index minValidSlices = .ok info := by
  unfold getGrain
  split
  · next h => simp [h]
  · rfl

/-- When the reader is too early: beyond the head, or short of slices. -/
theorem getGrainImpl_eq_tooEarly :
    flow.getGrainImpl index minValidSlices = .error .errOutOfRangeTooEarly ↔
      flow.headIndex < index ∨
        (flow.inRange index ∧ hasSlices (flow.grainInfo index) minValidSlices = false) := by
  unfold getGrainImpl inRange
  constructor
  · intro h
    split at h
    · next hhead =>
      split at h
      · next hmin =>
        split at h
        · cases h
        · next hslices => exact Or.inr ⟨⟨hmin, hhead⟩, by simpa using hslices⟩
      · cases h
    · next hhead => exact Or.inl (UInt64.not_le.mp hhead)
  · rintro (hhead | ⟨⟨hmin, hhead⟩, hslices⟩)
    · rw [if_neg (UInt64.not_le.mpr hhead)]
    · rw [if_pos hhead, if_pos hmin, if_neg (by simp [hslices])]

/-- No minimum is ever missed: `MXL_GRAIN_VALID_SLICES_ANY` takes what is there. -/
@[simp] theorem hasSlices_zero (info : GrainInfo) : hasSlices info 0 = true := by
  simp [hasSlices, UInt16.le_iff_toNat_le, UInt16.toNat_min]

theorem getGrainImpl_zero_of_inRange (h : flow.inRange index) :
    flow.getGrainImpl index 0 = .ok (flow.grainInfo index) :=
  getGrainImpl_eq_ok.mpr ⟨h, hasSlices_zero _, rfl⟩

end Reader

end DiscreteFlowData

/-! ### The reader's window -/

/-- The window ends at the head and holds at most a ring's worth of indices. -/
theorem toNat_minIndex (headIndex : UInt64) {grainCount : UInt32} (hpos : 0 < grainCount.toNat) :
    (minIndex headIndex grainCount).toNat = headIndex.toNat + 1 - grainCount.toNat := by
  unfold minIndex
  have hhead := headIndex.toNat_lt
  by_cases h : grainCount.toUInt64 ≤ headIndex
  · have hle : grainCount.toNat ≤ headIndex.toNat := by
      simpa [UInt64.le_iff_toNat_le] using h
    rw [if_pos h, UInt64.toNat_add, UInt64.toNat_sub_of_le _ _ h]
    simp only [UInt32.toNat_toUInt64, UInt64.reduceToNat]
    omega
  · have hlt : headIndex.toNat < grainCount.toNat := by
      simpa [UInt64.le_iff_toNat_le] using h
    rw [if_neg h]
    simp only [UInt64.reduceToNat]
    omega

theorem inRange_iff {flow : DiscreteFlowData} {index : UInt64} :
    flow.inRange index ↔
      index.toNat ≤ flow.headIndex.toNat ∧
        flow.headIndex.toNat < index.toNat + flow.grainCount.toNat := by
  have hpos := flow.grainCount_pos
  unfold DiscreteFlowData.inRange
  rw [UInt64.le_iff_toNat_le, UInt64.le_iff_toNat_le, toNat_minIndex _ hpos]
  omega

end MediaExchange
