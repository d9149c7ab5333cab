/-
  MediaExchange/ContinuousFlow.lean
  =================================
  **The continuous flow: its shared memory, its writer and its reader**
  (`Flow.hpp`, `ContinuousFlowData.hpp`, `PosixContinuousFlowWriter.cpp`,
  `PosixContinuousFlowReader.cpp`).

  A continuous flow has one ring of `bufferLength` samples per channel, all of
  them in one block of bytes.  A range of samples is named by its last index and
  its length and is handed out as two fragments per channel: byte offsets and
  sizes in the ring of channel 0, and the stride from one channel to the next.
  Pointers are offsets from `channelData()`.

  `openSamples` and `getSamplesImpl` compute their fragments with the same
  expressions; they share `payloadBufferSlices`.
-/
import MediaExchange.Status

namespace MediaExchange

/-! ### Shared memory -/

/-- The memory of a continuous flow as it is shared by writers and readers.  The
    block of samples is mapped in one piece, so that its size in bytes is an
    address range. -/
structure ContinuousFlowData where
  channelCount : UInt32
  bufferLength : UInt32
  sampleWordSize : UInt64
  maxCommitBatchSizeHint : UInt32
  maxSyncBatchSizeHint : UInt32
  headIndex : UInt64
  syncCounter : UInt32
  channelData : Nat → UInt8
  channelCount_pos : 0 < channelCount.toNat
  bufferLength_pos : 0 < bufferLength.toNat
  sampleWordSize_pos : 0 < sampleWordSize.toNat
  mapped : channelCount.toNat * (sampleWordSize.toNat * bufferLength.toNat) < 2 ^ 63

/-- `mxlBufferSlice`, the pointer being an offset. -/
structure BufferSlice where
  pointer : UInt64
  size : UInt64
deriving DecidableEq, Repr

/-- `mxlWrappedMultiBufferSlice` and its mutable twin. -/
structure WrappedMultiBufferSlice where
  fragment0 : BufferSlice
  fragment1 : BufferSlice
  stride : UInt64
  count : UInt64
deriving DecidableEq, Repr

namespace ContinuousFlowData

/-- `channelBufferLength()`, which writers and readers cache as `_bufferLength`. -/
def channelBufferLength (flow : ContinuousFlowData) : UInt64 := flow.bufferLength.toUInt64

@[simp] theorem toNat_channelBufferLength (flow : ContinuousFlowData) :
    flow.channelBufferLength.toNat = flow.bufferLength.toNat := by
  simp [channelBufferLength]

/-- One channel's ring, in bytes, is less than half of the address space. -/
theorem channel_mapped (flow : ContinuousFlowData) :
    flow.sampleWordSize.toNat * flow.bufferLength.toNat < 2 ^ 63 := by
  have hmapped := flow.mapped
  have hle := Nat.le_mul_of_pos_left (flow.sampleWordSize.toNat * flow.bufferLength.toNat)
    flow.channelCount_pos
  omega

end ContinuousFlowData

/-! ### Fragments -/

/-- `(index + _bufferLength - count) % _bufferLength`. -/
def startOffset (bufferLength index count : UInt64) : UInt64 :=
  (index + bufferLength - count) % bufferLength

/-- `(startOffset < endOffset) ? count : _bufferLength - startOffset`. -/
def firstLength (bufferLength index count : UInt64) : UInt64 :=
  if startOffset bufferLength index count < index % bufferLength then count
  else bufferLength - startOffset bufferLength index count

def secondLength (bufferLength index count : UInt64) : UInt64 :=
  count - firstLength bufferLength index count

/-- The two fragments of the range of `count` samples that ends at `index`. -/
def payloadBufferSlices (flow : ContinuousFlowData) (index count : UInt64) :
    WrappedMultiBufferSlice :=
  let bufferLength := flow.channelBufferLength
  { fragment0 :=
      { pointer := flow.sampleWordSize * startOffset bufferLength index count
        size := flow.sampleWordSize * firstLength bufferLength index count }
    fragment1 :=
      { pointer := 0
        size := flow.sampleWordSize * secondLength bufferLength index count }
    stride := flow.sampleWordSize * bufferLength
    count := flow.channelCount.toUInt64 }

/-! ### The writer -/

/-- The state of a `PosixContinuousFlowWriter` besides the flow it is bound to and
    the copies it keeps of the flow's channel count and buffer length. -/
structure PosixContinuousFlowWriter where
  currentIndex : UInt64
  syncBatchSize : UInt32
  earlySyncThreshold : UInt32
  lastSyncSampleBatch : UInt64
deriving DecidableEq, Repr

namespace PosixContinuousFlowWriter

/-- `std::max(maxCommitBatchSizeHint, 1U)`. -/
def commitBatchSize (flow : ContinuousFlowData) : UInt32 :=
  max flow.maxCommitBatchSizeHint 1

def init (flow : ContinuousFlowData) : PosixContinuousFlowWriter :=
  let syncBatchSize := max flow.maxSyncBatchSizeHint 1
  { currentIndex := MXL_UNDEFINED_INDEX
    syncBatchSize := syncBatchSize
    earlySyncThreshold :=
      if syncBatchSize ≥ commitBatchSize flow then syncBatchSize - commitBatchSize flow else 0
    lastSyncSampleBatch := 0 }

/-- `openSamples`: the status, the fragments handed out and the writer. -/
def openSamples (writer : PosixContinuousFlowWriter) (flow : ContinuousFlowData)
    (index count : UInt64) :
    MxlStatus × Option WrappedMultiBufferSlice × PosixContinuousFlowWriter :=
  if count ≤ flow.channelBufferLength / 2 then
    (.statusOk, some (payloadBufferSlices flow index count), { writer with currentIndex := index })
  else
    (.errInvalidArg, none, writer)

def signalCompletedBatch (writer : PosixContinuousFlowWriter) : Bool × PosixContinuousFlowWriter :=
  let currentSyncSampleBatch := writer.currentIndex / writer.syncBatchSize.toUInt64
  if currentSyncSampleBatch < writer.lastSyncSampleBatch then
    (false, writer)
  else if currentSyncSampleBatch = writer.lastSyncSampleBatch then
    -- signal now before overshooting the maximum the next time around
    if writer.currentIndex % writer.syncBatchSize.toUInt64 > writer.earlySyncThreshold.toUInt64 then
      (true, { writer with lastSyncSampleBatch := currentSyncSampleBatch + 1 })
    else
      (false, writer)
  else
    (true, { writer with lastSyncSampleBatch := currentSyncSampleBatch })

/-- `commit`.  The batch to be signalled is worked out after the current index has
    been reset. -/
def commit (writer : PosixContinuousFlowWriter) (flow : ContinuousFlowData) :
    MxlStatus × PosixContinuousFlowWriter × ContinuousFlowData :=
  let flow := { flow with headIndex := writer.currentIndex }
  let writer := { writer with currentIndex := MXL_UNDEFINED_INDEX }
  match writer.signalCompletedBatch with
  | (true, writer) => (.statusOk, writer, { flow with syncCounter := flow.syncCounter + 1 })
  | (false, writer) => (.statusOk, writer, flow)

def cancel (writer : PosixContinuousFlowWriter) : MxlStatus × PosixContinuousFlowWriter :=
  (.statusOk, { writer with currentIndex := MXL_UNDEFINED_INDEX })

theorem openSamples_ok {writer writer' : PosixContinuousFlowWriter} {flow : ContinuousFlowData}
    {index count : UInt64} {slices : Option WrappedMultiBufferSlice}
    (h : writer.openSamples flow index count = (.statusOk, slices, writer')) :
    count.toNat ≤ flow.bufferLength.toNat / 2 ∧
      slices = some (payloadBufferSlices flow index count) ∧
      writer' = { writer with currentIndex := index } := by
  unfold openSamples at h
  split at h
  · next hcount =>
    rw [UInt64.le_iff_toNat_le, UInt64.toNat_div, ContinuousFlowData.toNat_channelBufferLength]
      at hcount
    injection h with _ h
    injection h with hslices hwriter
    exact ⟨hcount, hslices.symm, hwriter.symm⟩
  · cases h

theorem openSamples_of_le (writer : PosixContinuousFlowWriter) {flow : ContinuousFlowData}
    {index count : UInt64} (h : count.toNat ≤ flow.bufferLength.toNat / 2) :
    writer.openSamples flow index count =
      (.statusOk, some (payloadBufferSlices flow index count),
        { writer with currentIndex := index }) := by
  apply if_pos
  rw [UInt64.le_iff_toNat_le, UInt64.toNat_div, ContinuousFlowData.toNat_channelBufferLength]
  exact h

/-- Every commit succeeds and moves the head to the current index, whatever that
    is; the samples, the geometry and the hints stay. -/
theorem commit_spec (writer : PosixContinuousFlowWriter) (flow : ContinuousFlowData) :
    ∃ (signal : Bool) (writer' : PosixContinuousFlowWriter),
      ({ writer with currentIndex := MXL_UNDEFINED_INDEX } :
        PosixContinuousFlowWriter).signalCompletedBatch = (signal, writer') ∧
      writer.commit flow = (.statusOk, writer',
        { flow with headIndex := writer.currentIndex
                    syncCounter := if signal then flow.syncCounter + 1 else flow.syncCounter }) := by
  unfold commit
  dsimp only
  rcases hsignal : ({ writer with currentIndex := MXL_UNDEFINED_INDEX } :
    PosixContinuousFlowWriter).signalCompletedBatch with ⟨signal, writer'⟩
  refine ⟨signal, writer', rfl, ?_⟩
  cases signal with
  | false => rfl
  | true => rfl

end PosixContinuousFlowWriter

/-! ### The reader -/

namespace ContinuousFlowData

/-- The index after which the readable samples start. -/
def minSampleIndex (flow : ContinuousFlowData) : UInt64 :=
  if flow.headIndex ≥ flow.channelBufferLength / 2 then
    flow.headIndex - flow.channelBufferLength / 2
  else 0

/-- `PosixContinuousFlowReader::getSamplesImpl` without a deadline. -/
def getSamplesImpl (flow : ContinuousFlowData) (index count : UInt64) :
    Except MxlStatus WrappedMultiBufferSlice :=
  if index ≤ flow.headIndex then
    if index ≥ flow.minSampleIndex ∧ index - flow.minSampleIndex ≥ count then
      .ok (payloadBufferSlices flow index count)
    else
      .error .errOutOfRangeTooLate
  else
    .error .errOutOfRangeTooEarly

/-- `PosixContinuousFlowReader::getSamples` without a deadline; `flowValid` is what
    `isFlowValidImpl` finds in the file system. -/
def getSamples (flow : ContinuousFlowData) (flowValid : Bool) (index count : UInt64) :
    Except MxlStatus WrappedMultiBufferSlice :=
  match flow.getSamplesImpl index count with
  | .error .errOutOfRangeTooEarly =>
      .error (if flowValid then .errOutOfRangeTooEarly else .errFlowInvalid)
  | result => result

theorem getSamples_eq_ok {flow : ContinuousFlowData} {flowValid : Bool} {index count : UInt64}
    {slices : WrappedMultiBufferSlice} :
    flow.getSamples flowValid index count = .ok slices ↔
      flow.getSamplesImpl index count = .ok slices := by
  unfold getSamples
  split
  · next h => simp [h]
  · rfl

theorem getSamplesImpl_ne_error_ok {flow : ContinuousFlowData} {index count : UInt64} :
    flow.getSamplesImpl index count ≠ .error .statusOk := by
  unfold getSamplesImpl
  split_ifs <;> simp

theorem toNat_minSampleIndex (flow : ContinuousFlowData) :
    flow.minSampleIndex.toNat = flow.headIndex.toNat - flow.bufferLength.toNat / 2 := by
  have hhalf : (flow.channelBufferLength / 2).toNat = flow.bufferLength.toNat / 2 := by
    rw [UInt64.toNat_div, toNat_channelBufferLength]
    rfl
  unfold minSampleIndex
  by_cases h : flow.channelBufferLength / 2 ≤ flow.headIndex
  · rw [if_pos h, UInt64.toNat_sub_of_le _ _ h, hhalf]
  · rw [if_neg h]
    rw [UInt64.le_iff_toNat_le, hhalf] at h
    exact (Nat.sub_eq_zero_of_le (by omega)).symm

/-- What the reader answers: the range must lie in the half buffer behind the head. -/
theorem getSamplesImpl_eq_ok {flow : ContinuousFlowData} {index count : UInt64}
    {slices : WrappedMultiBufferSlice} :
    flow.getSamplesImpl index count = .ok slices ↔
      index.toNat ≤ flow.headIndex.toNat ∧ count.toNat ≤ index.toNat ∧
        flow.headIndex.toNat + count.toNat ≤ index.toNat + flow.bufferLength.toNat / 2 ∧
        slices = payloadBufferSlices flow index count := by
  have hmin := flow.toNat_minSampleIndex
  have hle := Nat.sub_le flow.headIndex.toNat (flow.bufferLength.toNat / 2)
  unfold getSamplesImpl
  constructor
  · intro h
    split at h
    · next hhead =>
      rw [UInt64.le_iff_toNat_le] at hhead
      split at h
      · next hrange =>
        obtain ⟨hge, hcount⟩ := hrange
        have hsub := UInt64.toNat_sub_of_le _ _ hge
        rw [ge_iff_le, UInt64.le_iff_toNat_le] at hge hcount
        rw [hsub] at hcount
        exact ⟨hhead, by omega, by omega, (Except.ok.inj h).symm⟩
      · cases h
    · cases h
  · rintro ⟨hhead, hcount, hhalf, rfl⟩
    have hge : flow.minSampleIndex ≤ index := by
      rw [UInt64.le_iff_toNat_le]
      omega
    have hsub := UInt64.toNat_sub_of_le _ _ hge
    have hlen : count ≤ index - flow.minSampleIndex := by
      rw [UInt64.le_iff_toNat_le, hsub]
      omega
    rw [if_pos (UInt64.le_iff_toNat_le.mpr hhead), if_pos ⟨hge, hlen⟩]

end ContinuousFlowData

end MediaExchange
