/-
  MediaExchange/AudioSource.lean
  ==============================
  **The audio source** (`mxlsrc/create_audio.rs`, `mxlsrc/mxl_helper.rs`).

  The source reads batches of a continuous flow one after the other.  Before a read
  it waits a while for the producer, and if its index is too far behind the head it
  jumps to two batches behind it and starts its time stamps again from the
  pipeline's running time.

  How far behind is too far is computed twice, here from the whole ring and in the
  reader from half of it.  `agrees_iff` says where the two come to the same.
-/
import MediaExchange.ContinuousFlow
import MediaExchange.IndexTimestamps
import MediaExchange.InterleavedAudio

namespace MediaExchange.AudioSource

open MediaExchange.AudioSink (FlowError)
open MediaExchange.InterleavedAudio (Planes interleaveAudio)

/-! ### Integers -/

def saturatingSub (a b : UInt64) : UInt64 := if b ≤ a then a - b else 0

def saturatingAdd (a b : UInt64) : UInt64 := UInt64.ofNat (min (a.toNat + b.toNat) (2 ^ 64 - 1))

def saturatingMul (a b : UInt64) : UInt64 := UInt64.ofNat (min (a.toNat * b.toNat) (2 ^ 64 - 1))

/-- `as u128` of a signed number. -/
def asU128 (x : Int64) : Nat := (x.toInt % 2 ^ 128).toNat

theorem toNat_saturatingSub (a b : UInt64) : (saturatingSub a b).toNat = a.toNat - b.toNat := by
  rw [saturatingSub]
  split
  · next h => exact UInt64.toNat_sub_of_le _ _ h
  · next h =>
    rw [UInt64.le_iff_toNat_le] at h
    exact (Nat.sub_eq_zero_of_le (Nat.le_of_not_le h)).symm

theorem toNat_saturatingMul (a b : UInt64) :
    (saturatingMul a b).toNat = min (a.toNat * b.toNat) (2 ^ 64 - 1) := by
  rw [saturatingMul, UInt64.toNat_ofNat']
  exact Nat.mod_eq_of_lt (lt_of_le_of_lt (Nat.min_le_right _ _) (by decide))

/-! ### The source -/

structure InitialTime where
  mxlIndex : UInt64
  /-- A running time of the pipeline, in nanoseconds. -/
  gstTime : UInt64
deriving DecidableEq, Repr

/-- What changes of `AudioState`. -/
structure AudioState where
  batchCounter : UInt64
  isInitialized : Bool
  index : UInt64
  nextDiscont : Bool
deriving DecidableEq, Repr

structure State where
  initialInfo : InitialTime
  audio : AudioState
deriving DecidableEq, Repr

/-- The state that `init` builds. -/
def State.init : State where
  initialInfo := { mxlIndex := 0, gstTime := 0 }
  audio := { batchCounter := 0, isInitialized := false, index := 0, nextDiscont := false }

/-- What is used of the configuration of the flow. -/
structure FlowConfig where
  bufferLength : UInt32
  maxCommitBatchSizeHint : UInt32
  sampleRate : MxlRational

def DEFAULT_BATCH_SIZE : UInt32 := 48

namespace FlowConfig

def batch (config : FlowConfig) : UInt64 :=
  (min (min DEFAULT_BATCH_SIZE (config.bufferLength / 2)) config.maxCommitBatchSizeHint).toUInt64

def ring (config : FlowConfig) : UInt64 := config.bufferLength.toUInt64

end FlowConfig

def audioStateInit (state : State) (tsGst batch head mxlNow : UInt64) : State :=
  if state.audio.isInitialized then state
  else
    { initialInfo := { mxlIndex := mxlNow, gstTime := tsGst }
      audio :=
        { state.audio with
          index := saturatingSub head batch
          isInitialized := true
          batchCounter := 0 } }

def resyncState (state : State) (tsGst mxlNow : UInt64) : State :=
  { initialInfo := { mxlIndex := mxlNow, gstTime := tsGst }
    audio := { state.audio with batchCounter := 0, nextDiscont := true } }

/-- `wait_for_sample`.  Each poll is what `get_info` says of the head, until the timeout
    has elapsed; where the head has got to is not told. -/
def waitForSample (audio : AudioState) (batch head : UInt64) :
    List (Option UInt64) → Except FlowError Unit
  | [] => .ok ()
  | poll :: polls =>
      if audio.index + batch > head then
        match poll with
        | none => .error .error
        | some head => waitForSample audio batch head polls
      else .ok ()

def defineCushion (head batch : UInt64) : UInt64 := saturatingSub head (saturatingMul batch 2)

def catchUp (audio : AudioState) (head batch : UInt64) : AudioState :=
  { audio with index := defineCushion head batch }

def isReaderLate (head batch ring : UInt64) (audio : AudioState) : Bool × AudioState :=
  let oldestValid := saturatingSub head (saturatingSub ring batch)
  if audio.index < oldestValid then (true, catchUp audio head batch) else (false, audio)

/-- `compute_batch_duration`, on the MXL clock. -/
def computeBatchDuration (index batch : UInt64) (sampleRate : MxlRational) :
    Except FlowError UInt64 :=
  let nextHeadTimestamp := mxlIndexToTimestamp (some sampleRate) (index + batch)
  let readHeadTimestamp := mxlIndexToTimestamp (some sampleRate) index
  if nextHeadTimestamp = MXL_UNDEFINED_INDEX ∨ readHeadTimestamp = MXL_UNDEFINED_INDEX then
    .error .error
  else .ok (nextHeadTimestamp - readHeadTimestamp)

/-- The `batch_duration_ns` of `compute_pts`. -/
def batchDurationNs (batch : UInt64) (sampleRate : MxlRational) : Nat :=
  batch.toNat * 1000000000 * asU128 sampleRate.denominator % 2 ^ 128 / asU128 sampleRate.numerator

/-- `compute_pts`; a rate of zero is divided by. -/
def computePts (batch : UInt64) (sampleRate : MxlRational) (audio : AudioState) (tsGst : UInt64)
    (initialInfo : InitialTime) : Option (UInt64 × InitialTime) :=
  if asU128 sampleRate.numerator = 0 then none
  else
    let ptsNs := UInt64.ofNat (audio.batchCounter.toNat * batchDurationNs batch sampleRate % 2 ^ 128)
    let pts := initialInfo.gstTime + ptsNs
    if pts < tsGst then
      some (tsGst, { initialInfo with gstTime := initialInfo.gstTime + (tsGst - pts) })
    else some (pts, initialInfo)

structure Buffer where
  pts : UInt64
  discont : Bool
  data : List UInt8
deriving DecidableEq, Repr

/-- `build_buffer`, which panics if the samples do not fill it. -/
def buildBuffer (pts : UInt64) (samples : List Planes) (nextDiscont : Bool)
    (interleaved : List UInt8) : Option Buffer :=
  if interleaved.length = (samples.map fun planes => planes.plane1.length + planes.plane2.length).sum
  then some { pts := pts, discont := nextDiscont, data := interleaved }
  else none

inductive CreateState where
  | dataCreated (buffer : Buffer)
  | noDataCreated
deriving DecidableEq, Repr

/-- What a call of `create_audio` finds: the head of the flow, the running time, the MXL
    clock where it is read, the polls of the head, and what `get_samples` returns. -/
structure Call where
  head : Option UInt64
  tsGst : Option UInt64
  initNow : UInt64
  polls : List (Option UInt64)
  resyncNow : UInt64
  samples : Option (List Planes)

/-- The state before the read: initialized, and caught up if it was late. -/
def beforeRead (config : FlowConfig) (state : State) (head tsGst resyncNow : UInt64) : State :=
  let (late, audio) := isReaderLate head config.batch config.ring state.audio
  let state := { state with audio := audio }
  if late then resyncState state tsGst resyncNow else state

/-- From the read on. -/
def afterRead (config : FlowConfig) (state : State) (tsGst : UInt64) (samples : List Planes) :
    Option (Except FlowError CreateState × State) :=
  match interleaveAudio samples with
  | none => none
  | some interleaved =>
      match computeBatchDuration state.audio.index config.batch config.sampleRate with
      | .error e => some (.error e, state)
      | .ok readBatchDuration =>
          let initialInfo :=
            { state.initialInfo with
              mxlIndex := saturatingAdd state.initialInfo.mxlIndex readBatchDuration }
          match computePts config.batch config.sampleRate state.audio tsGst initialInfo with
          | none => none
          | some (pts, initialInfo) =>
              (buildBuffer pts samples state.audio.nextDiscont interleaved).map fun buffer =>
                (.ok (.dataCreated buffer),
                  { initialInfo := initialInfo
                    audio :=
                      { state.audio with
                        batchCounter := state.audio.batchCounter + 1
                        index := state.audio.index + config.batch
                        nextDiscont := false } })

/-- `create_audio`; there is no result where it panics. -/
def createAudio (config : FlowConfig) (state : State) (call : Call) :
    Option (Except FlowError CreateState × State) :=
  match call.head, call.tsGst with
  | some head, some tsGst =>
      let state := audioStateInit state tsGst config.batch head call.initNow
      match waitForSample state.audio config.batch head call.polls with
      | .error e => some (.error e, state)
      | .ok () =>
          let state := beforeRead config state head tsGst call.resyncNow
          match call.samples with
          | none => some (.ok .noDataCreated, state)
          | some samples => afterRead config state tsGst samples
  | _, _ => some (.error .error, state)

/-! ### The two notions of late -/

/-- A reader that is not late for the source is not too late for the flow, and one that
    is late can read once it has caught up. -/
structure Agrees (flow : ContinuousFlowData) (flowValid : Bool) (batch : UInt64)
    (audio : AudioState) : Prop where
  kept : (isReaderLate flow.headIndex batch flow.channelBufferLength audio).1 = false →
    audio.index ≤ flow.headIndex →
    flow.getSamples flowValid audio.index batch ≠ .error .errOutOfRangeTooLate
  caughtUp : (isReaderLate flow.headIndex batch flow.channelBufferLength audio).1 = true →
    ∃ slices, flow.getSamples flowValid
      (isReaderLate flow.headIndex batch flow.channelBufferLength audio).2.index batch = .ok slices

/-- The index is behind the head by more than the ring less a batch. -/
def BehindRing (flow : ContinuousFlowData) (batch index : UInt64) : Prop :=
  index.toNat < flow.headIndex.toNat - (flow.bufferLength.toNat - batch.toNat)

/-- The batch up to the index is in the half of the ring behind the head. -/
def InHalfRing (flow : ContinuousFlowData) (batch index : UInt64) : Prop :=
  batch.toNat ≤ index.toNat ∧
    flow.headIndex.toNat + batch.toNat ≤ index.toNat + flow.bufferLength.toNat / 2

section Lateness

variable {flow : ContinuousFlowData} {flowValid : Bool} {batch : UInt64} {audio : AudioState}

theorem isReaderLate_iff :
    (isReaderLate flow.headIndex batch flow.channelBufferLength audio).1 = true ↔
      BehindRing flow batch audio.index := by
  have holdest : (saturatingSub flow.headIndex
      (saturatingSub flow.channelBufferLength batch)).toNat =
        flow.headIndex.toNat - (flow.bufferLength.toNat - batch.toNat) := by
    rw [toNat_saturatingSub, toNat_saturatingSub, flow.toNat_channelBufferLength]
  rw [isReaderLate, BehindRing, ← holdest, ← UInt64.lt_iff_toNat_lt]
  split
  · next h => simp [h]
  · next h => simp [h]

/-- Where a late reader goes. -/
theorem toNat_index_of_late (hlate : BehindRing flow batch audio.index) :
    (isReaderLate flow.headIndex batch flow.channelBufferLength audio).2.index.toNat =
      flow.headIndex.toNat - 2 * batch.toNat := by
  have hcushion : (defineCushion flow.headIndex batch).toNat =
      flow.headIndex.toNat - 2 * batch.toNat := by
    have hlt := flow.headIndex.toNat_lt
    have htwo : (2 : UInt64).toNat = 2 := rfl
    rw [defineCushion, toNat_saturatingSub, toNat_saturatingMul, htwo]
    omega
  have h := isReaderLate_iff.mpr hlate
  rw [isReaderLate] at h ⊢
  split at h
  · next hlt =>
    rw [if_pos hlt]
    exact hcushion
  · cases h

/-- The reader's answer to a batch that ends at or before the head. -/
theorem getSamples_ne_tooLate_iff {index : UInt64} (hhead : index ≤ flow.headIndex) :
    flow.getSamples flowValid index batch ≠ .error .errOutOfRangeTooLate ↔
      InHalfRing flow batch index := by
  have hhead' := UInt64.le_iff_toNat_le.mp hhead
  constructor
  · intro h
    by_contra hout
    apply h
    have hnot : ¬ (index ≥ flow.minSampleIndex ∧ index - flow.minSampleIndex ≥ batch) := by
      intro hrange
      have hok : flow.getSamplesImpl index batch = .ok (payloadBufferSlices flow index batch) := by
        rw [ContinuousFlowData.getSamplesImpl, if_pos hhead, if_pos hrange]
      obtain ⟨-, hcount, hhalf, -⟩ := ContinuousFlowData.getSamplesImpl_eq_ok.mp hok
      exact hout ⟨hcount, hhalf⟩
    have himpl : flow.getSamplesImpl index batch = .error .errOutOfRangeTooLate := by
      rw [ContinuousFlowData.getSamplesImpl, if_pos hhead, if_neg hnot]
    simp [ContinuousFlowData.getSamples, himpl]
  · rintro ⟨hcount, hhalf⟩ h
    have hok : flow.getSamples flowValid index batch = .ok (payloadBufferSlices flow index batch) :=
      ContinuousFlowData.getSamples_eq_ok.mpr
        (ContinuousFlowData.getSamplesImpl_eq_ok.mpr ⟨hhead', hcount, hhalf, rfl⟩)
    rw [hok] at h
    cases h

/-- **When the source and the reader agree.**  A source that is late by its own count is
    helped by the jump if three batches fit in half the ring; one that is not is in
    the half of the ring that the reader reads from, or beyond the head. -/
theorem agrees_iff (flow : ContinuousFlowData) (flowValid : Bool) (batch : UInt64)
    (audio : AudioState) :
    Agrees flow flowValid batch audio ↔
      (BehindRing flow batch audio.index ∧ 6 * batch.toNat ≤ flow.bufferLength.toNat) ∨
      (¬ BehindRing flow batch audio.index ∧
        (flow.headIndex.toNat < audio.index.toNat ∨ InHalfRing flow batch audio.index)) := by
  by_cases hbehind : BehindRing flow batch audio.index
  · have hlate := isReaderLate_iff.mpr hbehind
    have hindex := toNat_index_of_late hbehind
    have hreadable : (∃ slices, flow.getSamples flowValid
        (isReaderLate flow.headIndex batch flow.channelBufferLength audio).2.index batch =
          .ok slices) ↔ 6 * batch.toNat ≤ flow.bufferLength.toNat := by
      simp only [ContinuousFlowData.getSamples_eq_ok, ContinuousFlowData.getSamplesImpl_eq_ok,
        hindex]
      rw [BehindRing] at hbehind
      constructor
      · rintro ⟨slices, -, hcount, hhalf, -⟩
        omega
      · intro hfits
        exact ⟨_, by omega, by omega, by omega, rfl⟩
    simp only [hbehind, not_true_eq_false, false_and, or_false, true_and]
    constructor
    · intro h
      exact hreadable.mp (h.caughtUp hlate)
    · intro hfits
      constructor
      · intro hnot
        rw [hlate] at hnot
        cases hnot
      · intro _
        exact hreadable.mpr hfits
  · have hnot : (isReaderLate flow.headIndex batch flow.channelBufferLength audio).1 = false := by
      rw [Bool.eq_false_iff]
      exact fun h => hbehind (isReaderLate_iff.mp h)
    simp only [hbehind, not_false_eq_true, false_and, false_or, true_and]
    constructor
    · intro h
      by_cases hhead : audio.index ≤ flow.headIndex
      · exact Or.inr ((getSamples_ne_tooLate_iff hhead).mp (h.kept hnot hhead))
      · rw [UInt64.le_iff_toNat_le] at hhead
        exact Or.inl (Nat.lt_of_not_le hhead)
    · intro h
      constructor
      · intro _ hhead
        rcases h with hahead | hhalf
        · rw [UInt64.le_iff_toNat_le] at hhead
          omega
        · exact (getSamples_ne_tooLate_iff hhead).mpr hhalf
      · intro hlate
        rw [hnot] at hlate
        cases hlate

end Lateness

theorem fourBytes_pos : 0 < (4 : UInt64).toNat := by decide

/-- A ring of 1000 samples, 10000 samples in. -/
def thousandSamples : ContinuousFlowData where
  channelCount := 2
  bufferLength := 1000
  sampleWordSize := 4
  maxCommitBatchSizeHint := 48
  maxSyncBatchSizeHint := 48
  headIndex := 10000
  syncCounter := 0
  channelData := fun _ => 0
  channelCount_pos := by decide
  bufferLength_pos := by decide
  sampleWordSize_pos := fourBytes_pos
  mapped := by decide

/-- 700 samples behind the head the source is not late, and the reader refuses. -/
theorem not_agrees_thousandSamples :
    ¬ Agrees thousandSamples true 48
      { batchCounter := 3, isInitialized := true, index := 9300, nextDiscont := false } := by
  intro h
  exact h.kept (by decide) (by decide) (by decide)

end MediaExchange.AudioSource
