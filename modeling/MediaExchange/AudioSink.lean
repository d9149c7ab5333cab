/-
  MediaExchange/AudioSink.lean
  ============================
  **The audio sink.**

  `mxlsink/render_audio.rs`: a GStreamer buffer is cut into chunks of at most half
  the ring, and each chunk is sent to the engine with the index of its time stamp,
  `index` being the end of the window that the engine opens for it.  The time stamp
  of the first chunk is the buffer's PTS on the MXL clock; each chunk moves it on by
  its own duration in whole nanoseconds.

  Points in time are integers here.  In the code they are 64-bit nanosecond counts,
  which hold them until the year 2262; `timestampToIndex_ofInt` says that the
  conversion is the one of `IndexConversion` there.
-/
import MediaExchange.IndexConversion
import MediaExchange.Library.Tiling

namespace MediaExchange.AudioSink

open MediaExchange.Tiling

/-! ### Formats and buffers -/

/-- A sample rate, as `AudioInfo` has it: it is positive. -/
structure SampleRate where
  numerator : Nat
  denominator : Nat
  numerator_pos : 0 < numerator
  denominator_pos : 0 < denominator

/-- What the sink uses of `FlowDefAudio`. -/
structure FlowDefAudio where
  sampleRate : SampleRate
  channelCount : Nat
  bitDepth : Nat
  channelCount_pos : 0 < channelCount
  bitDepth_whole : 8 ≤ bitDepth

structure InitialTime where
  mxlPtsOffset : Int
  deriving DecidableEq, Repr

/-- What changes of `AudioState`. -/
structure AudioState where
  initialTime : Option InitialTime
  /-- In samples. -/
  latency : Nat
  deriving DecidableEq, Repr

/-- A GStreamer buffer, with the clocks as they are when it is rendered. -/
structure Buffer where
  pts : Option Nat
  src : List UInt8
  /-- The time of the element's clock, if it has one. -/
  gstNow : Option Nat
  mxlNow : Nat
  /-- `get_time` when the chunk is sent that starts at a sample of the buffer. -/
  chunkNow : Nat → Nat

structure WriteSampleData where
  chunk : List UInt8
  numChannels : Nat
  bytesPerSample : Nat
  chunkSamples : Nat
  index : Int
  deriving DecidableEq, Repr

inductive FlowError
  | error
  deriving DecidableEq, Repr

def LATENCY_CUSHION : Int := 5000000

/-! ### Times and samples -/

namespace SampleRate

variable (rate : SampleRate)

/-- `samples_to_ns`, and the duration of a chunk. -/
def samplesToNs (samples : Nat) : Nat :=
  samples * rate.denominator * 1000000000 / rate.numerator

def nsToSamples (ns : Nat) : Nat :=
  ns * rate.numerator / (rate.denominator * 1000000000)

/-- `timestamp_to_index`. -/
def timestampToIndex (timestamp : Int) : Int :=
  (timestamp * rate.numerator + 500000000 * rate.denominator).tdiv
    (1000000000 * rate.denominator)

end SampleRate

/-! ### Rendering a buffer -/

namespace FlowDefAudio

variable (flowDef : FlowDefAudio)

def bytesPerSample : Nat := flowDef.bitDepth / 8

/-- The bytes of one sample of all channels. -/
def frame : Nat := flowDef.channelCount * flowDef.bytesPerSample

def samplesPerBuffer (src : List UInt8) : Nat := src.length / flowDef.frame

def computeChunk (src : List UInt8) (srcOffsetSamples chunkSamples : Nat) : List UInt8 :=
  (src.drop (srcOffsetSamples * flowDef.frame)).take (chunkSamples * flowDef.frame)

end FlowDefAudio

/-- The variables of the loop over a buffer, and what it has sent. -/
structure ChunkLoop where
  remaining : Nat
  srcOffsetSamples : Nat
  basePts : Int
  latency : Nat
  sent : List WriteSampleData

section Rendering

variable (flowDef : FlowDefAudio) (maxChunk : Nat)

/-- One turn of the loop. -/
def sendChunk (buffer : Buffer) (loop : ChunkLoop) : ChunkLoop :=
  let rate := flowDef.sampleRate
  let mxlPts := loop.basePts
  let chunkSamples := min loop.remaining maxChunk
  let pts := mxlPts + rate.samplesToNs loop.latency
  let mxlNow := buffer.chunkNow loop.srcOffsetSamples
  -- a chunk that is late makes all that follow later
  let (pts, latency) :=
    if pts < mxlNow then
      let latency := loop.latency + rate.nsToSamples (mxlNow - pts).toNat
      (mxlPts + rate.samplesToNs latency + LATENCY_CUSHION, latency)
    else (pts, loop.latency)
  { remaining := loop.remaining - chunkSamples
    srcOffsetSamples := loop.srcOffsetSamples + chunkSamples
    basePts := loop.basePts + rate.samplesToNs chunkSamples
    latency
    sent := loop.sent ++
      [{ chunk := flowDef.computeChunk buffer.src loop.srcOffsetSamples chunkSamples
         numChannels := flowDef.channelCount
         bytesPerSample := flowDef.bytesPerSample
         chunkSamples
         index := rate.timestampToIndex pts }] }

/-- The loop, for so many turns at most: `none` if samples remain after them. -/
def sendChunks (buffer : Buffer) (turns : Nat) (loop : ChunkLoop) : Option ChunkLoop :=
  if loop.remaining = 0 then some loop
  else
    match turns with
    | 0 => none
    | turns + 1 => sendChunks buffer turns (sendChunk flowDef maxChunk buffer loop)

/-- The offset of the first buffer is kept for those after it. -/
def initialOffset (state : AudioState) (mxlNow gstNow : Nat) : Int :=
  match state.initialTime with
  | some initial => initial.mxlPtsOffset
  | none => mxlNow - gstNow

/-- `audio`.  A turn that sends a sample leaves one less, so that the loop ends
    within as many turns as there are samples, or never: that is `none`. -/
def audio (state : AudioState) (buffer : Buffer) :
    Option (Except FlowError (AudioState × List WriteSampleData)) :=
  match buffer.gstNow, buffer.pts with
  | some gstNow, some gstPts =>
      let offset := initialOffset state buffer.mxlNow gstNow
      let samples := flowDef.samplesPerBuffer buffer.src
      (sendChunks flowDef maxChunk buffer samples
        { remaining := samples, srcOffsetSamples := 0, basePts := gstPts + offset
          latency := state.latency, sent := [] }).map fun loop =>
        .ok ({ initialTime := some ⟨offset⟩, latency := loop.latency }, loop.sent)
  | _, _ => some (.error .error)

/-- The buffers of a stream, one after the other. -/
def render (state : AudioState) :
    List Buffer → Option (Except FlowError (AudioState × List WriteSampleData))
  | [] => some (.ok (state, []))
  | buffer :: buffers =>
      match audio flowDef maxChunk state buffer with
      | none => none
      | some (.error e) => some (.error e)
      | some (.ok (state, sent)) =>
          (render state buffers).map fun result =>
            result.map fun (state, later) => (state, sent ++ later)

end Rendering

/-- `write_buffer`: the window `(index - count, index]` that is opened, if it is
    not longer than half the ring. -/
def writeBuffer (bufferLength : Nat) (data : WriteSampleData) : Option (Int × Int) :=
  if data.chunkSamples ≤ bufferLength / 2 then
    some (data.index - data.chunkSamples + 1, data.index + 1)
  else none

/-! ### The loop ends -/

/-- For points in time and rates that fit 64 bits, the conversion is the library's. -/
theorem timestampToIndex_ofInt {rate : SampleRate} {timestamp : Int}
    (hnumerator : rate.numerator < 2 ^ 63) (hdenominator : rate.denominator < 2 ^ 63)
    (hlow : -2 ^ 63 ≤ timestamp) (hhigh : timestamp < 2 ^ 63) :
    MediaExchange.timestampToIndex
        ⟨Int64.ofInt rate.numerator, Int64.ofInt rate.denominator⟩ (Int64.ofInt timestamp) =
      UInt64.ofInt (rate.timestampToIndex timestamp) := by
  have hpos := rate.numerator_pos
  have hpos' := rate.denominator_pos
  have htimestamp : (Int64.ofInt timestamp).toInt = timestamp :=
    Int64.toInt_ofInt_of_le hlow hhigh
  have hnum : (Int64.ofInt rate.numerator).toInt = rate.numerator :=
    Int64.toInt_ofInt_of_le (by omega) (by omega)
  have hden : (Int64.ofInt rate.denominator).toInt = rate.denominator :=
    Int64.toInt_ofInt_of_le (by omega) (by omega)
  have hnonzero : Int64.ofInt rate.denominator ≠ 0 ∧ Int64.ofInt rate.numerator ≠ 0 := by
    constructor
    · intro h
      rw [h, Int64.toInt_zero] at hden
      omega
    · intro h
      rw [h, Int64.toInt_zero] at hnum
      omega
  rw [MediaExchange.timestampToIndex, if_pos hnonzero, htimestamp, hnum, hden]
  rfl

section Loop

variable {flowDef : FlowDefAudio} {maxChunk : Nat} {buffer : Buffer}

/-- With half a ring of no sample, the loop never ends. -/
theorem sendChunks_zero {loop : ChunkLoop} (h : loop.remaining ≠ 0) (turns : Nat) :
    sendChunks flowDef 0 buffer turns loop = none := by
  induction turns generalizing loop with
  | zero => rw [sendChunks, if_neg h]
  | succ turns ih =>
    rw [sendChunks, if_neg h]
    apply ih
    change loop.remaining - min loop.remaining 0 ≠ 0
    rwa [Nat.min_zero, Nat.sub_zero]

/-- A turn on time leaves the latency as it is. -/
theorem sendChunk_onTime {loop : ChunkLoop}
    (h : ¬loop.basePts + flowDef.sampleRate.samplesToNs loop.latency <
      (buffer.chunkNow loop.srcOffsetSamples : Int)) :
    sendChunk flowDef maxChunk buffer loop =
      { remaining := loop.remaining - min loop.remaining maxChunk
        srcOffsetSamples := loop.srcOffsetSamples + min loop.remaining maxChunk
        basePts := loop.basePts + flowDef.sampleRate.samplesToNs (min loop.remaining maxChunk)
        latency := loop.latency
        sent := loop.sent ++
          [{ chunk := flowDef.computeChunk buffer.src loop.srcOffsetSamples
               (min loop.remaining maxChunk)
             numChannels := flowDef.channelCount
             bytesPerSample := flowDef.bytesPerSample
             chunkSamples := min loop.remaining maxChunk
             index := flowDef.sampleRate.timestampToIndex
               (loop.basePts + flowDef.sampleRate.samplesToNs loop.latency) }] } := by
  simp only [sendChunk, if_neg h]

end Loop

end MediaExchange.AudioSink
