/-
  MediaExchange/GapFreeStream.lean
  ================================
  **When the audio sink leaves no gap.**

  The index of a chunk is the end of its window, but it is computed from the time
  stamp of the chunk's first sample.  In whole samples, the index is therefore the
  place of that sample in the stream, shifted by a distance that is the same for
  the whole stream but for rounding: by how much the nanoseconds have fallen behind
  the samples, `Chunk.lag`, as against the phase of the MXL clock (`indexShift`).
  The window reaches back from there by the chunk's own size.

  So the windows of a stream that is contiguous and on time tile a range if and
  only if the size of a chunk, less its shift, is the same for all of them: a
  chunk that is one sample shorter than its neighbour leaves a gap of one sample,
  and one that is longer writes over what its neighbour wrote.
-/
import MediaExchange.AudioSink
import Mathlib.Tactic.Ring

namespace MediaExchange.AudioSink

open MediaExchange.Tiling

/-! ### The chunks of a stream -/

/-- A chunk by its place in the stream.  `lag` is by how much its time stamp is
    behind its first sample, in units of a nanosecond divided by the numerator of
    the sample rate. -/
structure Chunk where
  start : Nat
  size : Nat
  lag : Nat
  deriving DecidableEq, Repr

/-- The units of one sample. -/
def SampleRate.units (rate : SampleRate) : Nat := rate.denominator * 1000000000

def chunkCount (samples maxChunk : Nat) : Nat := (samples + maxChunk - 1) / maxChunk

/-- The chunk of a buffer that comes after `j` others. -/
def chunkOf (rate : SampleRate) (maxChunk n0 samples j : Nat) : Chunk :=
  { start := n0 + j * maxChunk
    size := min (samples - j * maxChunk) maxChunk
    lag := n0 * rate.units % rate.numerator + j * (maxChunk * rate.units % rate.numerator) }

def bufferChunks (rate : SampleRate) (maxChunk n0 samples : Nat) : List Chunk :=
  (List.range (chunkCount samples maxChunk)).map (chunkOf rate maxChunk n0 samples)

def streamChunks (flowDef : FlowDefAudio) (maxChunk : Nat) : Nat → List Buffer → List Chunk
  | _, [] => []
  | n0, buffer :: buffers =>
      let samples := flowDef.samplesPerBuffer buffer.src
      bufferChunks flowDef.sampleRate maxChunk n0 samples ++
        streamChunks flowDef maxChunk (n0 + samples) buffers

/-- By how many samples the index of a chunk is ahead of its first sample, for a
    clock that is ahead of the stream by `shift` nanoseconds. -/
def indexShift (rate : SampleRate) (shift : Int) (lag : Nat) : Int :=
  (shift * rate.numerator + 500000000 * rate.denominator - lag) / (1000000000 * rate.denominator)

/-! ### The index of a chunk -/

theorem samplesToNs_mul (rate : SampleRate) (samples : Nat) :
    (rate.samplesToNs samples : Int) * rate.numerator =
      samples * (1000000000 * rate.denominator) - (samples * rate.units % rate.numerator : Nat) := by
  have hns : rate.samplesToNs samples = samples * rate.units / rate.numerator := by
    rw [SampleRate.samplesToNs, SampleRate.units, Nat.mul_assoc]
  have hcast : (samples * (1000000000 * rate.denominator) : Int) =
      (samples * rate.units : Nat) := by
    push_cast [SampleRate.units]
    ring
  have h := congrArg (Nat.cast (R := Int))
    (Nat.div_add_mod (samples * rate.units) rate.numerator)
  rw [Nat.cast_add, Nat.cast_mul] at h
  rw [hns, hcast, Int.mul_comm]
  exact eq_sub_of_add_eq h

theorem timestampToIndex_chunk {rate : SampleRate} {maxChunk n0 j : Nat} {shift : Int}
    (h : 0 ≤ (rate.samplesToNs n0 : Int) + j * rate.samplesToNs maxChunk + shift) :
    rate.timestampToIndex (rate.samplesToNs n0 + j * rate.samplesToNs maxChunk + shift) =
      n0 + j * maxChunk + indexShift rate shift
        (n0 * rate.units % rate.numerator + j * (maxChunk * rate.units % rate.numerator)) := by
  have hpos : (0 : Int) < 1000000000 * rate.denominator := by
    have := rate.denominator_pos
    omega
  have hfirst := samplesToNs_mul rate n0
  have hchunk := samplesToNs_mul rate maxChunk
  have hnonneg : 0 ≤ ((rate.samplesToNs n0 : Int) + j * rate.samplesToNs maxChunk + shift) *
      rate.numerator + 500000000 * rate.denominator := by
    have hproduct := Int.mul_nonneg h (Int.natCast_nonneg rate.numerator)
    have hround := Int.natCast_nonneg rate.denominator
    omega
  have hsplit : ((rate.samplesToNs n0 : Int) + j * rate.samplesToNs maxChunk + shift) *
      rate.numerator + 500000000 * rate.denominator =
      (shift * rate.numerator + 500000000 * rate.denominator -
        ((n0 * rate.units % rate.numerator +
          j * (maxChunk * rate.units % rate.numerator) : Nat) : Int)) +
        (n0 + j * maxChunk) * (1000000000 * rate.denominator) := by
    calc _ = (rate.samplesToNs n0 : Int) * rate.numerator +
            j * ((rate.samplesToNs maxChunk : Int) * rate.numerator) +
            shift * rate.numerator + 500000000 * rate.denominator := by ring
      _ = _ := by
        rw [hfirst, hchunk]
        push_cast
        ring
  rw [SampleRate.timestampToIndex, Int.tdiv_eq_ediv_of_nonneg hnonneg, hsplit,
    Int.add_mul_ediv_right _ _ (Int.ne_of_gt hpos), indexShift]
  ring

/-! ### What a buffer sends -/

/-- What is sent for a chunk of a buffer that starts at sample `n0` of the stream. -/
def chunkData (flowDef : FlowDefAudio) (shift : Int) (n0 : Nat) (buffer : Buffer) (chunk : Chunk) :
    WriteSampleData :=
  { chunk := flowDef.computeChunk buffer.src (chunk.start - n0) chunk.size
    numChannels := flowDef.channelCount
    bytesPerSample := flowDef.bytesPerSample
    chunkSamples := chunk.size
    index := chunk.start + indexShift flowDef.sampleRate shift chunk.lag }

/-- A buffer that starts at sample `n0` of the stream, by its PTS, and none of whose
    chunks is late, on an MXL clock that is ahead of the stream by `shift`. -/
structure InTime (flowDef : FlowDefAudio) (maxChunk : Nat) (shift : Int) (n0 : Nat)
    (buffer : Buffer) : Prop where
  pts : buffer.pts = some (flowDef.sampleRate.samplesToNs n0)
  clock : buffer.gstNow ≠ none
  onTime : ∀ j, j * maxChunk < flowDef.samplesPerBuffer buffer.src →
    (buffer.chunkNow (j * maxChunk) : Int) ≤ flowDef.sampleRate.samplesToNs n0 +
      j * flowDef.sampleRate.samplesToNs maxChunk + shift

section Buffer

variable {flowDef : FlowDefAudio} {maxChunk n0 : Nat} {buffer : Buffer} {offset : Int}
  {latency : Nat}

theorem chunkCount_le_iff {samples j : Nat} (hmax : 0 < maxChunk) :
    chunkCount samples maxChunk ≤ j ↔ samples ≤ j * maxChunk := by
  rw [chunkCount, ← Nat.lt_succ_iff, Nat.div_lt_iff_lt_mul hmax, Nat.succ_mul]
  omega

/-- The loop after `j` turns. -/
structure AfterTurns (flowDef : FlowDefAudio) (maxChunk n0 : Nat) (buffer : Buffer) (offset : Int)
    (latency j : Nat) (loop : ChunkLoop) : Prop where
  count : j ≤ chunkCount (flowDef.samplesPerBuffer buffer.src) maxChunk
  remaining : loop.remaining = flowDef.samplesPerBuffer buffer.src - j * maxChunk
  srcOffset : loop.remaining ≠ 0 → loop.srcOffsetSamples = j * maxChunk
  basePts : loop.remaining ≠ 0 → loop.basePts = flowDef.sampleRate.samplesToNs n0 +
    j * flowDef.sampleRate.samplesToNs maxChunk + offset
  sameLatency : loop.latency = latency
  sent : loop.sent = (List.range j).map fun j =>
    chunkData flowDef (offset + flowDef.sampleRate.samplesToNs latency) n0 buffer
      (chunkOf flowDef.sampleRate maxChunk n0 (flowDef.samplesPerBuffer buffer.src) j)

/-- When no sample remains, all chunks have been sent. -/
theorem AfterTurns.last {j : Nat} {loop : ChunkLoop} (hmax : 0 < maxChunk)
    (h : AfterTurns flowDef maxChunk n0 buffer offset latency j loop)
    (hnone : loop.remaining = 0) :
    j = chunkCount (flowDef.samplesPerBuffer buffer.src) maxChunk := by
  apply Nat.le_antisymm h.count
  rw [chunkCount_le_iff hmax]
  have := h.remaining
  omega

theorem AfterTurns.sendChunk {j : Nat} {loop : ChunkLoop} (hmax : 0 < maxChunk)
    (htime : InTime flowDef maxChunk (offset + flowDef.sampleRate.samplesToNs latency) n0 buffer)
    (h : AfterTurns flowDef maxChunk n0 buffer offset latency j loop)
    (hremaining : loop.remaining ≠ 0) :
    AfterTurns flowDef maxChunk n0 buffer offset latency (j + 1)
      (sendChunk flowDef maxChunk buffer loop) := by
  have hwithin : j * maxChunk < flowDef.samplesPerBuffer buffer.src := by
    have := h.remaining
    omega
  have htimely := htime.onTime j hwithin
  have hpts : loop.basePts + flowDef.sampleRate.samplesToNs loop.latency =
      flowDef.sampleRate.samplesToNs n0 + j * flowDef.sampleRate.samplesToNs maxChunk +
        (offset + flowDef.sampleRate.samplesToNs latency) := by
    rw [h.basePts hremaining, h.sameLatency]
    ring
  have hnotLate : ¬loop.basePts + flowDef.sampleRate.samplesToNs loop.latency <
      (buffer.chunkNow loop.srcOffsetSamples : Int) := by
    rw [hpts, h.srcOffset hremaining]
    exact Int.not_lt.mpr htimely
  have hsucc : (j + 1) * maxChunk = j * maxChunk + maxChunk := Nat.succ_mul j maxChunk
  have hleft := h.remaining
  rw [sendChunk_onTime hnotLate]
  -- a chunk with others behind it is a whole one
  have hwhole : loop.remaining - min loop.remaining maxChunk ≠ 0 →
      min loop.remaining maxChunk = maxChunk := by omega
  constructor
  · rw [Nat.succ_le_iff, ← Nat.not_le, chunkCount_le_iff hmax]
    exact Nat.not_le.mpr hwithin
  · change loop.remaining - min loop.remaining maxChunk = _
    omega
  · intro hmore
    change loop.srcOffsetSamples + min loop.remaining maxChunk = _
    rw [hwhole hmore, h.srcOffset hremaining, hsucc]
  · intro hmore
    change loop.basePts + flowDef.sampleRate.samplesToNs (min loop.remaining maxChunk) = _
    rw [hwhole hmore, h.basePts hremaining]
    push_cast
    ring
  · exact h.sameLatency
  · have hindex := @timestampToIndex_chunk flowDef.sampleRate maxChunk n0 j
      (offset + flowDef.sampleRate.samplesToNs latency) (le_trans (Int.natCast_nonneg _) htimely)
    have hstart : n0 + j * maxChunk - n0 = j * maxChunk := Nat.add_sub_cancel_left n0 _
    change loop.sent ++ [_] = _
    rw [h.sent, List.range_succ, List.map_append, hpts, hindex, h.srcOffset hremaining, hleft]
    simp only [List.map_cons, List.map_nil, chunkData, chunkOf, hstart]
    push_cast
    rfl

theorem AfterTurns.sendChunks {turns j : Nat} {loop : ChunkLoop} (hmax : 0 < maxChunk)
    (htime : InTime flowDef maxChunk (offset + flowDef.sampleRate.samplesToNs latency) n0 buffer)
    (h : AfterTurns flowDef maxChunk n0 buffer offset latency j loop)
    (hturns : loop.remaining ≤ turns) :
    ∃ last, sendChunks flowDef maxChunk buffer turns loop = some last ∧
      AfterTurns flowDef maxChunk n0 buffer offset latency
        (chunkCount (flowDef.samplesPerBuffer buffer.src) maxChunk) last := by
  induction turns generalizing j loop with
  | zero =>
    have hnone : loop.remaining = 0 := Nat.le_zero.mp hturns
    have hcount := h.last hmax hnone
    refine ⟨loop, ?_, hcount ▸ h⟩
    rw [AudioSink.sendChunks, if_pos hnone]
  | succ turns ih =>
    rw [AudioSink.sendChunks]
    split
    · next hnone =>
      have hcount := h.last hmax hnone
      exact ⟨loop, rfl, hcount ▸ h⟩
    · next hremaining =>
      have hnext := h.sendChunk hmax htime hremaining
      apply ih hnext
      have hleft := h.remaining
      have hleft' := hnext.remaining
      rw [Nat.succ_mul] at hleft'
      omega

/-- The chunks of a buffer hold its samples one after the other. -/
theorem tiles_bufferChunks (hmax : 0 < maxChunk) (rate : SampleRate) (n0 samples : Nat) :
    Tiles n0 (n0 + samples)
      ((bufferChunks rate maxChunk n0 samples).map fun c => (c.start, c.start + c.size)) := by
  have hprefix (k : Nat) (hk : k ≤ chunkCount samples maxChunk) :
      Tiles n0 (n0 + min (k * maxChunk) samples)
        (((List.range k).map (chunkOf rate maxChunk n0 samples)).map fun c =>
          (c.start, c.start + c.size)) := by
    induction k with
    | zero =>
      rw [Nat.zero_mul, Nat.zero_min]
      rfl
    | succ k ih =>
      have hwithin : k * maxChunk < samples := by
        rw [← Nat.not_le, ← chunkCount_le_iff hmax]
        exact Nat.not_le.mpr hk
      have hsucc : (k + 1) * maxChunk = k * maxChunk + maxChunk := Nat.succ_mul k maxChunk
      rw [List.range_succ, List.map_append, List.map_append]
      refine (ih (Nat.le_of_succ_le hk)).append ⟨?_, ?_, ?_⟩
      · change n0 + k * maxChunk = _
        omega
      · change n0 + k * maxChunk < n0 + k * maxChunk + min (samples - k * maxChunk) maxChunk
        omega
      · change n0 + k * maxChunk + min (samples - k * maxChunk) maxChunk = _
        omega
  have hall := hprefix (chunkCount samples maxChunk) (Nat.le_refl _)
  rwa [Nat.min_eq_right ((chunkCount_le_iff hmax).mp (Nat.le_refl _))] at hall

/-- The chunks of a buffer hold the bytes of its samples. -/
theorem bytes_bufferChunks (hmax : 0 < maxChunk) (shift : Int) :
    ((bufferChunks flowDef.sampleRate maxChunk n0 (flowDef.samplesPerBuffer buffer.src)).map
        (chunkData flowDef shift n0 buffer)).flatMap WriteSampleData.chunk =
      buffer.src.take (flowDef.samplesPerBuffer buffer.src * flowDef.frame) := by
  have hprefix (k : Nat) (hk : k ≤ chunkCount (flowDef.samplesPerBuffer buffer.src) maxChunk) :
      (((List.range k).map (chunkOf flowDef.sampleRate maxChunk n0
        (flowDef.samplesPerBuffer buffer.src))).map (chunkData flowDef shift n0 buffer)).flatMap
          WriteSampleData.chunk =
        buffer.src.take (min (k * maxChunk) (flowDef.samplesPerBuffer buffer.src) * flowDef.frame) := by
    induction k with
    | zero => rw [Nat.zero_mul, Nat.zero_min, Nat.zero_mul, List.take_zero]; rfl
    | succ k ih =>
      have hwithin : k * maxChunk < flowDef.samplesPerBuffer buffer.src := by
        rw [← Nat.not_le, ← chunkCount_le_iff hmax]
        exact Nat.not_le.mpr hk
      have hstart : n0 + k * maxChunk - n0 = k * maxChunk := Nat.add_sub_cancel_left n0 _
      have hsplit : min ((k + 1) * maxChunk) (flowDef.samplesPerBuffer buffer.src) =
          k * maxChunk + min (flowDef.samplesPerBuffer buffer.src - k * maxChunk) maxChunk := by
        rw [Nat.succ_mul]
        omega
      rw [List.range_succ, List.map_append, List.map_append, List.flatMap_append,
        ih (Nat.le_of_succ_le hk), Nat.min_eq_left (Nat.le_of_lt hwithin), hsplit, Nat.add_mul,
        List.take_add, List.map_singleton, List.map_singleton, List.flatMap_singleton]
      simp only [chunkData, chunkOf, hstart, FlowDefAudio.computeChunk]
  have hall := hprefix (chunkCount (flowDef.samplesPerBuffer buffer.src) maxChunk) (Nat.le_refl _)
  rwa [Nat.min_eq_right ((chunkCount_le_iff hmax).mp (Nat.le_refl _))] at hall

theorem audio_inTime {state : AudioState} {gstNow : Nat} (hmax : 0 < maxChunk)
    (hclock : buffer.gstNow = some gstNow)
    (htime : InTime flowDef maxChunk (initialOffset state buffer.mxlNow gstNow +
      flowDef.sampleRate.samplesToNs state.latency) n0 buffer) :
    audio flowDef maxChunk state buffer =
      some (.ok (⟨some ⟨initialOffset state buffer.mxlNow gstNow⟩, state.latency⟩,
        (bufferChunks flowDef.sampleRate maxChunk n0 (flowDef.samplesPerBuffer buffer.src)).map
          (chunkData flowDef (initialOffset state buffer.mxlNow gstNow +
            flowDef.sampleRate.samplesToNs state.latency) n0 buffer))) := by
  have hbefore : AfterTurns flowDef maxChunk n0 buffer (initialOffset state buffer.mxlNow gstNow)
      state.latency 0 ⟨flowDef.samplesPerBuffer buffer.src, 0,
        flowDef.sampleRate.samplesToNs n0 + initialOffset state buffer.mxlNow gstNow,
        state.latency, []⟩ :=
    { count := Nat.zero_le _
      remaining := by rw [Nat.zero_mul, Nat.sub_zero]
      srcOffset := fun _ => (Nat.zero_mul _).symm
      basePts := fun _ => by simp
      sameLatency := rfl
      sent := rfl }
  obtain ⟨last, hlast, hafter⟩ := hbefore.sendChunks hmax htime (Nat.le_refl _)
  rw [audio, hclock, htime.pts]
  simp only [hlast, Option.map_some, hafter.sameLatency, hafter.sent, bufferChunks, List.map_map]
  rfl

end Buffer

/-! ### What a stream sends -/

/-- The offset of the MXL clock that is used for a stream. -/
def streamOffset (state : AudioState) : List Buffer → Int
  | [] => 0
  | first :: _ => initialOffset state first.mxlNow (first.gstNow.getD 0)

/-- Buffers that are contiguous and in time, from sample `n0` of the stream on. -/
def Contiguous (flowDef : FlowDefAudio) (maxChunk : Nat) (shift : Int) : Nat → List Buffer → Prop
  | _, [] => True
  | n0, buffer :: buffers =>
      InTime flowDef maxChunk shift n0 buffer ∧
        Contiguous flowDef maxChunk shift (n0 + flowDef.samplesPerBuffer buffer.src) buffers

def streamData (flowDef : FlowDefAudio) (maxChunk : Nat) (shift : Int) :
    Nat → List Buffer → List WriteSampleData
  | _, [] => []
  | n0, buffer :: buffers =>
      let samples := flowDef.samplesPerBuffer buffer.src
      (bufferChunks flowDef.sampleRate maxChunk n0 samples).map
          (chunkData flowDef shift n0 buffer) ++
        streamData flowDef maxChunk shift (n0 + samples) buffers

/-- The window that is opened for a chunk. -/
def window (rate : SampleRate) (shift : Int) (chunk : Chunk) : Int × Int :=
  (chunk.start + indexShift rate shift chunk.lag - chunk.size + 1,
    chunk.start + indexShift rate shift chunk.lag + 1)

section Stream

variable {flowDef : FlowDefAudio} {maxChunk n0 : Nat} {buffers : List Buffer}

/-- Once the offset is set, a stream in time sends its chunks. -/
theorem render_from {offset : Int} {latency : Nat} (hmax : 0 < maxChunk)
    (h : Contiguous flowDef maxChunk (offset + flowDef.sampleRate.samplesToNs latency) n0 buffers) :
    render flowDef maxChunk ⟨some ⟨offset⟩, latency⟩ buffers =
      some (.ok (⟨some ⟨offset⟩, latency⟩, streamData flowDef maxChunk
        (offset + flowDef.sampleRate.samplesToNs latency) n0 buffers)) := by
  induction buffers generalizing n0 with
  | nil => rfl
  | cons buffer buffers ih =>
    obtain ⟨gstNow, hclock⟩ := Option.ne_none_iff_exists'.mp h.1.clock
    have haudio := @audio_inTime _ _ _ _ ⟨some ⟨offset⟩, latency⟩ _ hmax hclock h.1
    rw [render, haudio]
    simp only [initialOffset, ih h.2]
    rfl

theorem render_contiguous {state : AudioState} (hmax : 0 < maxChunk)
    (h : Contiguous flowDef maxChunk
      (streamOffset state buffers + flowDef.sampleRate.samplesToNs state.latency) n0 buffers) :
    ∃ state', render flowDef maxChunk state buffers =
      some (.ok (state', streamData flowDef maxChunk
        (streamOffset state buffers + flowDef.sampleRate.samplesToNs state.latency) n0 buffers)) := by
  cases buffers with
  | nil => exact ⟨state, rfl⟩
  | cons buffer buffers =>
    obtain ⟨gstNow, hclock⟩ := Option.ne_none_iff_exists'.mp h.1.clock
    have hoffset : streamOffset state (buffer :: buffers) =
        initialOffset state buffer.mxlNow gstNow := by
      rw [streamOffset, hclock, Option.getD_some]
    rw [hoffset] at h ⊢
    have haudio := audio_inTime hmax hclock h.1
    refine ⟨⟨some ⟨initialOffset state buffer.mxlNow gstNow⟩, state.latency⟩, ?_⟩
    rw [render, haudio]
    simp only [render_from hmax h.2]
    rfl

/-- With half a ring of no sample, a stream with samples is never done. -/
theorem render_zero {state : AudioState} {shift : Int}
    (h : Contiguous flowDef 0 shift n0 buffers) {buffer : Buffer} (hmem : buffer ∈ buffers)
    (hsamples : flowDef.samplesPerBuffer buffer.src ≠ 0) :
    render flowDef 0 state buffers = none := by
  induction buffers generalizing n0 state with
  | nil => cases hmem
  | cons first buffers ih =>
    obtain ⟨gstNow, hclock⟩ := Option.ne_none_iff_exists'.mp h.1.clock
    rw [render, audio, hclock, h.1.pts]
    by_cases hfirst : flowDef.samplesPerBuffer first.src = 0
    · have hmore : buffer ∈ buffers := by
        rcases List.mem_cons.mp hmem with rfl | hmore
        · exact absurd hfirst hsamples
        · exact hmore
      simp only [sendChunks, hfirst, if_true, Option.map_some, ih h.2 hmore, Option.map_none]
    · have hloop := @sendChunks_zero flowDef first
        ⟨flowDef.samplesPerBuffer first.src, 0,
          flowDef.sampleRate.samplesToNs n0 + initialOffset state first.mxlNow gstNow,
          state.latency, []⟩ hfirst (flowDef.samplesPerBuffer first.src)
      simp only [hloop, Option.map_none]

theorem render_empty {state : AudioState} {shift : Int}
    (h : Contiguous flowDef 0 shift n0 buffers)
    (hempty : ∀ buffer ∈ buffers, flowDef.samplesPerBuffer buffer.src = 0) :
    ∃ state', render flowDef 0 state buffers = some (.ok (state', [])) := by
  induction buffers generalizing n0 state with
  | nil => exact ⟨state, rfl⟩
  | cons first buffers ih =>
    obtain ⟨gstNow, hclock⟩ := Option.ne_none_iff_exists'.mp h.1.clock
    obtain ⟨hfirst, hrest⟩ := List.forall_mem_cons.mp hempty
    obtain ⟨state', hmore⟩ := @ih _
      ⟨some ⟨initialOffset state first.mxlNow gstNow⟩, state.latency⟩ h.2 hrest
    refine ⟨state', ?_⟩
    rw [render, audio, hclock, h.1.pts]
    simp only [sendChunks, hfirst, if_true, Option.map_some, hmore]
    rfl

theorem streamChunks_zero : streamChunks flowDef 0 n0 buffers = [] := by
  induction buffers generalizing n0 with
  | nil => rfl
  | cons buffer buffers ih =>
    rw [streamChunks, ih, bufferChunks, chunkCount, Nat.div_zero]
    rfl

theorem size_le_of_mem {chunk : Chunk} (h : chunk ∈ streamChunks flowDef maxChunk n0 buffers) :
    chunk.size ≤ maxChunk := by
  induction buffers generalizing n0 with
  | nil => cases h
  | cons buffer buffers ih =>
    rcases List.mem_append.mp h with h | h
    · obtain ⟨j, -, rfl⟩ := List.mem_map.mp h
      exact Nat.min_le_right _ _
    · exact ih h

/-- The windows that are opened for the chunks of a stream. -/
theorem windows_streamData {bufferLength : Nat} (shift : Int) :
    (streamData flowDef (bufferLength / 2) shift n0 buffers).map (writeBuffer bufferLength) =
      ((streamChunks flowDef (bufferLength / 2) n0 buffers).map
        (window flowDef.sampleRate shift)).map some := by
  induction buffers generalizing n0 with
  | nil => rfl
  | cons buffer buffers ih =>
    rw [streamData, streamChunks, List.map_append, List.map_append, List.map_append, ih,
      List.append_left_inj, List.map_map, List.map_map]
    apply List.map_congr_left
    intro chunk hchunk
    have hsize : chunk.size ≤ bufferLength / 2 :=
      @size_le_of_mem _ _ _ (buffer :: buffers) _ (List.mem_append_left _ hchunk)
    change writeBuffer bufferLength (chunkData flowDef shift n0 buffer chunk) = some _
    rw [writeBuffer, chunkData, if_pos hsize]
    rfl

theorem bytes_streamData (hmax : 0 < maxChunk) (shift : Int) :
    (streamData flowDef maxChunk shift n0 buffers).flatMap WriteSampleData.chunk =
      buffers.flatMap fun buffer =>
        buffer.src.take (flowDef.samplesPerBuffer buffer.src * flowDef.frame) := by
  induction buffers generalizing n0 with
  | nil => rfl
  | cons buffer buffers ih =>
    rw [streamData, List.flatMap_append, List.flatMap_cons, ih, bytes_bufferChunks hmax]

theorem tiles_streamChunks (hmax : 0 < maxChunk) :
    ∃ last, Tiles n0 last ((streamChunks flowDef maxChunk n0 buffers).map fun c =>
      (c.start, c.start + c.size)) := by
  induction buffers generalizing n0 with
  | nil => exact ⟨n0, rfl⟩
  | cons buffer buffers ih =>
    obtain ⟨last, hrest⟩ := @ih (n0 + flowDef.samplesPerBuffer buffer.src)
    rw [streamChunks, List.map_append]
    exact ⟨last, (tiles_bufferChunks hmax flowDef.sampleRate n0 _).append hrest⟩

end Stream

/-! ### When the windows tile -/

/-- The windows of consecutive chunks tile a range that starts as far from them as
    every chunk's own size and shift say. -/
theorem tiles_windows {rate : SampleRate} {shift distance : Int} {start last : Nat}
    {chunks : List Chunk} (h : Tiles start last (chunks.map fun c => (c.start, c.start + c.size))) :
    (∃ stop, Tiles (start - distance + 1) stop (chunks.map (window rate shift))) ↔
      ∀ chunk ∈ chunks, (chunk.size : Int) - indexShift rate shift chunk.lag = distance := by
  induction chunks generalizing start with
  | nil => exact iff_of_true ⟨_, rfl⟩ (List.forall_mem_nil _)
  | cons chunk chunks ih =>
    obtain ⟨hstart, hsize, hrest⟩ := h
    change chunk.start < chunk.start + chunk.size at hsize
    change chunk.start = start at hstart
    rw [List.forall_mem_cons, ← ih hrest]
    constructor
    · rintro ⟨stop, hfrom, hlt, htiles⟩
      change (chunk.start : Int) + indexShift rate shift chunk.lag - chunk.size + 1 = _ at hfrom
      have hdistance : (chunk.size : Int) - indexShift rate shift chunk.lag = distance := by omega
      refine ⟨hdistance, stop, ?_⟩
      have hto : (chunk.start : Int) + indexShift rate shift chunk.lag + 1 =
          ((chunk.start + chunk.size : Nat) : Int) - distance + 1 := by
        push_cast
        omega
      rw [← hto]
      exact htiles
    · rintro ⟨hdistance, stop, htiles⟩
      have hto : (chunk.start : Int) + indexShift rate shift chunk.lag + 1 =
          ((chunk.start + chunk.size : Nat) : Int) - distance + 1 := by
        push_cast
        omega
      refine ⟨stop, ?_, ?_, ?_⟩
      · change (chunk.start : Int) + indexShift rate shift chunk.lag - chunk.size + 1 = _
        omega
      · change (chunk.start : Int) + indexShift rate shift chunk.lag - chunk.size + 1 <
          chunk.start + indexShift rate shift chunk.lag + 1
        omega
      · change Tiles ((chunk.start : Int) + indexShift rate shift chunk.lag + 1) stop _
        rw [hto]
        exact htiles

/-- The stream is rendered, every chunk gets its window, the windows tile a range of
    indices in their order, and what is written to them is the stream. -/
def GapFree (flowDef : FlowDefAudio) (bufferLength : Nat) (state : AudioState)
    (buffers : List Buffer) : Prop :=
  ∃ state' sent windows first last,
    render flowDef (bufferLength / 2) state buffers = some (.ok (state', sent)) ∧
    sent.map (writeBuffer bufferLength) = windows.map some ∧
    Tiles first last windows ∧
    sent.flatMap WriteSampleData.chunk = buffers.flatMap fun buffer =>
      buffer.src.take (flowDef.samplesPerBuffer buffer.src * flowDef.frame)

/-- A stream that is contiguous and in time is written without a gap or an overlap if
    and only if half the ring holds a sample and the size of a chunk less the shift
    of its index is the same for all chunks. -/
theorem gapFree_iff_even {flowDef : FlowDefAudio} {bufferLength n0 : Nat} {state : AudioState}
    {buffers : List Buffer}
    (h : Contiguous flowDef (bufferLength / 2)
      (streamOffset state buffers + flowDef.sampleRate.samplesToNs state.latency) n0 buffers) :
    GapFree flowDef bufferLength state buffers ↔
      (∀ buffer ∈ buffers, flowDef.samplesPerBuffer buffer.src ≠ 0 → 0 < bufferLength / 2) ∧
      ∃ distance : Int, ∀ chunk ∈ streamChunks flowDef (bufferLength / 2) n0 buffers,
        (chunk.size : Int) - indexShift flowDef.sampleRate
          (streamOffset state buffers + flowDef.sampleRate.samplesToNs state.latency) chunk.lag =
          distance := by
  by_cases hmax : 0 < bufferLength / 2
  · obtain ⟨state', hrender⟩ := render_contiguous hmax h
    obtain ⟨last, hchunks⟩ := @tiles_streamChunks flowDef _ n0 buffers hmax
    constructor
    · rintro ⟨state'', sent, windows, first, stop, hrender', hwindows, htiles, -⟩
      rw [hrender] at hrender'
      obtain ⟨-, rfl⟩ := Prod.mk.inj (Except.ok.inj (Option.some.inj hrender'))
      rw [windows_streamData] at hwindows
      obtain rfl := List.map_injective_iff.mpr (Option.some_injective _) hwindows
      refine ⟨fun _ _ _ => hmax, n0 + 1 - first, ?_⟩
      have hfirst : (n0 : Int) - (n0 + 1 - first) + 1 = first := by omega
      exact (tiles_windows hchunks).mp ⟨stop, hfirst.symm ▸ htiles⟩
    · rintro ⟨-, distance, heven⟩
      obtain ⟨stop, htiles⟩ := (tiles_windows hchunks).mpr heven
      exact ⟨state', _, _, _, stop, hrender, windows_streamData _, htiles,
        bytes_streamData hmax _⟩
  · have hzero : bufferLength / 2 = 0 := Nat.eq_zero_of_not_pos hmax
    rw [hzero] at h ⊢
    rw [GapFree, hzero]
    constructor
    · rintro ⟨state', sent, windows, first, stop, hrender, -⟩
      refine ⟨?_, 0, ?_⟩
      · intro buffer hmem hsamples
        rw [render_zero h hmem hsamples] at hrender
        cases hrender
      · rw [streamChunks_zero]
        exact List.forall_mem_nil _
    · rintro ⟨hempty, -⟩
      have hnone : ∀ buffer ∈ buffers, flowDef.samplesPerBuffer buffer.src = 0 :=
        fun buffer hmem => by_contra fun hsamples =>
          absurd (hempty buffer hmem hsamples) (Nat.lt_irrefl 0)
      obtain ⟨state', hrender⟩ := @render_empty _ _ _ state _ h hnone
      refine ⟨state', [], [], 0, 0, hrender, rfl, rfl, ?_⟩
      apply Eq.symm
      apply List.flatMap_eq_nil_iff.mpr
      intro buffer hmem
      rw [hnone buffer hmem, Nat.zero_mul, List.take_zero]

/-! ### Runs -/

/-- Mono samples of 32 bits at 48 kHz. -/
def mono48k : FlowDefAudio :=
  { sampleRate := ⟨48000, 1, by decide, by decide⟩
    channelCount := 1
    bitDepth := 32
    channelCount_pos := by decide
    bitDepth_whole := by decide }

/-- A buffer of equal bytes.  The MXL clock is a second ahead of the element's. -/
def bufferOf (pts samples : Nat) (byte : UInt8) : Buffer :=
  { pts := some pts
    src := List.replicate (4 * samples) byte
    gstNow := some 0
    mxlNow := 1000000000
    chunkNow := fun _ => 1000000000 }

theorem inTime_bufferOf {n0 samples pts maxChunk : Nat} {byte : UInt8}
    (hpts : pts = mono48k.sampleRate.samplesToNs n0) :
    InTime mono48k maxChunk 1000000000 n0 (bufferOf pts samples byte) := by
  constructor
  · exact congrArg some hpts
  · intro h
    cases h
  · intro j _
    have hduration := Int.mul_nonneg (Int.natCast_nonneg j)
      (Int.natCast_nonneg (mono48k.sampleRate.samplesToNs maxChunk))
    change (1000000000 : Int) ≤ _
    omega

/-- Two samples in each buffer. -/
def evenBuffers : List Buffer := [bufferOf 0 2 1, bufferOf 41666 2 2, bufferOf 83333 2 3]

/-- Two samples, one, and two. -/
def unevenBuffers : List Buffer := [bufferOf 0 2 1, bufferOf 41666 1 2, bufferOf 62500 2 3]

theorem contiguous_evenBuffers : Contiguous mono48k 2 1000000000 0 evenBuffers :=
  ⟨inTime_bufferOf rfl, inTime_bufferOf rfl, inTime_bufferOf rfl, trivial⟩

theorem gapFree_evenBuffers : GapFree mono48k 4 ⟨none, 0⟩ evenBuffers := by
  apply (@gapFree_iff_even mono48k 4 0 ⟨none, 0⟩ evenBuffers contiguous_evenBuffers).mpr
  exact ⟨fun _ _ _ => by decide, 2 - 48000, by decide⟩

/-- The second chunk is one sample shorter than the first and leaves a gap of one;
    the third is one longer than the second and writes over it. -/
theorem uneven_leaves_gap :
    Contiguous mono48k (4 / 2) (streamOffset ⟨none, 0⟩ unevenBuffers +
        mono48k.sampleRate.samplesToNs 0) 0 unevenBuffers ∧
      ¬GapFree mono48k 4 ⟨none, 0⟩ unevenBuffers := by
  refine ⟨⟨inTime_bufferOf rfl, inTime_bufferOf rfl, inTime_bufferOf rfl, trivial⟩, ?_⟩
  rintro ⟨state, sent, windows, first, last, hrender, hwindows, htiles, -⟩
  obtain ⟨-, rfl⟩ := Prod.mk.inj (Except.ok.inj (Option.some.inj hrender))
  have hopened : windows.map some =
      [(47999, 48001), (48002, 48003), (48002, 48004)].map some := hwindows.symm
  obtain rfl := List.map_injective_iff.mpr (Option.some_injective _) hopened
  obtain ⟨-, -, hsecond, -⟩ := htiles
  exact absurd hsecond (by decide)

end MediaExchange.AudioSink
