/-
  MediaExchange/InterleavedAudio.lean
  ===================================
  **From interleaved samples to channels and back** (`mxlsink/render_audio.rs`,
  `mxlsrc/create_audio.rs`, `samples/data.rs`, `samples/write_access.rs`).

  A range of a continuous flow is two slices per channel.  The sink takes a chunk of
  interleaved samples apart and writes each channel's samples over its two slices;
  the source puts the slices of a channel together and interleaves the channels.

  A slice holds whole samples, so that no sample is torn by the end of the ring: the
  writer's walk over both slices is a walk over what they hold together
  (`joined_placeSample`), and what the reader reads is the chunk that was written
  (`interleaveAudio_writeSamplesPerChannel`).
-/
import MediaExchange.AudioSink
import MediaExchange.ContinuousRoundTrip
import MediaExchange.Library.ByteMemory
import MediaExchange.Library.Words

namespace MediaExchange.InterleavedAudio

open MediaExchange.AudioSink MediaExchange.Words

/-! ### The sink -/

/-- `channel_data` and `channel_data_mut`: the two slices of a channel. -/
structure Planes where
  plane1 : List UInt8
  plane2 : List UInt8
deriving DecidableEq, Repr

/-- What the slices of a channel hold together. -/
def Planes.joined (planes : Planes) : List UInt8 := planes.plane1 ++ planes.plane2

def doesSampleFitInPlane (bytesPerSample : Nat) (plane : List UInt8) (offset : Nat) : Bool :=
  decide (offset + bytesPerSample ≤ plane.length)

/-- `write_sample`: the slice with the sample copied into it. -/
def writeSample (bytesPerSample : Nat) (srcChunk plane : List UInt8) (written sampleOffset : Nat) :
    List UInt8 :=
  plane.take written ++ (srcChunk.drop sampleOffset).take bytesPerSample ++
    plane.drop (written + bytesPerSample)

/-- Where a sample goes: into the first slice while there is room, then into the second
    one. -/
def placeSample (bytesPerSample : Nat) (srcChunk : List UInt8) (planes : Planes)
    (written sampleOffset : Nat) : Planes :=
  if doesSampleFitInPlane bytesPerSample planes.plane1 written then
    { planes with
      plane1 := writeSample bytesPerSample srcChunk planes.plane1 written sampleOffset }
  else if written < planes.plane1.length + planes.plane2.length then
    let plane2Offset := written - planes.plane1.length
    if doesSampleFitInPlane bytesPerSample planes.plane2 plane2Offset then
      { planes with
        plane2 := writeSample bytesPerSample srcChunk planes.plane2 plane2Offset sampleOffset }
    else planes
  else planes

/-- The loop over the samples of the channel `ch`, from the `i`-th on. -/
def writeChannel (bytesPerSample numChannels ch : Nat) (srcChunk : List UInt8) :
    (turns i written : Nat) → Planes → Planes
  | 0, _, _, planes => planes
  | turns + 1, i, written, planes =>
      let sampleOffset := i * numChannels * bytesPerSample + ch * bytesPerSample
      -- the `break` of the loop
      if sampleOffset + bytesPerSample > srcChunk.length then planes
      else
        writeChannel bytesPerSample numChannels ch srcChunk turns (i + 1)
          (written + bytesPerSample)
          (placeSample bytesPerSample srcChunk planes written sampleOffset)

/-- The loop over the channels; one that the range does not have is an error. -/
def writeChannels (bytesPerSample numChannels samplesPerChannel : Nat) (srcChunk : List UInt8) :
    List Nat → List Planes → Except FlowError Unit × List Planes
  | [], access => (.ok (), access)
  | ch :: chs, access =>
      match access[ch]? with
      | none => (.error .error, access)
      | some planes =>
          writeChannels bytesPerSample numChannels samplesPerChannel srcChunk chs
            (access.set ch
              (writeChannel bytesPerSample numChannels ch srcChunk samplesPerChannel 0 0 planes))

/-- `write_samples_per_channel`. -/
def writeSamplesPerChannel (bytesPerSample numChannels : Nat) (access : List Planes)
    (samplesPerChannel : Nat) (srcChunk : List UInt8) : Except FlowError Unit × List Planes :=
  writeChannels bytesPerSample numChannels samplesPerChannel srcChunk (List.range numChannels)
    access

/-! ### The source -/

/-- `size_of::<f32>()`. -/
def sizeOfF32 : Nat := 4

/-- `chan[offset..offset + size]`, which panics outside of the channel. -/
def slice? (chan : List UInt8) (offset size : Nat) : Option (List UInt8) :=
  if offset + size ≤ chan.length then some ((chan.drop offset).take size) else none

/-- `interleave_audio`.  The number of frames is that of the last channel. -/
def interleaveAudio (samples : List Planes) : Option (List UInt8) := do
  let channels := samples.map Planes.joined
  let totalSamplesPerChannel := (channels.getLast?.getD []).length / sizeOfF32
  let interleaved ← (List.range totalSamplesPerChannel).mapM fun frame =>
    channels.mapM fun chan => slice? chan (frame * sizeOfF32) sizeOfF32
  some interleaved.flatten.flatten

/-! ### One channel -/

variable {bytesPerSample numChannels : Nat} {srcChunk : List UInt8}

/-- The `i`-th sample of a channel in the chunk. -/
def channelSample (bytesPerSample numChannels : Nat) (srcChunk : List UInt8) (ch i : Nat) :
    List UInt8 :=
  word bytesPerSample srcChunk (i * numChannels + ch)

/-- Two slices that hold whole samples, `n` together. -/
structure Planes.Holds (planes : Planes) (bytesPerSample n : Nat) : Prop where
  whole : bytesPerSample ∣ planes.plane1.length
  length : planes.joined.length = n * bytesPerSample

theorem length_writeSample {plane : List UInt8} {written sampleOffset : Nat}
    (hplane : written + bytesPerSample ≤ plane.length)
    (hsample : sampleOffset + bytesPerSample ≤ srcChunk.length) :
    (writeSample bytesPerSample srcChunk plane written sampleOffset).length = plane.length := by
  simp only [writeSample, List.length_append, List.length_take, List.length_drop]
  omega

/-- A sample that fits before the end of the first slice does not reach into the
    second. -/
theorem fits_of_lt {planes : Planes} {n i : Nat} (h : planes.Holds bytesPerSample n)
    (hlt : i * bytesPerSample < planes.plane1.length) :
    (i + 1) * bytesPerSample ≤ planes.plane1.length := by
  obtain ⟨k, hk⟩ := h.whole
  rw [hk, Nat.mul_comm bytesPerSample] at hlt ⊢
  exact Nat.mul_le_mul_right bytesPerSample (Nat.lt_of_mul_lt_mul_right hlt)

/-- **One sample.**  To write a sample into the two slices is to write it into what they
    hold together. -/
theorem joined_placeSample {planes : Planes} {n i sampleOffset : Nat} (hpos : 0 < bytesPerSample)
    (h : planes.Holds bytesPerSample n) (hi : i < n)
    (hsample : sampleOffset + bytesPerSample ≤ srcChunk.length) :
    (placeSample bytesPerSample srcChunk planes (i * bytesPerSample) sampleOffset).joined =
        writeSample bytesPerSample srcChunk planes.joined (i * bytesPerSample) sampleOffset ∧
      (placeSample bytesPerSample srcChunk planes (i * bytesPerSample) sampleOffset).Holds
        bytesPerSample n := by
  have hroom : (i + 1) * bytesPerSample ≤ n * bytesPerSample :=
    Nat.mul_le_mul_right bytesPerSample hi
  have hlength := h.length
  rw [Planes.joined, List.length_append] at hlength
  rw [Nat.add_mul, Nat.one_mul] at hroom
  by_cases hfirst : i * bytesPerSample + bytesPerSample ≤ planes.plane1.length
  · have hplaced : placeSample bytesPerSample srcChunk planes (i * bytesPerSample) sampleOffset =
        { planes with
          plane1 := writeSample bytesPerSample srcChunk planes.plane1 (i * bytesPerSample)
            sampleOffset } := by
      simp [placeSample, doesSampleFitInPlane, hfirst]
    rw [hplaced]
    refine ⟨?_, ⟨?_, ?_⟩⟩
    · simp only [Planes.joined, writeSample, List.append_assoc]
      rw [List.take_append_of_le_length (by omega), List.drop_append_of_le_length (by omega)]
    · simp only [length_writeSample hfirst hsample]
      exact h.whole
    · simp only [Planes.joined, List.length_append, length_writeSample hfirst hsample]
      exact hlength
  · -- the first slice is full, since it ends with a whole sample
    have hfull : planes.plane1.length ≤ i * bytesPerSample := by
      by_contra hlt
      apply hfirst
      have hfits := fits_of_lt h (Nat.lt_of_not_le hlt)
      rwa [Nat.add_mul, Nat.one_mul] at hfits
    have hsecond : i * bytesPerSample - planes.plane1.length + bytesPerSample ≤
        planes.plane2.length := by
      omega
    have hplaced : placeSample bytesPerSample srcChunk planes (i * bytesPerSample) sampleOffset =
        { planes with
          plane2 := writeSample bytesPerSample srcChunk planes.plane2
            (i * bytesPerSample - planes.plane1.length) sampleOffset } := by
      have hlt : i * bytesPerSample < planes.plane1.length + planes.plane2.length := by
        omega
      simp [placeSample, doesSampleFitInPlane, hfirst, hlt, hsecond]
    rw [hplaced]
    refine ⟨?_, ⟨h.whole, ?_⟩⟩
    · have hdrop : i * bytesPerSample + bytesPerSample - planes.plane1.length =
          i * bytesPerSample - planes.plane1.length + bytesPerSample := by
        omega
      have hnil : planes.plane1.drop (i * bytesPerSample + bytesPerSample) = [] :=
        List.drop_of_length_le (by omega)
      simp only [Planes.joined, writeSample]
      rw [List.take_append, List.take_of_length_le hfull, List.drop_append, hnil, hdrop]
      simp only [List.nil_append, List.append_assoc]
    · simp only [Planes.joined, List.length_append, length_writeSample hsecond hsample]
      exact hlength

/-- **One channel.**  Once all its samples are written, a channel has them in a row. -/
theorem joined_writeChannel {ch n : Nat} (hpos : 0 < bytesPerSample) (hch : ch < numChannels)
    (hchunk : srcChunk.length = n * numChannels * bytesPerSample) (turns i : Nat) (planes : Planes)
    (hturns : i + turns = n) (h : planes.Holds bytesPerSample n)
    (hrow : planes.joined.take (i * bytesPerSample) =
      row (channelSample bytesPerSample numChannels srcChunk ch) i) :
    (writeChannel bytesPerSample numChannels ch srcChunk turns i (i * bytesPerSample)
        planes).joined = row (channelSample bytesPerSample numChannels srcChunk ch) n := by
  induction turns generalizing i planes with
  | zero =>
    obtain rfl : i = n := hturns
    rw [writeChannel, ← hrow, List.take_of_length_le h.length.le]
  | succ turns ih =>
    have hi : i < n := by
      omega
    have hoffset : i * numChannels * bytesPerSample + ch * bytesPerSample =
        (i * numChannels + ch) * bytesPerSample := by
      ring
    -- the sample is inside the chunk, so that the loop goes on
    have hsample : (i * numChannels + ch) * bytesPerSample + bytesPerSample ≤ srcChunk.length := by
      have hword : i * numChannels + ch + 1 ≤ n * numChannels := by
        have hframe := Nat.mul_le_mul_right numChannels hi
        rw [Nat.succ_mul] at hframe
        omega
      have hle := Nat.mul_le_mul_right bytesPerSample hword
      rwa [Nat.add_mul _ 1, Nat.one_mul, ← hchunk] at hle
    obtain ⟨hjoined, hholds⟩ := joined_placeSample hpos h hi hsample
    have hnext : i * bytesPerSample + bytesPerSample = (i + 1) * bytesPerSample := by
      ring
    have hroom : (i + 1) * bytesPerSample ≤ planes.joined.length := by
      rw [h.length]
      exact Nat.mul_le_mul_right bytesPerSample hi
    rw [writeChannel]
    simp only [hoffset, if_neg (Nat.not_lt.mpr hsample), hnext]
    apply ih (i + 1) _ (by omega) hholds
    rw [hjoined, row_succ, ← hrow, writeSample]
    have hwritten : (planes.joined.take (i * bytesPerSample) ++
        channelSample bytesPerSample numChannels srcChunk ch i).length =
          (i + 1) * bytesPerSample := by
      rw [List.length_append, List.length_take, channelSample, length_word, ← hnext]
      · omega
      · rw [Nat.add_mul _ 1, Nat.one_mul]
        exact hsample
    rw [← hwritten]
    exact List.take_left

/-! ### All channels -/

/-- The loop writes every channel it comes to, and no other. -/
theorem writeChannels_eq (bytesPerSample numChannels samplesPerChannel : Nat)
    (srcChunk : List UInt8) (chs : List Nat) (access : List Planes) (hnodup : chs.Nodup)
    (hchs : ∀ ch ∈ chs, ch < access.length) :
    ∃ access', writeChannels bytesPerSample numChannels samplesPerChannel srcChunk chs access =
        (.ok (), access') ∧
      access'.length = access.length ∧
      ∀ ch, access'[ch]? = if ch ∈ chs then
        access[ch]?.map
          (writeChannel bytesPerSample numChannels ch srcChunk samplesPerChannel 0 0)
        else access[ch]? := by
  induction chs generalizing access with
  | nil => exact ⟨access, rfl, rfl, by simp⟩
  | cons ch chs ih =>
    obtain ⟨hnotin, hrest⟩ := List.nodup_cons.mp hnodup
    have hlt := hchs ch List.mem_cons_self
    have hget : access[ch]? = some access[ch] := List.getElem?_eq_getElem hlt
    obtain ⟨access', hwritten, hlength, hchannels⟩ := ih
      (access.set ch (writeChannel bytesPerSample numChannels ch srcChunk samplesPerChannel 0 0
        access[ch])) hrest
      (by
        intro other hother
        rw [List.length_set]
        exact hchs other (List.mem_cons_of_mem ch hother))
    refine ⟨access', ?_, ?_, ?_⟩
    · rw [writeChannels, hget]
      exact hwritten
    · rw [hlength, List.length_set]
    · intro other
      rw [hchannels]
      by_cases hsame : other = ch
      · subst hsame
        simp [hnotin, hlt]
      · simp [hsame, Ne.symm hsame]

/-- **The sink.**  Every channel of the range has its samples of the chunk in a row. -/
theorem writeSamplesPerChannel_eq {access : List Planes} {n : Nat} (hpos : 0 < bytesPerSample)
    (haccess : access.length = numChannels)
    (hplanes : ∀ planes ∈ access, planes.Holds bytesPerSample n)
    (hchunk : srcChunk.length = n * numChannels * bytesPerSample) :
    ∃ written, writeSamplesPerChannel bytesPerSample numChannels access n srcChunk =
        (.ok (), written) ∧
      written.map Planes.joined = (List.range numChannels).map fun ch =>
        row (channelSample bytesPerSample numChannels srcChunk ch) n := by
  obtain ⟨written, hwritten, hlength, hchannels⟩ :=
    writeChannels_eq bytesPerSample numChannels n srcChunk (List.range numChannels) access
      List.nodup_range (fun ch hch => haccess ▸ List.mem_range.mp hch)
  refine ⟨written, hwritten, ?_⟩
  apply List.ext_getElem?
  intro ch
  rw [List.getElem?_map, hchannels]
  by_cases hch : ch < numChannels
  · have hget : access[ch]? = some access[ch] := List.getElem?_eq_getElem (haccess ▸ hch)
    have hjoined := joined_writeChannel hpos hch hchunk n 0 access[ch] (Nat.zero_add n)
      (hplanes _ (List.getElem_mem _)) (by simp)
    rw [Nat.zero_mul] at hjoined
    simp [hch, hget, hjoined]
  · simp [hch, haccess]

/-- Slices that are all inside of their channels. -/
theorem mapM_eq_some {α β : Type} {f : α → Option β} {g : α → β} {xs : List α}
    (h : ∀ x ∈ xs, f x = some (g x)) : xs.mapM f = some (xs.map g) := by
  induction xs with
  | nil => rfl
  | cons x xs ih =>
    rw [List.mapM_cons, h x List.mem_cons_self, ih fun y hy => h y (List.mem_cons_of_mem x hy)]
    rfl

theorem slice?_row {words : Nat → List UInt8} {n frame : Nat}
    (hwords : ∀ i < n, (words i).length = sizeOfF32) (hframe : frame < n) :
    slice? (row words n) (frame * sizeOfF32) sizeOfF32 = some (words frame) := by
  have hle : (frame + 1) * sizeOfF32 ≤ n * sizeOfF32 := Nat.mul_le_mul_right sizeOfF32 hframe
  rw [Nat.add_mul, Nat.one_mul] at hle
  rw [slice?, length_row hwords, if_pos hle]
  exact congrArg some (word_row hwords hframe)

/-- **The source.**  Channels that are rows of samples are interleaved frame by frame. -/
theorem interleaveAudio_eq {samples : List Planes} {words : Nat → Nat → List UInt8} {n : Nat}
    (hpos : 0 < numChannels)
    (hwords : ∀ ch < numChannels, ∀ i < n, (words ch i).length = sizeOfF32)
    (hsamples : samples.map Planes.joined =
      (List.range numChannels).map fun ch => row (words ch) n) :
    interleaveAudio samples = some (row (fun i => row (fun ch => words ch i) numChannels) n) := by
  have hlast : (((List.range numChannels).map fun ch => row (words ch) n).getLast?.getD []).length /
      sizeOfF32 = n := by
    obtain ⟨count, rfl⟩ := Nat.exists_eq_succ_of_ne_zero hpos.ne'
    rw [Nat.succ_eq_add_one, List.range_succ, List.map_append, List.map_singleton,
      List.getLast?_concat, Option.getD_some, length_row (hwords count (Nat.lt_succ_self count))]
    exact Nat.mul_div_cancel n (by decide)
  have hframes : ∀ frame ∈ List.range n,
      ((List.range numChannels).map fun ch => row (words ch) n).mapM
          (fun chan => slice? chan (frame * sizeOfF32) sizeOfF32) =
        some ((List.range numChannels).map fun ch => words ch frame) := by
    intro frame hframe
    rw [List.mapM_map]
    apply mapM_eq_some
    intro ch hch
    exact slice?_row (hwords ch (List.mem_range.mp hch)) (List.mem_range.mp hframe)
  simp only [interleaveAudio, hsamples, hlast]
  rw [mapM_eq_some hframes]
  refine congrArg some ?_
  rw [List.flatten_flatten, List.map_map]
  simp only [row, List.flatMap, Function.comp_def]

/-! ### There and back -/

/-- **There and back.**  For any channels, any chunk of whole frames of 32-bit samples and
    any slices that hold as many whole samples, what the source reads from the slices
    the sink has written is the chunk. -/
theorem interleaveAudio_writeSamplesPerChannel (access : List Planes) (chunk : List UInt8)
    (n : Nat) (haccess : access ≠ [])
    (hplanes : ∀ planes ∈ access, planes.Holds sizeOfF32 n)
    (hchunk : chunk.length = n * access.length * sizeOfF32) :
    ∃ written, writeSamplesPerChannel sizeOfF32 access.length access n chunk = (.ok (), written) ∧
      interleaveAudio written = some chunk := by
  have hpos : 0 < access.length := List.length_pos_iff.mpr haccess
  obtain ⟨written, hwritten, hjoined⟩ :=
    writeSamplesPerChannel_eq (by decide) rfl hplanes hchunk
  refine ⟨written, hwritten, ?_⟩
  rw [interleaveAudio_eq hpos _ hjoined]
  · simp only [channelSample]
    rw [row_row, row_word hchunk]
  · intro ch hch i hi
    apply length_word
    rw [hchunk]
    apply Nat.mul_le_mul_right
    have hframe := Nat.mul_le_mul_right access.length hi
    rw [Nat.succ_mul] at hframe
    omega

/-- Two channels of three samples, the range wrapping behind the first of them. -/
def wrappedRange : List Planes :=
  [{ plane1 := [0, 0, 0, 0], plane2 := [0, 0, 0, 0, 0, 0, 0, 0] },
    { plane1 := [0, 0, 0, 0], plane2 := [0, 0, 0, 0, 0, 0, 0, 0] }]

theorem interleaveAudio_wrapped :
    ∃ written, writeSamplesPerChannel sizeOfF32 2 wrappedRange 3 ((List.range 24).map UInt8.ofNat) =
        (.ok (), written) ∧
      interleaveAudio written = some ((List.range 24).map UInt8.ofNat) := by
  have hplanes : ∀ planes ∈ wrappedRange, planes.Holds sizeOfF32 3 := by
    intro planes hplanes
    simp only [wrappedRange, List.mem_cons, List.not_mem_nil, or_false, or_self] at hplanes
    subst hplanes
    exact ⟨by decide, by decide⟩
  exact interleaveAudio_writeSamplesPerChannel wrappedRange ((List.range 24).map UInt8.ofNat) 3
    (by simp [wrappedRange]) hplanes (by simp [wrappedRange, sizeOfF32])

/-! ### The slices of a range -/

section Range

variable {flow : ContinuousFlowData} {index count : UInt64}

open MediaExchange.ByteMemory (load)
open MediaExchange.ContinuousRoundTrip (fragmentBytes)

/-- The slices of all channels. -/
def planesOf (flow : ContinuousFlowData) (slices : WrappedMultiBufferSlice) : List Planes :=
  (List.range slices.count.toNat).map fun ch =>
    { plane1 := load flow.channelData (slices.fragment0.pointer.toNat + slices.stride.toNat * ch)
        slices.fragment0.size.toNat
      plane2 := load flow.channelData (slices.fragment1.pointer.toNat + slices.stride.toNat * ch)
        slices.fragment1.size.toNat }

theorem joined_planesOf (flow : ContinuousFlowData) (slices : WrappedMultiBufferSlice) :
    (planesOf flow slices).map Planes.joined =
      (List.range slices.count.toNat).map (fragmentBytes flow slices) := by
  rw [planesOf, List.map_map]
  rfl

/-- The slices of a range of 32-bit samples hold as many samples as the range has,
    wherever it wraps. -/
theorem holds_planesOf (hword : flow.sampleWordSize.toNat = sizeOfF32) (hpos : 0 < count.toNat)
    (hhalf : count.toNat ≤ flow.bufferLength.toNat / 2)
    (hwrap : WrapsUnnoticed flow.bufferLength.toNat index.toNat count.toNat) :
    ∀ planes ∈ planesOf flow (payloadBufferSlices flow index count),
      planes.Holds sizeOfF32 count.toNat := by
  intro planes hplanes
  obtain ⟨ch, -, rfl⟩ := List.mem_map.mp hplanes
  obtain ⟨-, hsize, -⟩ := toNat_fragment_sizes hpos hhalf hwrap
  have hsizes := fragment_sizes_add hpos hhalf hwrap
  constructor
  · simp only [ByteMemory.length_load, hsize, hword]
    exact Nat.dvd_mul_right _ _
  · simp only [Planes.joined, List.length_append, ByteMemory.length_load, hsizes, hword]
    exact Nat.mul_comm _ _

end Range

end MediaExchange.InterleavedAudio
