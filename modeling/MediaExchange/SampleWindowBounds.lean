/-
  MediaExchange/SampleWindowBounds.lean
  =====================================
  **Fragments within the channel buffer.**

  A range of samples starts at one offset of its ring and ends at another.  Its first
  fragment runs up to the end offset if that is the greater one, and up to the end of
  the ring otherwise.  The empty range starts where it ends, and near the end of the
  index space the start offset is computed from a sum that has wrapped: in both cases
  the first fragment can be longer than the whole range, and then the length of the
  second one wraps.

  `contained_iff` says for which ranges this does not happen.
-/
import MediaExchange.ContinuousLayout

namespace MediaExchange.SampleWindowBounds

/-- Both fragments are whole samples of the ring, they do not overlap, and together
    they are as long as the range. -/
structure Contained (flow : ContinuousFlowData) (count : UInt64)
    (slices : WrappedMultiBufferSlice) : Prop where
  wholeSamples : ∃ first second : Nat,
    slices.fragment0.size.toNat = flow.sampleWordSize.toNat * first ∧
      slices.fragment1.size.toNat = flow.sampleWordSize.toNat * second
  first_inside : slices.fragment0.pointer.toNat + slices.fragment0.size.toNat ≤
    flow.sampleWordSize.toNat * flow.bufferLength.toNat
  second_inside : slices.fragment1.pointer.toNat + slices.fragment1.size.toNat ≤
    flow.sampleWordSize.toNat * flow.bufferLength.toNat
  apart : ∀ address,
    ¬ (slices.fragment0.pointer.toNat ≤ address ∧
      address < slices.fragment0.pointer.toNat + slices.fragment0.size.toNat ∧
      slices.fragment1.pointer.toNat ≤ address ∧
      address < slices.fragment1.pointer.toNat + slices.fragment1.size.toNat)
  total : slices.fragment0.size.toNat + slices.fragment1.size.toNat =
    flow.sampleWordSize.toNat * count.toNat
  /-- From one channel's ring to the next it is one ring. -/
  stride : slices.stride.toNat = flow.sampleWordSize.toNat * flow.bufferLength.toNat

/-- Unless the sum `index + bufferLength - count` wraps, the range is not empty; if it
    wraps, what remains of it is below the end offset. -/
def InOrder (bufferLength index count : Nat) : Prop :=
  if index + bufferLength - count < 2 ^ 64 then 0 < count
  else index + bufferLength - count - 2 ^ 64 < index % bufferLength

instance (bufferLength index count : Nat) : Decidable (InOrder bufferLength index count) :=
  inferInstanceAs (Decidable (ite _ _ _))

/-! ### The first fragment -/

section First

variable {bufferLength index count : UInt64}

/-- Of a sum that has wrapped no whole ring remains. -/
theorem startOffset_of_wrap (hhalf : count.toNat ≤ bufferLength.toNat / 2)
    (hwrap : 2 ^ 64 ≤ index.toNat + bufferLength.toNat - count.toNat) :
    (startOffset bufferLength index count).toNat =
      index.toNat + bufferLength.toNat - count.toNat - 2 ^ 64 := by
  have hindex := index.toNat_lt
  have hlength := bufferLength.toNat_lt
  obtain ⟨d, hd⟩ := Nat.exists_eq_add_of_le hwrap
  have hlt : d < bufferLength.toNat := by omega
  rw [toNat_startOffset (by omega), hd, Nat.add_mod_left, Nat.add_sub_cancel_left,
    Nat.mod_eq_of_lt (hlt.trans hlength), Nat.mod_eq_of_lt hlt]

/-- Without a wrap the start offset moved on by `count` is the end offset. -/
theorem startOffset_add (hhalf : count.toNat ≤ bufferLength.toNat / 2)
    (hroom : index.toNat + bufferLength.toNat - count.toNat < 2 ^ 64) :
    ((startOffset bufferLength index count).toNat + count.toNat) % bufferLength.toNat =
      index.toNat % bufferLength.toNat := by
  rw [toNat_startOffset (by omega), Nat.mod_eq_of_lt hroom, Nat.mod_add_mod,
    show index.toNat + bufferLength.toNat - count.toNat + count.toNat =
      index.toNat + bufferLength.toNat by omega, Nat.add_mod_right]

theorem startOffset_lt (index count : UInt64) (hpos : 0 < bufferLength.toNat) :
    (startOffset bufferLength index count).toNat < bufferLength.toNat := by
  rw [startOffset, UInt64.toNat_mod]
  exact Nat.mod_lt _ hpos

/-- The first fragment ends within the ring. -/
theorem startOffset_add_firstLength_le (index : UInt64) (hpos : 0 < bufferLength.toNat)
    (hhalf : count.toNat ≤ bufferLength.toNat / 2) :
    (startOffset bufferLength index count).toNat + (firstLength bufferLength index count).toNat ≤
      bufferLength.toNat := by
  have hstart := startOffset_lt index count hpos
  rw [toNat_firstLength hpos]
  split
  · next hlt =>
    rcases Nat.lt_or_ge (index.toNat + bufferLength.toNat - count.toNat) (2 ^ 64) with hroom | hwrap
    · -- a range that reaches the end of the ring has its end offset in front of its start
      have hend := startOffset_add hhalf hroom
      by_contra hover
      rw [Nat.mod_eq_sub_mod (by omega), Nat.mod_eq_of_lt (by omega)] at hend
      omega
    · have hindex := index.toNat_lt
      rw [startOffset_of_wrap hhalf hwrap]
      omega
  · omega

theorem firstLength_le_iff (hpos : 0 < bufferLength.toNat)
    (hhalf : count.toNat ≤ bufferLength.toNat / 2) :
    (firstLength bufferLength index count).toNat ≤ count.toNat ↔
      InOrder bufferLength.toNat index.toNat count.toNat := by
  have hstart := startOffset_lt index count hpos
  rw [toNat_firstLength hpos]
  unfold InOrder
  rcases Nat.lt_or_ge (index.toNat + bufferLength.toNat - count.toNat) (2 ^ 64) with hroom | hwrap
  · have hend := startOffset_add hhalf hroom
    rw [if_pos hroom]
    constructor
    · intro hle
      by_contra hempty
      have hzero : count.toNat = 0 := by omega
      rw [hzero, Nat.add_zero, Nat.mod_eq_of_lt hstart] at hend
      rw [if_neg (by omega)] at hle
      omega
    · intro hcount
      split
      · exact Nat.le_refl _
      · next hbehind =>
        by_contra hshort
        rw [Nat.mod_eq_of_lt (by omega)] at hend
        omega
  · have hindex := index.toNat_lt
    rw [if_neg (Nat.not_lt.mpr hwrap), startOffset_of_wrap hhalf hwrap]
    constructor
    · intro hle
      by_contra hbehind
      rw [if_neg hbehind] at hle
      omega
    · intro hlt
      rw [if_pos hlt]

end First

/-! ### The two fragments -/

section Fragments

variable {flow : ContinuousFlowData} {index count : UInt64}

theorem contained_of_le (hhalf : count.toNat ≤ flow.bufferLength.toNat / 2)
    (hle : (firstLength flow.channelBufferLength index count).toNat ≤ count.toNat) :
    Contained flow count (payloadBufferSlices flow index count) := by
  have hlength := flow.toNat_channelBufferLength
  have hpos := flow.bufferLength_pos
  have hinside := startOffset_add_firstLength_le index
    (hlength.symm ▸ hpos) (hlength.symm ▸ hhalf)
  have hfirst := @toNat_firstLength flow.channelBufferLength index count (hlength.symm ▸ hpos)
  have hsecond : (secondLength flow.channelBufferLength index count).toNat =
      count.toNat - (firstLength flow.channelBufferLength index count).toNat :=
    UInt64.toNat_sub_of_le _ _ (UInt64.le_iff_toNat_le.mpr hle)
  rw [hlength] at hinside hfirst
  -- what is left for the second fragment ends before the first one starts
  have hbefore : (secondLength flow.channelBufferLength index count).toNat ≤
      (startOffset flow.channelBufferLength index count).toNat := by
    rw [hsecond, hfirst]
    split <;> omega
  have hpointer0 : (payloadBufferSlices flow index count).fragment0.pointer.toNat =
      flow.sampleWordSize.toNat * (startOffset flow.channelBufferLength index count).toNat :=
    toNat_sampleWordSize_mul (by omega)
  have hsize0 : (payloadBufferSlices flow index count).fragment0.size.toNat =
      flow.sampleWordSize.toNat * (firstLength flow.channelBufferLength index count).toNat :=
    toNat_sampleWordSize_mul (by omega)
  have hpointer1 : (payloadBufferSlices flow index count).fragment1.pointer.toNat = 0 := rfl
  have hsize1 : (payloadBufferSlices flow index count).fragment1.size.toNat =
      flow.sampleWordSize.toNat * (secondLength flow.channelBufferLength index count).toNat :=
    toNat_sampleWordSize_mul (by omega)
  refine ⟨⟨_, _, hsize0, hsize1⟩, ?_, ?_, ?_, ?_, ?_⟩
  · rw [hpointer0, hsize0, ← Nat.mul_add]
    exact Nat.mul_le_mul_left _ hinside
  · rw [hpointer1, hsize1, Nat.zero_add]
    exact Nat.mul_le_mul_left _ (by omega)
  · rintro address ⟨hfrom, -, -, hto⟩
    rw [hpointer0] at hfrom
    rw [hpointer1, hsize1, Nat.zero_add] at hto
    have hmul := Nat.mul_le_mul_left flow.sampleWordSize.toNat hbefore
    omega
  · rw [hsize0, hsize1, hsecond, ← Nat.mul_add, Nat.add_sub_cancel' hle]
  · change (flow.sampleWordSize * flow.channelBufferLength).toNat = _
    rw [toNat_sampleWordSize_mul hlength.le, hlength]

/-- A second fragment whose size has wrapped is longer than any ring. -/
theorem not_contained_of_overlong (hhalf : count.toNat ≤ flow.bufferLength.toNat / 2)
    (hshort : count.toNat < (firstLength flow.channelBufferLength index count).toNat) :
    ¬ Contained flow count (payloadBufferSlices flow index count) := by
  intro hcontained
  have hlength := flow.toNat_channelBufferLength
  have hinside := startOffset_add_firstLength_le index
    (hlength.symm ▸ flow.bufferLength_pos) (hlength.symm ▸ hhalf)
  rw [hlength] at hinside
  have hsize := size_of_overlong hshort (by omega)
  have hmapped := flow.channel_mapped
  have hsecond := hcontained.second_inside
  omega

theorem contained_iff_inOrder (hhalf : count.toNat ≤ flow.bufferLength.toNat / 2) :
    Contained flow count (payloadBufferSlices flow index count) ↔
      InOrder flow.bufferLength.toNat index.toNat count.toNat := by
  have hlength := flow.toNat_channelBufferLength
  rw [← hlength, ← firstLength_le_iff (hlength.symm ▸ flow.bufferLength_pos)
    (hlength.symm ▸ hhalf)]
  constructor
  · intro hcontained
    by_contra hover
    exact not_contained_of_overlong hhalf (Nat.not_le.mp hover) hcontained
  · intro hle
    exact contained_of_le hhalf hle

end Fragments

/-- **Fragments within the channel buffer.**  Of any range that the writer opens or the
    reader accepts, the fragments are whole samples within the ring, do not overlap
    and are together as long as the range exactly when its sum does not wrap and it
    is not empty, or what remains of the sum is below the end offset. -/
theorem contained_iff (flow : ContinuousFlowData) (index count : UInt64)
    (slices : WrappedMultiBufferSlice) :
    (∀ writer writer' : PosixContinuousFlowWriter,
      writer.openSamples flow index count = (.statusOk, some slices, writer') →
        (Contained flow count slices ↔
          InOrder flow.bufferLength.toNat index.toNat count.toNat)) ∧
    ∀ flowValid, flow.getSamples flowValid index count = .ok slices →
      (Contained flow count slices ↔
        InOrder flow.bufferLength.toNat index.toNat count.toNat) := by
  constructor
  · intro writer writer' hopen
    obtain ⟨hhalf, hslices, -⟩ := PosixContinuousFlowWriter.openSamples_ok hopen
    obtain rfl := Option.some.inj hslices
    exact contained_iff_inOrder hhalf
  · intro flowValid hread
    obtain ⟨hhead, -, hhalf, rfl⟩ := ContinuousFlowData.getSamplesImpl_eq_ok.mp
      (ContinuousFlowData.getSamples_eq_ok.mp hread)
    exact contained_iff_inOrder (by omega)

/-- A ring of two samples of two bytes. -/
def twoSamples : ContinuousFlowData where
  channelCount := 1
  bufferLength := 2
  sampleWordSize := 2
  maxCommitBatchSizeHint := 1
  maxSyncBatchSizeHint := 1
  headIndex := 3
  syncCounter := 0
  channelData _ := 0
  channelCount_pos := Nat.one_pos
  bufferLength_pos := Nat.two_pos
  sampleWordSize_pos := Nat.two_pos
  mapped := by decide

/-- The empty range at index 3 is accepted by both.  Its first fragment is the last
    sample of the ring, and the size of the second is that of minus one sample. -/
theorem empty_range_leaves_ring :
    ∃ slices writer,
      (PosixContinuousFlowWriter.init twoSamples).openSamples twoSamples 3 0 =
        (.statusOk, some slices, writer) ∧
      twoSamples.getSamples true 3 0 = .ok slices ∧
      slices.fragment0.size = 2 ∧ slices.fragment1.size = 18446744073709551614 ∧
      ¬ Contained twoSamples 0 slices := by
  refine ⟨_, _, rfl, rfl, rfl, rfl, ?_⟩
  exact not_contained_of_overlong (by decide) (by decide)

/-- The sample at index 3 alone stays in the ring. -/
theorem one_sample_contained :
    (PosixContinuousFlowWriter.init twoSamples).openSamples twoSamples 3 1 =
        (.statusOk, some (payloadBufferSlices twoSamples 3 1),
          { PosixContinuousFlowWriter.init twoSamples with currentIndex := 3 }) ∧
      twoSamples.getSamples true 3 1 = .ok (payloadBufferSlices twoSamples 3 1) ∧
      Contained twoSamples 1 (payloadBufferSlices twoSamples 3 1) := by
  refine ⟨rfl, rfl, ?_⟩
  have hiff := (contained_iff twoSamples 3 1 (payloadBufferSlices twoSamples 3 1)).2 true rfl
  exact hiff.mpr (by decide)

end MediaExchange.SampleWindowBounds
