/-
  MediaExchange/ContinuousWindows.lean
  ====================================
  **The readable and the writable part of a continuous flow.**

  A reader may ask for the half buffer of samples up to the head, a writer may
  open up to half a buffer past it.  Together these are at most `bufferLength`
  consecutive samples, which have different slots.  What can go wrong is the
  arithmetic at the end of the index space: once `head + bufferLength` exceeds
  64 bits the start offset of a range is off by `2 ^ 64 % bufferLength`.

  `windows_disjoint_iff` says exactly for which heads and buffer lengths no
  slot is ever handed to both.
-/
import MediaExchange.ContinuousLayout
import Mathlib.Data.Set.Basic

namespace MediaExchange.ContinuousWindows

/-- The slots of a channel's ring that a range gives access to: those of the bytes
    its two fragments extend over. -/
def handedSlots (flow : ContinuousFlowData) (slices : WrappedMultiBufferSlice) (channel : Nat) :
    Set Nat :=
  {slot | ∃ offset < slices.fragment0.size.toNat + slices.fragment1.size.toNat,
    (byteAddress slices channel offset - slices.stride.toNat * channel) /
      flow.sampleWordSize.toNat = slot}

/-- Whatever a reader may read while the head is where it is shares no slot, in any
    channel, with whatever a writer may open right after the head. -/
def WindowsDisjoint (flow : ContinuousFlowData) : Prop :=
  ∀ (flowValid : Bool) (readIndex readCount : UInt64) (readSlices : WrappedMultiBufferSlice)
    (writer writer' : PosixContinuousFlowWriter) (index count : UInt64)
    (writeSlices : WrappedMultiBufferSlice),
    0 < readCount.toNat → flow.getSamples flowValid readIndex readCount = .ok readSlices →
    0 < count.toNat → index.toNat = flow.headIndex.toNat + count.toNat →
    writer.openSamples flow index count = (.statusOk, some writeSlices, writer') →
    ∀ channel < flow.channelCount.toNat,
      ∀ slot ∈ handedSlots flow readSlices channel,
        slot ∉ handedSlots flow writeSlices channel

variable {flow : ContinuousFlowData} {index count : UInt64}

/-! ### Windows that do not wrap -/

theorem mem_handedSlots_iff (hpos : 0 < count.toNat)
    (hhalf : count.toNat ≤ flow.bufferLength.toNat / 2)
    (hwrap : WrapsUnnoticed flow.bufferLength.toNat index.toNat count.toNat) {channel slot : Nat} :
    slot ∈ handedSlots flow (payloadBufferSlices flow index count) channel ↔
      ∃ k < count.toNat, sampleSlot flow (index.toNat - count.toNat + 1 + (k : Nat)) = slot := by
  have hword := flow.sampleWordSize_pos
  have hslot : ∀ k < count.toNat, ∀ b < flow.sampleWordSize.toNat,
      (byteAddress (payloadBufferSlices flow index count) channel
          (flow.sampleWordSize.toNat * k + b) -
        (payloadBufferSlices flow index count).stride.toNat * channel) /
          flow.sampleWordSize.toNat =
        sampleSlot flow (index.toNat - count.toNat + 1 + (k : Nat)) := by
    intro k hk b hb
    rw [byteAddress_eq hpos hhalf hwrap channel hk hb,
      (toNat_fragment_sizes hpos hhalf hwrap).2.2.2.2, sampleCell, Nat.mul_add,
      Nat.mul_assoc, Nat.add_assoc, Nat.add_sub_cancel_left, Nat.mul_add_div hword,
      Nat.div_eq_of_lt hb, Nat.add_zero]
  have hsize := fragment_sizes_add hpos hhalf hwrap
  constructor
  · rintro ⟨offset, hoffset, rfl⟩
    rw [hsize] at hoffset
    have hk : offset / flow.sampleWordSize.toNat < count.toNat := by
      rw [Nat.div_lt_iff_lt_mul hword, Nat.mul_comm]
      exact hoffset
    refine ⟨_, hk, ?_⟩
    rw [← hslot _ hk _ (Nat.mod_lt offset hword), Nat.div_add_mod]
  · rintro ⟨k, hk, rfl⟩
    refine ⟨flow.sampleWordSize.toNat * k, ?_, hslot k hk 0 hword⟩
    rw [hsize]
    exact (Nat.mul_lt_mul_left hword).mpr hk

theorem eq_of_sampleSlot_eq {j j' : Int} (hslot : sampleSlot flow j = sampleSlot flow j')
    (hlt : j < j' + flow.bufferLength.toNat) (hlt' : j' < j + flow.bufferLength.toNat) :
    j = j' := by
  apply separates_sampleCell flow 0 flow.sampleWordSize_pos j j' _ hlt hlt'
  unfold sampleCell
  rw [hslot]

theorem windowsDisjoint_of_wrapsUnnoticed
    (hwrap : ∀ index count : Nat, 0 < count → index ≤ flow.headIndex.toNat + count →
      WrapsUnnoticed flow.bufferLength.toNat index count) : WindowsDisjoint flow := by
  intro flowValid readIndex readCount readSlices writer writer' index count writeSlices
    hreadPos hread hpos hindex hopen channel _
  obtain ⟨hhead, hle, hreadHalf, rfl⟩ := ContinuousFlowData.getSamplesImpl_eq_ok.mp
    (ContinuousFlowData.getSamples_eq_ok.mp hread)
  obtain ⟨hhalf, hslices, -⟩ := PosixContinuousFlowWriter.openSamples_ok hopen
  obtain rfl := Option.some.inj hslices
  intro slot hreader hwriter
  rw [mem_handedSlots_iff hreadPos (by omega) (hwrap _ _ hreadPos (by omega))] at hreader
  rw [mem_handedSlots_iff hpos hhalf (hwrap _ _ hpos (by omega))] at hwriter
  obtain ⟨k, hk, rfl⟩ := hreader
  obtain ⟨k', hk', hslot⟩ := hwriter
  -- the read sample is at most the head, the written one lies behind it
  have heq := eq_of_sampleSlot_eq hslot (by omega) (by omega)
  omega

/-! ### Windows at the end of the index space -/

section Wrapped

/-- Every range, wrapped or not, starts in the slot of its start offset. -/
theorem startOffset_mem_handedSlots (flow : ContinuousFlowData) (index count : UInt64)
    (hpos : 0 < count.toNat) (hhalf : count.toNat ≤ flow.bufferLength.toNat / 2) (channel : Nat) :
    (startOffset flow.channelBufferLength index count).toNat ∈
      handedSlots flow (payloadBufferSlices flow index count) channel := by
  have hword := flow.sampleWordSize_pos
  have hlength := flow.toNat_channelBufferLength
  have hstart : (startOffset flow.channelBufferLength index count).toNat <
      flow.bufferLength.toNat := by
    rw [startOffset, UInt64.toNat_mod, hlength]
    exact Nat.mod_lt _ flow.bufferLength_pos
  have hfirst : 0 < (firstLength flow.channelBufferLength index count).toNat ∧
      (firstLength flow.channelBufferLength index count).toNat ≤ flow.bufferLength.toNat := by
    rw [toNat_firstLength (by rw [hlength]; exact flow.bufferLength_pos), hlength]
    split <;> omega
  have hpointer : (payloadBufferSlices flow index count).fragment0.pointer.toNat =
      flow.sampleWordSize.toNat * (startOffset flow.channelBufferLength index count).toNat :=
    toNat_sampleWordSize_mul hstart.le
  have hsize : 0 < (payloadBufferSlices flow index count).fragment0.size.toNat := by
    change 0 < (flow.sampleWordSize * firstLength flow.channelBufferLength index count).toNat
    rw [toNat_sampleWordSize_mul hfirst.2]
    exact Nat.mul_pos hword hfirst.1
  refine ⟨0, by omega, ?_⟩
  rw [byteAddress, if_pos hsize, hpointer, Nat.add_zero, Nat.add_sub_cancel,
    Nat.mul_div_cancel_left _ hword]

/-- Where the fragment in front is longer than the whole range, the length of the
    second one wraps and it extends over all slots. -/
theorem mem_handedSlots_of_overlong (hshort : count.toNat <
      (firstLength flow.channelBufferLength index count).toNat)
    (hfirst : (firstLength flow.channelBufferLength index count).toNat ≤ flow.bufferLength.toNat)
    {slot : Nat} (hslot : slot < flow.bufferLength.toNat) (channel : Nat) :
    slot ∈ handedSlots flow (payloadBufferSlices flow index count) channel := by
  have hword := flow.sampleWordSize_pos
  have hmapped := flow.channel_mapped
  have hsize := size_of_overlong hshort hfirst
  have hslotByte : flow.sampleWordSize.toNat * slot <
      flow.sampleWordSize.toNat * flow.bufferLength.toNat := (Nat.mul_lt_mul_left hword).mpr hslot
  refine ⟨(payloadBufferSlices flow index count).fragment0.size.toNat +
    flow.sampleWordSize.toNat * slot, by omega, ?_⟩
  rw [byteAddress, if_neg (by omega), Nat.add_sub_cancel_left]
  have hpointer : (payloadBufferSlices flow index count).fragment1.pointer.toNat = 0 := rfl
  rw [hpointer, Nat.zero_add, Nat.add_sub_cancel_left, Nat.mul_div_cancel_left _ hword]

theorem not_windowsDisjoint_of_mem {readIndex readCount : UInt64} {slot : Nat}
    (hreadPos : 0 < readCount.toNat) (hhead : readIndex.toNat ≤ flow.headIndex.toNat)
    (hle : readCount.toNat ≤ readIndex.toNat)
    (hreadHalf : flow.headIndex.toNat + readCount.toNat ≤
      readIndex.toNat + flow.bufferLength.toNat / 2)
    (hpos : 0 < count.toNat) (hhalf : count.toNat ≤ flow.bufferLength.toNat / 2)
    (hindex : index.toNat = flow.headIndex.toNat + count.toNat)
    (hreader : slot ∈ handedSlots flow (payloadBufferSlices flow readIndex readCount) 0)
    (hwriter : slot ∈ handedSlots flow (payloadBufferSlices flow index count) 0) :
    ¬ WindowsDisjoint flow := by
  intro hdisjoint
  have hread : flow.getSamples true readIndex readCount =
      .ok (payloadBufferSlices flow readIndex readCount) :=
    ContinuousFlowData.getSamples_eq_ok.mpr
      (ContinuousFlowData.getSamplesImpl_eq_ok.mpr ⟨hhead, hle, hreadHalf, rfl⟩)
  have hno := hdisjoint true _ _ _ (.init flow) _ _ _ _ hreadPos hread hpos hindex
    (PosixContinuousFlowWriter.openSamples_of_le _ hhalf) 0 flow.channelCount_pos
  exact hno slot hreader hwriter

theorem exists_toNat_eq {n : Nat} (h : n < 2 ^ 64) : ∃ i : UInt64, i.toNat = n :=
  ⟨UInt64.ofNat n, UInt64.toNat_ofNat_of_lt' h⟩

/-- Behind a head at distance `d + 1` from the wrapped end of its ring, the next range
    starts in slot `d`, no matter how long it is. -/
theorem startOffset_next {d : Nat} (hd : flow.headIndex.toNat + flow.bufferLength.toNat = 2 ^ 64 + d)
    (hlt : d < flow.bufferLength.toNat)
    (hhalf : count.toNat ≤ flow.bufferLength.toNat / 2)
    (hindex : index.toNat = flow.headIndex.toNat + count.toNat) :
    (startOffset flow.channelBufferLength index count).toNat = d := by
  have hlength := flow.toNat_channelBufferLength
  have hbufferBound := flow.bufferLength.toNat_lt
  rw [toNat_startOffset (by omega), hlength,
    show index.toNat + flow.bufferLength.toNat - count.toNat = 2 ^ 64 + d by omega,
    Nat.add_mod_left, Nat.mod_eq_of_lt (a := d) (by omega), Nat.mod_eq_of_lt hlt]

/-- If the end offset of the next range is not behind its start offset, the range is
    handed out with an overlong first fragment. -/
theorem not_windowsDisjoint_of_overlong {d : Nat}
    (hd : flow.headIndex.toNat + flow.bufferLength.toNat = 2 ^ 64 + d)
    (hpos : 0 < count.toNat) (hhalf : count.toNat ≤ flow.bufferLength.toNat / 2)
    (hindex : index.toNat = flow.headIndex.toNat + count.toNat)
    (hend : index.toNat % flow.bufferLength.toNat ≤ d) : ¬ WindowsDisjoint flow := by
  have hlength := flow.toNat_channelBufferLength
  have hbound := index.toNat_lt
  have hbufferBound := flow.bufferLength.toNat_lt
  have hstart := startOffset_next hd (by omega) hhalf hindex
  have hfirst : (firstLength flow.channelBufferLength index count).toNat =
      flow.bufferLength.toNat - d := by
    rw [toNat_firstLength (by omega), hstart, hlength, if_neg (by omega)]
  have hone : (1 : UInt64).toNat = 1 := rfl
  have hread := startOffset_mem_handedSlots flow flow.headIndex 1 (by omega) (by omega) 0
  apply not_windowsDisjoint_of_mem (by omega) (Nat.le_refl _) (by omega) (by omega) hpos hhalf
    hindex hread
  apply mem_handedSlots_of_overlong
  · omega
  · omega
  · rw [startOffset, UInt64.toNat_mod, hlength]
    exact Nat.mod_lt _ flow.bufferLength_pos

/-- Where the indices behind such a head live in their ring: the slots are off by
    `2 ^ 64 % bufferLength`. -/
theorem next_mod {d : Nat} (hd : flow.headIndex.toNat + flow.bufferLength.toNat = 2 ^ 64 + d)
    (n : Nat) :
    (flow.headIndex.toNat + n) % flow.bufferLength.toNat =
      (2 ^ 64 % flow.bufferLength.toNat + d + n) % flow.bufferLength.toNat := by
  have hdiv := Nat.div_add_mod (2 ^ 64) flow.bufferLength.toNat
  rw [← Nat.add_mod_right, show flow.headIndex.toNat + n + flow.bufferLength.toNat =
      flow.bufferLength.toNat * (2 ^ 64 / flow.bufferLength.toNat) +
        (2 ^ 64 % flow.bufferLength.toNat + d + n) by omega,
    Nat.mul_add_mod]

/-- If the slots are off beyond the end of the ring, one sample is enough to get to an
    end offset in front of the start offset. -/
theorem not_windowsDisjoint_of_lap {d : Nat}
    (hd : flow.headIndex.toNat + flow.bufferLength.toNat = 2 ^ 64 + d)
    (hhead : flow.headIndex.toNat + 1 < 2 ^ 64) (htwo : 2 ≤ flow.bufferLength.toNat)
    (hlap : flow.bufferLength.toNat ≤ 2 ^ 64 % flow.bufferLength.toNat + d) :
    ¬ WindowsDisjoint flow := by
  have hmodLt : 2 ^ 64 % flow.bufferLength.toNat < flow.bufferLength.toNat :=
    Nat.mod_lt _ flow.bufferLength_pos
  have hone : (1 : UInt64).toNat = 1 := rfl
  obtain ⟨index, hindex⟩ := exists_toNat_eq hhead
  apply not_windowsDisjoint_of_overlong hd (by omega) (by omega)
    (show index.toNat = flow.headIndex.toNat + (1 : UInt64).toNat from hindex)
  rw [hindex, next_mod hd, Nat.mod_eq_sub_mod (by omega), Nat.mod_eq_of_lt (by omega)]
  omega

/-- If half a buffer reaches the end of the ring, it can be opened with its end offset
    at zero. -/
theorem not_windowsDisjoint_of_half_lap {d : Nat}
    (hd : flow.headIndex.toNat + flow.bufferLength.toNat = 2 ^ 64 + d)
    (hmodPos : 0 < 2 ^ 64 % flow.bufferLength.toNat)
    (hlap : 2 ^ 64 % flow.bufferLength.toNat + d < flow.bufferLength.toNat)
    (hreach : flow.bufferLength.toNat ≤ 2 * (2 ^ 64 % flow.bufferLength.toNat + d)) :
    ¬ WindowsDisjoint flow := by
  have hbufferBound := flow.bufferLength.toNat_lt
  obtain ⟨count, hcount⟩ := exists_toNat_eq
    (show flow.bufferLength.toNat - (2 ^ 64 % flow.bufferLength.toNat + d) < 2 ^ 64 by omega)
  obtain ⟨index, hindex⟩ := exists_toNat_eq
    (show flow.headIndex.toNat + count.toNat < 2 ^ 64 by omega)
  apply not_windowsDisjoint_of_overlong hd (by omega) (by omega) hindex
  rw [hindex, next_mod hd, hcount, Nat.add_sub_cancel' hlap.le, Nat.mod_self]
  exact Nat.zero_le _

/-- Otherwise the next sample is put where a sample of the readable half buffer lives. -/
theorem not_windowsDisjoint_of_short {d : Nat}
    (hd : flow.headIndex.toNat + flow.bufferLength.toNat = 2 ^ 64 + d)
    (hhead : flow.headIndex.toNat + 1 < 2 ^ 64)
    (hmodPos : 0 < 2 ^ 64 % flow.bufferLength.toNat)
    (hshort : 2 * (2 ^ 64 % flow.bufferLength.toNat + d) < flow.bufferLength.toNat) :
    ¬ WindowsDisjoint flow := by
  have hbufferBound := flow.bufferLength.toNat_lt
  have hone : (1 : UInt64).toNat = 1 := rfl
  have hdiv := Nat.div_add_mod (2 ^ 64) flow.bufferLength.toNat
  generalize 2 ^ 64 % flow.bufferLength.toNat = shift at hmodPos hshort hdiv
  obtain ⟨index, hindex⟩ := exists_toNat_eq hhead
  obtain ⟨half, hhalf⟩ := exists_toNat_eq
    (show flow.bufferLength.toNat / 2 < 2 ^ 64 by omega)
  rw [← hone] at hindex
  have hwriter := startOffset_mem_handedSlots flow index 1 (by omega) (by omega) 0
  rw [startOffset_next hd (by omega) (by omega) hindex] at hwriter
  have hcast : (flow.headIndex.toNat - half.toNat + 1 + (half.toNat - shift : Nat) + -1 : Int) +
      flow.bufferLength.toNat =
        (flow.bufferLength.toNat * (2 ^ 64 / flow.bufferLength.toNat) + d : Nat) := by
    omega
  have hslot : sampleSlot flow
      (flow.headIndex.toNat - half.toNat + 1 + (half.toNat - shift : Nat)) =
        (flow.bufferLength.toNat * (2 ^ 64 / flow.bufferLength.toNat) + d) %
          flow.bufferLength.toNat := by
    unfold sampleSlot
    rw [← Int.add_emod_right, hcast]
    rfl
  have hreader : d ∈ handedSlots flow (payloadBufferSlices flow flow.headIndex half) 0 := by
    rw [mem_handedSlots_iff (by omega) (by omega) (wrapsUnnoticed_of_lt (by omega))]
    refine ⟨half.toNat - shift, by omega, ?_⟩
    rw [hslot, Nat.mul_add_mod, Nat.mod_eq_of_lt (by omega)]
  exact not_windowsDisjoint_of_mem (by omega) (Nat.le_refl _) (by omega) (by omega) (by omega)
    (by omega) hindex hreader hwriter

theorem not_windowsDisjoint_of_wrap
    (hwrap : 2 ^ 64 ≤ flow.headIndex.toNat + flow.bufferLength.toNat)
    (hdvd : ¬ flow.bufferLength.toNat ∣ 2 ^ 64) (hhead : flow.headIndex.toNat + 1 < 2 ^ 64) :
    ¬ WindowsDisjoint flow := by
  obtain ⟨d, hd⟩ := Nat.exists_eq_add_of_le hwrap
  have htwo : 2 ≤ flow.bufferLength.toNat := by
    have hne : flow.bufferLength.toNat ≠ 1 := fun hone => hdvd (by rw [hone]; exact Nat.one_dvd _)
    have hpos := flow.bufferLength_pos
    omega
  have hmodPos : 0 < 2 ^ 64 % flow.bufferLength.toNat :=
    Nat.pos_of_ne_zero fun hzero => hdvd (Nat.dvd_of_mod_eq_zero hzero)
  rcases Nat.lt_or_ge (2 ^ 64 % flow.bufferLength.toNat + d) flow.bufferLength.toNat with hlap | hlap
  · rcases Nat.lt_or_ge (2 * (2 ^ 64 % flow.bufferLength.toNat + d)) flow.bufferLength.toNat with
      hshort | hreach
    · exact not_windowsDisjoint_of_short hd hhead hmodPos hshort
    · exact not_windowsDisjoint_of_half_lap hd hmodPos hlap hreach
  · exact not_windowsDisjoint_of_lap hd hhead htwo hlap

end Wrapped

/-- **When the windows are disjoint.**  The slots a reader can be handed and those the
    writer can be handed right behind the head are disjoint exactly when the head
    is more than a ring away from the end of the index space, or the length of the
    ring divides its size, or there is no index left to open. -/
theorem windows_disjoint_iff (flow : ContinuousFlowData) :
    WindowsDisjoint flow ↔
      flow.headIndex.toNat + flow.bufferLength.toNat < 2 ^ 64 ∨
        flow.bufferLength.toNat ∣ 2 ^ 64 ∨ flow.headIndex = MXL_UNDEFINED_INDEX := by
  constructor
  · intro hdisjoint
    by_contra hnone
    push Not at hnone
    obtain ⟨hwrap, hdvd, hhead⟩ := hnone
    have hne : flow.headIndex.toNat ≠ 2 ^ 64 - 1 := fun heq => hhead (UInt64.toNat_inj.mp heq)
    have hlt := flow.headIndex.toNat_lt
    exact not_windowsDisjoint_of_wrap hwrap hdvd (by omega) hdisjoint
  · rintro (hroom | hdvd | hlast)
    · apply windowsDisjoint_of_wrapsUnnoticed
      intro index count hpos hindex
      exact wrapsUnnoticed_of_lt (by omega)
    · apply windowsDisjoint_of_wrapsUnnoticed
      intro index count _ _
      exact wrapsUnnoticed_of_dvd hdvd
    · intro flowValid readIndex readCount readSlices writer writer' index count writeSlices _ _ hpos
        hindex
      have hlt := index.toNat_lt
      rw [hlast, toNat_MXL_UNDEFINED_INDEX] at hindex
      omega

/-- A ring of three samples whose head is the third last index there is. -/
def lateFlow : ContinuousFlowData where
  channelCount := 1
  bufferLength := 3
  sampleWordSize := 2
  maxCommitBatchSizeHint := 1
  maxSyncBatchSizeHint := 1
  headIndex := 18446744073709551613
  syncCounter := 0
  channelData _ := 0
  channelCount_pos := Nat.one_pos
  bufferLength_pos := by decide
  sampleWordSize_pos := Nat.two_pos
  mapped := by decide

/-- Slot 0 is read as the sample at the head and written as the one behind it. -/
theorem late_windows_overlap :
    ∃ readSlices writeSlices writer,
      lateFlow.getSamples true 18446744073709551613 1 = .ok readSlices ∧
      (PosixContinuousFlowWriter.init lateFlow).openSamples lateFlow 18446744073709551614 1 =
        (.statusOk, some writeSlices, writer) ∧
      0 ∈ handedSlots lateFlow readSlices 0 ∧ 0 ∈ handedSlots lateFlow writeSlices 0 ∧
      ¬ WindowsDisjoint lateFlow := by
  refine ⟨_, _, _, rfl, rfl, ⟨0, by decide, rfl⟩, ⟨0, by decide, rfl⟩, ?_⟩
  apply not_windowsDisjoint_of_wrap
  · decide
  · decide
  · decide

end MediaExchange.ContinuousWindows
