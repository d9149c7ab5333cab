/-
  MediaExchange/ContinuousLayout.lean
  ===================================
  **Where the samples of a continuous flow live.**

  A range is handed out as two fragments; a client finds byte `offset` of it at
  `byteAddress`.  As long as the sum in front of the start offset's remainder
  does not wrap, or wraps unnoticed, the fragments are the two pieces of a window
  on the channel's ring, and sample `j` is found in slot `(j - 1) % bufferLength`
  through whichever range it is looked up (`byteAddress_eq`).
-/
import MediaExchange.Library.RingMemory
import MediaExchange.Library.RingWindow
import MediaExchange.ContinuousFlow
import Mathlib.Tactic.Ring

namespace MediaExchange

/-! ### The fragments as a window on the ring -/

section Fragments

variable {bufferLength index count : UInt64}

/-- The sum `index + bufferLength - count` fits, or what it wraps by is a multiple of
    the ring's length. -/
def WrapsUnnoticed (bufferLength index count : Nat) : Prop :=
  (index + bufferLength - count) % 2 ^ 64 % bufferLength =
    (index + bufferLength - count) % bufferLength

instance (bufferLength index count : Nat) : Decidable (WrapsUnnoticed bufferLength index count) :=
  inferInstanceAs (Decidable (_ = _))

theorem wrapsUnnoticed_of_lt {bufferLength index count : Nat}
    (h : index + bufferLength - count < 2 ^ 64) : WrapsUnnoticed bufferLength index count := by
  unfold WrapsUnnoticed
  rw [Nat.mod_eq_of_lt h]

theorem wrapsUnnoticed_of_dvd {bufferLength index count : Nat} (h : bufferLength ∣ 2 ^ 64) :
    WrapsUnnoticed bufferLength index count := Nat.mod_mod_of_dvd _ h

/-- The first slot of a range, the sum in front of the remainder being taken
    modulo `2 ^ 64`. -/
theorem toNat_startOffset (hcount : count.toNat ≤ bufferLength.toNat) :
    (startOffset bufferLength index count).toNat =
      (index.toNat + bufferLength.toNat - count.toNat) % 2 ^ 64 % bufferLength.toNat := by
  have hindex := index.toNat_lt
  have hlength := bufferLength.toNat_lt
  unfold startOffset
  rw [UInt64.toNat_mod, UInt64.toNat_sub, UInt64.toNat_add]
  congr 1
  omega

theorem toNat_firstLength (hlength : 0 < bufferLength.toNat) :
    (firstLength bufferLength index count).toNat =
      if (startOffset bufferLength index count).toNat < index.toNat % bufferLength.toNat then
        count.toNat
      else bufferLength.toNat - (startOffset bufferLength index count).toNat := by
  have hle : startOffset bufferLength index count ≤ bufferLength := by
    rw [UInt64.le_iff_toNat_le, startOffset, UInt64.toNat_mod]
    exact (Nat.mod_lt _ hlength).le
  unfold firstLength
  by_cases h : startOffset bufferLength index count < index % bufferLength
  · rw [if_pos h]
    rw [UInt64.lt_iff_toNat_lt, UInt64.toNat_mod] at h
    rw [if_pos h]
  · rw [if_neg h]
    rw [UInt64.lt_iff_toNat_lt, UInt64.toNat_mod] at h
    rw [if_neg h, UInt64.toNat_sub_of_le _ _ hle]

/-- Then the first slot is that of the index in front of the range, and the two
    lengths are those of the two pieces the range is laid out in on the ring. -/
theorem fragments_eq_window (hpos : 0 < count.toNat) (hle : count.toNat ≤ bufferLength.toNat)
    (hwrap : WrapsUnnoticed bufferLength.toNat index.toNat count.toNat) :
    (startOffset bufferLength index count).toNat =
        (index.toNat + bufferLength.toNat - count.toNat) % bufferLength.toNat ∧
      (firstLength bufferLength index count).toNat =
        RingWindow.firstPiece bufferLength.toNat
          (startOffset bufferLength index count).toNat count.toNat ∧
      (secondLength bufferLength index count).toNat =
        count.toNat - (firstLength bufferLength index count).toNat := by
  have hstart : (startOffset bufferLength index count).toNat =
      (index.toNat + bufferLength.toNat - count.toNat) % bufferLength.toNat := by
    rw [toNat_startOffset (by omega)]
    exact hwrap
  have hlt : (startOffset bufferLength index count).toNat < bufferLength.toNat := by
    rw [hstart]
    exact Nat.mod_lt _ (by omega)
  -- the end offset is the start offset moved on by `count`, at most once around the ring
  have hend : index.toNat % bufferLength.toNat =
      ((startOffset bufferLength index count).toNat + count.toNat) % bufferLength.toNat := by
    rw [hstart, Nat.mod_add_mod,
      show index.toNat + bufferLength.toNat - count.toNat + count.toNat =
        index.toNat + bufferLength.toNat by omega, Nat.add_mod_right]
  have hfirst : (firstLength bufferLength index count).toNat =
      RingWindow.firstPiece bufferLength.toNat
        (startOffset bufferLength index count).toNat count.toNat := by
    rw [toNat_firstLength (by omega), hend]
    unfold RingWindow.firstPiece
    generalize (startOffset bufferLength index count).toNat = start at hlt ⊢
    by_cases hfit : start + count.toNat < bufferLength.toNat
    · rw [Nat.mod_eq_of_lt hfit, if_pos (by omega)]
      omega
    · rw [Nat.mod_eq_sub_mod (by omega), Nat.mod_eq_of_lt (by omega), if_neg (by omega)]
      omega
  refine ⟨hstart, hfirst, ?_⟩
  unfold secondLength
  apply UInt64.toNat_sub_of_le
  rw [UInt64.le_iff_toNat_le, hfirst]
  unfold RingWindow.firstPiece
  omega

end Fragments

/-! ### Addresses -/

/-- Where the client finds byte `offset` of the range of a channel: in the first
    fragment as far as it goes, then in the second. -/
def byteAddress (slices : WrappedMultiBufferSlice) (channel offset : Nat) : Nat :=
  if offset < slices.fragment0.size.toNat then
    slices.fragment0.pointer.toNat + slices.stride.toNat * channel + offset
  else
    slices.fragment1.pointer.toNat + slices.stride.toNat * channel +
      (offset - slices.fragment0.size.toNat)

/-! ### Where a sample lives -/

section Cells

variable (flow : ContinuousFlowData)

def sampleSlot (sample : Int) : Nat := ((sample + -1) % flow.bufferLength.toNat).toNat

def sampleCell (channel byte : Nat) (sample : Int) : Nat :=
  flow.sampleWordSize.toNat * (flow.bufferLength.toNat * channel + sampleSlot flow sample) + byte

theorem sampleSlot_lt (sample : Int) : sampleSlot flow sample < flow.bufferLength.toNat := by
  have hpos := flow.bufferLength_pos
  unfold sampleSlot
  have hlt := Int.emod_lt_of_pos (sample + -1)
    (show (0 : Int) < flow.bufferLength.toNat by exact_mod_cast hpos)
  have hnonneg := Int.emod_nonneg (sample + -1)
    (show (flow.bufferLength.toNat : Int) ≠ 0 by omega)
  omega

/-- The parts of an address can be read off it. -/
theorem eq_of_mul_add_eq {n a a' b b' : Nat} (hb : b < n) (hb' : b' < n)
    (h : n * a + b = n * a' + b') : a = a' ∧ b = b' := by
  have hdiv := congrArg (· / n) h
  have hmod := congrArg (· % n) h
  simp only [Nat.mul_add_div (Nat.zero_lt_of_lt hb), Nat.div_eq_of_lt hb, Nat.div_eq_of_lt hb',
    Nat.add_zero] at hdiv
  simp only [Nat.mul_add_mod, Nat.mod_eq_of_lt hb, Nat.mod_eq_of_lt hb'] at hmod
  exact ⟨hdiv, hmod⟩

/-- No two channels, slots or bytes share an address. -/
theorem sampleCell_inj {c c' b b' : Nat} {j j' : Int} (hb : b < flow.sampleWordSize.toNat)
    (hb' : b' < flow.sampleWordSize.toNat) (h : sampleCell flow c b j = sampleCell flow c' b' j') :
    c = c' ∧ b = b' ∧ sampleSlot flow j = sampleSlot flow j' := by
  obtain ⟨hslot, hbyte⟩ := eq_of_mul_add_eq hb hb' h
  obtain ⟨hc, hj⟩ := eq_of_mul_add_eq (sampleSlot_lt flow j) (sampleSlot_lt flow j') hslot
  exact ⟨hc, hbyte, hj⟩

theorem separates_sampleCell (c : Nat) {b : Nat} (hb : b < flow.sampleWordSize.toNat) :
    RingMemory.Separates flow.bufferLength.toNat (sampleCell flow c b) := by
  apply (RingMemory.separates_emod flow.bufferLength.toNat (-1)).of_injOn
  intro j j' h
  obtain ⟨-, -, hslot⟩ := sampleCell_inj flow hb hb h
  have hne : (flow.bufferLength.toNat : Int) ≠ 0 := by
    have hpos := flow.bufferLength_pos
    omega
  have hj := Int.emod_nonneg (j + -1) hne
  have hj' := Int.emod_nonneg (j' + -1) hne
  unfold sampleSlot at hslot
  omega

variable {flow} {index count : UInt64}

/-- The bytes of samples of one ring can be counted without wrapping. -/
theorem toNat_sampleWordSize_mul {n : UInt64} (hn : n.toNat ≤ flow.bufferLength.toNat) :
    (flow.sampleWordSize * n).toNat = flow.sampleWordSize.toNat * n.toNat := by
  have hmapped := flow.channel_mapped
  have hle := Nat.mul_le_mul_left flow.sampleWordSize.toNat hn
  rw [UInt64.toNat_mul]
  exact Nat.mod_eq_of_lt (by omega)

/-- The byte sizes of the fragments of a range that does not wrap the index space. -/
theorem toNat_fragment_sizes (hpos : 0 < count.toNat)
    (hhalf : count.toNat ≤ flow.bufferLength.toNat / 2)
    (hwrap : WrapsUnnoticed flow.bufferLength.toNat index.toNat count.toNat) :
    let start := (index.toNat + flow.bufferLength.toNat - count.toNat) % flow.bufferLength.toNat
    let first := RingWindow.firstPiece flow.bufferLength.toNat start count.toNat
    let slices := payloadBufferSlices flow index count
    slices.fragment0.pointer.toNat = flow.sampleWordSize.toNat * start ∧
      slices.fragment0.size.toNat = flow.sampleWordSize.toNat * first ∧
      slices.fragment1.pointer.toNat = 0 ∧
      slices.fragment1.size.toNat = flow.sampleWordSize.toNat * (count.toNat - first) ∧
      slices.stride.toNat = flow.sampleWordSize.toNat * flow.bufferLength.toNat := by
  intro start first slices
  have hlength := flow.toNat_channelBufferLength
  rw [← hlength] at hwrap hhalf
  obtain ⟨hstart, hfirst, hsecond⟩ := fragments_eq_window hpos (by omega) hwrap
  rw [hlength] at hstart hhalf
  rw [hlength, hstart] at hfirst
  rw [hfirst] at hsecond
  have hstartlt : start < flow.bufferLength.toNat := Nat.mod_lt _ flow.bufferLength_pos
  have hfirstle : first ≤ count.toNat := Nat.min_le_left _ _
  refine ⟨?_, ?_, rfl, ?_, ?_⟩
  · change (flow.sampleWordSize * startOffset flow.channelBufferLength index count).toNat = _
    rw [toNat_sampleWordSize_mul (hstart.trans_le hstartlt.le), hstart]
  · change (flow.sampleWordSize * firstLength flow.channelBufferLength index count).toNat = _
    have hle : (firstLength flow.channelBufferLength index count).toNat ≤ count.toNat :=
      hfirst.trans_le hfirstle
    rw [toNat_sampleWordSize_mul (by omega), hfirst]
  · change (flow.sampleWordSize * secondLength flow.channelBufferLength index count).toNat = _
    have hle : (secondLength flow.channelBufferLength index count).toNat ≤ count.toNat :=
      hsecond.trans_le (Nat.sub_le _ _)
    rw [toNat_sampleWordSize_mul (by omega), hsecond]
  · change (flow.sampleWordSize * flow.channelBufferLength).toNat = _
    rw [toNat_sampleWordSize_mul hlength.le, hlength]

theorem fragment_sizes_add (hpos : 0 < count.toNat)
    (hhalf : count.toNat ≤ flow.bufferLength.toNat / 2)
    (hwrap : WrapsUnnoticed flow.bufferLength.toNat index.toNat count.toNat) :
    (payloadBufferSlices flow index count).fragment0.size.toNat +
        (payloadBufferSlices flow index count).fragment1.size.toNat =
      flow.sampleWordSize.toNat * count.toNat := by
  obtain ⟨-, hsize0, -, hsize1, -⟩ := toNat_fragment_sizes hpos hhalf hwrap
  rw [hsize0, hsize1, ← Nat.mul_add, Nat.add_sub_cancel']
  exact Nat.min_le_left _ _

/-- Where the first fragment is longer than the whole range, the length of the second
    one wraps, and with it its size. -/
theorem size_of_overlong
    (hshort : count.toNat < (firstLength flow.channelBufferLength index count).toNat)
    (hfirst : (firstLength flow.channelBufferLength index count).toNat ≤ flow.bufferLength.toNat) :
    2 ^ 63 ≤ (payloadBufferSlices flow index count).fragment1.size.toNat := by
  have hword := flow.sampleWordSize_pos
  have hmapped := flow.channel_mapped
  obtain ⟨excess, hexcess⟩ := Nat.exists_eq_add_of_lt hshort
  have hlt := (firstLength flow.channelBufferLength index count).toNat_lt
  rw [hexcess] at hfirst hlt
  have hproduct : flow.sampleWordSize.toNat * (excess + 1) ≤
      flow.sampleWordSize.toNat * flow.bufferLength.toNat :=
    Nat.mul_le_mul_left _ (by omega)
  have hexcessPos : 0 < flow.sampleWordSize.toNat * (excess + 1) :=
    Nat.mul_pos hword (Nat.succ_pos _)
  have hsecond : (secondLength flow.channelBufferLength index count).toNat =
      2 ^ 64 - (excess + 1) := by
    rw [secondLength, UInt64.toNat_sub, hexcess]
    omega
  change 2 ^ 63 ≤ (flow.sampleWordSize * secondLength flow.channelBufferLength index count).toNat
  -- `w * (2 ^ 64 - x)` is `2 ^ 64 - w * x` up to a multiple of `2 ^ 64`
  have hwrapped : flow.sampleWordSize.toNat * (2 ^ 64 - (excess + 1)) =
      2 ^ 64 * (flow.sampleWordSize.toNat - 1) +
        (2 ^ 64 - flow.sampleWordSize.toNat * (excess + 1)) := by
    obtain ⟨v, hv⟩ := Nat.exists_eq_add_of_lt hword
    rw [Nat.zero_add] at hv
    rw [hv] at hproduct hmapped ⊢
    rw [Nat.mul_sub, Nat.add_sub_cancel, Nat.succ_mul]
    omega
  rw [UInt64.toNat_mul, hsecond, hwrapped, Nat.mul_add_mod, Nat.mod_eq_of_lt (by omega)]
  omega

/-- Byte `offset` of a range is a byte of the cell of its sample, no matter where
    the range starts and where it is split. -/
theorem byteAddress_eq (hpos : 0 < count.toNat)
    (hhalf : count.toNat ≤ flow.bufferLength.toNat / 2)
    (hwrap : WrapsUnnoticed flow.bufferLength.toNat index.toNat count.toNat) (channel : Nat)
    {k b : Nat} (hk : k < count.toNat) (hb : b < flow.sampleWordSize.toNat) :
    byteAddress (payloadBufferSlices flow index count) channel
        (flow.sampleWordSize.toNat * k + b) =
      sampleCell flow channel b (index.toNat - count.toNat + 1 + k) := by
  obtain ⟨hptr0, hsize0, hptr1, hsize1, hstride⟩ := toNat_fragment_sizes hpos hhalf hwrap
  have hslot : sampleSlot flow (index.toNat - count.toNat + 1 + k) =
      (index.toNat + flow.bufferLength.toNat - count.toNat + k) % flow.bufferLength.toNat := by
    have hcast : (index.toNat - count.toNat + 1 + k + -1 : Int) + flow.bufferLength.toNat =
        (index.toNat + flow.bufferLength.toNat - count.toNat + k : Nat) := by omega
    unfold sampleSlot
    rw [← Int.add_emod_right, hcast]
    rfl
  unfold sampleCell byteAddress
  rw [hslot, ← RingWindow.windowSlot_eq flow.bufferLength_pos (by omega) hk, hptr0, hsize0, hptr1,
    hstride, RingWindow.windowSlot]
  generalize (index.toNat + flow.bufferLength.toNat - count.toNat) % flow.bufferLength.toNat = start
  generalize RingWindow.firstPiece flow.bufferLength.toNat start count.toNat = first
  by_cases hfirst : k < first
  · have hlt : flow.sampleWordSize.toNat * k + b < flow.sampleWordSize.toNat * first :=
      calc flow.sampleWordSize.toNat * k + b
          < flow.sampleWordSize.toNat * (k + 1) := by rw [Nat.mul_succ]; omega
        _ ≤ flow.sampleWordSize.toNat * first := Nat.mul_le_mul_left _ hfirst
    rw [if_pos hlt, if_pos hfirst]
    ring
  · have hle : flow.sampleWordSize.toNat * first ≤ flow.sampleWordSize.toNat * k :=
      Nat.mul_le_mul_left _ (Nat.le_of_not_lt hfirst)
    obtain ⟨d, rfl⟩ := Nat.exists_eq_add_of_le (Nat.le_of_not_lt hfirst)
    rw [if_neg (by omega), if_neg hfirst, Nat.add_sub_cancel_left, Nat.mul_add, Nat.add_assoc,
      Nat.add_assoc (_ * first), Nat.add_sub_cancel_left]
    ring

end Cells

end MediaExchange
