/-
  MediaExchange/AudioBounceBuffer.lean
  ====================================
  **The bounce buffer of a target for samples** (`AudioBounceBuffer.cpp`,
  `DataLayout.hpp`).

  The samples of all channels arrive in one piece in an entry of the bounce
  buffer, behind a header with their head index and count, and are copied from
  there to the channels' rings.  Both ends work out for themselves which pieces
  of the rings that is.

  The first result is where these pieces are: once the first fragment has the
  length of the first piece of a window on the ring, they lie inside the rings
  and hold the window's bytes and nothing else (`holds_channelPieces`,
  `fits_channelPieces`), and pieces that lie inside the rings come from such a
  fragment (`firstLength_of_fits`).
-/
import MediaExchange.ContinuousLayout
import MediaExchange.FabricRegions
import MediaExchange.Library.ByteMemory

namespace MediaExchange

open MediaExchange.ByteMemory MediaExchange.RingWindow

/-! ### Layout -/

/-- `DataLayout::Continuous`.  The rings of all channels lie in one block, whose
    size in bytes is an address range. -/
structure ContinuousDataLayout where
  sampleSize : UInt64
  channelCount : UInt64
  bufferLength : UInt64
  sampleSize_pos : 0 < sampleSize.toNat
  channelCount_pos : 0 < channelCount.toNat
  bufferLength_pos : 0 < bufferLength.toNat
  mapped : channelCount.toNat * (sampleSize.toNat * bufferLength.toNat) < 2 ^ 63

namespace ContinuousDataLayout

/-- The size of the rings of all channels. -/
def byteSize (layout : ContinuousDataLayout) : Nat :=
  layout.channelCount.toNat * (layout.sampleSize.toNat * layout.bufferLength.toNat)

/-- Byte `byte` of the sample in a slot of a channel's ring. -/
def sampleByte (layout : ContinuousDataLayout) (channel slot byte : Nat) : Nat :=
  layout.sampleSize.toNat * (layout.bufferLength.toNat * channel + slot) + byte

/-- `address` is a byte of one of the `count` samples from slot `start` on, in any
    channel. -/
def InWindow (layout : ContinuousDataLayout) (start count address : Nat) : Prop :=
  ∃ channel < layout.channelCount.toNat, ∃ k < count, ∃ byte < layout.sampleSize.toNat,
    address = layout.sampleByte channel ((start + k) % layout.bufferLength.toNat) byte

end ContinuousDataLayout

/-! ### Fragments -/

/-- `AudioBounceBuffer::getMutableMultiBufferSlices`. -/
def getMutableMultiBufferSlices
    (index count bufferLength sampleWordSize channelCount baseBufferPtr : UInt64) :
    WrappedMultiBufferSlice :=
  { fragment0 :=
      { pointer := baseBufferPtr + sampleWordSize * startOffset bufferLength index count
        size := sampleWordSize * firstLength bufferLength index count }
    fragment1 :=
      { pointer := baseBufferPtr
        size := sampleWordSize * secondLength bufferLength index count }
    stride := sampleWordSize * bufferLength
    count := channelCount }

/-- The pieces of a fragment, one for each channel; none if it is empty. -/
def fragmentPieces (slices : WrappedMultiBufferSlice) (fragment : BufferSlice) :
    List BufferSlice :=
  if fragment.size > 0 then
    (List.range slices.count.toNat).map fun chan =>
      { pointer := fragment.pointer + slices.stride * UInt64.ofNat chan, size := fragment.size }
  else []

/-- The pieces in the order in which they are sent and unpacked. -/
def channelPieces (slices : WrappedMultiBufferSlice) : List BufferSlice :=
  fragmentPieces slices slices.fragment0 ++ fragmentPieces slices slices.fragment1

/-- The pieces of the rings at `base` for `count` samples up to `headIndex`. -/
def ContinuousDataLayout.slices (layout : ContinuousDataLayout) (headIndex count base : UInt64) :
    WrappedMultiBufferSlice :=
  getMutableMultiBufferSlices headIndex count layout.bufferLength layout.sampleSize
    layout.channelCount base

/-- Where a piece lies in a block of memory. -/
def BufferSlice.piece (block : MemoryBlock) (slice : BufferSlice) : Piece :=
  ⟨block.offset slice.pointer, slice.size.toNat⟩

/-! ### Where the pieces are -/

section Pieces

variable {layout : ContinuousDataLayout} {headIndex count : UInt64} {block : MemoryBlock}

theorem ContinuousDataLayout.channel_lt (layout : ContinuousDataLayout) {chan : Nat}
    (hchan : chan < layout.channelCount.toNat) :
    layout.sampleSize.toNat * (layout.bufferLength.toNat * chan) +
        layout.sampleSize.toNat * layout.bufferLength.toNat ≤ layout.byteSize := by
  have hle := Nat.mul_le_mul_right (layout.sampleSize.toNat * layout.bufferLength.toNat) hchan
  rw [Nat.succ_mul, Nat.mul_comm chan, Nat.mul_assoc] at hle
  exact hle

theorem ContinuousDataLayout.ring_lt (layout : ContinuousDataLayout) :
    layout.sampleSize.toNat * layout.bufferLength.toNat < 2 ^ 63 := by
  have hle := layout.channel_lt layout.channelCount_pos
  have hmapped := layout.mapped
  unfold byteSize at hle
  omega

/-- The bytes of at most a ring's samples can be counted without wrapping. -/
theorem ContinuousDataLayout.toNat_sampleSize_mul (layout : ContinuousDataLayout) {n : UInt64}
    (hn : n.toNat ≤ layout.bufferLength.toNat) :
    (layout.sampleSize * n).toNat = layout.sampleSize.toNat * n.toNat := by
  have hring := layout.ring_lt
  have hle := Nat.mul_le_mul_left layout.sampleSize.toNat hn
  rw [UInt64.toNat_mul]
  exact Nat.mod_eq_of_lt (by omega)

theorem startOffset_lt (layout : ContinuousDataLayout) (headIndex count : UInt64) :
    (startOffset layout.bufferLength headIndex count).toNat < layout.bufferLength.toNat := by
  rw [startOffset, UInt64.toNat_mod]
  exact Nat.mod_lt _ layout.bufferLength_pos

/-- The piece of a channel is a channel's ring further on for each channel before. -/
theorem offset_channel (block : MemoryBlock) {x : UInt64} {chan : Nat}
    (hchan : chan < layout.channelCount.toNat)
    (hx : x.toNat ≤ layout.sampleSize.toNat * layout.bufferLength.toNat) :
    block.offset (block.base + x +
        layout.sampleSize * layout.bufferLength * UInt64.ofNat chan) =
      layout.sampleSize.toNat * (layout.bufferLength.toNat * chan) + x.toNat := by
  have hmapped := layout.mapped
  have hle := layout.channel_lt hchan
  unfold ContinuousDataLayout.byteSize at hle
  have hchan' : (UInt64.ofNat chan).toNat = chan := by
    rw [UInt64.toNat_ofNat']
    exact Nat.mod_eq_of_lt (hchan.trans layout.channelCount.toNat_lt)
  rw [UInt64.add_assoc, MemoryBlock.offset_add, UInt64.toNat_add, UInt64.toNat_mul,
    layout.toNat_sampleSize_mul le_rfl, hchan', Nat.mul_assoc, Nat.add_mod_mod, Nat.add_comm,
    Nat.mod_eq_of_lt (by omega)]

/-- `size` bytes of every channel's ring, from `place` on. -/
def ringPieces (layout : ContinuousDataLayout) (place size : Nat) : List Piece :=
  if 0 < size then
    (List.range layout.channelCount.toNat).map fun chan =>
      ⟨layout.sampleSize.toNat * (layout.bufferLength.toNat * chan) + place, size⟩
  else []

theorem map_piece_fragmentPieces (block : MemoryBlock) {slices : WrappedMultiBufferSlice}
    {x : UInt64} (size : UInt64)
    (hcount : slices.count = layout.channelCount)
    (hstride : slices.stride = layout.sampleSize * layout.bufferLength)
    (hx : x.toNat ≤ layout.sampleSize.toNat * layout.bufferLength.toNat) :
    (fragmentPieces slices { pointer := block.base + x, size := size }).map
        (BufferSlice.piece block) = ringPieces layout x.toNat size.toNat := by
  have hpos : 0 < size ↔ 0 < size.toNat := UInt64.lt_iff_toNat_lt
  unfold fragmentPieces ringPieces
  by_cases hsize : 0 < size
  · rw [if_pos hsize, if_pos (hpos.mp hsize), List.map_map, hcount]
    apply List.map_congr_left
    intro chan hchan
    have hoffset := offset_channel block (List.mem_range.mp hchan) hx
    simp only [Function.comp_apply, BufferSlice.piece, hstride, hoffset]
  · rw [if_neg hsize, if_neg (mt hpos.mpr hsize)]
    rfl

/-- The pieces of any range, with the sizes as the words have them. -/
theorem map_piece_channelPieces_words (block : MemoryBlock) (headIndex count : UInt64) :
    (channelPieces (layout.slices headIndex count block.base)).map (BufferSlice.piece block) =
      ringPieces layout
          (layout.sampleSize.toNat * (startOffset layout.bufferLength headIndex count).toNat)
          (layout.sampleSize * firstLength layout.bufferLength headIndex count).toNat ++
        ringPieces layout 0
          (layout.sampleSize * secondLength layout.bufferLength headIndex count).toNat := by
  have hstart := startOffset_lt layout headIndex count
  have hplace := layout.toNat_sampleSize_mul hstart.le
  rw [channelPieces, List.map_append]
  congr 1
  · rw [← hplace]
    apply map_piece_fragmentPieces block _ rfl rfl
    rw [hplace]
    exact Nat.mul_le_mul_left _ hstart.le
  · have hzero : (fragmentPieces (layout.slices headIndex count block.base)
        { pointer := block.base + 0
          size := layout.sampleSize * secondLength layout.bufferLength headIndex count }).map
        (BufferSlice.piece block) = _ :=
      map_piece_fragmentPieces block _ rfl rfl (Nat.zero_le _)
    rwa [UInt64.add_zero] at hzero

theorem map_piece_channelPieces (block : MemoryBlock) (headIndex : UInt64)
    (hcount : count.toNat ≤ layout.bufferLength.toNat) :
    (channelPieces (layout.slices headIndex count block.base)).map (BufferSlice.piece block) =
      ringPieces layout
          (layout.sampleSize.toNat * (startOffset layout.bufferLength headIndex count).toNat)
          (layout.sampleSize.toNat * (firstLength layout.bufferLength headIndex count).toNat) ++
        ringPieces layout 0
          (layout.sampleSize * secondLength layout.bufferLength headIndex count).toNat := by
  have hfirst : (firstLength layout.bufferLength headIndex count).toNat ≤
      layout.bufferLength.toNat := by
    rw [toNat_firstLength layout.bufferLength_pos]
    split_ifs <;> omega
  rw [map_piece_channelPieces_words, layout.toNat_sampleSize_mul hfirst]

/-- All pieces lie inside the rings. -/
def Fits (layout : ContinuousDataLayout) (pieces : List Piece) : Prop :=
  ∀ piece ∈ pieces, piece.start + piece.length ≤ layout.byteSize

@[simp] theorem totalLength_append (xs ys : List Piece) :
    totalLength (xs ++ ys) = totalLength xs + totalLength ys := by
  simp [totalLength]

theorem totalLength_ringPieces (layout : ContinuousDataLayout) (place size : Nat) :
    totalLength (ringPieces layout place size) = layout.channelCount.toNat * size := by
  unfold ringPieces
  by_cases hsize : 0 < size
  · rw [if_pos hsize]
    simp [totalLength, Function.comp_def]
  · rw [if_neg hsize]
    simp [Nat.eq_zero_of_not_pos hsize]

theorem exists_mem_ringPieces {P : Piece → Prop} {place size : Nat} :
    (∃ piece ∈ ringPieces layout place size, P piece) ↔ 0 < size ∧
      ∃ chan < layout.channelCount.toNat,
        P ⟨layout.sampleSize.toNat * (layout.bufferLength.toNat * chan) + place, size⟩ := by
  unfold ringPieces
  by_cases hsize : 0 < size
  · rw [if_pos hsize]
    simp [hsize]
  · rw [if_neg hsize]
    simp [hsize]

theorem fits_ringPieces {place size : Nat} :
    Fits layout (ringPieces layout place size) ↔
      size = 0 ∨ place + size ≤ layout.sampleSize.toNat * layout.bufferLength.toNat := by
  have hnone : Fits layout (ringPieces layout place size) ↔
      ¬ ∃ piece ∈ ringPieces layout place size, layout.byteSize < piece.start + piece.length := by
    simp only [Fits, not_exists, not_and, Nat.not_lt]
  rw [hnone, exists_mem_ringPieces]
  constructor
  · intro hnot
    by_contra hor
    obtain ⟨hsize, hplace⟩ := not_or.mp hor
    -- the piece of the last channel would leave the block
    have hlast : layout.channelCount.toNat - 1 < layout.channelCount.toNat :=
      Nat.sub_lt layout.channelCount_pos Nat.one_pos
    refine hnot ⟨Nat.pos_of_ne_zero hsize, _, hlast, ?_⟩
    have hall : layout.byteSize = layout.sampleSize.toNat * (layout.bufferLength.toNat *
        (layout.channelCount.toNat - 1)) + layout.sampleSize.toNat * layout.bufferLength.toNat := by
      obtain ⟨c, hc⟩ := Nat.exists_eq_succ_of_ne_zero layout.channelCount_pos.ne'
      rw [ContinuousDataLayout.byteSize, hc]
      simp only [Nat.succ_eq_add_one, Nat.add_sub_cancel]
      ring
    dsimp only
    omega
  · rintro hor ⟨hsize, chan, hchan, hlt⟩
    have hle := layout.channel_lt hchan
    dsimp only at hlt
    omega

theorem pieces_eq (hcount : count.toNat ≤ layout.bufferLength.toNat) (block block' : MemoryBlock) :
    (channelPieces (layout.slices headIndex count block.base)).map (BufferSlice.piece block) =
      (channelPieces (layout.slices headIndex count block'.base)).map (BufferSlice.piece block') := by
  rw [map_piece_channelPieces block headIndex hcount,
    map_piece_channelPieces block' headIndex hcount]

/-! ### Windows -/

/-- The first fragment has the length of the first piece of a window that starts at
    the start offset. -/
def LaysOutWindow (layout : ContinuousDataLayout) (headIndex count : UInt64) : Prop :=
  (firstLength layout.bufferLength headIndex count).toNat =
    firstPiece layout.bufferLength.toNat (startOffset layout.bufferLength headIndex count).toNat
      count.toNat

theorem toNat_secondSize (hcount : count.toNat ≤ layout.bufferLength.toNat)
    (hwindow : LaysOutWindow layout headIndex count) :
    (layout.sampleSize * secondLength layout.bufferLength headIndex count).toNat =
      layout.sampleSize.toNat * (count.toNat - firstPiece layout.bufferLength.toNat
        (startOffset layout.bufferLength headIndex count).toNat count.toNat) := by
  have hle : firstLength layout.bufferLength headIndex count ≤ count := by
    rw [UInt64.le_iff_toNat_le, hwindow]
    exact Nat.min_le_left _ _
  have hsecond : (secondLength layout.bufferLength headIndex count).toNat = count.toNat -
      firstPiece layout.bufferLength.toNat (startOffset layout.bufferLength headIndex count).toNat
        count.toNat := by
    rw [secondLength, UInt64.toNat_sub_of_le _ _ hle, hwindow]
  rw [layout.toNat_sampleSize_mul (by omega), hsecond]

/-- **The pieces of a window.**  They lie inside the rings, are as long as the
    samples altogether, and hold the bytes of the window. -/
theorem channelPieces_window (block : MemoryBlock)
    (hcount : count.toNat ≤ layout.bufferLength.toNat)
    (hwindow : LaysOutWindow layout headIndex count) :
    let pieces := (channelPieces (layout.slices headIndex count block.base)).map
      (BufferSlice.piece block)
    Fits layout pieces ∧
      totalLength pieces = layout.channelCount.toNat * (layout.sampleSize.toNat * count.toNat) ∧
      ∀ a, (∃ piece ∈ pieces, piece.Holds a) ↔
        layout.InWindow (startOffset layout.bufferLength headIndex count).toNat count.toNat a := by
  intro pieces
  have hstart := startOffset_lt layout headIndex count
  have hpieces : pieces = _ := map_piece_channelPieces block headIndex hcount
  rw [hwindow, toNat_secondSize hcount hwindow] at hpieces
  have hfirst : firstPiece layout.bufferLength.toNat
      (startOffset layout.bufferLength headIndex count).toNat count.toNat ≤ count.toNat :=
    Nat.min_le_left _ _
  have hfirst' : (startOffset layout.bufferLength headIndex count).toNat +
      firstPiece layout.bufferLength.toNat (startOffset layout.bufferLength headIndex count).toNat
        count.toNat ≤ layout.bufferLength.toNat := by
    unfold firstPiece
    omega
  clear_value pieces
  subst hpieces
  refine ⟨?_, ?_, ?_⟩
  · intro piece hmem
    rcases List.mem_append.mp hmem with hmem | hmem
    · refine fits_ringPieces.mpr (Or.inr ?_) piece hmem
      rw [← Nat.mul_add]
      exact Nat.mul_le_mul_left _ hfirst'
    · refine fits_ringPieces.mpr (Or.inr ?_) piece hmem
      rw [Nat.zero_add]
      exact Nat.mul_le_mul_left _ (by omega)
  · rw [totalLength_append, totalLength_ringPieces, totalLength_ringPieces, ← Nat.mul_add,
      ← Nat.mul_add, Nat.add_sub_cancel' hfirst]
  · intro a
    have hchannel := fun chan => @mem_pieces_iff layout.sampleSize.toNat _ chan _ _ a hstart hcount
    simp only [Nat.mul_add _ (layout.bufferLength.toNat * _)
      (startOffset layout.bufferLength headIndex count).toNat] at hchannel
    simp only [List.mem_append, or_and_right, exists_or]
    rw [exists_mem_ringPieces, exists_mem_ringPieces]
    constructor
    · rintro (⟨-, chan, hchan, hholds⟩ | ⟨-, chan, hchan, hholds⟩)
      · exact ⟨chan, hchan, (hchannel chan).mp (Or.inl hholds)⟩
      · exact ⟨chan, hchan, (hchannel chan).mp (Or.inr hholds)⟩
    · rintro ⟨chan, hchan, hword⟩
      rcases (hchannel chan).mpr hword with hholds | hholds
      · exact Or.inl ⟨by omega, chan, hchan, hholds⟩
      · exact Or.inr ⟨by omega, chan, hchan, hholds⟩

/-- Pieces inside the rings come from a fragment that lays out a window. -/
theorem laysOutWindow_of_fits (block : MemoryBlock) (hpos : 0 < count.toNat)
    (hcount : count.toNat ≤ layout.bufferLength.toNat)
    (hfits : Fits layout ((channelPieces (layout.slices headIndex count block.base)).map
      (BufferSlice.piece block))) : LaysOutWindow layout headIndex count := by
  have hstart := startOffset_lt layout headIndex count
  have hlength := @toNat_firstLength _ headIndex count layout.bufferLength_pos
  rw [map_piece_channelPieces block headIndex hcount] at hfits
  have hfirst := fits_ringPieces.mp fun piece hmem => hfits piece (List.mem_append_left _ hmem)
  have hsecond := fits_ringPieces.mp fun piece hmem => hfits piece (List.mem_append_right _ hmem)
  unfold LaysOutWindow firstPiece
  by_cases hends : (startOffset layout.bufferLength headIndex count).toNat <
      headIndex.toNat % layout.bufferLength.toNat
  · -- one fragment: it ends inside the ring of the last channel
    rw [if_pos hends] at hlength
    rw [hlength] at hfirst ⊢
    have hle : layout.sampleSize.toNat * ((startOffset layout.bufferLength headIndex count).toNat +
        count.toNat) ≤ layout.sampleSize.toNat * layout.bufferLength.toNat := by
      rw [Nat.mul_add]
      have hsize := Nat.mul_pos layout.sampleSize_pos hpos
      omega
    have hle' := Nat.le_of_mul_le_mul_left hle layout.sampleSize_pos
    omega
  · -- two fragments: the second would not fit if the first were longer than the range
    rw [if_neg hends] at hlength
    rw [hlength]
    by_contra hne
    have hlonger : count ≤ firstLength layout.bufferLength headIndex count := by
      rw [UInt64.le_iff_toNat_le]
      omega
    have hexcess := UInt64.toNat_sub_of_le _ _ hlonger
    have hring := layout.ring_lt
    have hsize := layout.toNat_sampleSize_mul
      (n := firstLength layout.bufferLength headIndex count - count) (by omega)
    have hle : layout.sampleSize.toNat *
        (firstLength layout.bufferLength headIndex count - count).toNat ≤
          layout.sampleSize.toNat * layout.bufferLength.toNat :=
      Nat.mul_le_mul_left _ (by omega)
    have hpositive := Nat.mul_pos layout.sampleSize_pos
      (show 0 < (firstLength layout.bufferLength headIndex count - count).toNat by omega)
    -- its size is the excess of the first fragment, taken the other way round
    have hzero : layout.sampleSize * secondLength layout.bufferLength headIndex count +
        layout.sampleSize * (firstLength layout.bufferLength headIndex count - count) = 0 := by
      unfold secondLength
      grind
    have hmod := congrArg UInt64.toNat hzero
    rw [UInt64.toNat_add, hsize] at hmod
    have hlt := (layout.sampleSize * secondLength layout.bufferLength headIndex count).toNat_lt
    simp only [UInt64.toNat_zero] at hmod
    omega

/-- `address` belongs to the `count` samples up to `headIndex`. -/
def ContinuousDataLayout.InRange (layout : ContinuousDataLayout) (headIndex count : UInt64)
    (address : Nat) : Prop :=
  layout.InWindow (headIndex.toNat + layout.bufferLength.toNat - count.toNat) count.toNat address

theorem ContinuousDataLayout.inWindow_mod {start length address : Nat} :
    layout.InWindow (start % layout.bufferLength.toNat) length address ↔
      layout.InWindow start length address := by
  simp only [InWindow, Nat.mod_add_mod]

theorem ContinuousDataLayout.inWindow_sampleByte {start length slot : Nat}
    (hslot : slot < layout.bufferLength.toNat) :
    layout.InWindow start length (layout.sampleByte 0 slot 0) ↔
      ∃ k < length, slot = (start + k) % layout.bufferLength.toNat := by
  constructor
  · rintro ⟨chan, hchan, k, hk, byte, hbyte, heq⟩
    obtain ⟨hsample, -⟩ := eq_of_mul_add_eq layout.sampleSize_pos hbyte heq
    obtain ⟨-, hmod⟩ := eq_of_mul_add_eq hslot (Nat.mod_lt _ layout.bufferLength_pos) hsample
    exact ⟨k, hk, hmod⟩
  · rintro ⟨k, hk, rfl⟩
    exact ⟨0, layout.channelCount_pos, k, hk, 0, layout.sampleSize_pos, rfl⟩

theorem laysOutWindow_of_wrapsUnnoticed (hpos : 0 < count.toNat)
    (hcount : count.toNat ≤ layout.bufferLength.toNat)
    (hwrap : WrapsUnnoticed layout.bufferLength.toNat headIndex.toNat count.toNat) :
    LaysOutWindow layout headIndex count := (fragments_eq_window hpos hcount hwrap).2.1

/-- **The window at the start offset is the range's own** exactly when the sum in
    front of the remainder does not wrap, or wraps unnoticed. -/
theorem inWindow_iff_inRange (hpos : 0 < count.toNat)
    (hcount : count.toNat ≤ layout.bufferLength.toNat) :
    (∀ a, layout.InWindow (startOffset layout.bufferLength headIndex count).toNat count.toNat a ↔
        layout.InRange headIndex count a) ↔
      WrapsUnnoticed layout.bufferLength.toNat headIndex.toNat count.toNat := by
  have hstart := @toNat_startOffset _ headIndex count hcount
  unfold ContinuousDataLayout.InRange
  constructor
  · intro hall
    rcases hcount.eq_or_lt with hfull | hlt
    · apply wrapsUnnoticed_of_lt
      have hindex := headIndex.toNat_lt
      omega
    · unfold WrapsUnnoticed
      rw [← hstart]
      apply start_eq_of_window_eq (startOffset_lt layout headIndex count)
        (Nat.mod_lt _ layout.bufferLength_pos) hpos hlt
      intro slot hslot
      rw [← ContinuousDataLayout.inWindow_sampleByte hslot,
        ← ContinuousDataLayout.inWindow_sampleByte hslot, ContinuousDataLayout.inWindow_mod]
      exact hall _
  · intro hwrap a
    rw [hstart, hwrap, ContinuousDataLayout.inWindow_mod]

end Pieces

/-! ### Headers and entries -/

structure AudioEntryHeader where
  headIndex : UInt64
  count : UInt64
deriving DecidableEq, Repr

namespace AudioEntryHeader

/-- The header as it lies in memory. -/
def bytes (header : AudioEntryHeader) : List UInt8 :=
  toBytes 8 header.headIndex.toNat ++ toBytes 8 header.count.toNat

def ofMemory (memory : Nat → UInt8) : AudioEntryHeader :=
  { headIndex := UInt64.ofNat (ofBytes (load memory 0 8))
    count := UInt64.ofNat (ofBytes (load memory 8 8)) }

@[simp] theorem length_bytes (header : AudioEntryHeader) : header.bytes.length = 16 := by
  simp [bytes]

/-- A header that was placed as bytes is read back. -/
theorem ofMemory_eq {memory : Nat → UInt8} {header : AudioEntryHeader}
    (h : load memory 0 16 = header.bytes) : ofMemory memory = header := by
  rw [show 16 = 8 + 8 from rfl, load_add, bytes] at h
  obtain ⟨hhead, hcount⟩ := List.append_inj h (by simp)
  rw [Nat.zero_add] at hcount
  have hheadIndex : header.headIndex.toNat % 256 ^ 8 = header.headIndex.toNat :=
    Nat.mod_eq_of_lt header.headIndex.toNat_lt
  have hcount' : header.count.toNat % 256 ^ 8 = header.count.toNat :=
    Nat.mod_eq_of_lt header.count.toNat_lt
  rw [ofMemory, hhead, hcount, ofBytes_toBytes, ofBytes_toBytes, hheadIndex, hcount',
    UInt64.ofNat_toNat, UInt64.ofNat_toNat]

end AudioEntryHeader

/-- The bytes of an entry and where they lie. -/
structure AudioBounceBufferEntry where
  data : UInt64
  bytes : Nat → UInt8

/-- The entries of the bounce buffer.  They are all of one size, with the header. -/
structure AudioBounceBuffer where
  entries : List AudioBounceBufferEntry
  entrySize : UInt64
  layout : ContinuousDataLayout

namespace AudioBounceBuffer

def block (buffer : AudioBounceBuffer) (entry : AudioBounceBufferEntry) : MemoryBlock :=
  { base := entry.data, size := buffer.entrySize.toNat, bytes := entry.bytes }

/-- The samples of an entry go to the pieces of the rings one after the other. -/
def copyPieces (entry : MemoryBlock) (outRegion : MemoryBlock) (srcAddr : UInt64) :
    List BufferSlice → Option MemoryBlock
  | [] => some outRegion
  | slice :: slices => do
      let values ← entry.read srcAddr slice.size
      let outRegion ← outRegion.write slice.pointer values
      copyPieces entry outRegion (srcAddr + slice.size) slices

def countTooLarge (count : UInt64) : FabricsException :=
  .invalidArgument ("Invalid 'count' " ++ toString count ++ " received in the header. " ++
    "That number of samples per channel would bust the bounce buffer entry.")

/-- `unpack`: the header and the rings.  There is no result for an entry that does
    not exist or a piece outside the rings. -/
def unpack (buffer : AudioBounceBuffer) (entryIndex : Nat) (outRegion : MemoryBlock) :
    Option (Except FabricsException (AudioEntryHeader × MemoryBlock)) := do
  let entry ← buffer.entries[entryIndex]?
  let header := AudioEntryHeader.ofMemory entry.bytes
  let maxCountPerEntry :=
    (buffer.entrySize - 16) / (buffer.layout.channelCount * buffer.layout.sampleSize)
  if header.count > maxCountPerEntry then
    some (.error (countTooLarge header.count))
  else
    let slices := buffer.layout.slices header.headIndex header.count outRegion.base
    let outRegion ←
      copyPieces (buffer.block entry) outRegion (entry.data + 16) (channelPieces slices)
    some (.ok (header, outRegion))

/-- Copying pieces that lie in the rings from samples that lie in the entry. -/
theorem copyPieces_eq (entry : MemoryBlock) (hentry : entry.size < 2 ^ 64)
    (outRegion : MemoryBlock) (srcAddr : UInt64) {slices : List BufferSlice}
    (hslices : ∀ slice ∈ slices,
      outRegion.offset slice.pointer + slice.size.toNat ≤ outRegion.size)
    (hsamples : entry.offset srcAddr + totalLength (slices.map (BufferSlice.piece outRegion)) ≤
      entry.size) :
    copyPieces entry outRegion srcAddr slices = some { outRegion with
      bytes := scatter entry.bytes (entry.offset srcAddr) outRegion.bytes
        (slices.map (BufferSlice.piece outRegion)) } := by
  induction slices generalizing outRegion srcAddr with
  | nil => rfl
  | cons slice slices ih =>
    rw [List.map_cons, totalLength_cons] at hsamples
    have hlength : (slice.piece outRegion).length = slice.size.toNat := rfl
    have hread : entry.read srcAddr slice.size =
        some (load entry.bytes (entry.offset srcAddr) slice.size.toNat) := if_pos (by omega)
    have hwrite := outRegion.write_eq_some slice.pointer
      (load entry.bytes (entry.offset srcAddr) slice.size.toNat)
      (by rw [length_load]; exact hslices slice (List.mem_cons_self ..))
    have hnext : entry.offset (srcAddr + slice.size) = entry.offset srcAddr + slice.size.toNat :=
      entry.offset_add_of_lt (by omega)
    have hrest := ih { outRegion with
        bytes := store outRegion.bytes (outRegion.offset slice.pointer)
          (load entry.bytes (entry.offset srcAddr) slice.size.toNat) } (srcAddr + slice.size)
      (fun other hmem => hslices other (List.mem_cons_of_mem _ hmem))
      (by rw [hnext]; change _ + totalLength (slices.map (BufferSlice.piece outRegion)) ≤ _; omega)
    rw [hnext] at hrest
    rw [copyPieces, hread, Option.bind_eq_bind, Option.bind_some, hwrite, Option.bind_eq_bind,
      Option.bind_some, hrest]
    rfl

/-- The check of the count is one of the size, for an entry with a header. -/
theorem not_countTooLarge_iff {buffer : AudioBounceBuffer} {count : UInt64}
    (hheader : 16 ≤ buffer.entrySize.toNat) :
    ¬ count > (buffer.entrySize - 16) / (buffer.layout.channelCount * buffer.layout.sampleSize) ↔
      16 + buffer.layout.channelCount.toNat * (buffer.layout.sampleSize.toNat * count.toNat) ≤
        buffer.entrySize.toNat := by
  have hsample : (buffer.layout.channelCount * buffer.layout.sampleSize).toNat =
      buffer.layout.channelCount.toNat * buffer.layout.sampleSize.toNat := by
    have hmapped := buffer.layout.mapped
    have hle := Nat.mul_le_mul_left buffer.layout.channelCount.toNat
      (Nat.le_mul_of_pos_right buffer.layout.sampleSize.toNat buffer.layout.bufferLength_pos)
    rw [UInt64.toNat_mul]
    exact Nat.mod_eq_of_lt (by omega)
  have hsize : (buffer.entrySize - 16).toNat = buffer.entrySize.toNat - 16 := by
    apply UInt64.toNat_sub_of_le
    rw [UInt64.le_iff_toNat_le]
    exact hheader
  rw [gt_iff_lt, UInt64.not_lt, UInt64.le_iff_toNat_le, UInt64.toNat_div, hsample, hsize,
    Nat.le_div_iff_mul_le (Nat.mul_pos buffer.layout.channelCount_pos buffer.layout.sampleSize_pos),
    Nat.mul_comm, Nat.mul_assoc]
  omega

theorem not_countTooLarge {buffer : AudioBounceBuffer} {count : UInt64}
    (hfit : 16 + buffer.layout.channelCount.toNat * (buffer.layout.sampleSize.toNat * count.toNat) ≤
      buffer.entrySize.toNat) :
    ¬ count > (buffer.entrySize - 16) / (buffer.layout.channelCount * buffer.layout.sampleSize) :=
  (not_countTooLarge_iff (le_trans (Nat.le_add_right 16 _) hfit)).mpr hfit

/-- What is unpacked from an entry that holds a header of a range on the ring. -/
theorem unpack_scatter {buffer : AudioBounceBuffer} {entryIndex : Nat}
    {entry : AudioBounceBufferEntry} (hentry : buffer.entries[entryIndex]? = some entry)
    (outRegion : MemoryBlock) (hsize : outRegion.size = buffer.layout.byteSize)
    {header : AudioEntryHeader} (hheader : AudioEntryHeader.ofMemory entry.bytes = header)
    (hcount : header.count.toNat ≤ buffer.layout.bufferLength.toNat)
    (hwindow : LaysOutWindow buffer.layout header.headIndex header.count)
    (hfit : 16 + buffer.layout.channelCount.toNat *
      (buffer.layout.sampleSize.toNat * header.count.toNat) ≤ buffer.entrySize.toNat) :
    buffer.unpack entryIndex outRegion = some (.ok (header, { outRegion with
      bytes := scatter entry.bytes 16 outRegion.bytes ((channelPieces (buffer.layout.slices
        header.headIndex header.count outRegion.base)).map (BufferSlice.piece outRegion)) })) := by
  obtain ⟨hfits, htotal, -⟩ := channelPieces_window outRegion hcount hwindow
  have hoffset : (buffer.block entry).offset (entry.data + 16) = 16 :=
    (buffer.block entry).offset_add 16
  have hcopy := copyPieces_eq (buffer.block entry) buffer.entrySize.toNat_lt outRegion
    (entry.data + 16) (fun slice hmem => by rw [hsize]; exact hfits _ (List.mem_map_of_mem hmem))
    (by rw [hoffset, htotal]; exact hfit)
  rw [hoffset] at hcopy
  rw [unpack, hentry, Option.bind_eq_bind, Option.bind_some]
  simp only [hheader]
  rw [if_neg (not_countTooLarge hfit), hcopy]
  rfl

/-- **Unpacking.**  If an entry holds a header and, behind it, the bytes gathered
    from the pieces of the header's range in the rings `original`, that range is
    copied to the rings of the target and the header is returned. -/
theorem unpack_eq {buffer : AudioBounceBuffer} {layout : ContinuousDataLayout}
    (hlayout : buffer.layout = layout) {entryIndex : Nat} {entry : AudioBounceBufferEntry}
    (hentry : buffer.entries[entryIndex]? = some entry) (outRegion : MemoryBlock)
    (hsize : outRegion.size = layout.byteSize) (header : AudioEntryHeader)
    (hcount : header.count.toNat ≤ layout.bufferLength.toNat)
    (hwindow : LaysOutWindow layout header.headIndex header.count)
    (hfit : 16 + layout.channelCount.toNat * (layout.sampleSize.toNat * header.count.toNat) ≤
      buffer.entrySize.toNat) {original : Nat → UInt8}
    (hload : load entry.bytes 0 (16 + layout.channelCount.toNat *
        (layout.sampleSize.toNat * header.count.toNat)) =
      header.bytes ++ gather original ((channelPieces (layout.slices header.headIndex
        header.count outRegion.base)).map (BufferSlice.piece outRegion))) :
    ∃ bytes, buffer.unpack entryIndex outRegion =
        some (.ok (header, { outRegion with bytes := bytes })) ∧
      Copied (layout.InWindow (startOffset layout.bufferLength header.headIndex
        header.count).toNat header.count.toNat) original outRegion.bytes bytes := by
  subst hlayout
  rw [load_add, Nat.zero_add] at hload
  obtain ⟨hheader, hsamples⟩ := List.append_inj hload (by simp)
  obtain ⟨-, htotal, hholds⟩ := channelPieces_window outRegion hcount hwindow
  rw [← htotal] at hsamples
  exact ⟨_, unpack_scatter hentry outRegion hsize (AudioEntryHeader.ofMemory_eq hheader) hcount
    hwindow hfit, (copied_scatter hsamples).congr hholds⟩

/-- Pieces that were copied lie in the rings. -/
theorem fits_of_copyPieces {entry outRegion outRegion' : MemoryBlock} {srcAddr : UInt64}
    {slices : List BufferSlice} (h : copyPieces entry outRegion srcAddr slices = some outRegion') :
    ∀ piece ∈ slices.map (BufferSlice.piece outRegion),
      piece.start + piece.length ≤ outRegion.size := by
  induction slices generalizing outRegion srcAddr with
  | nil => exact List.forall_mem_nil _
  | cons slice slices ih =>
    simp only [copyPieces, Option.bind_eq_bind, Option.bind_eq_some_iff] at h
    obtain ⟨values, hread, next, hwrite, hrest⟩ := h
    obtain ⟨-, rfl⟩ := MemoryBlock.read_eq_some.mp hread
    unfold MemoryBlock.write at hwrite
    split at hwrite
    · next hfit =>
      obtain rfl := Option.some.inj hwrite
      rw [length_load] at hfit
      have hlater := ih hrest
      rw [List.map_cons, List.forall_mem_cons]
      exact ⟨hfit, hlater⟩
    · cases hwrite

end AudioBounceBuffer

end MediaExchange
