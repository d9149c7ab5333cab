/-
  MediaExchange/BounceBufferSafety.lean
  =====================================
  **Headers and ranges that leave the rings** (`AudioBounceBuffer.cpp`,
  `ProtocolEgressRMA.cpp`).

  The header of an entry comes from the other end of the fabric.  Its count is
  checked against the size of the entry, neither it nor the head index against the
  rings; the sender checks its range no further.  What both copy or send is worked
  out in 64 bits, and `EndsInRing` says when that stays inside the rings.
-/
import MediaExchange.SampleRoundTrip

namespace MediaExchange

open MediaExchange.ByteMemory

/-! ### Ranges, counted in 64 bits -/

/-- The slot that the range starts in. -/
def ContinuousDataLayout.startSlot (layout : ContinuousDataLayout) (headIndex count : UInt64) :
    Nat :=
  (headIndex.toNat + layout.bufferLength.toNat + (2 ^ 64 - count.toNat)) % 2 ^ 64 %
    layout.bufferLength.toNat

/-- The bytes of a range in one channel. -/
def ContinuousDataLayout.rangeBytes (layout : ContinuousDataLayout) (count : UInt64) : Nat :=
  layout.sampleSize.toNat * count.toNat % 2 ^ 64

/-- A range whose head slot is behind its start slot ends in front of the end of the ring;
    any other one goes on to the end of the ring, and from its start at most to its end
    again. -/
def EndsInRing (layout : ContinuousDataLayout) (headIndex count : UInt64) : Prop :=
  let start := layout.sampleSize.toNat * layout.startSlot headIndex count
  let ring := layout.sampleSize.toNat * layout.bufferLength.toNat
  if layout.startSlot headIndex count < headIndex.toNat % layout.bufferLength.toNat then
    start + layout.rangeBytes count ≤ ring
  else ring ≤ start + layout.rangeBytes count ∧ start + layout.rangeBytes count ≤ 2 * ring

instance (layout : ContinuousDataLayout) (headIndex count : UInt64) :
    Decidable (EndsInRing layout headIndex count) :=
  inferInstanceAs (Decidable (if layout.startSlot headIndex count <
    headIndex.toNat % layout.bufferLength.toNat then _ ≤ _ else _ ≤ _ ∧ _ ≤ _))

section Pieces

variable {layout : ContinuousDataLayout} {headIndex count : UInt64} {block : MemoryBlock}

theorem toNat_startOffset_eq_startSlot :
    (startOffset layout.bufferLength headIndex count).toNat = layout.startSlot headIndex count := by
  rw [startOffset, UInt64.toNat_mod, UInt64.toNat_sub, UInt64.toNat_add]
  unfold ContinuousDataLayout.startSlot
  congr 1
  omega

theorem startSlot_lt (layout : ContinuousDataLayout) (headIndex count : UInt64) :
    layout.startSlot headIndex count < layout.bufferLength.toNat :=
  Nat.mod_lt _ layout.bufferLength_pos

theorem toNat_rangeSize :
    (layout.sampleSize * count).toNat = layout.rangeBytes count := UInt64.toNat_mul _ _

/-- The pieces of any range, also of one longer than the ring. -/
theorem map_piece_channelPieces_any (block : MemoryBlock) (headIndex count : UInt64) :
    (channelPieces (layout.slices headIndex count block.base)).map (BufferSlice.piece block) =
      ringPieces layout (layout.sampleSize.toNat * layout.startSlot headIndex count)
          (layout.sampleSize * firstLength layout.bufferLength headIndex count).toNat ++
        ringPieces layout 0
          (layout.sampleSize * secondLength layout.bufferLength headIndex count).toNat := by
  rw [map_piece_channelPieces_words, toNat_startOffset_eq_startSlot]

/-- The fragments' sizes, in integers. -/
theorem toNat_fragmentSizes (layout : ContinuousDataLayout) (headIndex count : UInt64) :
    let ring := layout.sampleSize.toNat * layout.bufferLength.toNat
    let start := layout.sampleSize.toNat * layout.startSlot headIndex count
    let first := (layout.sampleSize * firstLength layout.bufferLength headIndex count).toNat
    let second := (layout.sampleSize * secondLength layout.bufferLength headIndex count).toNat
    if layout.startSlot headIndex count < headIndex.toNat % layout.bufferLength.toNat then
      first = layout.rangeBytes count ∧ second = 0
    else first = ring - start ∧
      second = (layout.rangeBytes count + (2 ^ 64 - (ring - start))) % 2 ^ 64 := by
  intro ring start first second
  have hslot : startOffset layout.bufferLength headIndex count < headIndex % layout.bufferLength ↔
      layout.startSlot headIndex count < headIndex.toNat % layout.bufferLength.toNat := by
    rw [UInt64.lt_iff_toNat_lt, toNat_startOffset_eq_startSlot, UInt64.toNat_mod]
  have hlt := startSlot_lt layout headIndex count
  split
  · rename_i hends
    have hfirst : firstLength layout.bufferLength headIndex count = count :=
      if_pos (hslot.mpr hends)
    refine ⟨?_, ?_⟩
    · change (layout.sampleSize * firstLength layout.bufferLength headIndex count).toNat = _
      rw [hfirst, toNat_rangeSize]
    · change (layout.sampleSize * secondLength layout.bufferLength headIndex count).toNat = _
      rw [secondLength, hfirst, UInt64.sub_self, UInt64.mul_zero, UInt64.toNat_zero]
  · rename_i hends
    have hfirst : firstLength layout.bufferLength headIndex count =
        layout.bufferLength - startOffset layout.bufferLength headIndex count :=
      if_neg (mt hslot.mp hends)
    have hle : startOffset layout.bufferLength headIndex count ≤ layout.bufferLength := by
      rw [UInt64.le_iff_toNat_le, toNat_startOffset_eq_startSlot]
      exact hlt.le
    have hrest : (layout.bufferLength - startOffset layout.bufferLength headIndex count).toNat =
        layout.bufferLength.toNat - layout.startSlot headIndex count := by
      rw [UInt64.toNat_sub_of_le _ _ hle, toNat_startOffset_eq_startSlot]
    have hsize : first = ring - start := by
      change (layout.sampleSize * firstLength layout.bufferLength headIndex count).toNat = _
      rw [hfirst, layout.toNat_sampleSize_mul (by omega), hrest, Nat.mul_sub]
    refine ⟨hsize, ?_⟩
    change (layout.sampleSize * secondLength layout.bufferLength headIndex count).toNat = _
    have hsplit : layout.sampleSize * secondLength layout.bufferLength headIndex count =
        layout.sampleSize * count -
          layout.sampleSize * firstLength layout.bufferLength headIndex count := by
      rw [secondLength]
      grind
    have hsize' : (layout.sampleSize * firstLength layout.bufferLength headIndex count).toNat =
        ring - start := hsize
    rw [hsplit, UInt64.toNat_sub, hsize', toNat_rangeSize, Nat.add_comm]

/-- **The pieces of a range lie inside the rings** exactly if the range, counted in 64
    bits, ends there. -/
theorem fits_iff_endsInRing :
    Fits layout ((channelPieces (layout.slices headIndex count block.base)).map
      (BufferSlice.piece block)) ↔ EndsInRing layout headIndex count := by
  have hring := layout.ring_lt
  have hslot := Nat.mul_lt_mul_of_pos_left (startSlot_lt layout headIndex count)
    layout.sampleSize_pos
  have hrange : layout.rangeBytes count < 2 ^ 64 := Nat.mod_lt _ (by decide)
  have hsizes := toNat_fragmentSizes layout headIndex count
  have hboth : Fits layout ((channelPieces (layout.slices headIndex count block.base)).map
      (BufferSlice.piece block)) ↔
      Fits layout (ringPieces layout (layout.sampleSize.toNat * layout.startSlot headIndex count)
        (layout.sampleSize * firstLength layout.bufferLength headIndex count).toNat) ∧
      Fits layout (ringPieces layout 0
        (layout.sampleSize * secondLength layout.bufferLength headIndex count).toNat) := by
    rw [map_piece_channelPieces_any]
    simp only [Fits, List.mem_append, or_imp, forall_and]
  rw [hboth, fits_ringPieces, fits_ringPieces]
  unfold EndsInRing
  dsimp only at hsizes ⊢
  split at hsizes
  · rename_i hends
    rw [if_pos hends, hsizes.1, hsizes.2]
    omega
  · rename_i hends
    rw [if_neg hends, hsizes.1, hsizes.2]
    omega

/-- Pieces inside the rings are as long together as the range is for each channel. -/
theorem totalLength_of_endsInRing (h : EndsInRing layout headIndex count) :
    totalLength ((channelPieces (layout.slices headIndex count block.base)).map
      (BufferSlice.piece block)) = layout.channelCount.toNat * layout.rangeBytes count := by
  have hring := layout.ring_lt
  have hslot := Nat.mul_lt_mul_of_pos_left (startSlot_lt layout headIndex count)
    layout.sampleSize_pos
  have hsizes := toNat_fragmentSizes layout headIndex count
  rw [map_piece_channelPieces_any, totalLength_append, totalLength_ringPieces,
    totalLength_ringPieces, ← Nat.mul_add]
  unfold EndsInRing at h
  dsimp only at hsizes h
  congr 1
  split at hsizes
  · rw [hsizes.1, hsizes.2, Nat.add_zero]
  · rename_i hends
    rw [if_neg hends] at h
    rw [hsizes.1, hsizes.2]
    omega

end Pieces

/-! ### Unpacking -/

namespace AudioBounceBuffer

variable {buffer : AudioBounceBuffer} {entryIndex : Nat} {entry : AudioBounceBufferEntry}
  {outRegion : MemoryBlock}

/-- `unpack` throws before it copies anything, or all it reads lies in the entry and all it
    writes in the rings. -/
def UnpackSafe (buffer : AudioBounceBuffer) (entryIndex : Nat) (outRegion : MemoryBlock) : Prop :=
  (buffer.unpack entryIndex outRegion).isSome

/-- The count of the header is one that the entry has room for. -/
def EntryHolds (buffer : AudioBounceBuffer) (count : UInt64) : Prop :=
  16 + buffer.layout.channelCount.toNat * (buffer.layout.sampleSize.toNat * count.toNat) ≤
    buffer.entrySize.toNat

instance (buffer : AudioBounceBuffer) (count : UInt64) : Decidable (buffer.EntryHolds count) :=
  inferInstanceAs (Decidable (_ ≤ _))

/-- In an entry the bytes of a range are counted without wrapping. -/
theorem rangeBytes_of_entryHolds {count : UInt64} (h : buffer.EntryHolds count) :
    buffer.layout.rangeBytes count = buffer.layout.sampleSize.toNat * count.toNat := by
  have hlt := buffer.entrySize.toNat_lt
  have hle := Nat.le_mul_of_pos_left (buffer.layout.sampleSize.toNat * count.toNat)
    buffer.layout.channelCount_pos
  unfold EntryHolds at h
  exact Nat.mod_eq_of_lt (by omega)

/-- The check of the count, for an entry with a header. -/
theorem countTooLarge_iff {count : UInt64} (hheader : 16 ≤ buffer.entrySize.toNat) :
    count > (buffer.entrySize - 16) / (buffer.layout.channelCount * buffer.layout.sampleSize) ↔
      ¬ buffer.EntryHolds count := by
  rw [← not_iff_not, not_not]
  exact not_countTooLarge_iff hheader

theorem unpack_of_header (hentry : buffer.entries[entryIndex]? = some entry)
    {header : AudioEntryHeader} (hofMemory : AudioEntryHeader.ofMemory entry.bytes = header) :
    buffer.unpack entryIndex outRegion =
      if header.count >
          (buffer.entrySize - 16) / (buffer.layout.channelCount * buffer.layout.sampleSize) then
        some (.error (countTooLarge header.count))
      else
        (copyPieces (buffer.block entry) outRegion (entry.data + 16) (channelPieces
          (buffer.layout.slices header.headIndex header.count outRegion.base))).bind
            fun outRegion => some (.ok (header, outRegion)) := by
  subst hofMemory
  rw [unpack, hentry, Option.bind_eq_bind, Option.bind_some]
  rfl

/-- Pieces are copied exactly if they lie in the rings. -/
theorem isSome_copyPieces_iff (entry : AudioBounceBufferEntry)
    (hsize : outRegion.size = buffer.layout.byteSize) {headIndex count : UInt64}
    (hholds : buffer.EntryHolds count) :
    (copyPieces (buffer.block entry) outRegion (entry.data + 16) (channelPieces
      (buffer.layout.slices headIndex count outRegion.base))).isSome ↔
        EndsInRing buffer.layout headIndex count := by
  rw [← @fits_iff_endsInRing _ _ _ outRegion]
  constructor
  · intro hsome
    obtain ⟨outRegion', hcopy⟩ := Option.isSome_iff_exists.mp hsome
    have hpieces := fits_of_copyPieces hcopy
    rwa [hsize] at hpieces
  · intro hfits
    have hends := fits_iff_endsInRing.mp hfits
    have htotal := @totalLength_of_endsInRing _ _ _ outRegion hends
    have hoffset : (buffer.block entry).offset (entry.data + 16) = 16 :=
      (buffer.block entry).offset_add 16
    have hcopy := copyPieces_eq (buffer.block entry) buffer.entrySize.toNat_lt outRegion
      (entry.data + 16)
      (fun slice hmem => by rw [hsize]; exact hfits _ (List.mem_map_of_mem hmem))
      (by rw [hoffset, htotal, rangeBytes_of_entryHolds hholds]; exact hholds)
    rw [hcopy]
    rfl

theorem unpackSafe_iff (hentry : buffer.entries[entryIndex]? = some entry)
    (hheader : 16 ≤ buffer.entrySize.toNat) (hsize : outRegion.size = buffer.layout.byteSize)
    {header : AudioEntryHeader} (hofMemory : AudioEntryHeader.ofMemory entry.bytes = header) :
    buffer.UnpackSafe entryIndex outRegion ↔
      (buffer.EntryHolds header.count →
        EndsInRing buffer.layout header.headIndex header.count) := by
  unfold UnpackSafe
  rw [unpack_of_header hentry hofMemory]
  by_cases hholds : buffer.EntryHolds header.count
  · rw [if_neg (fun hcount => (countTooLarge_iff hheader).mp hcount hholds),
      forall_prop_of_true hholds, Option.isSome_bind,
      ← isSome_copyPieces_iff entry hsize hholds]
    simp
  · rw [if_pos ((countTooLarge_iff hheader).mpr hholds)]
    exact iff_of_true rfl fun h => absurd h hholds

end AudioBounceBuffer

/-! ### Sending -/

namespace RMASampleEgressProtocol

variable {proto : RMASampleEgressProtocol} {headIndex count : UInt64}

/-- The checks of `transferSamples` and the list it makes after them, without the header. -/
def transferList (proto : RMASampleEgressProtocol) (headIndex count : UInt64) :
    Except FabricsException (List LocalRegion) :=
  if count = 0 then .error countZero
  else if entrySizeRequired proto.layout count > proto.entrySize then
    .error (countTooLarge count proto.entrySize (entrySizeRequired proto.layout count))
  else .ok (makeScatterGatherList proto.layout headIndex count proto.localRegion)

/-- A rejected list is thrown for before anything is posted; any other one is written
    behind the header of the entry. -/
theorem transferSamples_eq (iovLimit : UInt64) :
    proto.transferSamples iovLimit headIndex count =
      match proto.transferList headIndex count with
      | .error exception => ([], .error exception, proto)
      | .ok sgl =>
          let header := proto.entryHeaderRegions.get ⟨proto.bounceBufferEntryIndex.toNat, by
            rw [proto.entryHeaderRegions_length]; exact proto.entryIndex_lt⟩
          let next := proto.setEntryHeader { headIndex := headIndex, count := count }
          match Endpoint.writeGroup iovLimit (header :: sgl) proto.remoteEntry
              (some proto.bounceBufferEntryIndex) with
          | (writes, .error exception) => (writes, .error exception, next)
          | (writes, .ok ()) =>
              (writes, .ok (), next.nextEntry (Endpoint.nbWrites iovLimit (header :: sgl))) := by
  unfold transferSamples transferList
  split
  · rfl
  · split
    · rfl
    · rfl

/-- A list that is not rejected lies in the local region and, with the header, is no longer
    than the entry of the target. -/
def EgressSafe (proto : RMASampleEgressProtocol) (headIndex count : UInt64) : Prop :=
  ∀ sgl, proto.transferList headIndex count = .ok sgl →
    (∀ region ∈ sgl, (region.addr - proto.localRegion.addr).toNat + region.len.toNat ≤
        proto.localRegion.len.toNat) ∧
      16 + totalBytes sgl ≤ proto.entrySize.toNat

/-- The size that is checked, as it is counted. -/
theorem toNat_entrySizeRequired_mod (layout : ContinuousDataLayout) (count : UInt64) :
    (entrySizeRequired layout count).toNat =
      (16 + layout.channelCount.toNat * (layout.sampleSize.toNat * count.toNat)) % 2 ^ 64 := by
  have hassoc : layout.sampleSize.toNat * layout.channelCount.toNat * count.toNat =
      layout.channelCount.toNat * (layout.sampleSize.toNat * count.toNat) := by
    ring
  have hsixteen : (16 : UInt64).toNat = 16 := rfl
  rw [entrySizeRequired, UInt64.toNat_add, UInt64.toNat_mul, UInt64.toNat_mul, Nat.mod_mul_mod,
    hassoc, hsixteen, Nat.mod_add_mod, Nat.add_comm]

/-- A range that is not rejected. -/
def Accepted (proto : RMASampleEgressProtocol) (count : UInt64) : Prop :=
  0 < count.toNat ∧
    (16 + proto.layout.channelCount.toNat * (proto.layout.sampleSize.toNat * count.toNat)) %
      2 ^ 64 ≤ proto.entrySize.toNat

instance (proto : RMASampleEgressProtocol) (count : UInt64) : Decidable (proto.Accepted count) :=
  inferInstanceAs (Decidable (_ ∧ _))

theorem transferList_eq_ok {sgl : List LocalRegion} :
    proto.transferList headIndex count = .ok sgl ↔ proto.Accepted count ∧
      sgl = makeScatterGatherList proto.layout headIndex count proto.localRegion := by
  have hzero : count = 0 ↔ ¬ 0 < count.toNat := by
    rw [← UInt64.toNat_inj, UInt64.toNat_zero, Nat.pos_iff_ne_zero, not_not]
  have hlarge : entrySizeRequired proto.layout count > proto.entrySize ↔
      ¬ (16 + proto.layout.channelCount.toNat * (proto.layout.sampleSize.toNat * count.toNat)) %
        2 ^ 64 ≤ proto.entrySize.toNat := by
    rw [gt_iff_lt, UInt64.lt_iff_toNat_lt, toNat_entrySizeRequired_mod, Nat.not_le]
  unfold transferList Accepted
  by_cases hcount : 0 < count.toNat
  · rw [if_neg (mt hzero.mp (not_not.mpr hcount))]
    by_cases hfit : (16 + proto.layout.channelCount.toNat *
        (proto.layout.sampleSize.toNat * count.toNat)) % 2 ^ 64 ≤ proto.entrySize.toNat
    · rw [if_neg (mt hlarge.mp (not_not.mpr hfit)), Except.ok.injEq, eq_comm]
      exact ⟨fun h => ⟨⟨hcount, hfit⟩, h⟩, fun h => h.2⟩
    · rw [if_pos (hlarge.mpr hfit)]
      exact iff_of_false nofun fun h => hfit h.1.2
  · rw [if_pos (hzero.mpr hcount)]
    exact iff_of_false nofun fun h => hcount h.1.1

/-- The list is made of the pieces of the range. -/
theorem makeScatterGatherList_inside_iff (layout : ContinuousDataLayout) (region : LocalRegion)
    (bytes : Nat → UInt8) (hlen : region.len.toNat = layout.byteSize) :
    (∀ piece ∈ makeScatterGatherList layout headIndex count region,
        (piece.addr - region.addr).toNat + piece.len.toNat ≤ region.len.toNat) ↔
      Fits layout ((channelPieces (layout.slices headIndex count region.addr)).map
        (BufferSlice.piece ⟨region.addr, layout.byteSize, bytes⟩)) := by
  unfold makeScatterGatherList Fits
  rw [List.forall_mem_map, List.forall_mem_map, hlen]
  rfl

theorem totalBytes_makeScatterGatherList (layout : ContinuousDataLayout) (region : LocalRegion)
    (block : MemoryBlock) :
    totalBytes (makeScatterGatherList layout headIndex count region) =
      totalLength ((channelPieces (layout.slices headIndex count region.addr)).map
        (BufferSlice.piece block)) := by
  unfold totalBytes totalLength makeScatterGatherList
  rw [List.map_map, List.map_map]
  rfl

theorem egressSafe_iff (hlen : proto.localRegion.len.toNat = proto.layout.byteSize) :
    EgressSafe proto headIndex count ↔
      (proto.Accepted count → EndsInRing proto.layout headIndex count ∧
        16 + proto.layout.channelCount.toNat * proto.layout.rangeBytes count ≤
          proto.entrySize.toNat) := by
  have hinside := @makeScatterGatherList_inside_iff headIndex count proto.layout
    proto.localRegion (fun _ => 0) hlen
  rw [@fits_iff_endsInRing proto.layout headIndex count
    ⟨proto.localRegion.addr, proto.layout.byteSize, fun _ => 0⟩] at hinside
  have htotal : EndsInRing proto.layout headIndex count →
      totalBytes (makeScatterGatherList proto.layout headIndex count proto.localRegion) =
        proto.layout.channelCount.toNat * proto.layout.rangeBytes count := by
    intro hends
    rw [totalBytes_makeScatterGatherList _ _
      ⟨proto.localRegion.addr, proto.layout.byteSize, fun _ => 0⟩]
    exact totalLength_of_endsInRing hends
  constructor
  · intro h haccepted
    obtain ⟨hpieces, hentry⟩ := h _ (transferList_eq_ok.mpr ⟨haccepted, rfl⟩)
    have hends := hinside.mp hpieces
    rw [htotal hends] at hentry
    exact ⟨hends, hentry⟩
  · intro h sgl hsgl
    obtain ⟨haccepted, rfl⟩ := transferList_eq_ok.mp hsgl
    obtain ⟨hends, hentry⟩ := h haccepted
    refine ⟨hinside.mpr hends, ?_⟩
    rw [htotal hends]
    exact hentry

end RMASampleEgressProtocol

/-- **Any header and any range.**  What `unpack` copies stays in the entry and in the rings
    exactly if the range of a header that the entry has room for ends in the ring; what is
    sent does so exactly if the range, not rejected, ends in the ring and in the entry. -/
theorem bounce_buffer_safe_iff (buffer : AudioBounceBuffer) (entryIndex : Nat)
    (entry : AudioBounceBufferEntry) (outRegion : MemoryBlock) (proto : RMASampleEgressProtocol)
    (headIndex count : UInt64) (hentry : buffer.entries[entryIndex]? = some entry)
    (hheader : 16 ≤ buffer.entrySize.toNat) (hsize : outRegion.size = buffer.layout.byteSize)
    (hlen : proto.localRegion.len.toNat = proto.layout.byteSize) :
    (buffer.UnpackSafe entryIndex outRegion ↔
      (buffer.EntryHolds (AudioEntryHeader.ofMemory entry.bytes).count →
        EndsInRing buffer.layout (AudioEntryHeader.ofMemory entry.bytes).headIndex
          (AudioEntryHeader.ofMemory entry.bytes).count)) ∧
    (proto.EgressSafe headIndex count ↔
      (proto.Accepted count → EndsInRing proto.layout headIndex count ∧
        16 + proto.layout.channelCount.toNat * proto.layout.rangeBytes count ≤
          proto.entrySize.toNat)) :=
  ⟨AudioBounceBuffer.unpackSafe_iff hentry hheader hsize rfl,
    RMASampleEgressProtocol.egressSafe_iff hlen⟩

/-! ### Nothing, and too much -/

open SampleRoundTrip

/-- The two samples up to head index 5. -/
def filledEntry : AudioBounceBufferEntry :=
  { data := 65536, bytes := fun i => if i = 0 then 5 else if i = 8 then 2 else 0 }

def filledBuffer : AudioBounceBuffer := { oneEntryBuffer with entries := [filledEntry] }

theorem ofMemory_filledEntry : AudioEntryHeader.ofMemory filledEntry.bytes = ⟨5, 2⟩ := by decide

/-- Two samples are unpacked, and sent, from a ring of three. -/
theorem bounce_buffer_safe_two :
    filledBuffer.UnpackSafe 0 (rings 4096) ∧ oneEntry.EgressSafe 5 2 := by
  have h := bounce_buffer_safe_iff filledBuffer 0 filledEntry (rings 4096) oneEntry 5 2 rfl
    (by decide) rfl rfl
  rw [ofMemory_filledEntry] at h
  exact ⟨h.1.mpr fun _ => by decide, h.2.mpr fun _ => ⟨by decide, by decide⟩⟩

theorem ofMemory_zero : AudioEntryHeader.ofMemory (fun _ => 0) = ⟨0, 0⟩ := by decide

/-- A header without samples makes `unpack` leave the rings, and five samples from a ring
    of three make the sender leave it. -/
theorem empty_header_and_long_range_unsafe :
    ¬ oneEntryBuffer.UnpackSafe 0 (rings 4096) ∧
      ¬ RMASampleEgressProtocol.EgressSafe { oneEntry with entrySize := 64 } 5 5 := by
  constructor
  · have hentry : oneEntryBuffer.entries[0]? = some ⟨65536, fun _ => 0⟩ := rfl
    have hsize : (rings 4096).size = oneEntryBuffer.layout.byteSize := rfl
    have hiff := AudioBounceBuffer.unpackSafe_iff hentry (by decide) hsize ofMemory_zero
    have houtside : ¬ EndsInRing twoChannels 0 0 := by decide
    exact fun h => houtside (hiff.mp h (by decide))
  · have hiff := @RMASampleEgressProtocol.egressSafe_iff { oneEntry with entrySize := 64 } 5 5 rfl
    have hlong : ¬ EndsInRing twoChannels 5 5 := by decide
    exact fun h => hlong (hiff.mp h (by decide)).1

end MediaExchange
