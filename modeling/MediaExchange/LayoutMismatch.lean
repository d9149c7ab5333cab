/-
  MediaExchange/LayoutMismatch.lean
  =================================
  **An initiator and a target with layouts of their own** (`TargetInfo.hpp`,
  `ProtocolEgressRMA.cpp`, `AudioBounceBuffer.cpp`).

  The target info says where the entries of the bounce buffer are and how large they
  are, but nothing about the rings they are unpacked to.  The initiator cuts a range
  where its own ring ends and sends the channels one after the other, piece by
  piece; the target cuts the range where its ring ends and counts its own channels.
  What either end checks are sizes.

  Main result: `noticed_iff`.  A range that is neither refused by the initiator nor
  by the target arrives in the right places exactly when both ends put every sample
  of the target's channels at one position of the entry.
-/
import MediaExchange.SampleTransfer

namespace MediaExchange

open MediaExchange.ByteMemory MediaExchange.RingWindow MediaExchange.SampleRoundTrip

/-! ### Setting up -/

structure TargetInfoBounceBufferInfo where
  entryCount : UInt64
  entrySize : UInt64

/-- What a `TargetInfo` says about the memory of the target. -/
structure TargetInfo where
  remoteRegions : List RemoteRegion
  bounceBufferInfo : Option TargetInfoBounceBufferInfo

/-- The regions of the bounce buffer, and `RMASampleIngressProtocol::bounceBufferInfo`. -/
def AudioBounceBuffer.targetInfo (buffer : AudioBounceBuffer) : TargetInfo where
  remoteRegions := buffer.entries.mapIdx fun i entry =>
    { addr := entry.data, len := buffer.entrySize, rkey := UInt64.ofNat i }
  bounceBufferInfo := some
    { entryCount := UInt64.ofNat buffer.entries.length
      entrySize := if buffer.entries = [] then 0 else buffer.entrySize }

structure RMASampleEgressProtocolTemplate where
  layout : ContinuousDataLayout
  localRegion : Option LocalRegion

namespace RMASampleEgressProtocolTemplate

def notRegistered : FabricsException :=
  .invalidState "Cannot create protocol before memory is registered."

def noBounceBufferInfo : FabricsException :=
  .invalidArgument
    "Remote target does not have bounce buffer info required for sample egress protocol."

/-- `createInstance`, and `registerMemory` of the protocol.  There is no result for a
    target without regions: their number is what the entry's index is divided by. -/
def createInstance (template : RMASampleEgressProtocolTemplate) (headerData : Nat → UInt64)
    (info : TargetInfo) : Option (Except FabricsException RMASampleEgressProtocol) :=
  match template.localRegion, info.bounceBufferInfo with
  | none, _ => some (.error notRegistered)
  | some _, none => some (.error noBounceBufferInfo)
  | some localRegion, some bounceBufferInfo =>
      let count := bounceBufferInfo.entryCount.toUInt32
      if hpos : 0 < count.toNat then
        if hregions : 0 < info.remoteRegions.length then
          some (.ok
            { layout := template.layout
              localRegion := localRegion
              remoteRegions := info.remoteRegions
              entrySize := bounceBufferInfo.entrySize
              entryHeaders := List.replicate count.toNat { headIndex := 0, count := 0 }
              entryHeaderRegions := (List.range count.toNat).map fun i =>
                { addr := headerData i, len := 16, desc := UInt64.ofNat (i + 1) }
              bounceBufferEntryIndex := 0
              bounceBufferEntryCount := count.toUInt64
              pending := 0
              entryHeaders_length := by rw [List.length_replicate, UInt32.toNat_toUInt64]
              entryHeaderRegions_length := by
                rw [List.length_map, List.length_range, UInt32.toNat_toUInt64]
              entryIndex_lt := by rw [UInt32.toNat_toUInt64]; exact hpos
              remoteRegions_pos := hregions })
        else none
      else some (.error RMASampleEgressProtocol.headersNotInitialized)

/-- The template once the rings are registered. -/
def registered (layout : ContinuousDataLayout) (samples : MemoryBlock) :
    RMASampleEgressProtocolTemplate :=
  { layout := layout
    localRegion := some { addr := samples.base, len := UInt64.ofNat layout.byteSize, desc := 0 } }

/-- With one layout on both sides this is the protocol for the bounce buffer. -/
theorem createInstance_targetInfo (layout : ContinuousDataLayout) (samples : MemoryBlock)
    (headerData : Nat → UInt64) (buffer : AudioBounceBuffer) :
    (registered layout samples).createInstance headerData buffer.targetInfo =
      some (RMASampleEgressProtocol.create { buffer with layout := layout } samples headerData) := by
  have hentries : 0 < (UInt64.ofNat buffer.entries.length).toUInt32.toNat → buffer.entries ≠ [] := by
    intro hpos hnil
    rw [hnil] at hpos
    exact absurd hpos (by decide)
  by_cases hpos : 0 < (UInt64.ofNat buffer.entries.length).toUInt32.toNat
  · have hregions : 0 < buffer.targetInfo.remoteRegions.length :=
      (List.length_pos_iff.mpr (hentries hpos)).trans_eq List.length_mapIdx.symm
    have hsize : (if buffer.entries = [] then 0 else buffer.entrySize) = buffer.entrySize :=
      if_neg (hentries hpos)
    unfold RMASampleEgressProtocol.create
    dsimp only
    rw [dif_pos hpos]
    refine (dif_pos hpos).trans ((dif_pos hregions).trans ?_)
    simp only [AudioBounceBuffer.targetInfo, hsize, registered]
  · unfold RMASampleEgressProtocol.create
    dsimp only
    rw [dif_neg hpos]
    exact dif_neg hpos

end RMASampleEgressProtocolTemplate

/-! ### What should arrive -/

namespace ContinuousDataLayout

/-- Where the `k`-th of the `count` samples up to `headIndex` belongs. -/
def slotOf (layout : ContinuousDataLayout) (headIndex count : UInt64) (k : Nat) : Nat :=
  (headIndex.toNat + layout.bufferLength.toNat - count.toNat + k) % layout.bufferLength.toNat

/-- The `k`-th of the `count` samples up to `headIndex` of a channel, if there is such
    a channel and its ring holds that many samples. -/
def sampleAt (layout : ContinuousDataLayout) (headIndex count : UInt64) (rings : Nat → UInt8)
    (channel k : Nat) : Option (List UInt8) :=
  if channel < layout.channelCount.toNat ∧ count.toNat ≤ layout.bufferLength.toNat then
    some (load rings (layout.sampleByte channel (layout.slotOf headIndex count k) 0)
      layout.sampleSize.toNat)
  else none

/-- How many of the `count` samples up to `headIndex` come before the end of the ring. -/
def beforeWrap (layout : ContinuousDataLayout) (headIndex count : UInt64) : Nat :=
  firstPiece layout.bufferLength.toNat (layout.slotOf headIndex count 0) count.toNat

end ContinuousDataLayout

/-- Every channel of the target has the source's samples, and nothing else has
    changed. -/
structure Arrived (source target : ContinuousDataLayout) (headIndex count : UInt64)
    (sent before after : Nat → UInt8) : Prop where
  samples : ∀ channel < target.channelCount.toNat, ∀ k < count.toNat, ∃ sample,
    source.sampleAt headIndex count sent channel k = some sample ∧
      target.sampleAt headIndex count after channel k = some sample
  others : ∀ a, ¬ target.InRange headIndex count a → after a = before a

/-- Both ends put every sample of the target's channels at one position of the
    entry, and find it where it belongs. -/
structure Agree (source target : ContinuousDataLayout) (headIndex count : UInt64) : Prop where
  sampleSize : source.sampleSize = target.sampleSize
  channels : target.channelCount.toNat ≤ source.channelCount.toNat
  source_holds : count.toNat ≤ source.bufferLength.toNat
  target_holds : count.toNat ≤ target.bufferLength.toNat
  source_start : WrapsUnnoticed source.bufferLength.toNat headIndex.toNat count.toNat
  target_start : WrapsUnnoticed target.bufferLength.toNat headIndex.toNat count.toNat
  cut :
    if target.channelCount.toNat = 1 then
      source.channelCount.toNat = 1 ∨ source.beforeWrap headIndex count = count.toNat
    else
      source.beforeWrap headIndex count = target.beforeWrap headIndex count ∧
        (source.channelCount.toNat = target.channelCount.toNat ∨
          source.beforeWrap headIndex count = count.toNat)

/-! ### Positions in an entry -/

/-- Where the `k`-th of `count` samples of a channel lies among the samples of an
    entry, if the first fragment has `first` samples of each of the `channels`. -/
def entryPosition (channels first count channel k : Nat) : Nat :=
  if k < first then channel * first + k
  else channels * first + channel * (count - first) + (k - first)

theorem entryPosition_zero {channels first count : Nat} (h : 0 < first) :
    entryPosition channels first count 0 0 = 0 := by
  rw [entryPosition, if_pos h, Nat.zero_mul]

/-- Two ways to cut and to count the channels agree on the channels they share. -/
def SamePositions (channels first count channels' first' : Nat) : Prop :=
  ∀ channel < channels', ∀ k < count,
    entryPosition channels' first' count channel k = entryPosition channels first count channel k

/-- **Agreement on the positions.**  A single channel is found if it is alone on the
    other side as well, or not cut there; several are found if they are cut in the
    same place, and either not cut at all or as many as on the other side. -/
theorem samePositions_iff {channels first count channels' first' : Nat} (hpos' : 0 < channels')
    (hle : channels' ≤ channels) (hfirst : 0 < first) (hfirst_le : first ≤ count)
    (hfirst' : 0 < first') :
    SamePositions channels first count channels' first' ↔
      if channels' = 1 then channels = 1 ∨ first = count
      else first = first' ∧ (channels = channels' ∨ first = count) := by
  -- the sample at which the second fragment of the first channel begins
  have hcut : SamePositions channels first count channels' first' → first' = first ∨ channels' = 1 →
      channels = channels' ∨ first = count := by
    intro h hsame
    rcases hfirst_le.eq_or_lt with heq | hlt
    · exact Or.inr heq
    · refine Or.inl (Nat.eq_of_mul_eq_mul_right hfirst ?_)
      have hbegin := h 0 hpos' first hlt
      rw [entryPosition, entryPosition, if_neg (Nat.lt_irrefl first)] at hbegin
      rcases hsame with rfl | rfl
      · rw [if_neg (Nat.lt_irrefl first')] at hbegin
        omega
      · split at hbegin <;> omega
  by_cases hone : channels' = 1
  · rw [if_pos hone]
    constructor
    · intro h
      exact (hcut h (Or.inr hone)).imp_left fun heq => heq.trans hone
    · rintro hwhole channel hchannel k hk
      obtain rfl : channel = 0 := by omega
      rw [hone, entryPosition, entryPosition]
      rcases hwhole with rfl | rfl
      · split_ifs <;> omega
      · rw [if_pos hk]
        split_ifs <;> omega
  · rw [if_neg hone]
    constructor
    · intro h
      -- the first sample of the second channel
      have hsecond := h 1 (by omega) 0 (by omega)
      rw [entryPosition, entryPosition, if_pos hfirst, if_pos hfirst'] at hsecond
      have hsame : first' = first := by omega
      exact ⟨hsame.symm, hcut h (Or.inl hsame)⟩
    · rintro ⟨rfl, hwhole⟩ channel hchannel k hk
      rw [entryPosition, entryPosition]
      rcases hwhole with rfl | rfl
      · rfl
      · rw [if_pos hk, if_pos hk]

/-! ### The cells of a window -/

section Window

variable {layout : ContinuousDataLayout} {headIndex count : UInt64}

/-- The two pieces of a window in every channel's ring. -/
def windowPieces (layout : ContinuousDataLayout) (start count : Nat) : List Piece :=
  ringPieces layout (layout.sampleSize.toNat * start)
      (layout.sampleSize.toNat * firstPiece layout.bufferLength.toNat start count) ++
    ringPieces layout 0
      (layout.sampleSize.toNat * (count - firstPiece layout.bufferLength.toNat start count))

theorem channelPieces_eq_windowPieces (block : MemoryBlock)
    (hcount : count.toNat ≤ layout.bufferLength.toNat)
    (hwindow : LaysOutWindow layout headIndex count) :
    (channelPieces (layout.slices headIndex count block.base)).map (BufferSlice.piece block) =
      windowPieces layout (startOffset layout.bufferLength headIndex count).toNat count.toNat := by
  rw [map_piece_channelPieces block headIndex hcount, hwindow, toNat_secondSize hcount hwindow]
  rfl

theorem getElem?_cells_ringPieces {place size channel i : Nat}
    (hchannel : channel < layout.channelCount.toNat) (hi : i < size) :
    (cells (ringPieces layout place size))[channel * size + i]? =
      some (layout.sampleSize.toNat * (layout.bufferLength.toNat * channel) + place + i) := by
  rw [ringPieces, if_pos (Nat.zero_lt_of_lt hi)]
  exact getElem?_cells_map_range hchannel hi

theorem length_cells_ringPieces (place size : Nat) :
    (cells (ringPieces layout place size)).length = layout.channelCount.toNat * size := by
  rw [length_cells, totalLength_ringPieces]

/-- The bytes of a sample lie at the sample's position. -/
theorem getElem?_cells_windowPieces {start n channel k byte : Nat}
    (hstart : start < layout.bufferLength.toNat) (hn : n ≤ layout.bufferLength.toNat)
    (hchannel : channel < layout.channelCount.toNat) (hk : k < n)
    (hbyte : byte < layout.sampleSize.toNat) :
    (cells (windowPieces layout start n))[layout.sampleSize.toNat *
        entryPosition layout.channelCount.toNat (firstPiece layout.bufferLength.toNat start n) n
          channel k + byte]? =
      some (layout.sampleByte channel ((start + k) % layout.bufferLength.toNat) byte) := by
  have hslot := @windowSlot_eq _ start n k layout.bufferLength_pos hn hk
  rw [Nat.mod_eq_of_lt hstart, windowSlot] at hslot
  rw [ContinuousDataLayout.sampleByte, ← hslot, windowPieces, cells_append, entryPosition]
  generalize firstPiece layout.bufferLength.toNat start n = first
  have hword : ∀ {j m : Nat}, j < m →
      layout.sampleSize.toNat * j + byte < layout.sampleSize.toNat * m := by
    intro j m hj
    have hle := Nat.mul_le_mul_left layout.sampleSize.toNat hj
    rw [Nat.mul_succ] at hle
    omega
  by_cases hfirst : k < first
  · rw [if_pos hfirst, if_pos hfirst]
    have hindex : layout.sampleSize.toNat * (channel * first + k) + byte =
        channel * (layout.sampleSize.toNat * first) + (layout.sampleSize.toNat * k + byte) := by
      ring
    have hle := Nat.mul_le_mul_right (layout.sampleSize.toNat * first) hchannel
    rw [Nat.succ_mul] at hle
    have hlt := hword hfirst
    rw [hindex, List.getElem?_append_left (by rw [length_cells_ringPieces]; omega),
      getElem?_cells_ringPieces hchannel hlt]
    congr 1
    ring
  · rw [if_neg hfirst, if_neg hfirst]
    have hindex : layout.sampleSize.toNat *
        (layout.channelCount.toNat * first + channel * (n - first) + (k - first)) + byte =
        layout.channelCount.toNat * (layout.sampleSize.toNat * first) +
          (channel * (layout.sampleSize.toNat * (n - first)) +
            (layout.sampleSize.toNat * (k - first) + byte)) := by
      ring
    rw [hindex, List.getElem?_append_right (by rw [length_cells_ringPieces]; omega),
      length_cells_ringPieces, Nat.add_sub_cancel_left,
      getElem?_cells_ringPieces hchannel (hword (by omega))]
    congr 1
    ring

/-- No byte of a window lies at two places of an entry. -/
theorem nodup_cells_windowPieces {start n : Nat} (hstart : start < layout.bufferLength.toNat)
    (hn : n ≤ layout.bufferLength.toNat) : (cells (windowPieces layout start n)).Nodup := by
  have hfirst : start + firstPiece layout.bufferLength.toNat start n ≤ layout.bufferLength.toNat := by
    unfold firstPiece
    omega
  have hsecond : n - firstPiece layout.bufferLength.toNat start n ≤ start := by
    unfold firstPiece
    omega
  have hring := Nat.mul_le_mul_left layout.sampleSize.toNat hfirst
  have hapart := Nat.mul_le_mul_left layout.sampleSize.toNat hsecond
  rw [Nat.mul_add] at hring
  have hlt := Nat.mul_le_mul_left layout.sampleSize.toNat hstart.le
  -- the rings of two channels lie one behind the other
  have hchannels : ∀ {i j : Nat}, i < j →
      layout.sampleSize.toNat * (layout.bufferLength.toNat * i) +
        layout.sampleSize.toNat * layout.bufferLength.toNat ≤
          layout.sampleSize.toNat * (layout.bufferLength.toNat * j) := by
    intro i j hij
    have hle := Nat.mul_le_mul_left (layout.sampleSize.toNat * layout.bufferLength.toNat) hij
    rw [Nat.mul_succ, Nat.mul_assoc, Nat.mul_assoc] at hle
    exact hle
  have hone : ∀ {place size : Nat}, place + size ≤
      layout.sampleSize.toNat * layout.bufferLength.toNat →
      (ringPieces layout place size).Pairwise fun p q => ∀ a, p.Holds a → ¬ q.Holds a := by
    intro place size hfits
    unfold ringPieces
    split_ifs
    · refine List.pairwise_map.mpr (List.pairwise_lt_range.imp fun hij a hp hq => ?_)
      have hle := hchannels hij
      obtain ⟨-, hp⟩ := hp
      obtain ⟨hq, -⟩ := hq
      dsimp only at hp hq
      omega
    · exact List.Pairwise.nil
  apply nodup_cells
  refine List.pairwise_append.mpr ⟨hone hring, hone (by omega), fun p hp q hq a hpa hqa => ?_⟩
  obtain ⟨-, i, -, hpa⟩ :=
    (exists_mem_ringPieces (P := fun piece => piece.Holds a)).mp ⟨p, hp, hpa⟩
  obtain ⟨-, j, -, hqa⟩ :=
    (exists_mem_ringPieces (P := fun piece => piece.Holds a)).mp ⟨q, hq, hqa⟩
  unfold Piece.Holds at hpa hqa
  dsimp only at hpa hqa
  rcases Nat.lt_trichotomy i j with hij | rfl | hij
  · have hle := hchannels hij
    omega
  · omega
  · have hle := hchannels hij
    omega

end Window

/-! ### Slots and samples -/

section Samples

variable {layout source target : ContinuousDataLayout} {headIndex count : UInt64}
  {sent before after : Nat → UInt8}

theorem slotOf_eq (layout : ContinuousDataLayout) (headIndex count : UInt64) (k : Nat) :
    layout.slotOf headIndex count k =
      (layout.slotOf headIndex count 0 + k) % layout.bufferLength.toNat := by
  unfold ContinuousDataLayout.slotOf
  rw [Nat.add_zero, Nat.mod_add_mod]

theorem startOffset_eq_slotOf (hcount : count.toNat ≤ layout.bufferLength.toNat) :
    (startOffset layout.bufferLength headIndex count).toNat = layout.slotOf headIndex count 0 ↔
      WrapsUnnoticed layout.bufferLength.toNat headIndex.toNat count.toNat := by
  rw [toNat_startOffset hcount]
  rfl

theorem sampleAt_eq_some {rings : Nat → UInt8} {channel k : Nat} {sample : List UInt8} :
    layout.sampleAt headIndex count rings channel k = some sample ↔
      (channel < layout.channelCount.toNat ∧ count.toNat ≤ layout.bufferLength.toNat) ∧
        load rings (layout.sampleByte channel (layout.slotOf headIndex count k) 0)
          layout.sampleSize.toNat = sample := by
  unfold ContinuousDataLayout.sampleAt
  split_ifs with h <;> simp [h]

/-- Where the bytes of a sample are sent from, and where they go. -/
theorem getElem?_cells_sample (hcount : count.toNat ≤ layout.bufferLength.toNat)
    (hwrap : WrapsUnnoticed layout.bufferLength.toNat headIndex.toNat count.toNat)
    {channel k byte : Nat} (hchannel : channel < layout.channelCount.toNat)
    (hk : k < count.toNat) (hbyte : byte < layout.sampleSize.toNat) :
    (cells (windowPieces layout (startOffset layout.bufferLength headIndex count).toNat
        count.toNat))[layout.sampleSize.toNat * entryPosition layout.channelCount.toNat
          (layout.beforeWrap headIndex count) count.toNat channel k + byte]? =
      some (layout.sampleByte channel (layout.slotOf headIndex count k) byte) := by
  have hstart := (startOffset_eq_slotOf hcount).mpr hwrap
  have hcell := getElem?_cells_windowPieces (startOffset_lt layout headIndex count) hcount hchannel
    hk hbyte
  rw [hstart] at hcell ⊢
  rw [slotOf_eq layout headIndex count k]
  exact hcell

theorem beforeWrap_pos (layout : ContinuousDataLayout) (headIndex : UInt64)
    (hpos : 0 < count.toNat) : 0 < layout.beforeWrap headIndex count := by
  have hlt : layout.slotOf headIndex count 0 < layout.bufferLength.toNat :=
    Nat.mod_lt _ layout.bufferLength_pos
  unfold ContinuousDataLayout.beforeWrap firstPiece
  omega

theorem Agree.samePositions (hpos : 0 < count.toNat)
    (h : Agree source target headIndex count) :
    SamePositions source.channelCount.toNat (source.beforeWrap headIndex count) count.toNat
      target.channelCount.toNat (target.beforeWrap headIndex count) :=
  (samePositions_iff target.channelCount_pos h.channels (beforeWrap_pos source headIndex hpos)
    (Nat.min_le_left _ _) (beforeWrap_pos target headIndex hpos)).mpr h.cut

theorem zero_ne_one_byte : (0 : UInt8) ≠ 1 := by decide

/-- The samples arrive byte by byte. -/
theorem Arrived.byte (h : Arrived source target headIndex count sent before after)
    (hsize : source.sampleSize = target.sampleSize) {channel k byte : Nat}
    (hchannel : channel < target.channelCount.toNat) (hk : k < count.toNat)
    (hbyte : byte < target.sampleSize.toNat) :
    after (target.sampleByte channel (target.slotOf headIndex count k) byte) =
      sent (source.sampleByte channel (source.slotOf headIndex count k) byte) := by
  obtain ⟨sample, hsent, hafter⟩ := h.samples channel hchannel k hk
  have hload := (sampleAt_eq_some.mp hafter).2.trans (sampleAt_eq_some.mp hsent).2.symm
  have hvalue := congrArg (fun values => values[byte]?) hload
  rw [hsize, getElem?_load hbyte, getElem?_load hbyte] at hvalue
  exact Option.some.inj hvalue

/-- Samples that arrive fit the source's and the target's rings. -/
theorem Arrived.shape (h : Arrived source target headIndex count sent before after)
    (hpos : 0 < count.toNat) :
    source.sampleSize = target.sampleSize ∧
      target.channelCount.toNat ≤ source.channelCount.toNat ∧
      count.toNat ≤ source.bufferLength.toNat ∧ count.toNat ≤ target.bufferLength.toNat := by
  -- the first sample of the last channel
  have hchannel := target.channelCount_pos
  obtain ⟨sample, hsent, hafter⟩ := h.samples (target.channelCount.toNat - 1) (by omega) 0 hpos
  obtain ⟨⟨hchannel', hsource⟩, hload⟩ := sampleAt_eq_some.mp hsent
  obtain ⟨⟨-, htarget⟩, hload'⟩ := sampleAt_eq_some.mp hafter
  have hlength := congrArg List.length (hload.trans hload'.symm)
  rw [length_load, length_load] at hlength
  exact ⟨UInt64.toNat_inj.mp hlength, by omega, hsource, htarget⟩

/-- The range that is filled is the one that should be. -/
theorem wraps_of_arrived (hpos : 0 < count.toNat)
    (hcount : count.toNat ≤ target.bufferLength.toNat)
    (hwindow : LaysOutWindow target headIndex count)
    (hsize : source.sampleSize = target.sampleSize) {entry : Nat → UInt8}
    (h : ∀ before : Nat → UInt8, Arrived source target headIndex count sent before
      (scatter entry 16 before (windowPieces target
        (startOffset target.bufferLength headIndex count).toNat count.toNat))) :
    WrapsUnnoticed target.bufferLength.toNat headIndex.toNat count.toNat := by
  have hnodup := nodup_cells_windowPieces (startOffset_lt target headIndex count) hcount
  have hzero := h fun _ => 0
  have hone := h fun _ => 1
  apply (inWindow_iff_inRange hpos hcount).mp
  intro a
  rw [← (channelPieces_window ⟨0, 0, fun _ => 0⟩ hcount hwindow).2.2, ← mem_cells,
    channelPieces_eq_windowPieces _ hcount hwindow]
  constructor
  · intro hmem
    by_contra hnot
    -- a cell that is filled does not keep what it held
    obtain ⟨j, hcell⟩ := List.mem_iff_getElem?.mp hmem
    have hkept := (hzero.others a hnot).symm.trans ((scatter_cell hnodup hcell).trans
      ((scatter_cell hnodup hcell).symm.trans (hone.others a hnot)))
    exact zero_ne_one_byte hkept
  · rintro ⟨channel, hchannel, k, hk, byte, hbyte, rfl⟩
    by_contra hnot
    -- a cell that is not filled keeps what it held
    have hbyte0 := hzero.byte hsize hchannel hk hbyte
    have hbyte1 := hone.byte hsize hchannel hk hbyte
    unfold ContinuousDataLayout.slotOf at hbyte0 hbyte1
    rw [scatter_of_not_mem hnot] at hbyte0 hbyte1
    exact zero_ne_one_byte (hbyte0.trans hbyte1.symm)

/-- The first byte that is sent tells where the window starts. -/
theorem wraps_of_first_cell (hpos : 0 < count.toNat)
    (hcount : count.toNat ≤ layout.bufferLength.toNat)
    (h : (cells (windowPieces layout (startOffset layout.bufferLength headIndex count).toNat
      count.toNat))[0]? = some (layout.sampleByte 0 (layout.slotOf headIndex count 0) 0)) :
    WrapsUnnoticed layout.bufferLength.toNat headIndex.toNat count.toNat := by
  have hstart := startOffset_lt layout headIndex count
  have hactual := getElem?_cells_windowPieces hstart hcount layout.channelCount_pos hpos
    layout.sampleSize_pos
  have hfirst : 0 < firstPiece layout.bufferLength.toNat
      (startOffset layout.bufferLength headIndex count).toNat count.toNat := by
    unfold firstPiece
    omega
  rw [entryPosition_zero hfirst, Nat.mul_zero, Nat.add_zero, Nat.add_zero,
    Nat.mod_eq_of_lt hstart, h] at hactual
  obtain ⟨hsample, -⟩ := eq_of_mul_add_eq layout.sampleSize_pos layout.sampleSize_pos
    (Option.some.inj hactual)
  exact (startOffset_eq_slotOf hcount).mp (Nat.add_left_cancel hsample).symm

end Samples

/-! ### The initiator and the target -/

/-- An initiator and a target that have been set up, each with a layout of its own:
    any entry may be in turn, and the entries may hold anything. -/
structure Link where
  proto : RMASampleEgressProtocol
  samples : MemoryBlock
  buffer : AudioBounceBuffer
  outRegion : MemoryBlock
  registered : proto.Registered samples
  connected : proto.ConnectedTo { buffer with layout := proto.layout }
  outRegion_size : outRegion.size = buffer.layout.byteSize

namespace Link

/-- Any layout of the initiator, together with what any target tells of itself,
    sets up a link. -/
def ofSetup (layout : ContinuousDataLayout) (samples : MemoryBlock) (headerData : Nat → UInt64)
    (buffer : AudioBounceBuffer) (outRegion : MemoryBlock) (proto : RMASampleEgressProtocol)
    (hproto : (RMASampleEgressProtocolTemplate.registered layout samples).createInstance headerData
      buffer.targetInfo = some (.ok proto))
    (hsamples : samples.size = layout.byteSize)
    (hring : outRegion.size = buffer.layout.byteSize) : Link where
  proto := proto
  samples := samples
  buffer := buffer
  outRegion := outRegion
  registered := by
    rw [RMASampleEgressProtocolTemplate.createInstance_targetInfo] at hproto
    exact (SampleTransfer.of_create_eq_ok (Option.some.inj hproto) hsamples).1
  connected := by
    rw [RMASampleEgressProtocolTemplate.createInstance_targetInfo] at hproto
    have hconnected := (SampleTransfer.of_create_eq_ok (Option.some.inj hproto) hsamples).2
    have hlayout : layout = proto.layout := hconnected.layout
    rw [← hlayout]
    exact hconnected
  outRegion_size := hring

/-- What `unpack` returns, and the rings it leaves. -/
def outcome (before : Nat → UInt8) :
    Except FabricsException (AudioEntryHeader × MemoryBlock) →
      Except FabricsException AudioEntryHeader × (Nat → UInt8)
  | .error exception => (.error exception, before)
  | .ok (header, outRegion) => (.ok header, outRegion.bytes)

/-- A transfer from the rings `source` to the rings `target`: an exception of either
    end or the header, and the target's rings afterwards.  There is no result if
    memory outside the rings or the entry is accessed, or if nothing arrives. -/
def exchange (link : Link) (source target : Nat → UInt8) (iovLimit headIndex count : UInt64) :
    Option (Except FabricsException AudioEntryHeader × (Nat → UInt8)) :=
  match link.proto.transferSamples iovLimit headIndex count with
  -- the target is not told of what was posted before the exception
  | (_, .error exception, _) => some (.error exception, target)
  | (writes, .ok (), proto) => do
      let buffer ← deliver (proto.memory { link.samples with bytes := source }) link.buffer writes
      let write ← writes.getLast?
      let immData ← write.immData
      (buffer.unpack immData.toNat { link.outRegion with bytes := target }).map (outcome target)

/-! ### What is refused and what is sent -/

/-- The pieces of the initiator's rings that make up a range. -/
def sentPieces (link : Link) (headIndex count : UInt64) : List Piece :=
  (channelPieces (link.proto.layout.slices headIndex count link.samples.base)).map
    (BufferSlice.piece link.samples)

/-- `transferSamples` or `Endpoint::write` throws. -/
def Refuses (link : Link) (iovLimit headIndex count : UInt64) : Prop :=
  count = 0 ∨
    RMASampleEgressProtocol.entrySizeRequired link.proto.layout count > link.proto.entrySize ∨
    (Endpoint.writeGroup iovLimit (link.proto.transferGroup headIndex count)
      link.proto.remoteEntry (some link.proto.bounceBufferEntryIndex)).2 ≠ .ok ()

/-- All of a range is sent, from inside the rings and into the entry. -/
structure Sends (link : Link) (iovLimit headIndex count : UInt64) : Prop where
  limit_pos : 0 < iovLimit.toNat
  counted : (link.proto.transferGroup headIndex count).length + iovLimit.toNat ≤ 2 ^ 64
  inside : Fits link.proto.layout (link.sentPieces headIndex count)
  fits : 16 + totalLength (link.sentPieces headIndex count) ≤ link.buffer.entrySize.toNat

/-- `unpack` throws. -/
def TargetRefuses (link : Link) (count : UInt64) : Prop :=
  count > (link.buffer.entrySize - 16) /
    (link.buffer.layout.channelCount * link.buffer.layout.sampleSize)

instance (link : Link) (count : UInt64) : Decidable (link.TargetRefuses count) :=
  inferInstanceAs (Decidable (_ < _))

/-- The bytes of the entry that are sent. -/
def sentBytes (link : Link) (source : Nat → UInt8) (headIndex count : UInt64) : List UInt8 :=
  (⟨headIndex, count⟩ : AudioEntryHeader).bytes ++ gather source (link.sentPieces headIndex count)

section Exchange

variable {link : Link} {source target : Nat → UInt8} {iovLimit headIndex count : UInt64}

theorem exchange_of_refuses (h : link.Refuses iovLimit headIndex count) :
    ∃ exception, ∀ source target : Nat → UInt8,
      link.exchange source target iovLimit headIndex count = some (.error exception, target) := by
  unfold exchange
  by_cases hzero : count = 0
  · exact ⟨_, fun source target => by rw [RMASampleEgressProtocol.transferSamples, if_pos hzero]⟩
  by_cases hsize : RMASampleEgressProtocol.entrySizeRequired link.proto.layout count >
      link.proto.entrySize
  · exact ⟨_, fun source target => by
      rw [RMASampleEgressProtocol.transferSamples, if_neg hzero, if_pos hsize]⟩
  rw [transferSamples_accepted hzero hsize]
  have hwrite := (h.resolve_left hzero).resolve_left hsize
  rcases hresult : Endpoint.writeGroup iovLimit (link.proto.transferGroup headIndex count)
    link.proto.remoteEntry (some link.proto.bounceBufferEntryIndex) with ⟨writes, exception | _⟩
  · exact ⟨exception, fun source target => rfl⟩
  · rw [hresult] at hwrite
    exact absurd rfl hwrite

/-- What is not refused goes on its way as it was posted. -/
theorem exchange_eq_of_not_refuses (h : ¬ link.Refuses iovLimit headIndex count) :
    ∃ writes, Endpoint.writeGroup iovLimit (link.proto.transferGroup headIndex count)
        link.proto.remoteEntry (some link.proto.bounceBufferEntryIndex) = (writes, .ok ()) ∧
      ∀ source target : Nat → UInt8, link.exchange source target iovLimit headIndex count =
        (deliver ((link.proto.setEntryHeader ⟨headIndex, count⟩).memory
            { link.samples with bytes := source }) link.buffer writes).bind fun buffer =>
          writes.getLast?.bind fun write => write.immData.bind fun immData =>
            (buffer.unpack immData.toNat { link.outRegion with bytes := target }).map
              (outcome target) := by
  obtain ⟨hzero, hrest⟩ := not_or.mp h
  obtain ⟨hsize, hwrite⟩ := not_or.mp hrest
  have hok := not_not.mp hwrite
  refine ⟨_, Prod.ext rfl hok, fun source target => ?_⟩
  unfold exchange
  rw [transferSamples_accepted hzero hsize]
  rcases hresult : Endpoint.writeGroup iovLimit (link.proto.transferGroup headIndex count)
    link.proto.remoteEntry (some link.proto.bounceBufferEntryIndex) with ⟨writes, exception | _⟩
  · rw [hresult] at hok
    cases hok
  · rfl

theorem exists_entry (link : Link) :
    ∃ entry, link.buffer.entries[link.proto.bounceBufferEntryIndex.toNat]? = some entry ∧
      link.proto.remoteEntry =
        { addr := entry.data, len := link.buffer.entrySize,
          rkey := UInt64.ofNat link.proto.bounceBufferEntryIndex.toNat } := by
  have hentry := RMASampleEgressProtocol.exists_entry link.connected
  exact hentry

/-- The regions of a range are those of the header and of the pieces. -/
theorem gatherRegions_eq_some {source : Nat → UInt8} {values : List UInt8} :
    gatherRegions ((link.proto.setEntryHeader ⟨headIndex, count⟩).memory
        { link.samples with bytes := source }) (link.proto.transferGroup headIndex count) =
        some values ↔
      Fits link.proto.layout (link.sentPieces headIndex count) ∧
        values = link.sentBytes source headIndex count := by
  rw [RMASampleEgressProtocol.gatherRegions_transferGroup
    (registered_withBytes link.registered source) ⟨headIndex, count⟩]
  unfold Fits
  rw [← link.registered.samples_size]
  rfl

theorem length_sentBytes (source : Nat → UInt8) : (link.sentBytes source headIndex count).length =
    16 + totalLength (link.sentPieces headIndex count) := by
  rw [sentBytes, List.length_append, AudioEntryHeader.length_bytes, length_gather]

/-- What has arrived at the target was sent. -/
theorem sends_of_exchange (hrefuses : ¬ link.Refuses iovLimit headIndex count)
    {result : Except FabricsException AudioEntryHeader × (Nat → UInt8)}
    (h : link.exchange source target iovLimit headIndex count = some result) :
    link.Sends iovLimit headIndex count := by
  obtain ⟨writes, hwrite, hexchange⟩ := exchange_eq_of_not_refuses hrefuses
  rw [hexchange] at h
  simp only [Option.bind_eq_some_iff] at h
  obtain ⟨buffer, hdeliver, last, hlast, immData, himm, -⟩ := h
  -- without rounds there would be no last write
  have hlimit : 0 < iovLimit.toNat := by
    apply Nat.pos_of_ne_zero
    intro hzero
    obtain rfl : iovLimit = 0 := UInt64.toNat_inj.mp hzero
    have hnone : (Endpoint.nbWrites 0 (link.proto.transferGroup headIndex count)).toNat = 0 := by
      rw [Endpoint.nbWrites, UInt64.toNat_div]
      exact Nat.div_zero _
    rw [Endpoint.writeGroup, hnone] at hwrite
    obtain rfl := (Prod.mk.inj hwrite).1
    cases hlast
  have hcounted : (link.proto.transferGroup headIndex count).length + iovLimit.toNat ≤ 2 ^ 64 := by
    by_contra hwrap
    rw [Endpoint.writeGroup_of_wrap length_transferGroup_lt hlimit (by omega)] at hwrite
    obtain rfl := (Prod.mk.inj hwrite).1
    cases hlast
  obtain ⟨hconsecutive, hflat⟩ := Endpoint.writeGroup_ok hlimit hcounted (List.cons_ne_nil _ _)
    (congrArg Prod.snd hwrite)
  rw [hwrite] at hconsecutive hflat
  obtain ⟨values, hgather⟩ := gather_of_deliver hdeliver
  obtain ⟨entry, hentry, hremote⟩ := link.exists_entry
  have hindex := link.proto.bounceBufferEntryIndex.toNat_lt
  have hfits := fits_of_deliver hentry (by omega) (by rw [hremote]) (by rw [hremote]) hconsecutive
    hgather hdeliver
  rw [hflat] at hgather
  obtain ⟨hinside, rfl⟩ := gatherRegions_eq_some.mp hgather
  rw [length_sentBytes, UInt64.toNat_zero, Nat.zero_add] at hfits
  exact ⟨hlimit, hcounted, hinside, hfits⟩

/-- What is sent arrives in an entry of the target, in front of what the entry held
    before, and is unpacked. -/
theorem exchange_of_sends (hrefuses : ¬ link.Refuses iovLimit headIndex count)
    (hsends : link.Sends iovLimit headIndex count) :
    ∃ entry, link.buffer.entries[link.proto.bounceBufferEntryIndex.toNat]? = some entry ∧
      ∀ source target : Nat → UInt8, link.exchange source target iovLimit headIndex count =
        ((filled link.buffer link.proto.bounceBufferEntryIndex.toNat entry 0
            (link.sentBytes source headIndex count)).unpack
          link.proto.bounceBufferEntryIndex.toNat
          { link.outRegion with bytes := target }).map (outcome target) := by
  obtain ⟨writes, hwrite, hexchange⟩ := exchange_eq_of_not_refuses hrefuses
  obtain ⟨entry, hentry, hremote⟩ := link.exists_entry
  refine ⟨entry, hentry, fun source target => ?_⟩
  obtain ⟨hconsecutive, hflat⟩ := Endpoint.writeGroup_ok hsends.limit_pos hsends.counted
    (List.cons_ne_nil _ _) (congrArg Prod.snd hwrite)
  rw [hwrite] at hconsecutive hflat
  obtain ⟨last, hlast, himm⟩ := getLast?_of_consecutive hconsecutive
  have hgather := (@gatherRegions_eq_some link headIndex count source _).mpr ⟨hsends.inside, rfl⟩
  rw [← hflat] at hgather
  have hindex := link.proto.bounceBufferEntryIndex.toNat_lt
  have hdeliver := deliver_consecutive hentry (by omega) (by rw [hremote]) (by rw [hremote])
    hconsecutive hgather
    (by rw [length_sentBytes, UInt64.toNat_zero, Nat.zero_add]; exact hsends.fits)
  rw [hexchange]
  dsimp only at hdeliver hlast himm ⊢
  rw [hdeliver, Option.bind_some, hlast, Option.bind_some, himm, Option.bind_some]
  rfl

end Exchange

/-! ### Noticing a mismatch -/

/-- Whatever the rings hold, an exception is thrown and the target's rings are left
    alone, or the samples arrive. -/
def Noticed (link : Link) (iovLimit headIndex count : UInt64) : Prop :=
  ∀ source target : Nat → UInt8,
    (∃ exception, link.exchange source target iovLimit headIndex count =
      some (.error exception, target)) ∨
    ∃ header after, link.exchange source target iovLimit headIndex count =
        some (.ok header, after) ∧
      Arrived link.proto.layout link.buffer.layout headIndex count source target after

section Unpack

variable {link : Link} {source target : Nat → UInt8} {iovLimit headIndex count : UInt64}

/-- Behind the header, an entry holds the bytes of the pieces. -/
theorem sentBytes_cell {old : Nat → UInt8} {j a : Nat}
    (h : (cells (link.sentPieces headIndex count))[j]? = some a) :
    store old 0 (link.sentBytes source headIndex count) (16 + j) = source a := by
  have hbyte : (link.sentBytes source headIndex count)[16 + j]? = some (source a) := by
    rw [sentBytes, List.getElem?_append_right (by simp), AudioEntryHeader.length_bytes,
      Nat.add_sub_cancel_left, gather_eq_map_cells, List.getElem?_map, h]
    rfl
  rw [store, if_pos (Nat.zero_le _), Nat.sub_zero, hbyte]
  rfl

/-- Further on, it holds what it held before. -/
theorem sentBytes_stale {old : Nat → UInt8} {j : Nat}
    (h : (cells (link.sentPieces headIndex count))[j]? = none) :
    store old 0 (link.sentBytes source headIndex count) (16 + j) = old (16 + j) := by
  apply store_of_ge
  rw [List.getElem?_eq_none_iff, length_cells] at h
  rw [length_sentBytes]
  omega

theorem ofMemory_sentBytes (old : Nat → UInt8) : AudioEntryHeader.ofMemory
    (store old 0 (link.sentBytes source headIndex count)) = ⟨headIndex, count⟩ := by
  have hload := load_store old 0 (link.sentBytes source headIndex count)
  rw [length_sentBytes, load_add] at hload
  exact AudioEntryHeader.ofMemory_eq (List.append_inj hload (by simp)).1

/-- A range of the target's ring that is sent and not refused is filled from the
    entry. -/
theorem exchange_window (hrefuses : ¬ link.Refuses iovLimit headIndex count)
    (hsends : link.Sends iovLimit headIndex count) (htarget : ¬ link.TargetRefuses count)
    (hcount : count.toNat ≤ link.buffer.layout.bufferLength.toNat)
    (hwindow : LaysOutWindow link.buffer.layout headIndex count) :
    ∃ old : Nat → UInt8, ∀ source target : Nat → UInt8,
      link.exchange source target iovLimit headIndex count =
        some (.ok ⟨headIndex, count⟩,
          scatter (store old 0 (link.sentBytes source headIndex count)) 16 target
            (windowPieces link.buffer.layout
              (startOffset link.buffer.layout.bufferLength headIndex count).toNat count.toNat)) := by
  obtain ⟨entry, hentry, hexchange⟩ := exchange_of_sends hrefuses hsends
  have hheader : 16 ≤ link.buffer.entrySize.toNat :=
    le_trans (Nat.le_add_right 16 _) hsends.fits
  refine ⟨entry.bytes, fun source target => ?_⟩
  have hunpack := AudioBounceBuffer.unpack_scatter
    (getElem?_filled hentry 0 (link.sentBytes source headIndex count))
    { link.outRegion with bytes := target } link.outRegion_size
    (ofMemory_sentBytes entry.bytes) hcount hwindow
    ((AudioBounceBuffer.not_countTooLarge_iff hheader).mp htarget)
  rw [hexchange, hunpack]
  rw [← channelPieces_eq_windowPieces { link.outRegion with bytes := target } hcount hwindow]
  rfl

/-- What is sent is refused or copied to the target's rings. -/
theorem exchange_eq_ite (hrefuses : ¬ link.Refuses iovLimit headIndex count)
    (hsends : link.Sends iovLimit headIndex count) :
    ∃ entry : AudioBounceBufferEntry, ∀ source target : Nat → UInt8,
      link.exchange source target iovLimit headIndex count =
        if link.TargetRefuses count then
          some (.error (AudioBounceBuffer.countTooLarge count), target)
        else
          (AudioBounceBuffer.copyPieces (link.buffer.block { entry with
              bytes := store entry.bytes 0 (link.sentBytes source headIndex count) })
            { link.outRegion with bytes := target } (entry.data + 16)
            (channelPieces (link.buffer.layout.slices headIndex count link.outRegion.base))).map
              fun outRegion => (.ok ⟨headIndex, count⟩, outRegion.bytes) := by
  obtain ⟨entry, hentry, hexchange⟩ := exchange_of_sends hrefuses hsends
  refine ⟨entry, fun source target => ?_⟩
  rw [hexchange, AudioBounceBuffer.unpack, getElem?_filled hentry, Option.bind_eq_bind,
    Option.bind_some]
  simp only [ofMemory_sentBytes, filled]
  by_cases htarget : link.TargetRefuses count
  · rw [if_pos htarget]
    unfold TargetRefuses at htarget
    rw [if_pos htarget]
    rfl
  · rw [if_neg htarget]
    unfold TargetRefuses at htarget
    rw [if_neg htarget, Option.bind_eq_bind, Option.map_bind]
    exact (Option.map_eq_bind ..).symm

/-- What was unpacked is a window of the target's ring. -/
theorem laysOutWindow_of_exchange (hrefuses : ¬ link.Refuses iovLimit headIndex count)
    (hpos : 0 < count.toNat) (hcount : count.toNat ≤ link.buffer.layout.bufferLength.toNat)
    {header : AudioEntryHeader} {after : Nat → UInt8}
    (h : link.exchange source target iovLimit headIndex count = some (.ok header, after)) :
    LaysOutWindow link.buffer.layout headIndex count := by
  obtain ⟨entry, hexchange⟩ := exchange_eq_ite hrefuses (sends_of_exchange hrefuses h)
  rw [hexchange] at h
  split at h
  · cases h
  · obtain ⟨outRegion, hcopy, -⟩ := Option.map_eq_some_iff.mp h
    have hfits := AudioBounceBuffer.fits_of_copyPieces hcopy
    dsimp only at hfits
    rw [link.outRegion_size] at hfits
    exact laysOutWindow_of_fits { link.outRegion with bytes := target } hpos hcount hfits

theorem targetRefuses_of_exchange (hrefuses : ¬ link.Refuses iovLimit headIndex count)
    {exception : FabricsException} {after : Nat → UInt8}
    (h : link.exchange source target iovLimit headIndex count = some (.error exception, after)) :
    link.TargetRefuses count := by
  obtain ⟨entry, hexchange⟩ := exchange_eq_ite hrefuses (sends_of_exchange hrefuses h)
  rw [hexchange] at h
  split at h
  · assumption
  · obtain ⟨outRegion, -, hok⟩ := Option.map_eq_some_iff.mp h
    cases hok

end Unpack

/-! ### Agreement -/

section Agreement

variable {link : Link} {iovLimit headIndex count : UInt64}

theorem noticed_of_agree (hrefuses : ¬ link.Refuses iovLimit headIndex count)
    (hsends : link.Sends iovLimit headIndex count) (htarget : ¬ link.TargetRefuses count)
    (hpos : 0 < count.toNat)
    (h : Agree link.proto.layout link.buffer.layout headIndex count) :
    link.Noticed iovLimit headIndex count := by
  have hsame := h.samePositions hpos
  have hsent := laysOutWindow_of_wrapsUnnoticed hpos h.source_holds h.source_start
  have hwindow := laysOutWindow_of_wrapsUnnoticed hpos h.target_holds h.target_start
  have hstart := startOffset_lt link.buffer.layout headIndex count
  obtain ⟨old, hexchange⟩ := exchange_window hrefuses hsends htarget h.target_holds hwindow
  intro source target
  refine Or.inr ⟨_, _, hexchange source target, ?_, ?_⟩
  · intro channel hchannel k hk
    have hchannel' := hchannel.trans_le h.channels
    refine ⟨_, sampleAt_eq_some.mpr ⟨⟨hchannel', h.source_holds⟩, rfl⟩,
      sampleAt_eq_some.mpr ⟨⟨hchannel, h.target_holds⟩, ?_⟩⟩
    rw [h.sampleSize]
    apply List.map_congr_left
    intro byte hbyte
    have hbyte := List.mem_range.mp hbyte
    have hto := getElem?_cells_sample h.target_holds h.target_start hchannel hk hbyte
    have hfrom := getElem?_cells_sample h.source_holds h.source_start hchannel' hk
      (by rw [h.sampleSize]; exact hbyte)
    rw [← channelPieces_eq_windowPieces link.samples h.source_holds hsent, ← hsame channel hchannel
      k hk, h.sampleSize] at hfrom
    exact (scatter_cell (nodup_cells_windowPieces hstart h.target_holds) hto).trans
      (sentBytes_cell hfrom)
  · intro a ha
    apply scatter_of_not_mem
    rw [mem_cells, ← channelPieces_eq_windowPieces link.outRegion h.target_holds hwindow,
      (channelPieces_window link.outRegion h.target_holds hwindow).2.2,
      (inWindow_iff_inRange hpos h.target_holds).mpr h.target_start]
    exact ha

/-- If a byte of an entry is a byte of the source's rings, whatever they hold, it is
    sent from there. -/
theorem cell_of_forall {old : Nat → UInt8} {j a : Nat}
    (h : ∀ source : Nat → UInt8,
      store old 0 (link.sentBytes source headIndex count) (16 + j) = source a) :
    (cells (link.sentPieces headIndex count))[j]? = some a := by
  rcases hcell : (cells (link.sentPieces headIndex count))[j]? with _ | a'
  · have hzero := h fun _ => 0
    have hone := h fun _ => 1
    rw [sentBytes_stale hcell] at hzero hone
    exact absurd (hzero.symm.trans hone) zero_ne_one_byte
  · have hmarked := h fun address => if address = a then 1 else 0
    rw [sentBytes_cell hcell, if_pos rfl] at hmarked
    by_cases heq : a' = a
    · rw [heq]
    · rw [if_neg heq] at hmarked
      exact absurd hmarked zero_ne_one_byte

/-- **What an agreement takes.**  If a mismatch of what is neither refused here nor
    there is noticed, there is none. -/
theorem agree_of_noticed (hrefuses : ¬ link.Refuses iovLimit headIndex count)
    (htarget : ¬ link.TargetRefuses count) (hpos : 0 < count.toNat)
    (h : link.Noticed iovLimit headIndex count) :
    Agree link.proto.layout link.buffer.layout headIndex count := by
  have harrived : ∀ source target : Nat → UInt8, ∃ header after,
      link.exchange source target iovLimit headIndex count = some (.ok header, after) ∧
        Arrived link.proto.layout link.buffer.layout headIndex count source target after := by
    intro source target
    rcases h source target with ⟨exception, herror⟩ | hok
    · exact absurd (targetRefuses_of_exchange hrefuses herror) htarget
    · exact hok
  obtain ⟨header, after, hexchange, hfirst⟩ := harrived (fun _ => 0) fun _ => 0
  obtain ⟨hsize, hchannels, hsource, hring⟩ := hfirst.shape hpos
  have hsends := sends_of_exchange hrefuses hexchange
  have hwindow := laysOutWindow_of_exchange hrefuses hpos hring hexchange
  have hsent := laysOutWindow_of_fits link.samples hpos hsource hsends.inside
  obtain ⟨old, hfilled⟩ := exchange_window hrefuses hsends htarget hring hwindow
  have hscattered : ∀ source target : Nat → UInt8,
      Arrived link.proto.layout link.buffer.layout headIndex count source target
        (scatter (store old 0 (link.sentBytes source headIndex count)) 16 target
          (windowPieces link.buffer.layout
            (startOffset link.buffer.layout.bufferLength headIndex count).toNat count.toNat)) := by
    intro source target
    obtain ⟨header, after, hexchange, harrived⟩ := harrived source target
    rw [hfilled] at hexchange
    obtain ⟨-, rfl⟩ := Prod.mk.inj (Option.some.inj hexchange)
    exact harrived
  have hstart := wraps_of_arrived hpos hring hwindow hsize (hscattered fun _ => 0)
  -- the first byte of a sample is sent from where it belongs
  have hcell : ∀ channel < link.buffer.layout.channelCount.toNat, ∀ k < count.toNat,
      (cells (link.sentPieces headIndex count))[link.buffer.layout.sampleSize.toNat *
        entryPosition link.buffer.layout.channelCount.toNat
          (link.buffer.layout.beforeWrap headIndex count) count.toNat channel k]? =
        some (link.proto.layout.sampleByte channel
          (link.proto.layout.slotOf headIndex count k) 0) := by
    intro channel hchannel k hk
    apply @cell_of_forall link headIndex count old
    intro source
    have hto := getElem?_cells_sample hring hstart hchannel hk link.buffer.layout.sampleSize_pos
    rw [← (hscattered source fun _ => 0).byte hsize hchannel hk
      link.buffer.layout.sampleSize_pos]
    exact (scatter_cell (nodup_cells_windowPieces (startOffset_lt _ headIndex count) hring)
      hto).symm
  have hpieces : link.sentPieces headIndex count = _ :=
    channelPieces_eq_windowPieces link.samples hsource hsent
  rw [hpieces] at hcell
  have hbefore := beforeWrap_pos link.buffer.layout headIndex hpos
  have hstart' : WrapsUnnoticed link.proto.layout.bufferLength.toNat headIndex.toNat
      count.toNat := by
    have hbegin := hcell 0 link.buffer.layout.channelCount_pos 0 hpos
    rw [entryPosition_zero hbefore, Nat.mul_zero] at hbegin
    exact wraps_of_first_cell hpos hsource hbegin
  refine ⟨hsize, hchannels, hsource, hring, hstart', hstart, ?_⟩
  apply (samePositions_iff link.buffer.layout.channelCount_pos hchannels
    (beforeWrap_pos link.proto.layout headIndex hpos) (Nat.min_le_left _ _) hbefore).mp
  intro channel hchannel k hk
  have hthere := hcell channel hchannel k hk
  have hhere := getElem?_cells_sample hsource hstart' (hchannel.trans_le hchannels) hk
    link.proto.layout.sampleSize_pos
  have hindex := List.getElem?_inj (List.getElem?_eq_some_iff.mp hthere).1
    (nodup_cells_windowPieces (startOffset_lt link.proto.layout headIndex count) hsource)
    |>.mp (hthere.trans hhere.symm)
  rw [hsize] at hindex
  exact Nat.eq_of_mul_eq_mul_left link.buffer.layout.sampleSize_pos hindex

end Agreement

/-- **When a mismatch is noticed.**  For every pair of layouts, whichever entry is in
    turn, and for every head index, count and limit on the regions of a write: an
    exception leaves the target's rings alone or the samples arrive, exactly when the
    initiator refuses the range, or sends it as a whole and either the target refuses
    the count or both ends agree on the range. -/
theorem noticed_iff (link : Link) (iovLimit headIndex count : UInt64) :
    link.Noticed iovLimit headIndex count ↔
      link.Refuses iovLimit headIndex count ∨
        link.Sends iovLimit headIndex count ∧
          (link.TargetRefuses count ∨
            Agree link.proto.layout link.buffer.layout headIndex count) := by
  by_cases hrefuses : link.Refuses iovLimit headIndex count
  · refine iff_of_true (fun source target => ?_) (Or.inl hrefuses)
    obtain ⟨exception, hexchange⟩ := exchange_of_refuses hrefuses
    exact Or.inl ⟨exception, hexchange source target⟩
  · rw [or_iff_right hrefuses]
    have hpos : 0 < count.toNat := by
      apply Nat.pos_of_ne_zero
      intro hzero
      exact hrefuses (Or.inl (UInt64.toNat_inj.mp hzero))
    constructor
    · intro h
      have hsends : link.Sends iovLimit headIndex count := by
        rcases h (fun _ => 0) fun _ => 0 with ⟨_, hexchange⟩ | ⟨_, _, hexchange, -⟩
        · exact sends_of_exchange hrefuses hexchange
        · exact sends_of_exchange hrefuses hexchange
      refine ⟨hsends, ?_⟩
      by_cases htarget : link.TargetRefuses count
      · exact Or.inl htarget
      · exact Or.inr (agree_of_noticed hrefuses htarget hpos h)
    · rintro ⟨hsends, hor⟩
      by_cases htarget : link.TargetRefuses count
      · obtain ⟨entry, hexchange⟩ := exchange_eq_ite hrefuses hsends
        intro source target
        exact Or.inl ⟨_, (hexchange source target).trans (if_pos htarget)⟩
      · exact noticed_of_agree hrefuses hsends htarget hpos (hor.resolve_left htarget)

/-! ### Two channels on rings of three and of four samples -/

def threeSlots : ContinuousDataLayout where
  sampleSize := 1
  channelCount := 2
  bufferLength := 3
  sampleSize_pos := Nat.one_pos
  channelCount_pos := Nat.two_pos
  bufferLength_pos := by decide
  mapped := by decide

theorem four_samples_pos : 0 < (4 : UInt64).toNat := Nat.succ_pos 3

def fourSlots : ContinuousDataLayout where
  sampleSize := 1
  channelCount := 2
  bufferLength := 4
  sampleSize_pos := Nat.one_pos
  channelCount_pos := Nat.two_pos
  bufferLength_pos := four_samples_pos
  mapped := by decide

/-- Two entries for two samples of either channel, as the target makes them. -/
def fourSlotsBuffer : AudioBounceBuffer :=
  { entries := [{ data := 65536, bytes := fun _ => 0 }, { data := 69632, bytes := fun _ => 0 }]
    entrySize := 20
    layout := fourSlots }

/-- The initiator has rings of three samples, the target of four. -/
def crossedLink : Link :=
  .ofSetup threeSlots { base := 4096, size := 6, bytes := fun _ => 0 } (fun i => 8192 + UInt64.ofNat i)
    fourSlotsBuffer { base := 12288, size := 8, bytes := fun _ => 0 } _ rfl rfl rfl

/-- The two samples up to head index 4 are in slots 2 and 0 of a ring of three and in
    slots 2 and 3 of a ring of four: in slot 3 of the first channel the target gets
    the second channel's sample. -/
theorem channels_crossed :
    ¬ crossedLink.Noticed 3 4 2 ∧
      ∃ after, crossedLink.exchange UInt8.ofNat (fun _ => 0) 3 4 2 = some (.ok ⟨4, 2⟩, after) ∧
        after (fourSlots.sampleByte 0 3 0) = UInt8.ofNat (threeSlots.sampleByte 1 2 0) := by
  refine ⟨fun h => ?_, _, rfl, rfl⟩
  have hrefuses : ¬ crossedLink.Refuses 3 4 2 := by
    rintro (hzero | hsize | hwrite)
    · exact absurd hzero (by decide)
    · exact absurd hsize (by decide)
    · exact hwrite rfl
  have hagree := agree_of_noticed hrefuses (by decide) (by decide) h
  exact absurd hagree.cut (by decide)

end Link

end MediaExchange
