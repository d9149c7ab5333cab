/-
  MediaExchange/GrainEgress.lean
  ==============================
  **Sending a grain in ranges of slices** (`GrainSlices.cpp`, `ImmData.cpp`,
  `ProtocolEgressRMA.cpp`, `Region.cpp`).

  A grain is registered as one region, its header followed by its payload.  A
  range of slices is turned into a byte range of that region from the slice
  length of the first plane alone; the range that starts at slice 0 takes the
  header along.

  Main result: `grain_covered_iff`.  The ranges of a partition of the slices are
  disjoint and within the region whatever the flow, and they add up to the whole
  grain exactly when the flow is not `video/v210a`.
-/
import MediaExchange.FlowParser
import MediaExchange.FabricRegions
import MediaExchange.Library.Tiling
import Mathlib.Tactic.Linarith

namespace MediaExchange

open MediaExchange.Tiling

/-! ### Slice ranges -/

/-- `[start, stop)`. -/
structure SliceRange where
  start : UInt16
  stop : UInt16
  start_le_stop : start.toNat ≤ stop.toNat
deriving DecidableEq

namespace SliceRange

def make (start stop : UInt16) : Except FabricsException SliceRange :=
  if h : start.toNat ≤ stop.toNat then .ok ⟨start, stop, h⟩
  else .error (.invalidArgument "Invalid SliceRange: start must be less or equal to end")

/-- `(_end - _start) * sliceSize`, and the header with the first slice. -/
def transferSize (range : SliceRange) (payloadOffset sliceSize : UInt32) : UInt32 :=
  let size := (range.stop - range.start).toUInt32 * sliceSize
  if range.start = 0 then size + payloadOffset else size

def transferOffset (range : SliceRange) (payloadOffset sliceSize : UInt32) : UInt32 :=
  if range.start = 0 then 0 else payloadOffset + range.start.toUInt32 * sliceSize

def bounds (range : SliceRange) : Nat × Nat := (range.start.toNat, range.stop.toNat)

end SliceRange

/-! ### Immediate data -/

/-- `ImmDataGrain::Unpacked`; the slot is the low half of the packed word. -/
structure ImmDataGrain where
  ringBufferSlot : UInt16
  sliceIndex : UInt16
deriving DecidableEq, Repr

namespace ImmDataGrain

def pack (index : UInt64) (sliceIndex : UInt16) : ImmDataGrain :=
  { ringBufferSlot := index.toUInt16, sliceIndex := sliceIndex }

def data (immData : ImmDataGrain) : UInt32 :=
  immData.ringBufferSlot.toUInt32 ||| immData.sliceIndex.toUInt32 <<< 16

def unpack (data : UInt32) : ImmDataGrain :=
  { ringBufferSlot := data.toUInt16, sliceIndex := (data >>> 16).toUInt16 }

theorem toNat_data (immData : ImmDataGrain) :
    immData.data.toNat = immData.sliceIndex.toNat * 65536 + immData.ringBufferSlot.toNat := by
  have hslot := immData.ringBufferSlot.toNat_lt
  have hslice := immData.sliceIndex.toNat_lt
  rw [data, UInt32.toNat_or, UInt32.toNat_shiftLeft, UInt16.toNat_toUInt32, UInt16.toNat_toUInt32]
  have hshift : (immData.sliceIndex.toNat <<< (UInt32.toNat 16 % 32)) % 2 ^ 32 =
      immData.sliceIndex.toNat <<< 16 := by
    simp only [UInt32.reduceToNat, Nat.reduceMod, Nat.shiftLeft_eq]
    omega
  rw [hshift, Nat.or_comm, ← Nat.shiftLeft_add_eq_or_of_lt hslot, Nat.shiftLeft_eq]

/-- No bit is lost or moved on the wire. -/
theorem unpack_data (immData : ImmDataGrain) : unpack immData.data = immData := by
  have hslot := immData.ringBufferSlot.toNat_lt
  have hslice := immData.sliceIndex.toNat_lt
  have hlow : immData.data.toUInt16 = immData.ringBufferSlot := by
    rw [← UInt16.toNat_inj, UInt32.toNat_toUInt16, toNat_data]
    omega
  have hhigh : (immData.data >>> 16).toUInt16 = immData.sliceIndex := by
    rw [← UInt16.toNat_inj, UInt32.toNat_toUInt16, UInt32.toNat_shiftRight, toNat_data]
    simp only [UInt32.reduceToNat, Nat.reduceMod, Nat.shiftRight_eq_div_pow]
    omega
  rw [unpack, hlow, hhigh]

end ImmDataGrain

/-! ### The protocol -/

/-- `MXL_GRAIN_PAYLOAD_OFFSET`, the size of a grain header. -/
def MXL_GRAIN_PAYLOAD_OFFSET : UInt32 := 8192

/-- `RMAGrainEgressProtocol`.  The rings on both sides have at least one grain. -/
structure RMAGrainEgressProtocol where
  sliceSizes : Vector UInt32 4
  localRegions : List LocalRegion
  remoteRegions : List RemoteRegion
  pending : UInt64
  localRegions_pos : 0 < localRegions.length
  remoteRegions_pos : 0 < remoteRegions.length

namespace RMAGrainEgressProtocol

def localSlot (proto : RMAGrainEgressProtocol) (localIndex : UInt64) : LocalRegion :=
  proto.localRegions.get ⟨localIndex.toNat % proto.localRegions.length,
    Nat.mod_lt _ proto.localRegions_pos⟩

def remoteSlot (proto : RMAGrainEgressProtocol) (remoteIndex : UInt64) : RemoteRegion :=
  proto.remoteRegions.get ⟨remoteIndex.toNat % proto.remoteRegions.length,
    Nat.mod_lt _ proto.remoteRegions_pos⟩

/-- The write `transferGrain` posts. -/
def transferGrain (proto : RMAGrainEgressProtocol) (localIndex remoteIndex : UInt64)
    (payloadOffset : UInt32) (range : SliceRange) : Except FabricsException RmaWrite := do
  let localSize := range.transferSize payloadOffset proto.sliceSizes[0]
  let localOffset := range.transferOffset payloadOffset proto.sliceSizes[0]
  let remoteSize := range.transferSize payloadOffset proto.sliceSizes[0]
  let remoteOffset := range.transferOffset payloadOffset proto.sliceSizes[0]
  let localRegion ← (proto.localSlot localIndex).sub localOffset.toUInt64 localSize.toUInt64
  let remoteRegion ← (proto.remoteSlot remoteIndex).sub remoteOffset.toUInt64 remoteSize.toUInt64
  let slot := UInt64.ofNat (remoteIndex.toNat % proto.remoteRegions.length)
  .ok (Endpoint.write localRegion remoteRegion (some (ImmDataGrain.pack slot range.stop).data))

/-- The counter of outstanding completions after a write was posted. -/
def posted (proto : RMAGrainEgressProtocol) : RMAGrainEgressProtocol :=
  { proto with pending := proto.pending + 1 }

/-- The ranges of one grain, handed to `transferGrain` in order. -/
def transferGrains (localIndex remoteIndex : UInt64) (payloadOffset : UInt32) :
    RMAGrainEgressProtocol → List SliceRange →
      Except FabricsException (List RmaWrite × RMAGrainEgressProtocol)
  | proto, [] => .ok ([], proto)
  | proto, range :: ranges => do
      let write ← proto.transferGrain localIndex remoteIndex payloadOffset range
      let (writes, proto) ← transferGrains localIndex remoteIndex payloadOffset proto.posted ranges
      .ok (write :: writes, proto)

/-- Both sides are flows of the same definition: every region is a grain header
    and a payload (`mxlFabricsRegionsFromFlow`). -/
structure OfFormat (proto : RMAGrainEgressProtocol) (format : GrainFormat) : Prop where
  sliceSizes : proto.sliceSizes = format.sliceSizes
  localLen : ∀ region ∈ proto.localRegions, region.len = 8192 + format.grainSize.toUInt64
  remoteLen : ∀ region ∈ proto.remoteRegions, region.len = 8192 + format.grainSize.toUInt64

end RMAGrainEgressProtocol

/-! ### Slices and bytes -/

/-- Where the bytes of a grain start that go with the slices from `slice` on. -/
def firstByte (sliceSize slice : Nat) : Nat :=
  if slice = 0 then 0 else 8192 + slice * sliceSize

theorem firstByte_strictMono {sliceSize : Nat} (hpos : 0 < sliceSize) :
    StrictMono (firstByte sliceSize) := by
  intro s t hst
  unfold firstByte
  rw [if_neg (Nat.ne_of_gt (Nat.lt_of_le_of_lt (Nat.zero_le s) hst))]
  split
  · omega
  · exact Nat.add_lt_add_left (Nat.mul_lt_mul_of_pos_right hst hpos) 8192

namespace SliceRange

variable {range : SliceRange} {sliceSize : UInt32}

theorem toNat_stop_sub_start :
    (range.stop - range.start).toNat = range.stop.toNat - range.start.toNat := by
  apply UInt16.toNat_sub_of_le
  rw [UInt16.le_iff_toNat_le]
  exact range.start_le_stop

theorem start_eq_zero_iff : range.start = 0 ↔ range.start.toNat = 0 := by
  rw [← UInt16.toNat_inj]
  rfl

/-- As long as the grain is shorter than 4 GiB the offset does not wrap. -/
theorem toNat_transferOffset
    (hfits : 8192 + range.stop.toNat * sliceSize.toNat < 2 ^ 32) :
    (range.transferOffset MXL_GRAIN_PAYLOAD_OFFSET sliceSize).toNat =
      firstByte sliceSize.toNat range.start.toNat := by
  have hle : range.start.toNat * sliceSize.toNat ≤ range.stop.toNat * sliceSize.toNat :=
    Nat.mul_le_mul_right _ range.start_le_stop
  unfold transferOffset firstByte
  by_cases hzero : range.start = 0
  · rw [if_pos hzero, if_pos (start_eq_zero_iff.mp hzero)]
    rfl
  · have hmul : (range.start.toUInt32 * sliceSize).toNat =
        range.start.toNat * sliceSize.toNat := by
      rw [UInt32.toNat_mul, UInt16.toNat_toUInt32, Nat.mod_eq_of_lt (by omega)]
    rw [if_neg hzero, if_neg (mt start_eq_zero_iff.mpr hzero), UInt32.toNat_add, hmul]
    simp only [MXL_GRAIN_PAYLOAD_OFFSET, UInt32.reduceToNat]
    omega

/-- Neither does the size, which is that of the bytes from the first slice to the
    one after the last. -/
theorem toNat_transferSize (hlt : range.start.toNat < range.stop.toNat)
    (hfits : 8192 + range.stop.toNat * sliceSize.toNat < 2 ^ 32) :
    (range.transferSize MXL_GRAIN_PAYLOAD_OFFSET sliceSize).toNat =
      firstByte sliceSize.toNat range.stop.toNat - firstByte sliceSize.toNat range.start.toNat := by
  have hle : range.start.toNat * sliceSize.toNat ≤ range.stop.toNat * sliceSize.toNat :=
    Nat.mul_le_mul_right _ range.start_le_stop
  have hsize : ((range.stop - range.start).toUInt32 * sliceSize).toNat =
      range.stop.toNat * sliceSize.toNat - range.start.toNat * sliceSize.toNat := by
    rw [UInt32.toNat_mul, UInt16.toNat_toUInt32, toNat_stop_sub_start, Nat.sub_mul,
      Nat.mod_eq_of_lt (by omega)]
  unfold transferSize firstByte
  rw [if_neg (Nat.ne_of_gt (Nat.lt_of_le_of_lt (Nat.zero_le _) hlt))]
  by_cases hzero : range.start = 0
  · have hstart := start_eq_zero_iff.mp hzero
    simp only [if_pos hzero, if_pos hstart]
    rw [UInt32.toNat_add, hsize, hstart]
    simp only [MXL_GRAIN_PAYLOAD_OFFSET, UInt32.reduceToNat]
    omega
  · simp only [if_neg hzero, if_neg (mt start_eq_zero_iff.mpr hzero)]
    rw [hsize]
    omega

end SliceRange

/-! ### What is written where -/

/-- The bytes of `slot` that a write fills. -/
def RmaWrite.range (slot : RemoteRegion) (write : RmaWrite) : Nat × Nat :=
  ((write.rmaIov.addr - slot.addr).toNat,
    (write.rmaIov.addr - slot.addr).toNat + write.rmaIov.len.toNat)

/-- The bytes that are read are within `slot`, at the place they are written to. -/
def RmaWrite.ReadsFrom (slot : LocalRegion) (offset : Nat) (write : RmaWrite) : Prop :=
  ∃ region, write.msgIov = [region] ∧ (region.addr - slot.addr).toNat = offset ∧
    region.len = write.rmaIov.len ∧ offset + region.len.toNat ≤ slot.len.toNat

namespace RMAGrainEgressProtocol

variable {proto : RMAGrainEgressProtocol} {format : GrainFormat} {localIndex remoteIndex : UInt64}
  {range : SliceRange} {ranges : List SliceRange}

/-- The write that is made of a range that fits both slots. -/
theorem transferGrain_write (localIndex remoteIndex : UInt64) (hproto : proto.OfFormat format)
    (hfit : (range.transferOffset MXL_GRAIN_PAYLOAD_OFFSET format.sliceSizes[0]).toUInt64.toNat +
      (range.transferSize MXL_GRAIN_PAYLOAD_OFFSET format.sliceSizes[0]).toUInt64.toNat ≤
      (8192 + format.grainSize.toUInt64).toNat) :
    ∃ write,
      proto.transferGrain localIndex remoteIndex MXL_GRAIN_PAYLOAD_OFFSET range = .ok write ∧
      write.msgIov = [{
        addr := (proto.localSlot localIndex).addr +
          (range.transferOffset MXL_GRAIN_PAYLOAD_OFFSET format.sliceSizes[0]).toUInt64
        len := (range.transferSize MXL_GRAIN_PAYLOAD_OFFSET format.sliceSizes[0]).toUInt64
        desc := (proto.localSlot localIndex).desc }] ∧
      write.rmaIov = {
        addr := (proto.remoteSlot remoteIndex).addr +
          (range.transferOffset MXL_GRAIN_PAYLOAD_OFFSET format.sliceSizes[0]).toUInt64
        len := (range.transferSize MXL_GRAIN_PAYLOAD_OFFSET format.sliceSizes[0]).toUInt64
        rkey := (proto.remoteSlot remoteIndex).rkey } ∧
      write.immData = some (ImmDataGrain.pack
        (UInt64.ofNat (remoteIndex.toNat % proto.remoteRegions.length)) range.stop).data := by
  have hslice : proto.sliceSizes[0] = format.sliceSizes[0] := by simp only [hproto.sliceSizes]
  have hlocal : (proto.localSlot localIndex).len = 8192 + format.grainSize.toUInt64 :=
    hproto.localLen _ (List.get_mem ..)
  have hremote : (proto.remoteSlot remoteIndex).len = 8192 + format.grainSize.toUInt64 :=
    hproto.remoteLen _ (List.get_mem ..)
  have hsubLocal := LocalRegion.sub_eq_ok (hlocal ▸ hfit)
  have hsubRemote := RemoteRegion.sub_eq_ok (hremote ▸ hfit)
  simp only [transferGrain, hslice, hsubLocal, hsubRemote]
  exact ⟨_, rfl, rfl, rfl, rfl⟩

theorem transferGrain_spec (localIndex remoteIndex : UInt64) (hproto : proto.OfFormat format)
    (hpos : 0 < format.sliceSizes[0].toNat)
    (hlt : range.start.toNat < range.stop.toNat)
    (hfits : 8192 + range.stop.toNat * format.sliceSizes[0].toNat ≤
      8192 + format.grainSize.toNat)
    (hgrain : 8192 + format.grainSize.toNat < 2 ^ 32) :
    ∃ write, proto.transferGrain localIndex remoteIndex MXL_GRAIN_PAYLOAD_OFFSET range = .ok write ∧
      write.range (proto.remoteSlot remoteIndex) =
        (firstByte format.sliceSizes[0].toNat range.start.toNat,
          firstByte format.sliceSizes[0].toNat range.stop.toNat) ∧
      write.ReadsFrom (proto.localSlot localIndex)
        (firstByte format.sliceSizes[0].toNat range.start.toNat) ∧
      firstByte format.sliceSizes[0].toNat range.stop.toNat ≤
        (proto.remoteSlot remoteIndex).len.toNat ∧
      write.immData = some (ImmDataGrain.pack
        (UInt64.ofNat (remoteIndex.toNat % proto.remoteRegions.length)) range.stop).data := by
  have hregion : (8192 + format.grainSize.toUInt64).toNat = 8192 + format.grainSize.toNat := by
    rw [UInt64.toNat_add, UInt32.toNat_toUInt64]
    simp only [UInt64.reduceToNat]
    omega
  have hlocal : (proto.localSlot localIndex).len = 8192 + format.grainSize.toUInt64 :=
    hproto.localLen _ (List.get_mem ..)
  have hremote : (proto.remoteSlot remoteIndex).len = 8192 + format.grainSize.toUInt64 :=
    hproto.remoteLen _ (List.get_mem ..)
  have hfits' : 8192 + range.stop.toNat * format.sliceSizes[0].toNat < 2 ^ 32 := by omega
  have hoffset := SliceRange.toNat_transferOffset hfits'
  have hsize := SliceRange.toNat_transferSize hlt hfits'
  have hstart : firstByte format.sliceSizes[0].toNat range.start.toNat ≤
      firstByte format.sliceSizes[0].toNat range.stop.toNat :=
    (firstByte_strictMono hpos).monotone range.start_le_stop
  have hstop : firstByte format.sliceSizes[0].toNat range.stop.toNat ≤
      8192 + format.grainSize.toNat := by
    unfold firstByte
    split <;> omega
  have hfit : (range.transferOffset MXL_GRAIN_PAYLOAD_OFFSET format.sliceSizes[0]).toUInt64.toNat +
      (range.transferSize MXL_GRAIN_PAYLOAD_OFFSET format.sliceSizes[0]).toUInt64.toNat ≤
      (8192 + format.grainSize.toUInt64).toNat := by
    rw [UInt32.toNat_toUInt64, UInt32.toNat_toUInt64, hoffset, hsize, hregion]
    omega
  obtain ⟨write, hwrite, hlocalIov, hremoteIov, himm⟩ :=
    transferGrain_write localIndex remoteIndex hproto hfit
  refine ⟨write, hwrite, ?_, ⟨_, hlocalIov, ?_, ?_, ?_⟩, ?_, himm⟩
  · simp only [RmaWrite.range, hremoteIov, UInt64.add_comm (proto.remoteSlot remoteIndex).addr,
      UInt64.add_sub_cancel, UInt32.toNat_toUInt64, hoffset, hsize]
    rw [Nat.add_sub_cancel' hstart]
  · simp only [UInt64.add_comm (proto.localSlot localIndex).addr, UInt64.add_sub_cancel,
      UInt32.toNat_toUInt64, hoffset]
  · rw [hremoteIov]
  · rw [hlocal, UInt32.toNat_toUInt64, hsize, hregion]
    omega
  · rw [hremote, hregion]
    exact hstop

/-- A grain is sent in full: every range is taken, no 32-bit computation wraps, what
    is read and written lies in the two slots, no byte is written twice, and the
    bytes written are those of the header and the payload. -/
structure CoversGrain (proto : RMAGrainEgressProtocol) (format : GrainFormat)
    (localIndex remoteIndex : UInt64) (ranges : List SliceRange) : Prop where
  exact32 : ∀ range ∈ ranges,
    (range.transferOffset MXL_GRAIN_PAYLOAD_OFFSET proto.sliceSizes[0]).toNat =
        firstByte proto.sliceSizes[0].toNat range.start.toNat ∧
      (range.transferSize MXL_GRAIN_PAYLOAD_OFFSET proto.sliceSizes[0]).toNat =
        firstByte proto.sliceSizes[0].toNat range.stop.toNat -
          firstByte proto.sliceSizes[0].toNat range.start.toNat
  written : ∃ writes after,
    proto.transferGrains localIndex remoteIndex MXL_GRAIN_PAYLOAD_OFFSET ranges =
        .ok (writes, after) ∧
      (∀ write ∈ writes, (∃ offset, write.ReadsFrom (proto.localSlot localIndex) offset) ∧
        (write.range (proto.remoteSlot remoteIndex)).2 ≤
          (proto.remoteSlot remoteIndex).len.toNat) ∧
      (writes.map (RmaWrite.range (proto.remoteSlot remoteIndex))).Pairwise
        (fun range later => range.2 ≤ later.1) ∧
      ∀ byte, (∃ write ∈ writes, (write.range (proto.remoteSlot remoteIndex)).1 ≤ byte ∧
          byte < (write.range (proto.remoteSlot remoteIndex)).2) ↔
        byte < 8192 + format.grainSize.toNat

theorem OfFormat.posted (hproto : proto.OfFormat format) : proto.posted.OfFormat format :=
  ⟨hproto.sliceSizes, hproto.localLen, hproto.remoteLen⟩

/-- The writes of consecutive slice ranges fill consecutive byte ranges. -/
theorem transferGrains_spec (localIndex remoteIndex : UInt64) (hproto : proto.OfFormat format)
    (hpos : 0 < format.sliceSizes[0].toNat)
    (hfits : format.totalSlices.toNat * format.sliceSizes[0].toNat ≤ format.grainSize.toNat)
    (hgrain : 8192 + format.grainSize.toNat < 2 ^ 32) {first : Nat}
    (htiles : Tiles first format.totalSlices.toNat (ranges.map SliceRange.bounds)) :
    ∃ writes after,
      transferGrains localIndex remoteIndex MXL_GRAIN_PAYLOAD_OFFSET proto ranges =
          .ok (writes, after) ∧
        writes.map (RmaWrite.range (proto.remoteSlot remoteIndex)) =
          (ranges.map SliceRange.bounds).map (Prod.map (firstByte format.sliceSizes[0].toNat)
            (firstByte format.sliceSizes[0].toNat)) ∧
        ∀ write ∈ writes, (∃ offset, write.ReadsFrom (proto.localSlot localIndex) offset) ∧
          (write.range (proto.remoteSlot remoteIndex)).2 ≤
            (proto.remoteSlot remoteIndex).len.toNat := by
  induction ranges generalizing proto first with
  | nil => exact ⟨[], proto, rfl, rfl, by simp⟩
  | cons range ranges ih =>
    obtain ⟨-, hlt, hrest⟩ := htiles
    have hstop : range.stop.toNat ≤ format.totalSlices.toNat := hrest.le
    have hbytes := Nat.mul_le_mul_right format.sliceSizes[0].toNat hstop
    obtain ⟨write, hwrite, hrange, hreads, hinside, -⟩ := transferGrain_spec localIndex
      remoteIndex hproto hpos hlt (by omega) hgrain
    obtain ⟨writes, after, hwrites, hranges, hall⟩ := ih hproto.posted hrest
    refine ⟨write :: writes, after, ?_, ?_, ?_⟩
    · rw [transferGrains, hwrite]
      change (transferGrains localIndex remoteIndex MXL_GRAIN_PAYLOAD_OFFSET proto.posted ranges >>= _) = _
      rw [hwrites]
      rfl
    · rw [List.map_cons, hrange, List.map_cons, List.map_cons]
      exact congrArg _ hranges
    · intro w hw
      rcases List.mem_cons.mp hw with rfl | hw
      · exact ⟨⟨_, hreads⟩, by rw [hrange]; exact hinside⟩
      · exact hall w hw

/-- **A grain is sent in full unless it has a second plane.**  For every accepted
    definition of a discrete flow, every pair of slots and every partition of the
    slices of a grain into non-empty ranges, the ranges sent one after the other
    make up the whole grain exactly when its media type is not `video/v210a`. -/
theorem grain_covered_iff {isUuid : String → Bool} {root : JsonObject} {parser : FlowParser}
    (hparse : FlowParser.parse isUuid root = .ok parser)
    (hformat : parser.grainFormat = .ok format) (hproto : proto.OfFormat format)
    (localIndex remoteIndex : UInt64)
    (htiles : Tiles 0 format.totalSlices.toNat (ranges.map SliceRange.bounds)) :
    CoversGrain proto format localIndex remoteIndex ranges ↔
      fetchAs JsonValue.getString root "media_type" ≠ .ok "video/v210a" := by
  obtain ⟨key, hsize, hpos, hslice, htotal, htotal', hkeyMax, hkey⟩ :=
    FlowParser.grainFormat_spec hparse hformat
  have hfirst : format.sliceSizes.get 0 = format.sliceSizes[0] := rfl
  rw [hfirst] at hsize hpos hslice
  rw [← hkey]
  have hplanes : format.grainSize.toNat =
      format.totalSlices.toNat * format.sliceSizes[0].toNat + key * format.totalSlices.toNat := by
    rw [hsize, Nat.add_mul, Nat.mul_comm]
  have hfits : format.totalSlices.toNat * format.sliceSizes[0].toNat ≤ format.grainSize.toNat := by
    omega
  have hgrain : 8192 + format.grainSize.toNat < 2 ^ 32 := by
    have hbound : (format.sliceSizes[0].toNat + key) * format.totalSlices.toNat ≤ 40960 * 4320 :=
      Nat.mul_le_mul (by omega) htotal'
    omega
  have hslices : proto.sliceSizes[0] = format.sliceSizes[0] := by simp only [hproto.sliceSizes]
  obtain ⟨writes, after, hwrites, hranges, hinside⟩ :=
    transferGrains_spec localIndex remoteIndex hproto hpos hfits hgrain htiles
  -- the byte ranges tile everything up to the end of the first plane
  have hbytes : Tiles 0 (8192 + format.totalSlices.toNat * format.sliceSizes[0].toNat)
      (writes.map (RmaWrite.range (proto.remoteSlot remoteIndex))) := by
    have hmap := htiles.map (firstByte_strictMono hpos)
    rw [hranges]
    rwa [firstByte, if_pos rfl, firstByte, if_neg (Nat.ne_of_gt htotal)] at hmap
  have hcovered : ∀ byte, (∃ write ∈ writes, (write.range (proto.remoteSlot remoteIndex)).1 ≤ byte ∧
      byte < (write.range (proto.remoteSlot remoteIndex)).2) ↔
        byte < 8192 + format.totalSlices.toNat * format.sliceSizes[0].toNat := by
    intro byte
    have hmem := hbytes.mem_iff (x := byte)
    simp only [List.mem_map, exists_exists_and_eq_and, Nat.zero_le, true_and] at hmem
    exact hmem
  constructor
  · rintro ⟨-, writes', after', hwrites', -, -, hfull⟩
    obtain ⟨rfl, -⟩ := Prod.mk.inj (Except.ok.inj (hwrites.symm.trans hwrites'))
    by_contra hne
    have hlast : 0 < key * format.totalSlices.toNat := Nat.mul_pos (Nat.pos_of_ne_zero hne) htotal
    have hbyte := (hcovered (8192 + format.totalSlices.toNat * format.sliceSizes[0].toNat)).mp
      ((hfull _).mpr (by omega))
    omega
  · intro hzero
    rw [hzero, Nat.zero_mul, Nat.add_zero] at hplanes
    refine ⟨fun range hrange => ?_, writes, after, hwrites, hinside, hbytes.pairwise, fun byte => ?_⟩
    · obtain ⟨-, hlt, hstop⟩ := htiles.bounds (List.mem_map_of_mem hrange)
      have hstop' := Nat.mul_le_mul_right format.sliceSizes[0].toNat hstop
      have hfits' : 8192 + range.stop.toNat * format.sliceSizes[0].toNat < 2 ^ 32 :=
        Nat.lt_of_le_of_lt (Nat.add_le_add_left (Nat.le_trans hstop' hfits) 8192) hgrain
      rw [hslices]
      exact ⟨SliceRange.toNat_transferOffset hfits', SliceRange.toNat_transferSize hlt hfits'⟩
    · rw [hcovered, hplanes]

/-! ### A flow of two by four pixels -/

def videoDocument (mediaType : String) : JsonObject :=
  [("id", .string "5fbec3b1-1b0f-417d-9059-8b94a47197ed"),
   ("format", .string "urn:x-nmos:format:video"),
   ("label", .string "camera"),
   ("tags", .object [("urn:x-nmos:tag:grouphint/v1.0", .array [.string "camera:video"])]),
   ("media_type", .string mediaType),
   ("grain_rate", .object [("numerator", .number 50)]),
   ("frame_width", .number 2),
   ("frame_height", .number 4)]

/-- One grain of `grainSize` bytes on either side. -/
def ringOfOne (sliceSizes : Vector UInt32 4) (grainSize : UInt64) : RMAGrainEgressProtocol where
  sliceSizes := sliceSizes
  localRegions := [{ addr := 65536, len := 8192 + grainSize, desc := 0 }]
  remoteRegions := [{ addr := 1048576, len := 8192 + grainSize, rkey := 7 }]
  pending := 0
  localRegions_pos := Nat.one_pos
  remoteRegions_pos := Nat.one_pos

/-- Four lines of v210, the first of them sent on its own. -/
theorem grain_covered_v210 :
    ∃ parser format, FlowParser.parse (fun _ => true) (videoDocument "video/v210") = .ok parser ∧
      parser.grainFormat = .ok format ∧ format.totalSlices = 4 ∧
      CoversGrain (ringOfOne #v[128, 0, 0, 0] 512) format 5 5
        [⟨0, 1, by decide⟩, ⟨1, 4, by decide⟩] := by
  obtain ⟨parser, hparse⟩ : ∃ parser,
      FlowParser.parse (fun _ => true) (videoDocument "video/v210") = .ok parser := ⟨_, rfl⟩
  obtain ⟨format, hformat, hgrain⟩ : ∃ format, parser.grainFormat = .ok format ∧
      format = { grainSize := 512, totalSlices := 4, sliceSizes := #v[128, 0, 0, 0] } := by
    obtain rfl := Except.ok.inj hparse
    exact ⟨_, rfl, by decide⟩
  have hproto : (ringOfOne #v[128, 0, 0, 0] 512).OfFormat format := by
    rw [hgrain]
    exact ⟨rfl, by decide, by decide⟩
  refine ⟨parser, format, hparse, hformat, by rw [hgrain], ?_⟩
  apply (grain_covered_iff hparse hformat hproto 5 5 ?_).mpr
  · exact fun h => absurd (Except.ok.inj h) (by decide)
  · rw [hgrain]
    decide

/-- The same picture as v210a has 16 bytes of key behind the fill.  The one range
    of all four slices ends where the fill ends. -/
theorem key_not_sent :
    ∃ parser format, FlowParser.parse (fun _ => true) (videoDocument "video/v210a") = .ok parser ∧
      parser.grainFormat = .ok format ∧
      format = { grainSize := 528, totalSlices := 4, sliceSizes := #v[128, 4, 0, 0] } ∧
      ¬ CoversGrain (ringOfOne #v[128, 4, 0, 0] 528) format 5 5 [⟨0, 4, by decide⟩] := by
  refine ⟨_, _, rfl, rfl, by decide, ?_⟩
  rintro ⟨-, writes, after, hwrites, -, -, hfull⟩
  obtain ⟨rfl, -⟩ := Prod.mk.inj (Except.ok.inj hwrites)
  have hkey := (hfull 8704).mpr (by decide)
  revert hkey
  decide

end RMAGrainEgressProtocol

end MediaExchange
