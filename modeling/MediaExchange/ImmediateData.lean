/-
  MediaExchange/ImmediateData.lean
  ================================
  **What the immediate data of a grain tells the target** (`ImmData.cpp`,
  `ProtocolEgressRMA.cpp`, `ProtocolIngressRMA.cpp`, `Completion.cpp`).

  The initiator reduces the remote index modulo the number of the target's regions,
  in 64 bits, and packs the slot and the end of the slice range into 32 bits, 16 for
  either.  The end of a range has 16 bits, and the word arrives as it was sent; the
  slot is cut to its low half.

  Main result: `slot_and_slice_identified_iff`.  The target finds the slot and the
  slice that were meant exactly when the slot is below 65536; else it credits the
  grain 65536 slots, or a multiple, before it (`credits_lower_half`).
-/
import MediaExchange.GrainTransfer

namespace MediaExchange

open MediaExchange.GrainTransfer

/-! ### From the write to the completion -/

/-- The 64-bit `data` that `Endpoint::writeImpl` hands to the fabric with a write. -/
def RmaWrite.data (write : RmaWrite) : UInt64 := (write.immData.getD 0).toUInt64

/-- `Completion::Data::data` of a completion at the target: there is data if
    `FI_REMOTE_CQ_DATA` was among the flags of the write. -/
def RmaWrite.completionData (write : RmaWrite) : Option UInt64 :=
  if write.immData.isSome then some write.data else none

/-- `RMAGrainIngressProtocol::read`, up to the unpacked immediate data. -/
def unpackCompletion (completionData : Option UInt64) : Except FabricsException ImmDataGrain :=
  match completionData with
  | none => .error (.invalidState "Received a completion without immediate data.")
  | some immData => .ok (ImmDataGrain.unpack immData.toUInt32)

/-- The target is told the slot of `remoteIndex` among `regions` and the end slice. -/
def Identifies (regions : Nat) (remoteIndex : UInt64) (range : SliceRange) (write : RmaWrite) :
    Prop :=
  ∃ unpacked, unpackCompletion write.completionData = .ok unpacked ∧
    unpacked.ringBufferSlot.toNat = remoteIndex.toNat % regions ∧
    unpacked.sliceIndex = range.stop

theorem unpackCompletion_of_immData {write : RmaWrite} {immData : ImmDataGrain}
    (h : write.immData = some immData.data) :
    unpackCompletion write.completionData = .ok immData := by
  have hcast : immData.data.toUInt64.toUInt32 = immData.data := by
    rw [← UInt32.toNat_inj, UInt64.toNat_toUInt32, UInt32.toNat_toUInt64]
    exact Nat.mod_eq_of_lt immData.data.toNat_lt
  simp only [RmaWrite.completionData, RmaWrite.data, h, Option.isSome_some, if_true,
    Option.getD_some, unpackCompletion, hcast, ImmDataGrain.unpack_data]

namespace RMAGrainEgressProtocol

variable {proto : RMAGrainEgressProtocol} {localIndex remoteIndex : UInt64}
  {payloadOffset : UInt32} {range : SliceRange} {write : RmaWrite}

/-- Every transfer that is accepted carries the slot and the end of its range. -/
theorem immData_of_transferGrain
    (h : proto.transferGrain localIndex remoteIndex payloadOffset range = .ok write) :
    write.immData = some (ImmDataGrain.pack
      (UInt64.ofNat (remoteIndex.toNat % proto.remoteRegions.length)) range.stop).data := by
  unfold transferGrain at h
  obtain ⟨localRegion, -, h⟩ := bind_eq_ok.mp h
  obtain ⟨remoteRegion, -, h⟩ := bind_eq_ok.mp h
  obtain rfl := Except.ok.inj h
  rfl

/-- The slot that arrives is the low half of the one that was meant. -/
theorem toNat_ringBufferSlot (remoteIndex : UInt64) (regions : Nat) (stop : UInt16) :
    (ImmDataGrain.pack (UInt64.ofNat (remoteIndex.toNat % regions)) stop).ringBufferSlot.toNat =
      remoteIndex.toNat % regions % 65536 := by
  have hle := Nat.mod_le remoteIndex.toNat regions
  have hlt := remoteIndex.toNat_lt
  simp only [ImmDataGrain.pack, UInt64.toNat_toUInt16, UInt64.toNat_ofNat']
  rw [Nat.mod_eq_of_lt (lt_of_le_of_lt hle hlt)]

theorem identifies_iff_of_immData {regions : Nat}
    (h : write.immData = some (ImmDataGrain.pack
      (UInt64.ofNat (remoteIndex.toNat % regions)) range.stop).data) :
    Identifies regions remoteIndex range write ↔ remoteIndex.toNat % regions < 65536 := by
  have hslot := toNat_ringBufferSlot remoteIndex regions range.stop
  have hunpacked := unpackCompletion_of_immData h
  constructor
  · rintro ⟨unpacked, heq, hmeant, -⟩
    obtain rfl := Except.ok.inj (hunpacked.symm.trans heq)
    rw [hslot] at hmeant
    rw [← hmeant]
    exact Nat.mod_lt _ (by decide)
  · intro hlt
    refine ⟨_, hunpacked, ?_, rfl⟩
    rw [hslot, Nat.mod_eq_of_lt hlt]

/-- **Slot and slice.**  For every number of remote regions, every remote index and every
    range that the egress accepts, the target unpacks the slot of the index and the end
    of the range if and only if the slot has 16 bits. -/
theorem slot_and_slice_identified_iff (proto : RMAGrainEgressProtocol)
    (haccepted : proto.transferGrain localIndex remoteIndex payloadOffset range = .ok write) :
    Identifies proto.remoteRegions.length remoteIndex range write ↔
      remoteIndex.toNat % proto.remoteRegions.length < 65536 :=
  identifies_iff_of_immData (immData_of_transferGrain haccepted)

/-- The slice count of a transfer is stored in the slot that has the low half of the
    number of the right one, and the grain reported is the one found there. -/
theorem credits_lower_half (headers : Nat → GrainInfo) {immData : UInt32}
    (haccepted : proto.transferGrain localIndex remoteIndex payloadOffset range = .ok write)
    (himm : write.immData = some immData) :
    readCompletion proto.remoteRegions.length headers immData =
      .ok ((headers (remoteIndex.toNat % proto.remoteRegions.length % 65536)).index,
        Function.update headers (remoteIndex.toNat % proto.remoteRegions.length % 65536)
          { headers (remoteIndex.toNat % proto.remoteRegions.length % 65536) with
            validSlices := range.stop }) := by
  have hpacked := immData_of_transferGrain haccepted
  obtain rfl := Option.some.inj (himm.symm.trans hpacked)
  have hslot := toNat_ringBufferSlot remoteIndex proto.remoteRegions.length range.stop
  have hlt : remoteIndex.toNat % proto.remoteRegions.length % 65536 <
      proto.remoteRegions.length :=
    lt_of_le_of_lt (Nat.mod_le _ _) (Nat.mod_lt _ proto.remoteRegions_pos)
  unfold readCompletion
  rw [ImmDataGrain.unpack_data]
  simp only [setValidSlicesForGrain, getGrainIndexInRingSlot, hslot, ge_iff_le,
    if_neg (Nat.not_le.mpr hlt)]
  change Except.ok _ = _
  rw [Function.update_self]
  rfl

/-! ### Rings of 50 grains and of 65537 -/

theorem size_dataSlices : (#[1, 0, 0, 0] : Array UInt32).size = 4 := rfl

/-- A target with `n` grains of a data flow. -/
def ringOfData (n : Nat) (hpos : 0 < n) : RMAGrainEgressProtocol where
  sliceSizes := ⟨#[1, 0, 0, 0], size_dataSlices⟩
  localRegions := [{ addr := 65536, len := 12288, desc := 0 }]
  remoteRegions := List.replicate n { addr := 1048576, len := 12288, rkey := 7 }
  pending := 0
  localRegions_pos := Nat.one_pos
  remoteRegions_pos := by rw [List.length_replicate]; exact hpos

theorem length_ringOfData {n : Nat} (hpos : 0 < n) :
    (ringOfData n hpos).remoteRegions.length = n := List.length_replicate

/-- A whole grain is accepted, whatever its index. -/
theorem transferGrain_ringOfData {n : Nat} (hpos : 0 < n) (remoteIndex : UInt64) :
    ∃ write, (ringOfData n hpos).transferGrain 0 remoteIndex MXL_GRAIN_PAYLOAD_OFFSET
      ⟨0, 4096, by decide⟩ = .ok write := by
  have hformat : (ringOfData n hpos).OfFormat
      { grainSize := 4096, totalSlices := 4096, sliceSizes := #v[1, 0, 0, 0] } := by
    refine ⟨rfl, by simp [ringOfData], fun region hregion => ?_⟩
    obtain rfl := List.eq_of_mem_replicate hregion
    rfl
  have hlt : (⟨0, 4096, by decide⟩ : SliceRange).start.toNat <
      (⟨0, 4096, by decide⟩ : SliceRange).stop.toNat := by
    decide
  obtain ⟨write, haccepted, -⟩ :=
    transferGrain_spec 0 remoteIndex hformat (by decide) hlt (by decide) (by decide)
  exact ⟨write, haccepted⟩

theorem last_of_50_identified :
    ∃ write, (ringOfData 50 (by decide)).transferGrain 0 99 MXL_GRAIN_PAYLOAD_OFFSET
        ⟨0, 4096, by decide⟩ = .ok write ∧ Identifies 50 99 ⟨0, 4096, by decide⟩ write := by
  have hpos : 0 < 50 := by decide
  obtain ⟨write, haccepted⟩ := transferGrain_ringOfData hpos 99
  refine ⟨write, haccepted, ?_⟩
  have hidentified := slot_and_slice_identified_iff _ haccepted
  rw [length_ringOfData] at hidentified
  exact hidentified.mpr (by decide)

/-- The last of 65537 grains is taken for the first. -/
theorem last_of_65537_not_identified :
    ∃ write, (ringOfData 65537 (by decide)).transferGrain 0 65536 MXL_GRAIN_PAYLOAD_OFFSET
        ⟨0, 4096, by decide⟩ = .ok write ∧ ¬ Identifies 65537 65536 ⟨0, 4096, by decide⟩ write := by
  have hpos : 0 < 65537 := by decide
  obtain ⟨write, haccepted⟩ := transferGrain_ringOfData hpos 65536
  have himm := immData_of_transferGrain haccepted
  rw [length_ringOfData] at himm
  refine ⟨write, haccepted, ?_⟩
  rw [identifies_iff_of_immData himm]
  decide

end RMAGrainEgressProtocol

end MediaExchange
