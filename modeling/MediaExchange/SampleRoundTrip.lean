/-
  MediaExchange/SampleRoundTrip.lean
  ==================================
  **One transfer of samples, from ring to ring.**

  The initiator posts the writes of a range, the fabric carries them out in order,
  and the target reads the completion of the last one and unpacks the entry.

  Main result: `roundTrips_iff`.  Whatever the rings hold, the range arrives at its
  positions in every channel and nothing else changes, exactly when the sum in
  front of the start offset's remainder and the sum in front of the number of
  writes do not wrap (the former may wrap unnoticed).
-/
import MediaExchange.SampleEgress

namespace MediaExchange.SampleRoundTrip

open MediaExchange.ByteMemory

/-! ### Carrying out the writes -/

/-- The writes are carried out one after the other. -/
def deliver (memory : UInt64 → Option MemoryBlock) :
    AudioBounceBuffer → List RmaWrite → Option AudioBounceBuffer
  | buffer, [] => some buffer
  | buffer, write :: writes => do
      let values ← gatherRegions memory write.msgIov
      let buffer ← buffer.place write values
      deliver memory buffer writes

/-- The header the target returns, and its rings, after one transfer. -/
def transferOnce (proto : RMASampleEgressProtocol) (samples : MemoryBlock)
    (buffer : AudioBounceBuffer) (outRegion : MemoryBlock) (iovLimit headIndex count : UInt64) :
    Option (AudioEntryHeader × MemoryBlock) := do
  let (writes, _, proto) := proto.transferSamples iovLimit headIndex count
  let buffer ← deliver (proto.memory samples) buffer writes
  let write ← writes.getLast?
  let immData ← write.immData
  let result ← buffer.unpack immData.toNat outRegion
  result.toOption

/-- Whatever the rings hold, the range is copied and nothing else is touched. -/
def RoundTrips (proto : RMASampleEgressProtocol) (samples : MemoryBlock)
    (buffer : AudioBounceBuffer) (outRegion : MemoryBlock)
    (iovLimit headIndex count : UInt64) : Prop :=
  ∀ source target : Nat → UInt8, ∃ bytes,
    transferOnce proto { samples with bytes := source } buffer { outRegion with bytes := target }
        iovLimit headIndex count =
      some (⟨headIndex, count⟩, { outRegion with bytes := bytes }) ∧
    Copied (proto.layout.InRange headIndex count) source target bytes

section Deliver

variable {memory : UInt64 → Option MemoryBlock} {buffer : AudioBounceBuffer} {i : Nat}
  {entry : AudioBounceBufferEntry} {writes : List RmaWrite} {values : List UInt8}

/-- The bounce buffer once `values` are stored in entry `i`, from `start` on. -/
def filled (buffer : AudioBounceBuffer) (i : Nat) (entry : AudioBounceBufferEntry) (start : Nat)
    (values : List UInt8) : AudioBounceBuffer :=
  { buffer with entries := buffer.entries.set i { entry with bytes := store entry.bytes start values } }

theorem getElem?_filled (hentry : buffer.entries[i]? = some entry) (start : Nat)
    (values : List UInt8) : (filled buffer i entry start values).entries[i]? =
      some { entry with bytes := store entry.bytes start values } :=
  List.getElem?_set_self (List.getElem?_eq_some_iff.mp hentry).1

/-- A write fills the entry it is addressed to, as far as it fits. -/
theorem place_eq_ite (hentry : buffer.entries[i]? = some entry) (hi : i < 2 ^ 64) {write : RmaWrite}
    {remoteOffset : UInt64} (haddr : write.rmaIov.addr = entry.data + remoteOffset)
    (hrkey : write.rmaIov.rkey = UInt64.ofNat i) :
    buffer.place write values =
      if remoteOffset.toNat + values.length ≤ buffer.entrySize.toNat then
        some (filled buffer i entry remoteOffset.toNat values)
      else none := by
  have hrkey' : write.rmaIov.rkey.toNat = i := by
    rw [hrkey, UInt64.toNat_ofNat']
    exact Nat.mod_eq_of_lt hi
  have hoffset : (buffer.block entry).offset write.rmaIov.addr = remoteOffset.toNat := by
    rw [haddr]
    exact (buffer.block entry).offset_add remoteOffset
  rw [AudioBounceBuffer.place, hrkey', hentry, Option.bind_eq_bind, Option.bind_some,
    MemoryBlock.write, hoffset]
  by_cases hfit : remoteOffset.toNat + values.length ≤ buffer.entrySize.toNat
  · rw [if_pos hfit, if_pos (show _ ≤ (buffer.block entry).size from hfit)]
    rfl
  · rw [if_neg hfit, if_neg (show ¬ _ ≤ (buffer.block entry).size from hfit)]
    rfl

theorem place_eq (hentry : buffer.entries[i]? = some entry) (hi : i < 2 ^ 64) {write : RmaWrite}
    {remoteOffset : UInt64} (haddr : write.rmaIov.addr = entry.data + remoteOffset)
    (hrkey : write.rmaIov.rkey = UInt64.ofNat i)
    (hfit : remoteOffset.toNat + values.length ≤ buffer.entrySize.toNat) :
    buffer.place write values = some (filled buffer i entry remoteOffset.toNat values) := by
  rw [place_eq_ite hentry hi haddr hrkey, if_pos hfit]

/-- Where the next write goes, if it does not go round. -/
theorem toNat_nextOffset {remoteOffset : UInt64} {iov : List LocalRegion} {head : List UInt8}
    (hhead : gatherRegions memory iov = some head)
    (hfit : remoteOffset.toNat + head.length < 2 ^ 64) :
    (remoteOffset + byteSize iov).toNat = remoteOffset.toNat + head.length := by
  have hbytes : (byteSize iov).toNat = head.length := by
    rw [length_gatherRegions hhead]
    apply toNat_byteSize
    rw [← length_gatherRegions hhead]
    omega
  rw [UInt64.toNat_add, hbytes]
  exact Nat.mod_eq_of_lt hfit

/-- Consecutive writes leave all of their bytes in the entry. -/
theorem deliver_consecutive {remote : RemoteRegion} {immData : Option UInt32}
    {remoteOffset : UInt64} (hentry : buffer.entries[i]? = some entry) (hi : i < 2 ^ 64)
    (haddr : remote.addr = entry.data) (hrkey : remote.rkey = UInt64.ofNat i)
    (hwrites : Consecutive remote immData remoteOffset writes)
    (hgather : gatherRegions memory (writes.flatMap RmaWrite.msgIov) = some values)
    (hfit : remoteOffset.toNat + values.length ≤ buffer.entrySize.toNat) :
    deliver memory buffer writes = some (filled buffer i entry remoteOffset.toNat values) := by
  have hsize := buffer.entrySize.toNat_lt
  induction writes generalizing buffer entry remoteOffset values with
  | nil => exact hwrites.elim
  | cons write writes ih =>
    obtain ⟨hiov, hrest⟩ := hwrites
    obtain ⟨head, hhead, rest, hrest', rfl⟩ := gatherRegions_append.mp hgather
    rw [List.length_append] at hfit
    have hnext := @toNat_nextOffset memory remoteOffset write.msgIov head hhead (by omega)
    have haddr' : write.rmaIov.addr = entry.data + remoteOffset := by rw [hiov, haddr]
    have hplace : buffer.place write head = _ :=
      place_eq hentry hi haddr' (by rw [hiov, hrkey]) (by omega)
    rw [deliver, hhead, Option.bind_eq_bind, Option.bind_some, hplace, Option.bind_eq_bind,
      Option.bind_some]
    rcases writes with _ | ⟨next, writes⟩
    · obtain rfl : [] = rest := Option.some.inj hrest'
      rw [List.append_nil]
      rfl
    · rw [if_neg (List.cons_ne_nil _ _)] at hrest
      have hdeliver := ih (getElem?_filled hentry remoteOffset.toNat head) haddr hrest.2 hrest'
        (by rw [hnext, Nat.add_assoc]; exact hfit) hsize
      rw [hdeliver, hnext, filled, filled, filled, List.set_set, store_append]

/-- Consecutive writes that were delivered have fitted the entry. -/
theorem fits_of_deliver {remote : RemoteRegion} {immData : Option UInt32} {remoteOffset : UInt64}
    {buffer' : AudioBounceBuffer} (hentry : buffer.entries[i]? = some entry) (hi : i < 2 ^ 64)
    (haddr : remote.addr = entry.data) (hrkey : remote.rkey = UInt64.ofNat i)
    (hwrites : Consecutive remote immData remoteOffset writes)
    (hgather : gatherRegions memory (writes.flatMap RmaWrite.msgIov) = some values)
    (hdeliver : deliver memory buffer writes = some buffer') :
    remoteOffset.toNat + values.length ≤ buffer.entrySize.toNat := by
  have hsize := buffer.entrySize.toNat_lt
  induction writes generalizing buffer entry remoteOffset values with
  | nil => exact hwrites.elim
  | cons write writes ih =>
    obtain ⟨hiov, hrest⟩ := hwrites
    obtain ⟨head, hhead, rest, hrest', rfl⟩ := gatherRegions_append.mp hgather
    have haddr' : write.rmaIov.addr = entry.data + remoteOffset := by rw [hiov, haddr]
    have hplace := @place_eq_ite buffer i entry head hentry hi write remoteOffset haddr'
      (by rw [hiov, hrkey])
    rw [deliver, hhead, Option.bind_eq_bind, Option.bind_some, hplace] at hdeliver
    by_cases hfit : remoteOffset.toNat + head.length ≤ buffer.entrySize.toNat
    · rw [if_pos hfit, Option.bind_eq_bind, Option.bind_some] at hdeliver
      have hnext := @toNat_nextOffset memory remoteOffset write.msgIov head hhead (by omega)
      rw [List.length_append]
      rcases writes with _ | ⟨next, writes⟩
      · obtain rfl : [] = rest := Option.some.inj hrest'
        exact hfit
      · rw [if_neg (List.cons_ne_nil _ _)] at hrest
        have hlater := ih (getElem?_filled hentry remoteOffset.toNat head) haddr hrest.2 hrest'
          hdeliver hsize
        rw [hnext, Nat.add_assoc] at hlater
        exact hlater
    · rw [if_neg hfit] at hdeliver
      cases hdeliver

/-- What was delivered was gathered. -/
theorem gather_of_deliver {buffer' : AudioBounceBuffer}
    (h : deliver memory buffer writes = some buffer') :
    ∃ values, gatherRegions memory (writes.flatMap RmaWrite.msgIov) = some values := by
  induction writes generalizing buffer with
  | nil => exact ⟨[], rfl⟩
  | cons write writes ih =>
    simp only [deliver, Option.bind_eq_bind, Option.bind_eq_some_iff] at h
    obtain ⟨head, hhead, next, -, hrest⟩ := h
    obtain ⟨rest, hrest⟩ := ih hrest
    exact ⟨_, gatherRegions_append.mpr ⟨head, hhead, rest, hrest, rfl⟩⟩

end Deliver

/-! ### The transfer -/

section Transfer

variable {proto : RMASampleEgressProtocol} {samples outRegion : MemoryBlock}
  {buffer : AudioBounceBuffer} {iovLimit headIndex count : UInt64}

/-- The header's region, and at most two for every channel. -/
theorem length_transferGroup_lt : (proto.transferGroup headIndex count).length < 2 ^ 64 := by
  have hmapped := proto.layout.mapped
  have hle := Nat.le_mul_of_pos_right proto.layout.channelCount.toNat
    (Nat.mul_pos proto.layout.sampleSize_pos proto.layout.bufferLength_pos)
  have hpieces : ∀ fragment, (fragmentPieces (proto.layout.slices headIndex count
      proto.localRegion.addr) fragment).length ≤ proto.layout.channelCount.toNat := by
    intro fragment
    unfold fragmentPieces
    split_ifs
    · exact ((List.length_map _).trans List.length_range).le
    · exact Nat.zero_le _
  have hlength : (proto.transferGroup headIndex count).length = _ :=
    (congrArg (· + 1) (List.length_map _)).trans (congrArg (· + 1) List.length_append)
  have hfirst := hpieces (proto.layout.slices headIndex count proto.localRegion.addr).fragment0
  have hsecond := hpieces (proto.layout.slices headIndex count proto.localRegion.addr).fragment1
  omega

theorem getLast?_of_consecutive {remote : RemoteRegion} {immData : Option UInt32}
    {remoteOffset : UInt64} {writes : List RmaWrite}
    (h : Consecutive remote immData remoteOffset writes) :
    ∃ write, writes.getLast? = some write ∧ write.immData = immData := by
  induction writes generalizing remoteOffset with
  | nil => exact h.elim
  | cons write writes ih =>
    obtain ⟨-, hrest⟩ := h
    rcases writes with _ | ⟨next, writes⟩
    · exact ⟨write, rfl, hrest⟩
    · rw [if_neg (List.cons_ne_nil _ _)] at hrest
      rw [List.getLast?_cons_cons]
      exact ih hrest.2

/-- What `transferSamples` does with a range that it accepts. -/
theorem transferSamples_accepted (hzero : count ≠ 0)
    (hsize : ¬ RMASampleEgressProtocol.entrySizeRequired proto.layout count > proto.entrySize) :
    proto.transferSamples iovLimit headIndex count =
      match Endpoint.writeGroup iovLimit (proto.transferGroup headIndex count) proto.remoteEntry
          (some proto.bounceBufferEntryIndex) with
      | (writes, .error exception) => (writes, .error exception, proto.setEntryHeader ⟨headIndex, count⟩)
      | (writes, .ok ()) => (writes, .ok (), (proto.setEntryHeader ⟨headIndex, count⟩).nextEntry
          (Endpoint.nbWrites iovLimit (proto.transferGroup headIndex count))) := by
  rw [RMASampleEgressProtocol.transferSamples, if_neg hzero, if_neg hsize]
  rfl

/-- What `transferSamples` does with a range that fits the entry. -/
theorem transferSamples_eq (hpos : 0 < count.toNat)
    (hcount : count.toNat ≤ proto.layout.bufferLength.toNat)
    (hfit : 16 + proto.layout.channelCount.toNat * (proto.layout.sampleSize.toNat * count.toNat) ≤
      proto.entrySize.toNat) :
    proto.transferSamples iovLimit headIndex count =
      match Endpoint.writeGroup iovLimit (proto.transferGroup headIndex count) proto.remoteEntry
          (some proto.bounceBufferEntryIndex) with
      | (writes, .error exception) => (writes, .error exception, proto.setEntryHeader ⟨headIndex, count⟩)
      | (writes, .ok ()) => (writes, .ok (), (proto.setEntryHeader ⟨headIndex, count⟩).nextEntry
          (Endpoint.nbWrites iovLimit (proto.transferGroup headIndex count))) := by
  have hne : count ≠ 0 := by
    rintro rfl
    exact absurd hpos (by simp)
  have hsize : ¬ RMASampleEgressProtocol.entrySizeRequired proto.layout count > proto.entrySize := by
    rw [gt_iff_lt, UInt64.not_lt, UInt64.le_iff_toNat_le,
      RMASampleEgressProtocol.toNat_entrySizeRequired proto.layout hcount]
    exact hfit
  exact transferSamples_accepted hne hsize

/-- A range whose fragments lay out a window is posted as a whole, and its bytes
    are the header and the pieces of the window. -/
theorem transferSamples_window (hproto : proto.Registered samples)
    (hbuffer : proto.ConnectedTo buffer) (hpos : 0 < count.toNat)
    (hcount : count.toNat ≤ proto.layout.bufferLength.toNat)
    (hfit : 16 + proto.layout.channelCount.toNat * (proto.layout.sampleSize.toNat * count.toNat) ≤
      proto.entrySize.toNat)
    (hlimit : 0 < iovLimit.toNat)
    (hwrap : (proto.transferGroup headIndex count).length + iovLimit.toNat ≤ 2 ^ 64)
    (hwindow : LaysOutWindow proto.layout headIndex count) :
    ∃ writes values, proto.transferSamples iovLimit headIndex count =
        (writes, .ok (), (proto.setEntryHeader ⟨headIndex, count⟩).nextEntry
          (Endpoint.nbWrites iovLimit (proto.transferGroup headIndex count))) ∧
      Consecutive proto.remoteEntry (some proto.bounceBufferEntryIndex) 0 writes ∧
      writes.flatMap RmaWrite.msgIov = proto.transferGroup headIndex count ∧
      gatherRegions ((proto.setEntryHeader ⟨headIndex, count⟩).memory samples)
        (proto.transferGroup headIndex count) = some values ∧
      values = (⟨headIndex, count⟩ : AudioEntryHeader).bytes ++ gather samples.bytes
        ((channelPieces (proto.layout.slices headIndex count samples.base)).map
          (BufferSlice.piece samples)) ∧
      values.length = 16 + proto.layout.channelCount.toNat *
        (proto.layout.sampleSize.toNat * count.toNat) := by
  obtain ⟨hfits, htotal, -⟩ := channelPieces_window samples hcount hwindow
  have hvalues := (RMASampleEgressProtocol.gatherRegions_transferGroup hproto
    ⟨headIndex, count⟩).mpr ⟨by rw [hproto.samples_size]; exact hfits, rfl⟩
  have hlength : (AudioEntryHeader.bytes ⟨headIndex, count⟩ ++ gather samples.bytes
      ((channelPieces (proto.layout.slices headIndex count samples.base)).map
        (BufferSlice.piece samples))).length = 16 + proto.layout.channelCount.toNat *
          (proto.layout.sampleSize.toNat * count.toNat) := by
    rw [List.length_append, AudioEntryHeader.length_bytes, length_gather, htotal]
  obtain ⟨entry, -, hremote⟩ := RMASampleEgressProtocol.exists_entry hbuffer
  have hbytes : totalBytes (proto.transferGroup headIndex count) ≤ proto.remoteEntry.len.toNat := by
    rw [← length_gatherRegions hvalues, hlength, hremote, hbuffer.entrySize]
    exact hfit
  obtain ⟨writes, hwrites, hconsecutive, hflat⟩ := Endpoint.writeGroup_fit hlimit hwrap
    (List.cons_ne_nil _ _) hbytes
  refine ⟨writes, _, ?_, hconsecutive, hflat, hvalues, rfl, hlength⟩
  rw [transferSamples_eq hpos hcount hfit, hwrites]

/-- Such a range is delivered and unpacked. -/
theorem transferOnce_eq (hproto : proto.Registered samples) (hbuffer : proto.ConnectedTo buffer)
    (hring : outRegion.size = proto.layout.byteSize) (hpos : 0 < count.toNat)
    (hcount : count.toNat ≤ proto.layout.bufferLength.toNat)
    (hfit : 16 + proto.layout.channelCount.toNat * (proto.layout.sampleSize.toNat * count.toNat) ≤
      proto.entrySize.toNat)
    (hlimit : 0 < iovLimit.toNat)
    (hwrap : (proto.transferGroup headIndex count).length + iovLimit.toNat ≤ 2 ^ 64)
    (hwindow : LaysOutWindow proto.layout headIndex count) :
    ∃ bytes, transferOnce proto samples buffer outRegion iovLimit headIndex count =
        some (⟨headIndex, count⟩, { outRegion with bytes := bytes }) ∧
      Copied (proto.layout.InWindow
        (startOffset proto.layout.bufferLength headIndex count).toNat count.toNat)
        samples.bytes outRegion.bytes bytes := by
  obtain ⟨writes, values, hsend, hconsecutive, hflat, hgather, hvalues, hlength⟩ :=
    transferSamples_window hproto hbuffer hpos hcount hfit hlimit hwrap hwindow
  obtain ⟨entry, hentry, hremote⟩ := RMASampleEgressProtocol.exists_entry hbuffer
  obtain ⟨last, hlast, himm⟩ := getLast?_of_consecutive hconsecutive
  have hindex := proto.bounceBufferEntryIndex.toNat_lt
  have hgather' : gatherRegions ((proto.setEntryHeader ⟨headIndex, count⟩).memory samples)
      (writes.flatMap RmaWrite.msgIov) = _ := hflat ▸ hgather
  have hdeliver := deliver_consecutive hentry (by omega) (by rw [hremote])
    (by rw [hremote]) hconsecutive hgather'
    (by rw [hlength, UInt64.toNat_zero, Nat.zero_add, hbuffer.entrySize]; exact hfit)
  -- the target finds the header and the samples in the entry
  have hload := load_store entry.bytes 0 values
  rw [hlength] at hload
  rw [pieces_eq hcount samples outRegion] at hvalues
  have hlayout : (filled buffer proto.bounceBufferEntryIndex.toNat entry 0 values).layout =
      proto.layout := hbuffer.layout
  obtain ⟨bytes, hunpack, hcopied⟩ := AudioBounceBuffer.unpack_eq hlayout
    (getElem?_filled hentry 0 values) outRegion hring ⟨headIndex, count⟩ hcount hwindow
    (hfit.trans_eq (congrArg UInt64.toNat hbuffer.entrySize.symm)) (hload.trans hvalues)
  refine ⟨bytes, ?_, hcopied⟩
  have hdeliver' : deliver (((proto.setEntryHeader ⟨headIndex, count⟩).nextEntry
      (Endpoint.nbWrites iovLimit (proto.transferGroup headIndex count))).memory samples) buffer
        writes = _ := hdeliver
  simp only [transferOnce, hsend, hdeliver', hlast, himm, Option.bind_eq_bind, Option.bind_some]
  rw [UInt64.toNat_zero, hunpack]
  rfl

/-- What the target has read was posted as a whole, in a number of writes that was
    counted without wrapping, and comes from pieces inside the rings. -/
theorem of_transferOnce_eq_some (hproto : proto.Registered samples) (hpos : 0 < count.toNat)
    (hcount : count.toNat ≤ proto.layout.bufferLength.toNat)
    (hfit : 16 + proto.layout.channelCount.toNat * (proto.layout.sampleSize.toNat * count.toNat) ≤
      proto.entrySize.toNat)
    (hlimit : 0 < iovLimit.toNat) {result : AudioEntryHeader × MemoryBlock}
    (h : transferOnce proto samples buffer outRegion iovLimit headIndex count = some result) :
    (proto.transferGroup headIndex count).length + iovLimit.toNat ≤ 2 ^ 64 ∧
      LaysOutWindow proto.layout headIndex count := by
  have hwrites : ∃ outcome after, proto.transferSamples iovLimit headIndex count =
      ((Endpoint.writeGroup iovLimit (proto.transferGroup headIndex count) proto.remoteEntry
        (some proto.bounceBufferEntryIndex)).1, outcome, after) ∧
        after.memory samples = (proto.setEntryHeader ⟨headIndex, count⟩).memory samples := by
    rw [transferSamples_eq hpos hcount hfit]
    rcases Endpoint.writeGroup iovLimit (proto.transferGroup headIndex count) proto.remoteEntry
      (some proto.bounceBufferEntryIndex) with ⟨writes, _ | _⟩
    · exact ⟨_, _, rfl, rfl⟩
    · exact ⟨_, _, rfl, rfl⟩
  obtain ⟨outcome, after, hsend, hmemory⟩ := hwrites
  simp only [transferOnce, hsend, hmemory, Option.bind_eq_bind, Option.bind_eq_some_iff] at h
  obtain ⟨buffer', hdeliver, last, hlast, immData, himm, -⟩ := h
  have hlimit' : (proto.transferGroup headIndex count).length + iovLimit.toNat ≤ 2 ^ 64 := by
    by_contra hwrap
    rw [Endpoint.writeGroup_of_wrap length_transferGroup_lt hlimit (by omega)] at hlast
    cases hlast
  refine ⟨hlimit', ?_⟩
  have hposted := Endpoint.writeGroup_posted hlimit hlimit'
    ⟨last, List.mem_of_getLast? hlast, by rw [himm]; exact Option.some_ne_none _⟩
  obtain ⟨values, hgather⟩ := gather_of_deliver hdeliver
  rw [hposted] at hgather
  have hfits := ((RMASampleEgressProtocol.gatherRegions_transferGroup hproto _).mp hgather).1
  rw [hproto.samples_size] at hfits
  exact laysOutWindow_of_fits samples hpos hcount hfits

theorem registered_withBytes (hproto : proto.Registered samples) (bytes : Nat → UInt8) :
    proto.Registered { samples with bytes := bytes } :=
  ⟨hproto.localAddr, hproto.localDesc, hproto.samples_size, hproto.entryCount_lt,
    hproto.headerRegion⟩

/-- Cells that were copied tell where they were copied from. -/
theorem copied_unique {P Q : Nat → Prop} {after : Nat → UInt8}
    (hP : Copied P (fun _ => 1) (fun _ => 0) after) (hQ : Copied Q (fun _ => 1) (fun _ => 0) after)
    (a : Nat) : P a ↔ Q a := by
  have hne : (1 : UInt8) ≠ 0 := by decide
  constructor
  · intro ha
    by_contra hna
    exact hne ((hP.inside a ha).symm.trans (hQ.outside a hna))
  · intro ha
    by_contra hna
    exact hne ((hQ.inside a ha).symm.trans (hP.outside a hna))

theorem of_roundTrips (hproto : proto.Registered samples) (hbuffer : proto.ConnectedTo buffer)
    (hring : outRegion.size = proto.layout.byteSize) (hpos : 0 < count.toNat)
    (hcount : count.toNat ≤ proto.layout.bufferLength.toNat)
    (hfit : 16 + proto.layout.channelCount.toNat * (proto.layout.sampleSize.toNat * count.toNat) ≤
      proto.entrySize.toNat)
    (hlimit : 0 < iovLimit.toNat)
    (h : RoundTrips proto samples buffer outRegion iovLimit headIndex count) :
    WrapsUnnoticed proto.layout.bufferLength.toNat headIndex.toNat count.toNat ∧
      (proto.transferGroup headIndex count).length + iovLimit.toNat ≤ 2 ^ 64 := by
  -- rings of ones are copied to rings of zeros
  have hones := registered_withBytes hproto fun _ => 1
  obtain ⟨bytes, htransfer, hcopied⟩ := h (fun _ => 1) (fun _ => 0)
  obtain ⟨hlimit', hwindow⟩ := of_transferOnce_eq_some hones hpos hcount hfit hlimit htransfer
  have hring' : ({ outRegion with bytes := fun _ => 0 } : MemoryBlock).size =
      proto.layout.byteSize := hring
  obtain ⟨bytes', htransfer', hcopied'⟩ :=
    transferOnce_eq hones hbuffer hring' hpos hcount hfit hlimit hlimit' hwindow
  obtain rfl : bytes = bytes' := by
    have hresult := Option.some.inj (htransfer.symm.trans htransfer')
    exact congrArg (fun result : AudioEntryHeader × MemoryBlock => result.2.bytes) hresult
  exact ⟨(inWindow_iff_inRange hpos hcount).mp (copied_unique hcopied' hcopied), hlimit'⟩

/-- **From ring to ring.**  For every layout, head index, range of at most a ring's
    length that fits an entry, and limit on the regions of a write: whatever the
    rings hold, the range arrives where it belongs in every channel and nothing else
    changes, exactly when the sum `headIndex + bufferLength - count` does not wrap,
    or wraps unnoticed, and the number of regions and the limit add up to at most
    `2 ^ 64`. -/
theorem roundTrips_iff (hproto : proto.Registered samples) (hbuffer : proto.ConnectedTo buffer)
    (hring : outRegion.size = proto.layout.byteSize) (hpos : 0 < count.toNat)
    (hcount : count.toNat ≤ proto.layout.bufferLength.toNat)
    (hfit : 16 + proto.layout.channelCount.toNat * (proto.layout.sampleSize.toNat * count.toNat) ≤
      proto.entrySize.toNat)
    (hlimit : 0 < iovLimit.toNat) :
    RoundTrips proto samples buffer outRegion iovLimit headIndex count ↔
      WrapsUnnoticed proto.layout.bufferLength.toNat headIndex.toNat count.toNat ∧
        (proto.transferGroup headIndex count).length + iovLimit.toNat ≤ 2 ^ 64 := by
  constructor
  · exact of_roundTrips hproto hbuffer hring hpos hcount hfit hlimit
  · rintro ⟨hwrap, hlimit'⟩ source target
    have hring' : ({ outRegion with bytes := target } : MemoryBlock).size =
        proto.layout.byteSize := hring
    obtain ⟨bytes, htransfer, hcopied⟩ := transferOnce_eq (registered_withBytes hproto source)
      hbuffer hring' hpos hcount hfit hlimit hlimit' (laysOutWindow_of_wrapsUnnoticed hpos hcount hwrap)
    exact ⟨bytes, htransfer, hcopied.congr ((inWindow_iff_inRange hpos hcount).mpr hwrap)⟩

end Transfer

/-! ### Two channels of three samples -/

def twoChannels : ContinuousDataLayout where
  sampleSize := 4
  channelCount := 2
  bufferLength := 3
  sampleSize_pos := Nat.succ_pos 3
  channelCount_pos := Nat.two_pos
  bufferLength_pos := Nat.succ_pos 2
  mapped := by decide

/-- One entry for two samples of either channel. -/
def oneEntry : RMASampleEgressProtocol where
  layout := twoChannels
  localRegion := { addr := 4096, len := 24, desc := 0 }
  remoteRegions := [{ addr := 65536, len := 32, rkey := 0 }]
  entrySize := 32
  entryHeaders := [⟨0, 0⟩]
  entryHeaderRegions := [{ addr := 8192, len := 16, desc := 1 }]
  bounceBufferEntryIndex := 0
  bounceBufferEntryCount := 1
  pending := 0
  entryHeaders_length := rfl
  entryHeaderRegions_length := rfl
  entryIndex_lt := Nat.one_pos
  remoteRegions_pos := Nat.one_pos

def rings (base : UInt64) : MemoryBlock := { base := base, size := 24, bytes := fun _ => 0 }

def oneEntryBuffer : AudioBounceBuffer :=
  { entries := [{ data := 65536, bytes := fun _ => 0 }], entrySize := 32, layout := twoChannels }

theorem oneEntry_registered : oneEntry.Registered (rings 4096) := by
  refine ⟨rfl, rfl, rfl, by decide, fun i region hregion => ?_⟩
  obtain ⟨hi, rfl⟩ := List.getElem?_eq_some_iff.mp hregion
  obtain rfl : i = 0 := Nat.lt_one_iff.mp hi
  exact ⟨rfl, rfl⟩

theorem oneEntry_connectedTo : oneEntry.ConnectedTo oneEntryBuffer := by
  refine ⟨rfl, rfl, rfl, fun i entry hentry => ?_, Nat.le_refl 1⟩
  obtain ⟨hi, rfl⟩ := List.getElem?_eq_some_iff.mp hentry
  obtain rfl : i = 0 := Nat.lt_one_iff.mp hi
  rfl

/-- The two samples up to head index 4 are sent in five regions, three at a time:
    they wrap around the end of the ring. -/
theorem roundTrips_wrapped :
    RoundTrips oneEntry (rings 4096) oneEntryBuffer (rings 12288) 3 4 2 := by
  apply (roundTrips_iff oneEntry_registered oneEntry_connectedTo rfl (by decide) (by decide)
    (by decide) (by decide)).mpr
  exact ⟨wrapsUnnoticed_of_lt (by decide), by decide⟩

/-- At the last head index the sum wraps: the sample sent is the one in slot 1,
    not the one in slot 2. -/
theorem last_head_shifted :
    ¬ RoundTrips oneEntry (rings 4096) oneEntryBuffer (rings 12288) 3
      18446744073709551615 1 := by
  intro h
  obtain ⟨hwrap, -⟩ := of_roundTrips oneEntry_registered oneEntry_connectedTo rfl (by decide)
    (by decide) (by decide) (by decide) h
  exact absurd hwrap (by decide)

end MediaExchange.SampleRoundTrip
