/-
  MediaExchange/SampleTransfer.lean
  =================================
  **Samples on their way from an initiator to a target** (`ProtocolEgressRMA.cpp`,
  `ProtocolIngressRMA.cpp`, `AudioBounceBuffer.cpp`).

  One initiator sends to one target.  The calls of `transferSamples` take the
  entries of the bounce buffer, and the header slots that go with them, in turn and
  do not wait for anything: not for the write that still has to read a slot, and
  not for the target to read an entry.  The fabric carries the writes out in order;
  it may read a write's regions long before it places the bytes.

  Main result: `reads_are_transfers`.  The reads return the transfers, in order and
  with their samples, in every run in which no transfer takes a header slot that is
  still to be read and no write goes to an entry whose completion is unread.
-/
import MediaExchange.SampleRoundTrip
import MediaExchange.Library.LabelledRun

namespace MediaExchange

open MediaExchange.ByteMemory

/-! ### Setting up -/

/-- `RMASampleIngressProtocol::makeAudioBounceBuffer`, with the addresses of the
    entries; there is none if the size of an entry comes out as zero. -/
def makeAudioBounceBuffer (layout : ContinuousDataLayout) (maxSyncBatchSize : UInt32)
    (data : Nat → UInt64) : Option AudioBounceBuffer :=
  let oneSampleSize := layout.sampleSize * layout.channelCount
  let entrySize := oneSampleSize * maxSyncBatchSize.toUInt64
  let historySize := layout.bufferLength * oneSampleSize
  if entrySize = 0 then none
  else
    let entryCount := (historySize + entrySize - 1) / entrySize
    -- the constructor of an entry takes its size in 32 bits
    some
      { entries := (List.range entryCount.toNat).map fun i => { data := data i, bytes := fun _ => 0 }
        entrySize := 16 + entrySize.toUInt32.toUInt64
        layout := layout }

namespace RMASampleEgressProtocol

def headersNotInitialized : FabricsException :=
  .invalidState "Entry headers buffer are not initialized."

/-- The protocol for a target with this bounce buffer, once its memory is registered.
    The number of entries is passed on in 32 bits. -/
def create (buffer : AudioBounceBuffer) (samples : MemoryBlock) (headerData : Nat → UInt64) :
    Except FabricsException RMASampleEgressProtocol :=
  let count := (UInt64.ofNat buffer.entries.length).toUInt32
  if hpos : 0 < count.toNat then
    .ok
      { layout := buffer.layout
        localRegion :=
          { addr := samples.base, len := UInt64.ofNat buffer.layout.byteSize, desc := 0 }
        remoteRegions := buffer.entries.mapIdx fun i entry =>
          { addr := entry.data, len := buffer.entrySize, rkey := UInt64.ofNat i }
        entrySize := buffer.entrySize
        entryHeaders := List.replicate count.toNat { headIndex := 0, count := 0 }
        entryHeaderRegions := (List.range count.toNat).map fun i =>
          { addr := headerData i, len := 16, desc := UInt64.ofNat (i + 1) }
        bounceBufferEntryIndex := 0
        bounceBufferEntryCount := count.toUInt64
        pending := 0
        entryHeaders_length := by rw [List.length_replicate, UInt32.toNat_toUInt64]
        entryHeaderRegions_length := by
          rw [List.length_map, List.length_range, UInt32.toNat_toUInt64]
        entryIndex_lt := by rw [UInt32.toNat_toUInt64]; exact hpos
        remoteRegions_pos := by
          rw [List.length_mapIdx]
          apply Nat.pos_of_ne_zero
          intro hzero
          exact absurd hpos (by simp [count, hzero]) }
  else .error headersNotInitialized

end RMASampleEgressProtocol

namespace SampleTransfer

open MediaExchange.LabelledRun MediaExchange.SampleRoundTrip

/-! ### The system -/

/-- A successful call of `transferSamples`: the header, the entry it took, and what
    the rings held at that time. -/
structure Transfer where
  header : AudioEntryHeader
  entry : UInt32
  samples : Nat → UInt8

/-- A posted write of a transfer, and what its regions held when it was posted. -/
structure Packet where
  transfer : Transfer
  write : RmaWrite
  values : List UInt8

/-- What a read returned for the completion of a transfer: the header and the rings
    afterwards, or nothing if `unpack` failed. -/
structure SampleRead where
  transfer : Transfer
  result : Option (AudioEntryHeader × (Nat → UInt8))

structure System where
  proto : RMASampleEgressProtocol
  samples : MemoryBlock
  /-- Posted, the regions not read yet, oldest first. -/
  posted : List Packet
  /-- Read by the fabric, not placed yet, oldest first. -/
  carried : List (Packet × List UInt8)
  buffer : AudioBounceBuffer
  /-- The immediate data of the completions not read yet, oldest first. -/
  completions : List (UInt32 × Transfer)
  outRegion : MemoryBlock
  transfers : List Transfer
  reads : List SampleRead

inductive Action where
  | produce (address : Nat) (value : UInt8)
  | transferSamples (headIndex count : UInt64)
  | gather
  | place
  | read

def System.init (proto : RMASampleEgressProtocol) (samples : MemoryBlock)
    (buffer : AudioBounceBuffer) (outRegion : MemoryBlock) : System where
  proto := proto
  samples := samples
  posted := []
  carried := []
  buffer := buffer
  completions := []
  outRegion := outRegion
  transfers := []
  reads := []

/-- The writes of a transfer, with what the fabric would read now. -/
def packets (memory : UInt64 → Option MemoryBlock) (transfer : Transfer)
    (writes : List RmaWrite) : List Packet :=
  writes.map fun write =>
    { transfer := transfer, write := write, values := (gatherRegions memory write.msgIov).getD [] }

def step (iovLimit : UInt64) (s : System) : Action → Option System
  | .produce address value =>
      some { s with samples := { s.samples with
        bytes := Function.update s.samples.bytes address value } }
  | .transferSamples headIndex count =>
      let transfer : Transfer :=
        { header := { headIndex := headIndex, count := count }
          entry := s.proto.bounceBufferEntryIndex
          samples := s.samples.bytes }
      let (writes, result, proto) := s.proto.transferSamples iovLimit headIndex count
      let posted := s.posted ++ packets (proto.memory s.samples) transfer writes
      match result with
      | .ok () => some { s with proto := proto, posted := posted,
                                transfers := s.transfers ++ [transfer] }
      | .error _ => some { s with proto := proto, posted := posted }
  | .gather =>
      match s.posted with
      | [] => none
      | packet :: posted =>
          match gatherRegions (s.proto.memory s.samples) packet.write.msgIov with
          | none => none
          | some values =>
              some { s with posted := posted, carried := s.carried ++ [(packet, values)] }
  | .place =>
      match s.carried with
      | [] => none
      | (packet, values) :: carried =>
          match s.buffer.place packet.write values, packet.write.immData with
          | none, _ => none
          | some buffer, none => some { s with carried := carried, buffer := buffer }
          | some buffer, some immData =>
              some { s with carried := carried, buffer := buffer,
                            completions := s.completions ++ [(immData, packet.transfer)] }
  | .read =>
      match s.completions with
      | [] => none
      | (immData, transfer) :: completions =>
          match s.buffer.unpack immData.toNat s.outRegion with
          | some (.ok (header, outRegion)) =>
              some { s with completions := completions, outRegion := outRegion,
                            reads := s.reads ++ [⟨transfer, some (header, outRegion.bytes)⟩] }
          | _ => some { s with completions := completions,
                               reads := s.reads ++ [⟨transfer, none⟩] }

/-! ### How it is used -/

/-- A byte that a posted write still has to read. -/
def System.StillToRead (s : System) (address : Nat) : Prop :=
  ∃ packet ∈ s.posted, ∃ region ∈ packet.write.msgIov, region.desc = 0 ∧
    (BufferSlice.piece s.samples ⟨region.addr, region.len⟩).Holds address

/-- The rings are not overwritten where a posted write still has to read, a transfer
    is of one sample to a ring's length, and the provider's limit leaves room for
    the number of regions. -/
def Usage (iovLimit : UInt64) (s : System) : Action → Prop
  | .produce address _ => ¬ s.StillToRead address
  | .transferSamples headIndex count =>
      0 < count.toNat ∧ count.toNat ≤ s.proto.layout.bufferLength.toNat ∧
        (s.proto.transferGroup headIndex count).length + iovLimit.toNat ≤ 2 ^ 64
  | _ => True

/-- No posted write still has to read the header slot that the next transfer takes. -/
def System.SlotFree (s : System) : Prop :=
  ∀ packet ∈ s.posted, ∀ region ∈ packet.write.msgIov,
    region.desc ≠ UInt64.ofNat (s.proto.bounceBufferEntryIndex.toNat + 1)

/-- No completion of the entry that the next write goes to is unread. -/
def System.EntryRead (s : System) : Prop :=
  ∀ packet ∈ s.carried.head?.map Prod.fst, ∀ completion ∈ s.completions,
    completion.1.toNat ≠ packet.write.rmaIov.rkey.toNat

/-- Nothing is overwritten that is still needed, and the start offset of a range is
    its own. -/
def Spared (s : System) : Action → Prop
  | .transferSamples headIndex count => s.SlotFree ∧
      WrapsUnnoticed s.proto.layout.bufferLength.toNat headIndex.toNat count.toNat
  | .place => s.EntryRead
  | _ => True

instance (s : System) (address : Nat) : Decidable (s.StillToRead address) :=
  inferInstanceAs (Decidable (∃ packet ∈ s.posted, ∃ region ∈ packet.write.msgIov,
    region.desc = 0 ∧ (BufferSlice.piece s.samples ⟨region.addr, region.len⟩).Holds address))

instance (s : System) : Decidable s.SlotFree :=
  inferInstanceAs (Decidable (∀ packet ∈ s.posted, ∀ region ∈ packet.write.msgIov, _))

instance (s : System) : Decidable s.EntryRead :=
  inferInstanceAs (Decidable (∀ packet ∈ s.carried.head?.map Prod.fst,
    ∀ completion ∈ s.completions, _))

instance (iovLimit : UInt64) (s : System) : (action : Action) → Decidable (Usage iovLimit s action)
  | .produce _ _ => inferInstanceAs (Decidable (¬ _))
  | .transferSamples _ _ => inferInstanceAs (Decidable (_ ∧ _))
  | .gather | .place | .read => isTrue trivial

instance (s : System) : (action : Action) → Decidable (Spared s action)
  | .transferSamples _ _ => inferInstanceAs (Decidable (_ ∧ _))
  | .place => inferInstanceAs (Decidable s.EntryRead)
  | .produce _ _ | .gather | .read => isTrue trivial

/-- The samples transferred but not yet read. -/
def System.lag (s : System) : Nat :=
  ((s.transfers.drop s.reads.length).map fun transfer => transfer.header.count.toNat).sum

/-! ### What is to hold -/

/-- The transfers whose last write is among the packets. -/
def inFlight (packets : List Packet) : List Transfer :=
  packets.filterMap fun packet => packet.write.immData.map fun _ => packet.transfer

/-- The reads are the first transfers, the others are still unread or in flight, and
    every read returned the header of its transfer and left its samples in the rings. -/
structure Faithful (s : System) : Prop where
  order : s.reads.map SampleRead.transfer ++ s.completions.map Prod.snd ++
    inFlight (s.carried.map Prod.fst ++ s.posted) = s.transfers
  correct : ∀ read ∈ s.reads, ∃ bytes, read.result = some (read.transfer.header, bytes) ∧
    ∀ a, s.proto.layout.InRange read.transfer.header.headIndex read.transfer.header.count a →
      bytes a = read.transfer.samples a

/-! ### The bytes of a transfer -/

/-- The pieces of a range, in rings at any place. -/
def rangePieces (layout : ContinuousDataLayout) (header : AudioEntryHeader) : List Piece :=
  (channelPieces (layout.slices header.headIndex header.count 0)).map
    (BufferSlice.piece ⟨0, 0, fun _ => 0⟩)

namespace Transfer

/-- What the entry of a transfer is to hold. -/
def bytes (layout : ContinuousDataLayout) (transfer : Transfer) : List UInt8 :=
  transfer.header.bytes ++ gather transfer.samples (rangePieces layout transfer.header)

/-- A range of at most a ring's length that fits an entry, with a start offset of its
    own. -/
structure Sendable (layout : ContinuousDataLayout) (entrySize : UInt64) (transfer : Transfer) :
    Prop where
  pos : 0 < transfer.header.count.toNat
  le : transfer.header.count.toNat ≤ layout.bufferLength.toNat
  fits : 16 + layout.channelCount.toNat *
    (layout.sampleSize.toNat * transfer.header.count.toNat) ≤ entrySize.toNat
  wraps : WrapsUnnoticed layout.bufferLength.toNat transfer.header.headIndex.toNat
    transfer.header.count.toNat

variable {layout : ContinuousDataLayout} {entrySize : UInt64} {transfer : Transfer}

theorem Sendable.laysOutWindow (h : transfer.Sendable layout entrySize) :
    LaysOutWindow layout transfer.header.headIndex transfer.header.count :=
  laysOutWindow_of_wrapsUnnoticed h.pos h.le h.wraps

theorem Sendable.length_bytes (h : transfer.Sendable layout entrySize) :
    (transfer.bytes layout).length = 16 + layout.channelCount.toNat *
      (layout.sampleSize.toNat * transfer.header.count.toNat) := by
  obtain ⟨-, htotal, -⟩ := channelPieces_window ⟨0, 0, fun _ => 0⟩ h.le h.laysOutWindow
  rw [bytes, List.length_append, AudioEntryHeader.length_bytes, length_gather]
  exact congrArg (16 + ·) htotal

end Transfer

/-- Entry `i` starts with these values. -/
def Holds (buffer : AudioBounceBuffer) (i : Nat) (values : List UInt8) : Prop :=
  ∃ entry, buffer.entries[i]? = some entry ∧ load entry.bytes 0 values.length = values

section Buffer

variable {buffer : AudioBounceBuffer} {i j : Nat} {entry : AudioBounceBufferEntry}
  {landed values : List UInt8}

/-- Storing behind what an entry holds makes it hold both. -/
theorem holds_filled (hentry : buffer.entries[i]? = some entry)
    (hlanded : load entry.bytes 0 landed.length = landed) :
    Holds (filled buffer i entry landed.length values) i (landed ++ values) := by
  refine ⟨_, getElem?_filled hentry _ _, ?_⟩
  have hstore := load_store entry.bytes landed.length values
  rw [List.length_append, load_add, load_store_before (Nat.zero_add _).le, hlanded, Nat.zero_add,
    hstore]

theorem holds_filled_of_ne (hij : i ≠ j) {start : Nat} (h : Holds buffer j values)
    (stored : List UInt8) : Holds (filled buffer i entry start stored) j values := by
  obtain ⟨entry', hentry', hload⟩ := h
  exact ⟨entry', (List.getElem?_set_ne hij).trans hentry', hload⟩

end Buffer

/-! ### The stream of packets -/

/-- The packets in flight make up transfers, one behind the other.  `current` is the
    transfer that is already on its way into its entry, with the bytes that have
    landed there. -/
def Stream (remoteRegions : List RemoteRegion) (layout : ContinuousDataLayout) :
    Option (Transfer × List UInt8) → List Packet → Prop
  | current, [] => current = none
  | current, packet :: packets =>
      (∀ c ∈ current, c.1 = packet.transfer) ∧
      (∃ remote, remoteRegions[packet.transfer.entry.toNat]? = some remote ∧
        packet.write.rmaIov.addr =
          remote.addr + UInt64.ofNat ((current.map Prod.snd).getD []).length ∧
        packet.write.rmaIov.rkey = remote.rkey) ∧
      (current.map Prod.snd).getD [] ++ packet.values <+: packet.transfer.bytes layout ∧
      match packet.write.immData with
      | none => Stream remoteRegions layout
          (some (packet.transfer, (current.map Prod.snd).getD [] ++ packet.values)) packets
      | some immData => immData = packet.transfer.entry ∧
          (current.map Prod.snd).getD [] ++ packet.values = packet.transfer.bytes layout ∧
          Stream remoteRegions layout none packets

section Stream

variable {remoteRegions : List RemoteRegion} {layout : ContinuousDataLayout}
  {current : Option (Transfer × List UInt8)}

theorem Stream.append {xs ys : List Packet} (hxs : Stream remoteRegions layout current xs)
    (hys : Stream remoteRegions layout none ys) :
    Stream remoteRegions layout current (xs ++ ys) := by
  induction xs generalizing current with
  | nil =>
    obtain rfl : current = none := hxs
    exact hys
  | cons packet xs ih =>
    obtain ⟨howner, hremote, hprefix, hrest⟩ := hxs
    refine ⟨howner, hremote, hprefix, ?_⟩
    split at hrest
    · next himm => exact ih hrest
    · next immData himm => exact ⟨hrest.1, hrest.2.1, ih hrest.2.2⟩

/-- The packets of a transfer make up its bytes. -/
theorem stream_packets {memory : UInt64 → Option MemoryBlock} {transfer : Transfer}
    {remote : RemoteRegion} (hremote : remoteRegions[transfer.entry.toNat]? = some remote)
    {writes : List RmaWrite} {landed rest : List UInt8}
    (hwrites : Consecutive remote (some transfer.entry) (UInt64.ofNat landed.length) writes)
    (hgather : gatherRegions memory (writes.flatMap RmaWrite.msgIov) = some rest)
    (hbytes : landed ++ rest = transfer.bytes layout)
    (hlength : (transfer.bytes layout).length < 2 ^ 64)
    (hlanded : (current.map Prod.snd).getD [] = landed)
    (howner : ∀ c ∈ current, c.1 = transfer) :
    Stream remoteRegions layout current (packets memory transfer writes) := by
  induction writes generalizing current landed rest with
  | nil => exact hwrites.elim
  | cons write writes ih =>
    obtain ⟨hiov, himm⟩ := hwrites
    obtain ⟨head, hhead, tail, htail, rfl⟩ := gatherRegions_append.mp hgather
    have hvalues : (gatherRegions memory write.msgIov).getD [] = head := by
      rw [hhead]
      rfl
    have hsize : (landed ++ (head ++ tail)).length < 2 ^ 64 := by
      rw [hbytes]
      exact hlength
    simp only [List.length_append] at hsize
    have hnext : UInt64.ofNat landed.length + byteSize write.msgIov =
        UInt64.ofNat (landed ++ head).length := by
      have hhead' := length_gatherRegions hhead
      have hbyteSize := toNat_byteSize (show totalBytes write.msgIov < 2 ^ 64 by omega)
      rw [← UInt64.toNat_inj, UInt64.toNat_add, UInt64.toNat_ofNat', UInt64.toNat_ofNat',
        hbyteSize, ← hhead', List.length_append, Nat.mod_add_mod]
    rw [packets, List.map_cons]
    refine ⟨howner, ⟨remote, hremote, by rw [hiov, hlanded], by rw [hiov]⟩, ?_, ?_⟩
    · rw [hlanded, hvalues, ← hbytes, ← List.append_assoc]
      exact List.prefix_append _ _
    · rw [hlanded, hvalues]
      rcases writes with _ | ⟨next, writes⟩
      · rw [if_pos rfl] at himm
        obtain rfl : [] = tail := Option.some.inj htail
        rw [List.append_nil] at hbytes
        simp only [himm]
        exact ⟨trivial, hbytes, rfl⟩
      · rw [if_neg (List.cons_ne_nil _ _)] at himm
        rw [hnext] at himm
        simp only [himm.1]
        apply ih himm.2 htail _ rfl
        · rintro c ⟨⟩
          rfl
        · rw [List.append_assoc]
          exact hbytes

theorem inFlight_append (xs ys : List Packet) : inFlight (xs ++ ys) = inFlight xs ++ inFlight ys :=
  List.filterMap_append

/-- A transfer is in flight as long as its last packet is. -/
theorem inFlight_packets {memory : UInt64 → Option MemoryBlock} {transfer : Transfer}
    {remote : RemoteRegion} {immData : UInt32} {remoteOffset : UInt64} {writes : List RmaWrite}
    (h : Consecutive remote (some immData) remoteOffset writes) :
    inFlight (packets memory transfer writes) = [transfer] := by
  induction writes generalizing remoteOffset with
  | nil => exact h.elim
  | cons write writes ih =>
    obtain ⟨-, himm⟩ := h
    rcases writes with _ | ⟨next, writes⟩
    · rw [if_pos rfl] at himm
      simp [packets, inFlight, himm]
    · rw [if_neg (List.cons_ne_nil _ _)] at himm
      have hrest := ih himm.2
      simp only [packets, inFlight] at hrest ⊢
      rw [List.map_cons, List.filterMap_cons_none (by rw [himm.1]; rfl)]
      exact hrest

end Stream

/-! ### The invariant -/

structure Invariant (s : System) : Prop where
  registered : s.proto.Registered s.samples
  connected : s.proto.ConnectedTo s.buffer
  rings : s.outRegion.size = s.proto.layout.byteSize
  stream : ∃ current, Stream s.proto.remoteRegions s.proto.layout current
      (s.carried.map Prod.fst ++ s.posted) ∧
    ∀ c ∈ current, Holds s.buffer c.1.entry.toNat c.2
  sendable : ∀ packet ∈ s.carried.map Prod.fst ++ s.posted,
    packet.transfer.Sendable s.proto.layout s.proto.entrySize
  posted : ∀ packet ∈ s.posted,
    gatherRegions (s.proto.memory s.samples) packet.write.msgIov = some packet.values
  carried : ∀ c ∈ s.carried, c.2 = c.1.values
  completions : ∀ c ∈ s.completions, c.1 = c.2.entry ∧
    c.2.Sendable s.proto.layout s.proto.entrySize ∧
    Holds s.buffer c.2.entry.toNat (c.2.bytes s.proto.layout)
  faithful : Faithful s

theorem invariant_init {proto : RMASampleEgressProtocol} {samples outRegion : MemoryBlock}
    {buffer : AudioBounceBuffer} (hregistered : proto.Registered samples)
    (hconnected : proto.ConnectedTo buffer) (hrings : outRegion.size = proto.layout.byteSize) :
    Invariant (.init proto samples buffer outRegion) := by
  refine ⟨hregistered, hconnected, hrings, ⟨none, rfl, ?_⟩, ?_, ?_, ?_, ?_, rfl, ?_⟩
  · intro c h
    cases h
  · intro packet h
    cases h
  · intro packet h
    cases h
  · intro c h
    cases h
  · intro c h
    cases h
  · intro read h
    cases h

section Steps

variable {iovLimit : UInt64} {s t : System}

/-- A byte that no posted write still has to read may change. -/
theorem invariant_produce (hs : Invariant s) {address : Nat} {value : UInt8}
    (hfree : ¬ s.StillToRead address) :
    Invariant { s with samples := { s.samples with
      bytes := Function.update s.samples.bytes address value } } := by
  refine ⟨registered_withBytes hs.registered _, hs.connected, hs.rings, hs.stream, hs.sendable,
    ?_, hs.carried, hs.completions, hs.faithful.order, hs.faithful.correct⟩
  intro packet hpacket
  rw [← hs.posted packet hpacket]
  apply gatherRegions_congr
  intro region hregion
  by_cases hdesc : region.desc = 0
  · simp only [RMASampleEgressProtocol.memory, if_pos hdesc, Option.bind_some]
    apply MemoryBlock.read_congr
    intro a hle hlt
    apply Function.update_of_ne
    rintro rfl
    exact hfree ⟨packet, hpacket, region, hregion, hdesc, hle, hlt⟩
  · simp only [RMASampleEgressProtocol.memory, if_neg hdesc]

/-- A new header changes what the fabric finds in one slot. -/
theorem memory_setEntryHeader {proto : RMASampleEgressProtocol} {samples : MemoryBlock}
    {header : AudioEntryHeader} {desc : UInt64}
    (h : desc ≠ UInt64.ofNat (proto.bounceBufferEntryIndex.toNat + 1)) :
    (proto.setEntryHeader header).memory samples desc = proto.memory samples desc := by
  by_cases hdesc : desc = 0
  · simp only [RMASampleEgressProtocol.memory, if_pos hdesc]
  · have hne : proto.bounceBufferEntryIndex.toNat ≠ desc.toNat - 1 := by
      intro heq
      apply h
      have hpos : desc.toNat ≠ 0 := fun hzero => hdesc (UInt64.toNat_inj.mp hzero)
      rw [heq, Nat.sub_add_cancel (Nat.pos_of_ne_zero hpos), UInt64.ofNat_toNat]
    simp only [RMASampleEgressProtocol.memory, if_neg hdesc, RMASampleEgressProtocol.setEntryHeader,
      List.getElem?_set_ne hne]

/-- What does not read that slot is gathered as before. -/
theorem gatherRegions_setEntryHeader {proto : RMASampleEgressProtocol} {samples : MemoryBlock}
    {header : AudioEntryHeader} {regions : List LocalRegion}
    (h : ∀ region ∈ regions,
      region.desc ≠ UInt64.ofNat (proto.bounceBufferEntryIndex.toNat + 1)) :
    gatherRegions ((proto.setEntryHeader header).memory samples) regions =
      gatherRegions (proto.memory samples) regions := by
  apply gatherRegions_congr
  intro region hregion
  rw [memory_setEntryHeader (h region hregion)]

/-- A range that does not fit the entry is turned down before anything happens. -/
theorem transferSamples_tooLarge {proto : RMASampleEgressProtocol} {headIndex count : UInt64}
    (hcount : count.toNat ≤ proto.layout.bufferLength.toNat)
    (hfit : ¬ 16 + proto.layout.channelCount.toNat * (proto.layout.sampleSize.toNat * count.toNat) ≤
      proto.entrySize.toNat) (hpos : 0 < count.toNat) :
    ∃ exception, proto.transferSamples iovLimit headIndex count = ([], .error exception, proto) := by
  have hne : count ≠ 0 := by
    rintro rfl
    exact absurd hpos (by simp)
  have hsize : RMASampleEgressProtocol.entrySizeRequired proto.layout count > proto.entrySize := by
    rw [gt_iff_lt, UInt64.lt_iff_toNat_lt,
      RMASampleEgressProtocol.toNat_entrySizeRequired proto.layout hcount]
    exact Nat.lt_of_not_le hfit
  exact ⟨_, by rw [RMASampleEgressProtocol.transferSamples, if_neg hne, if_pos hsize]⟩

/-- A transfer takes a header slot that no posted write still has to read. -/
theorem invariant_transferSamples (hlimit : 0 < iovLimit.toNat) (hs : Invariant s)
    {headIndex count : UInt64} (husage : Usage iovLimit s (.transferSamples headIndex count))
    (hspared : Spared s (.transferSamples headIndex count))
    (h : step iovLimit s (.transferSamples headIndex count) = some t) : Invariant t := by
  obtain ⟨hpos, hcount, hwrap⟩ := husage
  obtain ⟨hfree, hunnoticed⟩ := hspared
  by_cases hfit : 16 + s.proto.layout.channelCount.toNat *
      (s.proto.layout.sampleSize.toNat * count.toNat) ≤ s.proto.entrySize.toNat
  · have hwindow := laysOutWindow_of_wrapsUnnoticed hpos hcount hunnoticed
    obtain ⟨writes, values, hsend, hconsecutive, hflat, hgather, hvalues, hlength⟩ :=
      transferSamples_window hs.registered hs.connected hpos hcount hfit hlimit hwrap hwindow
    simp only [step, hsend] at h
    obtain rfl := Option.some.inj h
    generalize htransfer : ({ header := { headIndex := headIndex, count := count }
                              entry := s.proto.bounceBufferEntryIndex
                              samples := s.samples.bytes } : Transfer) = transfer
    have hsendable : transfer.Sendable s.proto.layout s.proto.entrySize := by
      rw [← htransfer]
      exact ⟨hpos, hcount, hfit, hunnoticed⟩
    have hbytes : transfer.bytes s.proto.layout = values := by
      rw [hvalues, pieces_eq hcount s.samples ⟨0, 0, fun _ => 0⟩, ← htransfer]
      rfl
    have hentry : transfer.entry = s.proto.bounceBufferEntryIndex := by rw [← htransfer]
    have hremote : s.proto.remoteRegions[transfer.entry.toNat]? = some s.proto.remoteEntry := by
      obtain ⟨entry, hentry', hregion⟩ := RMASampleEgressProtocol.exists_entry hs.connected
      rw [hentry, hregion]
      exact hs.connected.remoteRegion _ _ hentry'
    obtain ⟨current, hstream, hcurrent⟩ := hs.stream
    rw [← hflat] at hgather
    rw [← hentry] at hconsecutive
    have hfirst : Consecutive s.proto.remoteEntry (some transfer.entry)
        (UInt64.ofNat ([] : List UInt8).length) writes := hconsecutive
    have hnew : Stream s.proto.remoteRegions s.proto.layout none
        (packets ((s.proto.setEntryHeader ⟨headIndex, count⟩).memory s.samples) transfer writes) :=
      stream_packets hremote hfirst hgather hbytes.symm
        (hsendable.length_bytes.trans_lt (hsendable.fits.trans_lt s.proto.entrySize.toNat_lt)) rfl
        (fun c hc => by cases hc)
    refine ⟨⟨hs.registered.localAddr, hs.registered.localDesc, hs.registered.samples_size,
        hs.registered.entryCount_lt, hs.registered.headerRegion⟩,
      ⟨hs.connected.layout, hs.connected.entrySize, hs.connected.remoteRegions_length,
        hs.connected.remoteRegion, hs.connected.entryCount_le⟩,
      hs.rings, ⟨current, ?_, hcurrent⟩, ?_, ?_, hs.carried, hs.completions, ?_, hs.faithful.correct⟩
    · rw [← List.append_assoc]
      exact hstream.append hnew
    · intro packet hpacket
      rw [← List.append_assoc] at hpacket
      rcases List.mem_append.mp hpacket with hold | hnew
      · exact hs.sendable packet hold
      · obtain ⟨write, -, rfl⟩ := List.mem_map.mp hnew
        exact hsendable
    · intro packet hpacket
      rcases List.mem_append.mp hpacket with hold | hnew
      · rw [← hs.posted packet hold]
        exact gatherRegions_setEntryHeader (hfree packet hold)
      · obtain ⟨write, hwrite, rfl⟩ := List.mem_map.mp hnew
        obtain ⟨head, hhead⟩ := gatherRegions_of_flatMap hgather write hwrite
        have hhead' : gatherRegions (((s.proto.setEntryHeader ⟨headIndex, count⟩).nextEntry
          (Endpoint.nbWrites iovLimit (s.proto.transferGroup headIndex count))).memory s.samples)
            write.msgIov = some head := hhead
        rw [hhead']
        rfl
    · change s.reads.map SampleRead.transfer ++ s.completions.map Prod.snd ++
        inFlight (s.carried.map Prod.fst ++ (s.posted ++ _)) = s.transfers ++ [transfer]
      rw [← List.append_assoc (s.carried.map Prod.fst), inFlight_append,
        inFlight_packets hconsecutive, ← List.append_assoc, hs.faithful.order]
  · obtain ⟨exception, hsend⟩ := @transferSamples_tooLarge iovLimit _ headIndex _ hcount hfit hpos
    simp only [step, hsend, packets, List.map_nil, List.append_nil] at h
    obtain rfl : s = t := Option.some.inj h
    exact hs

/-- The fabric reads what the regions held when the write was posted. -/
theorem invariant_gather (hs : Invariant s) (h : step iovLimit s .gather = some t) :
    Invariant t := by
  rcases hposted : s.posted with _ | ⟨packet, posted⟩
  · simp only [step, hposted] at h
    cases h
  · have hgather := hs.posted packet (by rw [hposted]; exact List.mem_cons_self ..)
    simp only [step, hposted, hgather] at h
    obtain rfl := Option.some.inj h
    have hsame : (s.carried ++ [(packet, packet.values)]).map Prod.fst ++ posted =
        s.carried.map Prod.fst ++ s.posted := by
      rw [hposted, List.map_append, List.append_assoc]
      rfl
    refine ⟨hs.registered, hs.connected, hs.rings, ?_, ?_, ?_, ?_, hs.completions, ?_,
      hs.faithful.correct⟩
    · rw [hsame]
      exact hs.stream
    · rw [hsame]
      exact hs.sendable
    · intro other hmem
      exact hs.posted other (by rw [hposted]; exact List.mem_cons_of_mem _ hmem)
    · intro c hc
      rcases List.mem_append.mp hc with hc | hc
      · exact hs.carried c hc
      · rw [List.mem_singleton.mp hc]
    · rw [hsame]
      exact hs.faithful.order

theorem connectedTo_filled {proto : RMASampleEgressProtocol} {buffer : AudioBounceBuffer}
    (h : proto.ConnectedTo buffer) {i : Nat} {entry : AudioBounceBufferEntry}
    (hentry : buffer.entries[i]? = some entry) (start : Nat) (values : List UInt8) :
    proto.ConnectedTo (filled buffer i entry start values) := by
  have hlength : (filled buffer i entry start values).entries.length = buffer.entries.length :=
    List.length_set
  refine ⟨h.layout, h.entrySize, h.remoteRegions_length.trans hlength.symm, ?_,
    h.entryCount_le.trans_eq hlength.symm⟩
  intro j entry' hentry'
  by_cases hij : i = j
  · subst hij
    rw [getElem?_filled hentry] at hentry'
    obtain rfl := Option.some.inj hentry'
    exact h.remoteRegion i entry hentry
  · exact h.remoteRegion j entry' ((List.getElem?_set_ne hij).symm.trans hentry')

/-- The first packet of the stream goes behind what its entry already holds. -/
theorem place_first (hs : Invariant s) {packet : Packet} {packets : List Packet}
    {current : Option (Transfer × List UInt8)}
    (hstream : Stream s.proto.remoteRegions s.proto.layout current (packet :: packets))
    (hcurrent : ∀ c ∈ current, Holds s.buffer c.1.entry.toNat c.2)
    (hsendable : packet.transfer.Sendable s.proto.layout s.proto.entrySize) :
    ∃ entry, s.buffer.entries[packet.transfer.entry.toNat]? = some entry ∧
      packet.write.rmaIov.rkey.toNat = packet.transfer.entry.toNat ∧
      load entry.bytes 0 ((current.map Prod.snd).getD []).length =
        (current.map Prod.snd).getD [] ∧
      s.buffer.place packet.write packet.values = some (filled s.buffer
        packet.transfer.entry.toNat entry ((current.map Prod.snd).getD []).length packet.values) := by
  obtain ⟨howner, ⟨remote, hremote, haddr, hrkey⟩, hprefix, -⟩ := hstream
  obtain ⟨entry, hentry, hload⟩ : ∃ entry,
      s.buffer.entries[packet.transfer.entry.toNat]? = some entry ∧
        load entry.bytes 0 ((current.map Prod.snd).getD []).length =
          (current.map Prod.snd).getD [] := by
    cases current with
    | none =>
      have hlt := (List.getElem?_eq_some_iff.mp hremote).1
      rw [hs.connected.remoteRegions_length] at hlt
      exact ⟨_, List.getElem?_eq_getElem hlt, rfl⟩
    | some c =>
      rw [← howner c rfl]
      exact hcurrent c rfl
  have hregion := hs.connected.remoteRegion _ entry hentry
  obtain rfl := Option.some.inj (hremote.symm.trans hregion)
  have hindex := packet.transfer.entry.toNat_lt
  have hlength := hprefix.length_le
  have hsize := s.proto.entrySize.toNat_lt
  have hfits := hsendable.fits
  rw [hsendable.length_bytes, List.length_append] at hlength
  have hoffset : (UInt64.ofNat ((current.map Prod.snd).getD []).length).toNat =
      ((current.map Prod.snd).getD []).length := by
    rw [UInt64.toNat_ofNat']
    exact Nat.mod_eq_of_lt (by omega)
  have hplace := @place_eq _ _ entry packet.values hentry (by omega) packet.write _ haddr hrkey
    (by rw [hoffset, hs.connected.entrySize]; omega)
  rw [hoffset] at hplace
  refine ⟨entry, hentry, ?_, hload, hplace⟩
  rw [hrkey, UInt64.toNat_ofNat']
  exact Nat.mod_eq_of_lt (by omega)

/-- A write goes behind what its transfer has already left in the entry, and leaves
    the entries of unread completions alone. -/
theorem invariant_place (hs : Invariant s) (hread : s.EntryRead)
    (h : step iovLimit s .place = some t) : Invariant t := by
  rcases hcarried : s.carried with _ | ⟨⟨packet, values⟩, carried⟩
  · simp only [step, hcarried] at h
    cases h
  · obtain rfl : values = packet.values :=
      hs.carried (packet, values) (by rw [hcarried]; exact List.mem_cons_self ..)
    obtain ⟨current, hall, hcurrent⟩ := hs.stream
    rw [hcarried] at hall
    have hstream : Stream s.proto.remoteRegions s.proto.layout current
        (packet :: (carried.map Prod.fst ++ s.posted)) := hall
    have hsendable : packet.transfer.Sendable s.proto.layout s.proto.entrySize :=
      hs.sendable packet (by rw [hcarried]; exact List.mem_cons_self ..)
    have hrest : ∀ other ∈ carried.map Prod.fst ++ s.posted,
        other.transfer.Sendable s.proto.layout s.proto.entrySize := by
      intro other hmem
      apply hs.sendable other
      rw [hcarried]
      exact List.mem_cons_of_mem _ hmem
    have hcarried' : ∀ c ∈ carried, c.2 = c.1.values := by
      intro c hc
      exact hs.carried c (by rw [hcarried]; exact List.mem_cons_of_mem _ hc)
    obtain ⟨entry, hentry, hrkey, hload, hplace⟩ := place_first hs hstream hcurrent hsendable
    have hconnected := connectedTo_filled hs.connected hentry
      ((current.map Prod.snd).getD []).length packet.values
    have hnow : Holds (filled s.buffer packet.transfer.entry.toNat entry
        ((current.map Prod.snd).getD []).length packet.values) packet.transfer.entry.toNat _ :=
      holds_filled hentry hload
    have hunread : ∀ c ∈ s.completions, Holds (filled s.buffer packet.transfer.entry.toNat entry
        ((current.map Prod.snd).getD []).length packet.values) c.2.entry.toNat
          (c.2.bytes s.proto.layout) := by
      intro c hc
      obtain ⟨hentry', -, hholds⟩ := hs.completions c hc
      have hne := hread packet (by rw [hcarried]; rfl) c hc
      rw [hrkey, hentry'] at hne
      exact holds_filled_of_ne hne.symm hholds _
    have horder := hs.faithful.order
    rw [hcarried] at horder
    obtain ⟨-, -, -, hnext⟩ := hstream
    split at hnext
    · next himm =>
      simp only [step, hcarried, hplace, himm] at h
      obtain rfl := Option.some.inj h
      refine ⟨hs.registered, hconnected, hs.rings, ⟨_, hnext, ?_⟩, hrest, hs.posted, hcarried',
        fun c hc => ⟨(hs.completions c hc).1, (hs.completions c hc).2.1, hunread c hc⟩, ?_,
        hs.faithful.correct⟩
      · rintro c ⟨⟩
        exact hnow
      · rw [← horder, List.map_cons, List.cons_append, inFlight, inFlight,
          List.filterMap_cons_none (by rw [himm]; rfl)]
    · next immData himm =>
      obtain ⟨rfl, hbytes, hnext⟩ := hnext
      rw [hbytes] at hnow
      simp only [step, hcarried, hplace, himm] at h
      obtain rfl := Option.some.inj h
      refine ⟨hs.registered, hconnected, hs.rings, ⟨none, hnext, fun c hc => by cases hc⟩, hrest,
        hs.posted, hcarried', ?_, ?_, hs.faithful.correct⟩
      · intro c hc
        rcases List.mem_append.mp hc with hc | hc
        · exact ⟨(hs.completions c hc).1, (hs.completions c hc).2.1, hunread c hc⟩
        · rw [List.mem_singleton.mp hc]
          exact ⟨rfl, hsendable, hnow⟩
      · rw [← horder, List.map_cons, List.cons_append, inFlight, inFlight,
          List.filterMap_cons_some (by rw [himm]; rfl), List.map_append, ← List.append_assoc,
          List.append_assoc _ _ (List.filterMap _ _)]
        rfl

theorem invariant_read (hs : Invariant s) (h : step iovLimit s .read = some t) : Invariant t := by
  rcases hcompletions : s.completions with _ | ⟨⟨immData, transfer⟩, completions⟩
  · simp only [step, hcompletions] at h
    cases h
  · obtain ⟨himm, hsendable, entry, hentry, hload⟩ :=
      hs.completions (immData, transfer) (by rw [hcompletions]; exact List.mem_cons_self ..)
    rw [hsendable.length_bytes] at hload
    have hload' : load entry.bytes 0 (16 + s.proto.layout.channelCount.toNat *
        (s.proto.layout.sampleSize.toNat * transfer.header.count.toNat)) =
          transfer.header.bytes ++ gather transfer.samples ((channelPieces (s.proto.layout.slices
            transfer.header.headIndex transfer.header.count s.outRegion.base)).map
              (BufferSlice.piece s.outRegion)) := by
      rw [hload, pieces_eq hsendable.le s.outRegion ⟨0, 0, fun _ => 0⟩]
      rfl
    have hfits : 16 + s.proto.layout.channelCount.toNat *
        (s.proto.layout.sampleSize.toNat * transfer.header.count.toNat) ≤
          s.buffer.entrySize.toNat := by
      rw [hs.connected.entrySize]
      exact hsendable.fits
    obtain ⟨bytes, hunpack, hcopied⟩ := AudioBounceBuffer.unpack_eq hs.connected.layout hentry
      s.outRegion hs.rings transfer.header hsendable.le hsendable.laysOutWindow hfits hload'
    obtain rfl : immData = transfer.entry := himm
    simp only [step, hcompletions, hunpack] at h
    obtain rfl := Option.some.inj h
    refine ⟨hs.registered, hs.connected, hs.rings, hs.stream, hs.sendable, hs.posted, hs.carried,
      ?_, ?_, ?_⟩
    · intro c hc
      exact hs.completions c (by rw [hcompletions]; exact List.mem_cons_of_mem _ hc)
    · have horder := hs.faithful.order
      rw [hcompletions, List.map_cons, List.append_cons] at horder
      rw [List.map_append]
      exact horder
    · intro read hmem
      rcases List.mem_append.mp hmem with hmem | hmem
      · exact hs.faithful.correct read hmem
      · rw [List.mem_singleton.mp hmem]
        refine ⟨bytes, rfl, fun a ha => hcopied.inside a ?_⟩
        exact ((inWindow_iff_inRange hsendable.pos hsendable.le).mpr hsendable.wraps a).mpr ha

theorem invariant_step (hlimit : 0 < iovLimit.toNat) {action : Action} (hs : Invariant s)
    (husage : Usage iovLimit s action) (hspared : Spared s action)
    (h : step iovLimit s action = some t) : Invariant t := by
  cases action with
  | produce address value =>
    obtain rfl := Option.some.inj h
    exact invariant_produce hs husage
  | transferSamples headIndex count => exact invariant_transferSamples hlimit hs husage hspared h
  | gather => exact invariant_gather hs h
  | place => exact invariant_place hs hspared h
  | read => exact invariant_read hs h

end Steps

/-! ### Runs -/

theorem of_create_eq_ok {buffer : AudioBounceBuffer} {samples : MemoryBlock}
    {headerData : Nat → UInt64} {proto : RMASampleEgressProtocol}
    (h : RMASampleEgressProtocol.create buffer samples headerData = .ok proto)
    (hsamples : samples.size = buffer.layout.byteSize) :
    proto.Registered samples ∧ proto.ConnectedTo buffer := by
  unfold RMASampleEgressProtocol.create at h
  dsimp only at h
  split at h
  · have hproto := Except.ok.inj h
    subst hproto
    constructor
    · refine ⟨rfl, rfl, hsamples, ?_, ?_⟩
      · dsimp only
        rw [UInt32.toNat_toUInt64]
        exact UInt32.toNat_lt _
      · intro i region hregion
        dsimp only at hregion
        rw [List.getElem?_map, Option.map_eq_some_iff] at hregion
        obtain ⟨j, hj, rfl⟩ := hregion
        obtain ⟨hlt, rfl⟩ := List.getElem?_eq_some_iff.mp hj
        rw [List.getElem_range]
        exact ⟨rfl, rfl⟩
    · refine ⟨rfl, rfl, List.length_mapIdx, ?_, ?_⟩
      · intro i entry hentry
        dsimp only
        rw [List.getElem?_mapIdx, hentry]
        rfl
      · dsimp only
        rw [UInt32.toNat_toUInt64, UInt64.toNat_toUInt32, UInt64.toNat_ofNat']
        exact (Nat.mod_le _ _).trans (Nat.mod_le _ _)
  · cases h

theorem layout_of_makeAudioBounceBuffer {layout : ContinuousDataLayout} {maxSyncBatchSize : UInt32}
    {data : Nat → UInt64} {buffer : AudioBounceBuffer}
    (h : makeAudioBounceBuffer layout maxSyncBatchSize data = some buffer) :
    buffer.layout = layout := by
  unfold makeAudioBounceBuffer at h
  dsimp only at h
  split at h
  · cases h
  · rw [← Option.some.inj h]

def oneChannel : ContinuousDataLayout where
  sampleSize := 1
  channelCount := 1
  bufferLength := 2
  sampleSize_pos := Nat.one_pos
  channelCount_pos := Nat.one_pos
  bufferLength_pos := Nat.two_pos
  mapped := by decide

def twoSamples (base : UInt64) : MemoryBlock := { base := base, size := 2, bytes := fun _ => 0 }

/-- Two transfers of one sample each through the one entry of the buffer: the first
    one is read before the second one is placed. -/
def readInTime : List Action :=
  [.produce 0 7, .transferSamples 1 1, .gather, .place, .gather, .produce 1 8, .place,
   .transferSamples 2 1, .gather, .read, .place, .gather, .place, .read]

/-- The second transfer is placed before the first one is read.  At no time are more
    than the ring's two samples unread. -/
def readLate : List Action :=
  [.transferSamples 1 1, .gather, .place, .transferSamples 2 1, .gather, .place, .read, .read]

end SampleTransfer

end MediaExchange
