/-
  MediaExchange/PartialTransfers.lean
  ===================================
  **A sample transfer of which only the first writes are posted** (`Endpoint.cpp`,
  `ProtocolEgressRMA.cpp`).

  `Endpoint::write` posts the writes of a group one after the other and returns their
  number when all of them were taken.  A post that fails makes it throw, and the
  number of the writes before it is lost: `transferSamples` adds nothing to its
  counter and stays at the entry these writes go to.  Their completions come all the
  same.

  Main result: `partial_accounted_iff`.  The counter and the entry come out right
  exactly when it is the first post that fails.
-/
import MediaExchange.GroupWrites
import MediaExchange.SampleRoundTrip

namespace MediaExchange

/-! ### A transfer whose posts may fail -/

theorem length_fragmentPieces_le (slices : WrappedMultiBufferSlice) (fragment : BufferSlice) :
    (fragmentPieces slices fragment).length ≤ slices.count.toNat := by
  unfold fragmentPieces
  split
  · rw [List.length_map, List.length_range]
  · exact Nat.zero_le _

theorem Endpoint.rkey_writeRounds {iovLimit n : UInt64} {group : List LocalRegion}
    {remote : RemoteRegion} {immData : Option UInt32} {rounds : Nat} {i remoteOffset : UInt64} :
    ∀ write ∈ (writeRounds iovLimit n group remote immData rounds i remoteOffset).1,
      write.rmaIov.rkey = remote.rkey := by
  induction rounds generalizing i remoteOffset with
  | zero => nofun
  | succ rounds ih =>
    intro write hwrite
    unfold writeRounds at hwrite
    dsimp only at hwrite
    split at hwrite
    · cases hwrite
    · split at hwrite
      · cases hwrite
      · rcases List.mem_cons.mp hwrite with rfl | hrest
        · rfl
        · exact ih write hrest

namespace RMASampleEgressProtocol

variable {proto : RMASampleEgressProtocol} {iovLimit headIndex count : UInt64}

/-- There are at most two pieces for each channel. -/
theorem length_transferGroup_lt (proto : RMASampleEgressProtocol) (headIndex count : UInt64) :
    (proto.transferGroup headIndex count).length < 2 ^ 64 := by
  have hmapped := proto.layout.mapped
  have hring := Nat.mul_pos proto.layout.sampleSize_pos proto.layout.bufferLength_pos
  have hchannels := Nat.le_mul_of_pos_right proto.layout.channelCount.toNat hring
  have hfirst := length_fragmentPieces_le (proto.layout.slices headIndex count
    proto.localRegion.addr) (proto.layout.slices headIndex count proto.localRegion.addr).fragment0
  have hsecond := length_fragmentPieces_le (proto.layout.slices headIndex count
    proto.localRegion.addr) (proto.layout.slices headIndex count proto.localRegion.addr).fragment1
  have hcount : (proto.layout.slices headIndex count proto.localRegion.addr).count =
      proto.layout.channelCount := rfl
  rw [hcount] at hfirst hsecond
  rw [transferGroup, makeScatterGatherList, channelPieces, List.length_cons, List.length_map,
    List.length_append]
  omega

/-- The group that is handed to `Endpoint::write`. -/
def localGroup (proto : RMASampleEgressProtocol) (headIndex count : UInt64) : LocalRegionGroup :=
  ⟨proto.transferGroup headIndex count, proto.length_transferGroup_lt headIndex count⟩

/-- `transferSamples`, when the provider takes the first `accepted` posts: what is
    posted, what is thrown, and the protocol afterwards. -/
def transferSamplesAccepted (accepted : Nat) (proto : RMASampleEgressProtocol)
    (iovLimit headIndex count : UInt64) :
    List RmaWrite × Except WriteException Unit × RMASampleEgressProtocol :=
  if count = 0 then ([], .error (.fabrics countZero), proto)
  else if entrySizeRequired proto.layout count > proto.entrySize then
    ([], .error (.fabrics (countTooLarge count proto.entrySize
      (entrySizeRequired proto.layout count))), proto)
  else
    let localGroup := proto.localGroup headIndex count
    let proto := proto.setEntryHeader { headIndex := headIndex, count := count }
    match Endpoint.writeAccepted accepted iovLimit localGroup proto.remoteEntry
        (some proto.bounceBufferEntryIndex) with
    | (writes, .error exception) => (writes, .error exception, proto)
    | (writes, .ok nbWrites) => (writes, .ok (), proto.nextEntry nbWrites)

/-- The writes a transfer is split into, if no post fails. -/
def writes (proto : RMASampleEgressProtocol) (iovLimit headIndex count : UInt64) :
    List RmaWrite :=
  (proto.transferSamples iovLimit headIndex count).1

/-- `processCompletion`, which does not look at the completion. -/
def processCompletion (proto : RMASampleEgressProtocol) : RMASampleEgressProtocol :=
  { proto with pending := proto.pending - 1 }

def processCompletions : Nat → RMASampleEgressProtocol → RMASampleEgressProtocol
  | 0, proto => proto
  | completions + 1, proto => (processCompletions completions proto).processCompletion

/-- `hasPendingWork`. -/
def hasPendingWork (proto : RMASampleEgressProtocol) : Bool := decide (proto.pending > 0)

/-- The entry of the target that a transfer goes to. -/
def targetEntry (proto : RMASampleEgressProtocol) : Nat :=
  proto.bounceBufferEntryIndex.toNat % proto.remoteRegions.length

/-! ### What is to hold -/

/-- `posted` writes of a transfer were posted before it threw: they are counted, so
    that their completions bring the counter back to where it was, never below zero,
    and what is sent next goes to another entry. -/
structure PartialAccounted (proto after : RMASampleEgressProtocol) (posted : Nat) : Prop where
  counted : after.pending.toNat = proto.pending.toNat + posted
  noUnderflow : ∀ completions < posted, 0 < (processCompletions completions after).pending.toNat
  settled : (processCompletions posted after).pending = proto.pending
  otherEntry : 0 < posted → after.targetEntry ≠ proto.targetEntry

/-! ### What a transfer does -/

@[simp] theorem remoteEntry_setEntryHeader (header : AudioEntryHeader) :
    (proto.setEntryHeader header).remoteEntry = proto.remoteEntry := rfl

@[simp] theorem bounceBufferEntryIndex_setEntryHeader (header : AudioEntryHeader) :
    (proto.setEntryHeader header).bounceBufferEntryIndex = proto.bounceBufferEntryIndex := rfl

@[simp] theorem inner_localGroup :
    (proto.localGroup headIndex count).inner = proto.transferGroup headIndex count := rfl

theorem writes_of_refused
    (h : count = 0 ∨ entrySizeRequired proto.layout count > proto.entrySize) :
    proto.writes iovLimit headIndex count = [] := by
  unfold writes transferSamples
  by_cases hzero : count = 0
  · rw [if_pos hzero]
  · rw [if_neg hzero, if_pos (h.resolve_left hzero)]

/-- The writes of a transfer that is not refused are those of its group. -/
theorem writes_eq (hzero : count ≠ 0)
    (hlarge : ¬ entrySizeRequired proto.layout count > proto.entrySize) :
    proto.writes iovLimit headIndex count =
      (Endpoint.writeGroup iovLimit (proto.transferGroup headIndex count) proto.remoteEntry
        (some proto.bounceBufferEntryIndex)).1 := by
  simp only [writes, transferSamples, if_neg hzero, if_neg hlarge, remoteEntry_setEntryHeader,
    bounceBufferEntryIndex_setEntryHeader]
  rcases Endpoint.writeGroup iovLimit (proto.transferGroup headIndex count)
    proto.remoteEntry (some proto.bounceBufferEntryIndex) with ⟨ws, exception | _⟩
  · rfl
  · rfl

/-- All writes of a transfer go to the entry whose turn it is. -/
theorem rkey_writes {write : RmaWrite} (hwrite : write ∈ proto.writes iovLimit headIndex count) :
    write.rmaIov.rkey = proto.remoteEntry.rkey := by
  by_cases h : count = 0 ∨ entrySizeRequired proto.layout count > proto.entrySize
  · rw [writes_of_refused h] at hwrite
    cases hwrite
  · obtain ⟨hzero, hlarge⟩ := not_or.mp h
    rw [writes_eq hzero hlarge] at hwrite
    exact Endpoint.rkey_writeRounds write hwrite

/-- A provider that takes all posts lets the transfer through as it is. -/
theorem transferSamplesAccepted_of_le {accepted : Nat}
    (h : (proto.writes iovLimit headIndex count).length ≤ accepted) :
    proto.transferSamplesAccepted accepted iovLimit headIndex count =
      (proto.writes iovLimit headIndex count,
        (proto.transferSamples iovLimit headIndex count).2.1.mapError .fabrics,
        (proto.transferSamples iovLimit headIndex count).2.2) := by
  by_cases hzero : count = 0
  · rw [writes_of_refused (Or.inl hzero), transferSamplesAccepted, transferSamples, if_pos hzero,
      if_pos hzero]
    rfl
  · by_cases hlarge : entrySizeRequired proto.layout count > proto.entrySize
    · rw [writes_of_refused (Or.inr hlarge), transferSamplesAccepted, transferSamples,
        if_neg hzero, if_pos hlarge, if_neg hzero, if_pos hlarge]
      rfl
    · rw [writes_eq hzero hlarge] at h ⊢
      have hlength : (Endpoint.writeGroup iovLimit (proto.localGroup headIndex count).inner
          proto.remoteEntry (some proto.bounceBufferEntryIndex)).1.length ≤ accepted := h
      have haccepted := Endpoint.writeAccepted_of_le hlength
      simp only [transferSamplesAccepted, transferSamples, if_neg hzero, if_neg hlarge,
        remoteEntry_setEntryHeader, bounceBufferEntryIndex_setEntryHeader, haccepted,
        inner_localGroup]
      rcases Endpoint.writeGroup iovLimit (proto.transferGroup headIndex count)
        proto.remoteEntry (some proto.bounceBufferEntryIndex) with ⟨ws, exception | _⟩
      · rfl
      · rfl

/-- A post that fails throws behind the writes before it.  The header of the entry has
    been set; the counter and the entry are as they were. -/
theorem transferSamplesAccepted_of_lt {accepted : Nat}
    (h : accepted < (proto.writes iovLimit headIndex count).length) :
    proto.transferSamplesAccepted accepted iovLimit headIndex count =
      ((proto.writes iovLimit headIndex count).take accepted, .error .post,
        proto.setEntryHeader ⟨headIndex, count⟩) := by
  have hallowed : ¬ (count = 0 ∨ entrySizeRequired proto.layout count > proto.entrySize) := by
    intro hrefused
    rw [writes_of_refused hrefused] at h
    exact Nat.not_lt_zero _ h
  obtain ⟨hzero, hlarge⟩ := not_or.mp hallowed
  rw [writes_eq hzero hlarge] at h ⊢
  have haccepted : Endpoint.writeAccepted accepted iovLimit (proto.localGroup headIndex count)
      proto.remoteEntry (some proto.bounceBufferEntryIndex) = (_, .error .post) :=
    if_neg (Nat.not_le.mpr h)
  simp only [transferSamplesAccepted, if_neg hzero, if_neg hlarge, remoteEntry_setEntryHeader,
    bounceBufferEntryIndex_setEntryHeader, haccepted]
  rfl

/-! ### Completions -/

theorem pending_processCompletions (completions : Nat) (proto : RMASampleEgressProtocol) :
    (processCompletions completions proto).pending =
      proto.pending - UInt64.ofNat completions := by
  induction completions with
  | zero => exact (UInt64.sub_zero _).symm
  | succ completions ih =>
    rw [processCompletions, processCompletion, ih, UInt64.ofNat_add]
    simp only [UInt64.sub_eq_add_neg, UInt64.neg_add, UInt64.add_assoc]
    rfl

/-- What was posted before the failure comes off a counter it was never added to. -/
theorem pending_after_failure {posted : Nat}
    (h : posted < (proto.writes iovLimit headIndex count).length) :
    (processCompletions posted
      (proto.transferSamplesAccepted posted iovLimit headIndex count).2.2).pending =
        proto.pending - UInt64.ofNat posted := by
  rw [pending_processCompletions, transferSamplesAccepted_of_lt h]
  rfl

/-- **Partially posted transfers.**  For every transfer and every number `k` below that
    of the writes it is split into, when the provider takes the first `k` posts and
    fails the next: the counter has grown by `k`, so that the `k` completions bring it
    back, and the next transfer goes to another entry, if and only if `k` is zero. -/
theorem partial_accounted_iff (proto : RMASampleEgressProtocol)
    (iovLimit headIndex count : UInt64) {k : Nat}
    (hfails : k < (proto.writes iovLimit headIndex count).length) :
    PartialAccounted proto
        (proto.transferSamplesAccepted k iovLimit headIndex count).2.2 k ↔ k = 0 := by
  rw [transferSamplesAccepted_of_lt hfails]
  constructor
  · intro h
    have hcounted : proto.pending.toNat = proto.pending.toNat + k := h.counted
    omega
  · rintro rfl
    exact ⟨rfl, nofun, rfl, nofun⟩

/-! ### Two writes to the first of two entries -/

/-- Two channels of three samples, sent to a target with two entries. -/
def twoEntries : RMASampleEgressProtocol where
  layout := SampleRoundTrip.twoChannels
  localRegion := { addr := 4096, len := 24, desc := 0 }
  remoteRegions := [{ addr := 65536, len := 32, rkey := 7 }, { addr := 69632, len := 32, rkey := 8 }]
  entrySize := 32
  entryHeaders := [⟨0, 0⟩, ⟨0, 0⟩]
  entryHeaderRegions := [{ addr := 8192, len := 16, desc := 1 }, { addr := 8208, len := 16, desc := 2 }]
  bounceBufferEntryIndex := 0
  bounceBufferEntryCount := 2
  pending := 0
  entryHeaders_length := rfl
  entryHeaderRegions_length := rfl
  entryIndex_lt := Nat.two_pos
  remoteRegions_pos := Nat.two_pos

/-- The five regions of two samples make two writes at three regions a write.  When
    the provider takes neither, nothing has to be counted. -/
theorem partial_accounted_nothing :
    PartialAccounted twoEntries (twoEntries.transferSamplesAccepted 0 3 4 2).2.2 0 :=
  (partial_accounted_iff twoEntries 3 4 2 (by decide)).mpr rfl

/-- When it takes the first of them only, the completion of that write takes the
    counter below zero, so that there is pending work for ever, and the next transfer
    goes to the same entry. -/
theorem partial_not_accounted :
    1 < (twoEntries.writes 3 4 2).length ∧
      ¬ PartialAccounted twoEntries (twoEntries.transferSamplesAccepted 1 3 4 2).2.2 1 ∧
      (processCompletions 1 (twoEntries.transferSamplesAccepted 1 3 4 2).2.2).pending =
        18446744073709551615 ∧
      (processCompletions 1
        (twoEntries.transferSamplesAccepted 1 3 4 2).2.2).hasPendingWork = true ∧
      (twoEntries.transferSamplesAccepted 1 3 4 2).2.2.targetEntry = twoEntries.targetEntry := by
  have hfails : 1 < (twoEntries.writes 3 4 2).length := by decide
  rw [pending_after_failure hfails, transferSamplesAccepted_of_lt hfails]
  refine ⟨hfails, fun h => ?_, rfl, rfl, rfl⟩
  exact absurd h.counted (by decide)

end RMASampleEgressProtocol

end MediaExchange
