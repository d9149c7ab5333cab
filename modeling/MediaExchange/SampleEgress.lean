/-
  MediaExchange/SampleEgress.lean
  ===============================
  **Sending samples** (`Endpoint.cpp`, `LocalRegion.cpp`, `ProtocolEgressRMA.cpp`).

  The pieces of the channels' rings and, in front of them, the header of a bounce
  buffer entry are gathered into one entry of the target.  A provider takes a
  limited number of regions per write, so that the list is sent in several
  writes, one behind the other; only the last one carries the entry's index.

  The fabric reads the regions of a write when it carries the write out, and
  places their bytes in the entry in one piece.
-/
import MediaExchange.AudioBounceBuffer

namespace MediaExchange

open MediaExchange.ByteMemory

/-! ### Groups of regions -/

/-- `LocalRegionGroupSpan::byteSize`. -/
def byteSize (regions : List LocalRegion) : UInt64 :=
  regions.foldl (fun sum region => sum + region.len) 0

/-- `LocalRegionGroup::span`. -/
def groupSpan (group : List LocalRegion) (start stop : UInt64) :
    Except FabricsException (List LocalRegion) :=
  if stop < start then
    .error (.invalidArgument
      ("end " ++ toString stop ++ " is smaller than begin " ++ toString start))
  else if (stop - start).toNat > group.length then
    .error (.invalidArgument ("requested span size " ++ toString (stop - start) ++
      " will be bigger than the actual size of the full vector " ++ toString group.length))
  else .ok ((group.drop start.toNat).take (stop - start).toNat)

namespace Endpoint

def groupTooLarge : FabricsException :=
  .invalidArgument "Local region group is too large for the remote region."

/-- The loop of `Endpoint::write` for a group, from round `i` on: what is posted,
    and what is thrown in between. -/
def writeRounds (iovLimit nbWrites : UInt64) (group : List LocalRegion) (remote : RemoteRegion)
    (immData : Option UInt32) : Nat → UInt64 → UInt64 → List RmaWrite × Except FabricsException Unit
  | 0, _, _ => ([], .ok ())
  | rounds + 1, i, remoteOffset =>
      let start := i * iovLimit
      let stop := start + min iovLimit (UInt64.ofNat group.length - start)
      match groupSpan group start stop with
      | .error exception => ([], .error exception)
      | .ok span =>
          if remoteOffset + byteSize span > remote.len then ([], .error groupTooLarge)
          else
            let write : RmaWrite :=
              { msgIov := span
                rmaIov := { addr := remote.addr + remoteOffset, len := byteSize span,
                            rkey := remote.rkey }
                immData := if i = nbWrites - 1 then immData else none }
            let (writes, result) := writeRounds iovLimit nbWrites group remote immData rounds
              (i + 1) (remoteOffset + byteSize span)
            (write :: writes, result)

/-- `ceil(group.size() / iovLimit)`, in the arithmetic of the source. -/
def nbWrites (iovLimit : UInt64) (group : List LocalRegion) : UInt64 :=
  (UInt64.ofNat group.length + iovLimit - 1) / iovLimit

/-- `Endpoint::write` of a group of regions. -/
def writeGroup (iovLimit : UInt64) (group : List LocalRegion) (remote : RemoteRegion)
    (immData : Option UInt32) : List RmaWrite × Except FabricsException Unit :=
  writeRounds iovLimit (nbWrites iovLimit group) group remote immData
    (nbWrites iovLimit group).toNat 0 0

end Endpoint

/-! ### The writes of a group -/

/-- The sizes of the regions, counted without wrapping. -/
def totalBytes (regions : List LocalRegion) : Nat := (regions.map fun region => region.len.toNat).sum

@[simp] theorem totalBytes_nil : totalBytes [] = 0 := rfl

@[simp] theorem totalBytes_cons (region : LocalRegion) (regions : List LocalRegion) :
    totalBytes (region :: regions) = region.len.toNat + totalBytes regions := by
  simp [totalBytes]

@[simp] theorem totalBytes_append (xs ys : List LocalRegion) :
    totalBytes (xs ++ ys) = totalBytes xs + totalBytes ys := by
  simp [totalBytes]

theorem toNat_byteSize {regions : List LocalRegion} (h : totalBytes regions < 2 ^ 64) :
    (byteSize regions).toNat = totalBytes regions := by
  have hsum : ∀ (regions : List LocalRegion) (sum : UInt64),
      sum.toNat + totalBytes regions < 2 ^ 64 →
      (regions.foldl (fun sum region => sum + region.len) sum).toNat =
        sum.toNat + totalBytes regions := by
    intro regions
    induction regions with
    | nil => intro sum _; rfl
    | cons region regions ih =>
      intro sum hlt
      rw [totalBytes_cons] at hlt ⊢
      have hadd : (sum + region.len).toNat = sum.toNat + region.len.toNat := by
        rw [UInt64.toNat_add]
        exact Nat.mod_eq_of_lt (by omega)
      rw [List.foldl_cons, ih _ (by omega), hadd, Nat.add_assoc]
  have hzero := hsum regions 0
  rw [UInt64.toNat_zero, Nat.zero_add] at hzero
  exact hzero h

/-- The writes carry consecutive stretches of a transfer, the first one at
    `remoteOffset`, and only the last one carries the immediate data. -/
def Consecutive (remote : RemoteRegion) (immData : Option UInt32) : UInt64 → List RmaWrite → Prop
  | _, [] => False
  | remoteOffset, write :: writes =>
      write.rmaIov = { addr := remote.addr + remoteOffset, len := byteSize write.msgIov,
                       rkey := remote.rkey } ∧
        if writes = [] then write.immData = immData
        else write.immData = none ∧
          Consecutive remote immData (remoteOffset + byteSize write.msgIov) writes

namespace Endpoint

variable {iovLimit : UInt64} {group : List LocalRegion} {remote : RemoteRegion}
  {immData : Option UInt32}

theorem toNat_min (a b : UInt64) : (min a b).toNat = min a.toNat b.toNat := by
  change (if a ≤ b then a else b).toNat = _
  by_cases h : a ≤ b
  · rw [if_pos h, min_eq_left (UInt64.le_iff_toNat_le.mp h)]
  · rw [if_neg h, min_eq_right (Nat.le_of_not_le (mt UInt64.le_iff_toNat_le.mpr h))]

/-- Round `i` takes the regions from `i * iovLimit` on, as many as the limit allows. -/
theorem groupSpan_round {i : UInt64} (hlength : group.length < 2 ^ 64)
    (hstart : i.toNat * iovLimit.toNat < group.length) :
    groupSpan group (i * iovLimit)
        (i * iovLimit + min iovLimit (UInt64.ofNat group.length - i * iovLimit)) =
      .ok ((group.drop (i.toNat * iovLimit.toNat)).take iovLimit.toNat) := by
  have hbegin : (i * iovLimit).toNat = i.toNat * iovLimit.toNat := by
    rw [UInt64.toNat_mul]
    exact Nat.mod_eq_of_lt (by omega)
  have hsize : (UInt64.ofNat group.length).toNat = group.length := by
    rw [UInt64.toNat_ofNat']
    exact Nat.mod_eq_of_lt hlength
  have hle : i * iovLimit ≤ UInt64.ofNat group.length := by
    rw [UInt64.le_iff_toNat_le, hbegin, hsize]
    exact hstart.le
  have hmin : (min iovLimit (UInt64.ofNat group.length - i * iovLimit)).toNat =
      min iovLimit.toNat (group.length - i.toNat * iovLimit.toNat) := by
    rw [toNat_min, UInt64.toNat_sub_of_le _ _ hle, hbegin, hsize]
  have hlen : (i * iovLimit + min iovLimit (UInt64.ofNat group.length - i * iovLimit) -
      i * iovLimit).toNat = min iovLimit.toNat (group.length - i.toNat * iovLimit.toNat) := by
    rw [UInt64.add_comm, UInt64.add_sub_cancel, hmin]
  have hstop : ¬ i * iovLimit + min iovLimit (UInt64.ofNat group.length - i * iovLimit) <
      i * iovLimit := by
    rw [UInt64.lt_iff_toNat_lt, UInt64.toNat_add, hmin, hbegin, Nat.mod_eq_of_lt (by omega)]
    omega
  rw [groupSpan, if_neg hstop, if_neg (by omega), hlen, hbegin]
  congr 1
  rcases Nat.le_total iovLimit.toNat (group.length - i.toNat * iovLimit.toNat) with h | h
  · rw [Nat.min_eq_left h]
  · rw [Nat.min_eq_right h, List.take_of_length_le (by rw [List.length_drop]),
      List.take_of_length_le (by rw [List.length_drop]; exact h)]

/-- The rounds of the loop cover the group: each one starts inside, and the last one
    reaches the end. -/
structure Covers (iovLimit nbWrites : UInt64) (group : List LocalRegion) : Prop where
  length_lt : group.length < 2 ^ 64
  starts : ∀ i < nbWrites.toNat, i * iovLimit.toNat < group.length
  ends : group.length ≤ nbWrites.toNat * iovLimit.toNat

variable {n : UInt64} {i remoteOffset : UInt64} {rounds : Nat}

theorem writeRounds_succ (hcovers : Covers iovLimit n group) (hi : i.toNat < n.toNat) :
    writeRounds iovLimit n group remote immData (rounds + 1) i remoteOffset =
      let span := (group.drop (i.toNat * iovLimit.toNat)).take iovLimit.toNat
      if remoteOffset + byteSize span > remote.len then ([], .error groupTooLarge)
      else
        let rest := writeRounds iovLimit n group remote immData rounds (i + 1)
          (remoteOffset + byteSize span)
        ({ msgIov := span
           rmaIov := { addr := remote.addr + remoteOffset, len := byteSize span,
                       rkey := remote.rkey }
           immData := if i = n - 1 then immData else none } :: rest.1, rest.2) := by
  rw [writeRounds, groupSpan_round hcovers.length_lt (hcovers.starts _ hi)]

theorem toNat_succ (hrounds : i.toNat + (rounds + 1) = n.toNat) : (i + 1).toNat = i.toNat + 1 := by
  have hlt := n.toNat_lt
  rw [UInt64.toNat_add]
  exact Nat.mod_eq_of_lt (by rw [UInt64.toNat_one]; omega)

/-- The round that carries the immediate data is the last one. -/
theorem eq_last_iff (hrounds : i.toNat + (rounds + 1) = n.toNat) : i = n - 1 ↔ rounds = 0 := by
  have hone : (1 : UInt64) ≤ n := by
    rw [UInt64.le_iff_toNat_le, UInt64.toNat_one]
    omega
  rw [← UInt64.toNat_inj, UInt64.toNat_sub_of_le _ _ hone, UInt64.toNat_one]
  omega

/-- If a write carries immediate data, the whole rest of the group was posted. -/
theorem writeRounds_posted (hcovers : Covers iovLimit n group) (hrounds : i.toNat + rounds = n.toNat)
    (himm : ∃ write ∈ (writeRounds iovLimit n group remote immData rounds i remoteOffset).1,
      write.immData ≠ none) :
    (writeRounds iovLimit n group remote immData rounds i remoteOffset).1.flatMap RmaWrite.msgIov =
      group.drop (i.toNat * iovLimit.toNat) := by
  induction rounds generalizing i remoteOffset with
  | zero =>
    obtain ⟨write, hmem, -⟩ := himm
    cases hmem
  | succ rounds ih =>
    have hsucc := toNat_succ hrounds
    rw [writeRounds_succ hcovers (by omega)] at himm ⊢
    dsimp only at himm ⊢
    split at himm
    · obtain ⟨write, hmem, -⟩ := himm
      cases hmem
    · next hfit =>
      rw [if_neg hfit, List.flatMap_cons]
      rcases Nat.eq_zero_or_pos rounds with rfl | hpos
      · -- the last round takes all that is left
        have hends := hcovers.ends
        rw [← hrounds, Nat.succ_mul] at hends
        rw [writeRounds, List.flatMap_nil, List.append_nil, List.take_of_length_le]
        rw [List.length_drop]
        omega
      · have hnone : i ≠ n - 1 := mt (eq_last_iff hrounds).mp (by omega)
        obtain ⟨write, hmem, hwrite⟩ := himm
        rcases List.mem_cons.mp hmem with rfl | hmem
        · exact absurd (if_neg hnone) hwrite
        · rw [ih (by omega) ⟨write, hmem, hwrite⟩, hsucc, Nat.succ_mul, ← List.drop_drop,
            List.take_append_drop]

/-- Without an exception the whole rest of the group is posted. -/
theorem writeRounds_ok (hcovers : Covers iovLimit n group) (hrounds : i.toNat + rounds = n.toNat)
    (hok : (writeRounds iovLimit n group remote immData rounds i remoteOffset).2 = .ok ()) :
    (0 < rounds → Consecutive remote immData remoteOffset
        (writeRounds iovLimit n group remote immData rounds i remoteOffset).1) ∧
      (writeRounds iovLimit n group remote immData rounds i remoteOffset).1.flatMap
        RmaWrite.msgIov = group.drop (i.toNat * iovLimit.toNat) := by
  induction rounds generalizing i remoteOffset with
  | zero =>
    have hends := hcovers.ends
    rw [← hrounds, Nat.add_zero] at hends
    exact ⟨nofun, (List.drop_eq_nil_of_le hends).symm⟩
  | succ rounds ih =>
    have hsucc := toNat_succ hrounds
    have hsplit := List.take_append_drop iovLimit.toNat (group.drop (i.toNat * iovLimit.toNat))
    rw [List.drop_drop, ← Nat.succ_mul, ← Nat.add_one, ← hsucc] at hsplit
    rw [writeRounds_succ hcovers (by omega)] at hok ⊢
    dsimp only at hok ⊢
    split at hok
    · cases hok
    · next hfit =>
      rw [if_neg hfit]
      obtain ⟨hconsecutive, hflat⟩ := @ih (i + 1) _ (by omega) hok
      refine ⟨fun _ => ⟨rfl, ?_⟩, ?_⟩
      · rcases Nat.eq_zero_or_pos rounds with rfl | hpos
        · rw [writeRounds, if_pos rfl]
          exact if_pos ((eq_last_iff hrounds).mpr rfl)
        · have hrest := hconsecutive hpos
          rw [if_neg]
          · exact ⟨if_neg (mt (eq_last_iff hrounds).mp (by omega)), hrest⟩
          · intro hnil
            rw [hnil] at hrest
            exact hrest
      · rw [List.flatMap_cons, hflat, hsplit]

/-- What fits the remote region is posted without an exception. -/
theorem writeRounds_fit (hcovers : Covers iovLimit n group) (hrounds : i.toNat + rounds = n.toNat)
    (hfit : remoteOffset.toNat + totalBytes (group.drop (i.toNat * iovLimit.toNat)) ≤
      remote.len.toNat) :
    (writeRounds iovLimit n group remote immData rounds i remoteOffset).2 = .ok () := by
  have hlen := remote.len.toNat_lt
  induction rounds generalizing i remoteOffset with
  | zero => rfl
  | succ rounds ih =>
    have hsucc := toNat_succ hrounds
    have hsplit := List.take_append_drop iovLimit.toNat (group.drop (i.toNat * iovLimit.toNat))
    rw [List.drop_drop, ← Nat.succ_mul, ← Nat.add_one, ← hsucc] at hsplit
    have htotal := congrArg totalBytes hsplit
    rw [totalBytes_append] at htotal
    have hbytes : (byteSize ((group.drop (i.toNat * iovLimit.toNat)).take iovLimit.toNat)).toNat = _ :=
      toNat_byteSize (by omega)
    have hoffset : (remoteOffset + byteSize ((group.drop (i.toNat * iovLimit.toNat)).take
        iovLimit.toNat)).toNat = remoteOffset.toNat +
          totalBytes ((group.drop (i.toNat * iovLimit.toNat)).take iovLimit.toNat) := by
      rw [UInt64.toNat_add, hbytes]
      exact Nat.mod_eq_of_lt (by omega)
    rw [writeRounds_succ hcovers (by omega)]
    dsimp only
    rw [if_neg (by rw [gt_iff_lt, UInt64.not_lt, UInt64.le_iff_toNat_le, hoffset]; omega)]
    exact @ih (i + 1) _ (by omega) (by rw [hoffset]; omega)

theorem toNat_nbWrites (hlength : group.length < 2 ^ 64) (hlimit : 0 < iovLimit.toNat) :
    (nbWrites iovLimit group).toNat =
      (group.length + iovLimit.toNat - 1) % 2 ^ 64 / iovLimit.toNat := by
  have hlt := iovLimit.toNat_lt
  have hsize : (UInt64.ofNat group.length).toNat = group.length := by
    rw [UInt64.toNat_ofNat']
    exact Nat.mod_eq_of_lt hlength
  rw [nbWrites, UInt64.toNat_div, UInt64.toNat_sub, UInt64.toNat_add, hsize, UInt64.toNat_one]
  congr 1
  omega

/-- The rounded-up quotient covers the group, as long as the sum it is computed from
    does not wrap. -/
theorem covers_nbWrites (hlimit : 0 < iovLimit.toNat)
    (hwrap : group.length + iovLimit.toNat ≤ 2 ^ 64) :
    Covers iovLimit (nbWrites iovLimit group) group := by
  have hlength : group.length < 2 ^ 64 := by omega
  have hn := toNat_nbWrites hlength hlimit
  rw [Nat.mod_eq_of_lt (by omega)] at hn
  have hdiv := Nat.div_add_mod (group.length + iovLimit.toNat - 1) iovLimit.toNat
  have hmod := Nat.mod_lt (group.length + iovLimit.toNat - 1) hlimit
  rw [← hn, Nat.mul_comm] at hdiv
  refine ⟨hlength, fun i hi => ?_, by omega⟩
  have hle := Nat.mul_le_mul_right iovLimit.toNat (Nat.succ_le_of_lt hi)
  rw [Nat.succ_mul] at hle
  omega

/-- A limit next to the end of the number range makes the sum wrap, and nothing is
    sent at all. -/
theorem writeGroup_of_wrap (hlength : group.length < 2 ^ 64) (hlimit : 0 < iovLimit.toNat)
    (hwrap : 2 ^ 64 < group.length + iovLimit.toNat) :
    writeGroup iovLimit group remote immData = ([], .ok ()) := by
  have hlt := iovLimit.toNat_lt
  have hzero : (nbWrites iovLimit group).toNat = 0 := by
    rw [toNat_nbWrites hlength hlimit, Nat.mod_eq_sub_mod (by omega), Nat.mod_eq_of_lt (by omega)]
    exact Nat.div_eq_of_lt (by omega)
  rw [writeGroup, hzero]
  rfl

/-- Without an exception the whole group is posted, one write behind the other. -/
theorem writeGroup_ok (hlimit : 0 < iovLimit.toNat)
    (hwrap : group.length + iovLimit.toNat ≤ 2 ^ 64) (hgroup : group ≠ [])
    (hok : (writeGroup iovLimit group remote immData).2 = .ok ()) :
    Consecutive remote immData 0 (writeGroup iovLimit group remote immData).1 ∧
      (writeGroup iovLimit group remote immData).1.flatMap RmaWrite.msgIov = group := by
  have hcovers := covers_nbWrites hlimit hwrap
  have hpos : 0 < (nbWrites iovLimit group).toNat := by
    apply Nat.pos_of_ne_zero
    intro hzero
    have hends := hcovers.ends
    rw [hzero, Nat.zero_mul] at hends
    exact hgroup (List.length_eq_zero_iff.mp (Nat.le_zero.mp hends))
  obtain ⟨hconsecutive, hflat⟩ := writeRounds_ok hcovers (Nat.zero_add _) hok
  rw [UInt64.toNat_zero, Nat.zero_mul, List.drop_zero] at hflat
  exact ⟨hconsecutive hpos, hflat⟩

/-- A group that fits the remote region is sent as a whole, one write behind the
    other. -/
theorem writeGroup_fit (hlimit : 0 < iovLimit.toNat)
    (hwrap : group.length + iovLimit.toNat ≤ 2 ^ 64) (hgroup : group ≠ [])
    (hfit : totalBytes group ≤ remote.len.toNat) :
    ∃ writes, writeGroup iovLimit group remote immData = (writes, .ok ()) ∧
      Consecutive remote immData 0 writes ∧ writes.flatMap RmaWrite.msgIov = group := by
  have hfit' : (0 : UInt64).toNat +
      totalBytes (group.drop ((0 : UInt64).toNat * iovLimit.toNat)) ≤ remote.len.toNat := by
    rw [UInt64.toNat_zero, Nat.zero_mul, Nat.zero_add]
    exact hfit
  have hok : (writeGroup iovLimit group remote immData).2 = .ok () :=
    writeRounds_fit (covers_nbWrites hlimit hwrap) (Nat.zero_add _) hfit'
  exact ⟨_, Prod.ext rfl hok, writeGroup_ok hlimit hwrap hgroup hok⟩

/-- If a write carries immediate data, the whole group was posted. -/
theorem writeGroup_posted (hlimit : 0 < iovLimit.toNat)
    (hwrap : group.length + iovLimit.toNat ≤ 2 ^ 64)
    (himm : ∃ write ∈ (writeGroup iovLimit group remote immData).1, write.immData ≠ none) :
    (writeGroup iovLimit group remote immData).1.flatMap RmaWrite.msgIov = group := by
  have hposted := writeRounds_posted (covers_nbWrites hlimit hwrap) (Nat.zero_add _) himm
  rw [UInt64.toNat_zero, Nat.zero_mul, List.drop_zero] at hposted
  exact hposted

end Endpoint

/-! ### The protocol -/

/-- `RMASampleEgressProtocol`: the headers the entries are sent with, one for each
    entry of the target's bounce buffer, and the entry to be used next. -/
structure RMASampleEgressProtocol where
  layout : ContinuousDataLayout
  localRegion : LocalRegion
  remoteRegions : List RemoteRegion
  /-- `bounceBufferInfo->entrySize` of the target. -/
  entrySize : UInt64
  entryHeaders : List AudioEntryHeader
  entryHeaderRegions : List LocalRegion
  bounceBufferEntryIndex : UInt32
  bounceBufferEntryCount : UInt64
  pending : UInt64
  entryHeaders_length : entryHeaders.length = bounceBufferEntryCount.toNat
  entryHeaderRegions_length : entryHeaderRegions.length = bounceBufferEntryCount.toNat
  entryIndex_lt : bounceBufferEntryIndex.toNat < bounceBufferEntryCount.toNat
  remoteRegions_pos : 0 < remoteRegions.length

namespace RMASampleEgressProtocol

def makeScatterGatherList (layout : ContinuousDataLayout) (headIndex count : UInt64)
    (region : LocalRegion) : List LocalRegion :=
  (channelPieces (layout.slices headIndex count region.addr)).map fun slice =>
    { addr := slice.pointer, len := slice.size, desc := region.desc }

def countZero : FabricsException := .invalidArgument "Count must be greater than 0."

def countTooLarge (count entrySize entrySizeRequired : UInt64) : FabricsException :=
  .invalidArgument ("Count is too large for the bounce buffer entry size. Count " ++
    toString count ++ ", entry size " ++ toString entrySize ++ ", required entry size " ++
    toString entrySizeRequired ++ ".")

def entrySizeRequired (layout : ContinuousDataLayout) (count : UInt64) : UInt64 :=
  layout.sampleSize * layout.channelCount * count + 16

def setEntryHeader (proto : RMASampleEgressProtocol) (header : AudioEntryHeader) :
    RMASampleEgressProtocol :=
  { proto with
    entryHeaders := proto.entryHeaders.set proto.bounceBufferEntryIndex.toNat header
    entryHeaders_length := by rw [List.length_set]; exact proto.entryHeaders_length }

/-- The index is counted in 32 bits. -/
def nextEntry (proto : RMASampleEgressProtocol) (nbWrites : UInt64) : RMASampleEgressProtocol :=
  { proto with
    pending := proto.pending + nbWrites
    bounceBufferEntryIndex :=
      ((proto.bounceBufferEntryIndex + 1).toUInt64 % proto.bounceBufferEntryCount).toUInt32
    entryIndex_lt := by
      rw [UInt64.toNat_toUInt32, UInt64.toNat_mod]
      exact (Nat.mod_le _ _).trans_lt
        (Nat.mod_lt _ (Nat.zero_lt_of_lt proto.entryIndex_lt)) }

/-- The regions of a transfer: the header of the entry and the pieces of the rings. -/
def transferGroup (proto : RMASampleEgressProtocol) (headIndex count : UInt64) :
    List LocalRegion :=
  proto.entryHeaderRegions.get ⟨proto.bounceBufferEntryIndex.toNat, by
      rw [proto.entryHeaderRegions_length]; exact proto.entryIndex_lt⟩ ::
    makeScatterGatherList proto.layout headIndex count proto.localRegion

/-- `_remoteInfo.remoteRegions[_bounceBufferEntryIndex % _remoteInfo.remoteRegions.size()]`. -/
def remoteEntry (proto : RMASampleEgressProtocol) : RemoteRegion :=
  proto.remoteRegions.get ⟨proto.bounceBufferEntryIndex.toNat % proto.remoteRegions.length,
    Nat.mod_lt _ proto.remoteRegions_pos⟩

/-- `transferSamples`: what is posted, the outcome and the protocol. -/
def transferSamples (proto : RMASampleEgressProtocol) (iovLimit headIndex count : UInt64) :
    List RmaWrite × Except FabricsException Unit × RMASampleEgressProtocol :=
  if count = 0 then ([], .error countZero, proto)
  else if entrySizeRequired proto.layout count > proto.entrySize then
    ([], .error (countTooLarge count proto.entrySize (entrySizeRequired proto.layout count)), proto)
  else
    let group := proto.transferGroup headIndex count
    let proto := proto.setEntryHeader { headIndex := headIndex, count := count }
    match Endpoint.writeGroup iovLimit group proto.remoteEntry
        (some proto.bounceBufferEntryIndex) with
    | (writes, .error exception) => (writes, .error exception, proto)
    | (writes, .ok ()) => (writes, .ok (), proto.nextEntry (Endpoint.nbWrites iovLimit group))

end RMASampleEgressProtocol

/-! ### Memory and its transfer -/

/-- What the fabric finds under the descriptor of a region: the rings were registered
    first, then the entry headers. -/
def RMASampleEgressProtocol.memory (proto : RMASampleEgressProtocol) (samples : MemoryBlock)
    (desc : UInt64) : Option MemoryBlock :=
  if desc = 0 then some samples
  else do
    let header ← proto.entryHeaders[desc.toNat - 1]?
    let region ← proto.entryHeaderRegions[desc.toNat - 1]?
    some { base := region.addr, size := 16, bytes := fun i => header.bytes.getD i 0 }

/-- The bytes of the regions of a write.  There are none if a region leaves the
    memory that was registered. -/
def gatherRegions (memory : UInt64 → Option MemoryBlock) : List LocalRegion → Option (List UInt8)
  | [] => some []
  | region :: regions => do
      let block ← memory region.desc
      let values ← block.read region.addr region.len
      let rest ← gatherRegions memory regions
      some (values ++ rest)

/-- The bytes of a write arrive in the entry it is addressed to. -/
def AudioBounceBuffer.place (buffer : AudioBounceBuffer) (write : RmaWrite)
    (values : List UInt8) : Option AudioBounceBuffer := do
  let entry ← buffer.entries[write.rmaIov.rkey.toNat]?
  let block ← (buffer.block entry).write write.rmaIov.addr values
  some { buffer with
    entries := buffer.entries.set write.rmaIov.rkey.toNat { entry with bytes := block.bytes } }

section Memory

variable {memory : UInt64 → Option MemoryBlock} {regions : List LocalRegion} {values : List UInt8}

theorem gatherRegions_cons {region : LocalRegion} :
    gatherRegions memory (region :: regions) = some values ↔
      ∃ block, memory region.desc = some block ∧
        ∃ head, block.read region.addr region.len = some head ∧
          ∃ rest, gatherRegions memory regions = some rest ∧ head ++ rest = values := by
  simp only [gatherRegions, Option.bind_eq_bind, Option.bind_eq_some_iff, Option.some.injEq]

theorem gatherRegions_append {xs ys : List LocalRegion} :
    gatherRegions memory (xs ++ ys) = some values ↔
      ∃ head, gatherRegions memory xs = some head ∧
        ∃ rest, gatherRegions memory ys = some rest ∧ head ++ rest = values := by
  induction xs generalizing values with
  | nil => simp [gatherRegions]
  | cons region xs ih =>
    rw [List.cons_append]
    simp only [gatherRegions_cons, ih]
    constructor
    · rintro ⟨block, hblock, head, hhead, rest, ⟨head', hhead', rest', hrest', rfl⟩, rfl⟩
      exact ⟨_, ⟨block, hblock, head, hhead, head', hhead', rfl⟩, rest', hrest',
        by rw [List.append_assoc]⟩
    · rintro ⟨_, ⟨block, hblock, head, hhead, head', hhead', rfl⟩, rest', hrest', rfl⟩
      exact ⟨block, hblock, head, hhead, _, ⟨head', hhead', rest', hrest', rfl⟩,
        by rw [List.append_assoc]⟩

theorem length_gatherRegions (h : gatherRegions memory regions = some values) :
    values.length = totalBytes regions := by
  induction regions generalizing values with
  | nil =>
    obtain rfl : [] = values := Option.some.inj h
    rfl
  | cons region regions ih =>
    obtain ⟨block, -, head, hhead, rest, hrest, rfl⟩ := gatherRegions_cons.mp h
    obtain ⟨-, rfl⟩ := MemoryBlock.read_eq_some.mp hhead
    rw [List.length_append, length_load, ih hrest, totalBytes_cons]

theorem gatherRegions_congr {memory' : UInt64 → Option MemoryBlock}
    (h : ∀ region ∈ regions, ((memory region.desc).bind fun block =>
      block.read region.addr region.len) =
        (memory' region.desc).bind fun block => block.read region.addr region.len) :
    gatherRegions memory regions = gatherRegions memory' regions := by
  induction regions with
  | nil => rfl
  | cons region regions ih =>
    have hregion := h region (List.mem_cons_self ..)
    have hrest := ih fun other hmem => h other (List.mem_cons_of_mem _ hmem)
    have hcons : ∀ memory : UInt64 → Option MemoryBlock, gatherRegions memory (region :: regions) =
        ((memory region.desc).bind fun block => block.read region.addr region.len).bind fun head =>
          (gatherRegions memory regions).bind fun rest => some (head ++ rest) := by
      intro memory
      rw [Option.bind_assoc]
      rfl
    rw [hcons, hcons, hregion, hrest]

theorem gatherRegions_of_flatMap {writes : List RmaWrite}
    (h : gatherRegions memory (writes.flatMap RmaWrite.msgIov) = some values) :
    ∀ write ∈ writes, ∃ values, gatherRegions memory write.msgIov = some values := by
  induction writes generalizing values with
  | nil => simp
  | cons write writes ih =>
    obtain ⟨head, hhead, rest, hrest, -⟩ := gatherRegions_append.mp h
    intro other hmem
    rcases List.mem_cons.mp hmem with rfl | hmem
    · exact ⟨head, hhead⟩
    · exact ih hrest other hmem

/-- The pieces of one block are gathered if they all lie inside. -/
theorem gatherRegions_pieces {block : MemoryBlock} {desc : UInt64} (hdesc : memory desc = some block)
    {slices : List BufferSlice} :
    gatherRegions memory (slices.map fun slice => ⟨slice.pointer, slice.size, desc⟩) = some values ↔
      (∀ piece ∈ slices.map (BufferSlice.piece block), piece.start + piece.length ≤ block.size) ∧
        values = gather block.bytes (slices.map (BufferSlice.piece block)) := by
  induction slices generalizing values with
  | nil => simp [gatherRegions, gather, eq_comm]
  | cons slice slices ih =>
    rw [List.map_cons, gatherRegions_cons, List.map_cons, List.forall_mem_cons]
    simp only [hdesc, Option.some.injEq, exists_eq_left', MemoryBlock.read_eq_some, ih]
    constructor
    · rintro ⟨head, ⟨hslice, rfl⟩, rest, ⟨hslices, rfl⟩, rfl⟩
      exact ⟨⟨hslice, hslices⟩, rfl⟩
    · rintro ⟨⟨hslice, hslices⟩, rfl⟩
      exact ⟨_, ⟨hslice, rfl⟩, _, ⟨hslices, rfl⟩, rfl⟩

end Memory

namespace RMASampleEgressProtocol

variable {proto : RMASampleEgressProtocol} {samples : MemoryBlock} {headIndex count : UInt64}

/-- The rings and the entry headers are registered, in this order. -/
structure Registered (proto : RMASampleEgressProtocol) (samples : MemoryBlock) : Prop where
  localAddr : proto.localRegion.addr = samples.base
  localDesc : proto.localRegion.desc = 0
  samples_size : samples.size = proto.layout.byteSize
  entryCount_lt : proto.bounceBufferEntryCount.toNat < 2 ^ 32
  headerRegion : ∀ i region, proto.entryHeaderRegions[i]? = some region →
    region.len = 16 ∧ region.desc = UInt64.ofNat (i + 1)

/-- The header of an entry as the fabric finds it. -/
theorem memory_header (hproto : proto.Registered samples) {i : Nat} {region : LocalRegion}
    (hregion : proto.entryHeaderRegions[i]? = some region) {header : AudioEntryHeader}
    (hheader : proto.entryHeaders[i]? = some header) :
    ∃ block, proto.memory samples region.desc = some block ∧
      block.read region.addr region.len = some header.bytes := by
  obtain ⟨hlen, hdesc⟩ := hproto.headerRegion i region hregion
  have hi : i < proto.bounceBufferEntryCount.toNat := by
    rw [← proto.entryHeaderRegions_length]
    exact (List.getElem?_eq_some_iff.mp hregion).1
  have hcount := hproto.entryCount_lt
  have hdesc' : region.desc.toNat = i + 1 := by
    rw [hdesc, UInt64.toNat_ofNat']
    exact Nat.mod_eq_of_lt (by omega)
  have hne : region.desc ≠ 0 := by
    intro hzero
    rw [hzero] at hdesc'
    exact absurd hdesc' (by simp)
  refine ⟨{ base := region.addr, size := 16, bytes := fun i => header.bytes.getD i 0 }, ?_, ?_⟩
  · rw [memory, if_neg hne, hdesc', Nat.add_sub_cancel, hheader, hregion]
    rfl
  · rw [hlen, MemoryBlock.read_eq_some]
    have hoffset : MemoryBlock.offset
        { base := region.addr, size := 16, bytes := fun i => header.bytes.getD i 0 } region.addr =
          0 := by
      simp [MemoryBlock.offset]
    rw [hoffset]
    refine ⟨le_rfl, ?_⟩
    apply List.ext_getElem
    · simp
    · intro j hj hj'
      simp [load, List.getD_eq_getElem?_getD, List.getElem?_eq_getElem hj]

/-- The target's bounce buffer is the one the protocol was told about: entry `i` is
    its `i`-th remote region. -/
structure ConnectedTo (proto : RMASampleEgressProtocol) (buffer : AudioBounceBuffer) : Prop where
  layout : buffer.layout = proto.layout
  entrySize : buffer.entrySize = proto.entrySize
  remoteRegions_length : proto.remoteRegions.length = buffer.entries.length
  remoteRegion : ∀ (i : Nat) (entry : AudioBounceBufferEntry), buffer.entries[i]? = some entry →
    proto.remoteRegions[i]? = some ⟨entry.data, buffer.entrySize, UInt64.ofNat i⟩
  entryCount_le : proto.bounceBufferEntryCount.toNat ≤ buffer.entries.length

theorem exists_entry {buffer : AudioBounceBuffer} (hbuffer : proto.ConnectedTo buffer) :
    ∃ entry, buffer.entries[proto.bounceBufferEntryIndex.toNat]? = some entry ∧
      proto.remoteEntry = { addr := entry.data, len := buffer.entrySize,
                            rkey := UInt64.ofNat proto.bounceBufferEntryIndex.toNat } := by
  have hindex : proto.bounceBufferEntryIndex.toNat < buffer.entries.length :=
    proto.entryIndex_lt.trans_le hbuffer.entryCount_le
  have hentry := List.getElem?_eq_getElem hindex
  refine ⟨_, hentry, ?_⟩
  have hregion := hbuffer.remoteRegion _ _ hentry
  rw [← hbuffer.remoteRegions_length] at hindex
  rw [List.getElem?_eq_getElem hindex] at hregion
  rw [← Option.some.inj hregion, remoteEntry, List.get_eq_getElem]
  congr 1
  exact Nat.mod_eq_of_lt hindex

theorem toNat_entrySizeRequired (layout : ContinuousDataLayout)
    (hcount : count.toNat ≤ layout.bufferLength.toNat) :
    (entrySizeRequired layout count).toNat =
      16 + layout.channelCount.toNat * (layout.sampleSize.toNat * count.toNat) := by
  have hmapped := layout.mapped
  have hle : layout.channelCount.toNat * (layout.sampleSize.toNat * count.toNat) ≤
      layout.channelCount.toNat * (layout.sampleSize.toNat * layout.bufferLength.toNat) :=
    Nat.mul_le_mul_left _ (Nat.mul_le_mul_left _ hcount)
  have hassoc : layout.sampleSize.toNat * layout.channelCount.toNat * count.toNat =
      layout.channelCount.toNat * (layout.sampleSize.toNat * count.toNat) := by
    ring
  have hsixteen : (16 : UInt64).toNat = 16 := rfl
  rw [entrySizeRequired, UInt64.toNat_add, UInt64.toNat_mul, UInt64.toNat_mul, Nat.mod_mul_mod,
    hassoc, hsixteen, Nat.mod_add_mod, Nat.add_comm]
  exact Nat.mod_eq_of_lt (by omega)

/-- The regions of a transfer are those of the header and of the pieces. -/
theorem gatherRegions_transferGroup (hproto : proto.Registered samples) (header : AudioEntryHeader)
    {values : List UInt8} :
    gatherRegions ((proto.setEntryHeader header).memory samples)
        (proto.transferGroup headIndex count) = some values ↔
      (∀ piece ∈ (channelPieces (proto.layout.slices headIndex count samples.base)).map
          (BufferSlice.piece samples), piece.start + piece.length ≤ samples.size) ∧
        values = header.bytes ++ gather samples.bytes
          ((channelPieces (proto.layout.slices headIndex count samples.base)).map
            (BufferSlice.piece samples)) := by
  have hindex : proto.bounceBufferEntryIndex.toNat < proto.entryHeaders.length := by
    rw [proto.entryHeaders_length]
    exact proto.entryIndex_lt
  have hregistered : (proto.setEntryHeader header).Registered samples :=
    ⟨hproto.localAddr, hproto.localDesc, hproto.samples_size, hproto.entryCount_lt,
      hproto.headerRegion⟩
  obtain ⟨block, hblock, hread⟩ := memory_header hregistered
    (List.getElem?_eq_getElem (by
      rw [(proto.setEntryHeader header).entryHeaderRegions_length]
      exact proto.entryIndex_lt))
    (List.getElem?_set_self hindex)
  have hsamples : (proto.setEntryHeader header).memory samples proto.localRegion.desc =
      some samples := by
    rw [hproto.localDesc, memory, if_pos rfl]
  rw [transferGroup, gatherRegions_cons]
  simp only [makeScatterGatherList, gatherRegions_pieces hsamples, hproto.localAddr]
  constructor
  · rintro ⟨block', hblock', head, hhead, rest, ⟨hfits, rfl⟩, rfl⟩
    obtain rfl : block = block' := Option.some.inj (hblock.symm.trans hblock')
    obtain rfl : header.bytes = head := Option.some.inj (hread.symm.trans hhead)
    exact ⟨hfits, rfl⟩
  · rintro ⟨hfits, rfl⟩
    exact ⟨block, hblock, _, hread, _, ⟨hfits, rfl⟩, rfl⟩

end RMASampleEgressProtocol

end MediaExchange
