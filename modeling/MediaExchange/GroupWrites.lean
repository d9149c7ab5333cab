/-
  MediaExchange/GroupWrites.lean
  ==============================
  **How a group is split into writes** (`Endpoint.cpp`, `LocalRegion.cpp`).

  The number of writes, the length of a chunk and the check against the remote
  region are computed in 64 bits.  `splits_iff` says for which groups, limits and
  remote regions none of this wraps where it matters.
-/
import MediaExchange.SampleEgress

namespace MediaExchange

/-! ### Writing a group -/

/-- The regions of a vector: their number has 64 bits. -/
structure LocalRegionGroup where
  inner : List LocalRegion
  size_lt : inner.length < 2 ^ 64

/-- What `Endpoint::write` throws: an exception of its own, or `FabricException` for a
    post that failed. -/
inductive WriteException where
  | fabrics (exception : FabricsException)
  | post
  deriving DecidableEq, Repr

/-- `Endpoint::write` of a group, when the provider takes the first `accepted` posts: what
    is posted, and what is returned or thrown. -/
def Endpoint.writeAccepted (accepted : Nat) (iovLimit : UInt64) (localGroup : LocalRegionGroup)
    (remote : RemoteRegion) (immData : Option UInt32) :
    List RmaWrite × Except WriteException UInt64 :=
  let (writes, result) := writeGroup iovLimit localGroup.inner remote immData
  if writes.length ≤ accepted then
    match result with
    | .ok () => (writes, .ok (nbWrites iovLimit localGroup.inner))
    | .error exception => (writes, .error (.fabrics exception))
  else (writes.take accepted, .error .post)

/-! ### What is to hold, and when it does -/

/-- The bytes that a write carries end up inside the remote region. -/
def Inside (remote : RemoteRegion) (write : RmaWrite) : Prop :=
  (write.rmaIov.addr - remote.addr).toNat + totalBytes write.msgIov ≤ remote.len.toNat

/-- `ceil(n / limit)`. -/
def ceilDiv (n limit : Nat) : Nat := (n + limit - 1) / limit

/-- A group that fits is posted as a whole unless a post fails; one that does not fit
    makes the call throw, with nothing posted beyond the remote region and without the
    immediate data. -/
structure Splits (iovLimit : UInt64) (localGroup : LocalRegionGroup) (remote : RemoteRegion)
    (immData : Option UInt32) (accepted : Nat) : Prop where
  fitting : totalBytes localGroup.inner ≤ remote.len.toNat →
    ceilDiv localGroup.inner.length iovLimit.toNat ≤ accepted →
      ∃ writes n, Endpoint.writeAccepted accepted iovLimit localGroup remote immData =
          (writes, .ok n) ∧
        n.toNat = ceilDiv localGroup.inner.length iovLimit.toNat ∧ writes.length = n.toNat ∧
        (∀ write ∈ writes, write.msgIov.length ≤ iovLimit.toNat) ∧
        writes.flatMap RmaWrite.msgIov = localGroup.inner ∧
        Consecutive remote immData 0 writes ∧
        (writes.map fun write => write.rmaIov.len.toNat).sum = totalBytes localGroup.inner
  exceeding : remote.len.toNat < totalBytes localGroup.inner →
    (∃ exception,
        (Endpoint.writeAccepted accepted iovLimit localGroup remote immData).2 = .error exception) ∧
      ∀ write ∈ (Endpoint.writeAccepted accepted iovLimit localGroup remote immData).1,
        Inside remote write ∧ write.immData = none

/-- The chunk that goes beyond the remote region also does so when its end is counted
    in 64 bits. -/
def Detected (iovLimit : UInt64) (group : List LocalRegion) (remote : RemoteRegion) : Prop :=
  ∀ i, totalBytes (group.take (i * iovLimit.toNat)) ≤ remote.len.toNat →
    remote.len.toNat < totalBytes (group.take ((i + 1) * iovLimit.toNat)) →
      remote.len.toNat < totalBytes (group.take ((i + 1) * iovLimit.toNat)) % 2 ^ 64

/-! ### Sizes -/

/-- `byteSize` of any regions. -/
theorem toNat_byteSize_mod (regions : List LocalRegion) :
    (byteSize regions).toNat = totalBytes regions % 2 ^ 64 := by
  have hsum : ∀ (regions : List LocalRegion) (sum : UInt64),
      (regions.foldl (fun sum region => sum + region.len) sum).toNat =
        (sum.toNat + totalBytes regions) % 2 ^ 64 := by
    intro regions
    induction regions with
    | nil => exact fun sum => (Nat.mod_eq_of_lt sum.toNat_lt).symm
    | cons region regions ih =>
      intro sum
      rw [List.foldl_cons, ih, UInt64.toNat_add, Nat.mod_add_mod, totalBytes_cons, Nat.add_assoc]
  have hzero := hsum regions 0
  rwa [UInt64.toNat_zero, Nat.zero_add] at hzero

theorem totalBytes_take_mono (group : List LocalRegion) {m n : Nat} (h : m ≤ n) :
    totalBytes (group.take m) ≤ totalBytes (group.take n) := by
  have hsplit := List.take_append_drop m (group.take n)
  rw [List.take_take, Nat.min_eq_left h] at hsplit
  rw [← hsplit, totalBytes_append]
  exact Nat.le_add_right _ _

theorem totalBytes_take_le (group : List LocalRegion) (n : Nat) :
    totalBytes (group.take n) ≤ totalBytes group := by
  have hsplit := congrArg totalBytes (List.take_append_drop n group)
  rw [totalBytes_append] at hsplit
  omega

/-- The sum up to the end of a round. -/
theorem totalBytes_take_succ (group : List LocalRegion) (i limit : Nat) :
    totalBytes (group.take ((i + 1) * limit)) =
      totalBytes (group.take (i * limit)) + totalBytes ((group.drop (i * limit)).take limit) := by
  rw [Nat.succ_mul, List.take_add, totalBytes_append]

namespace Endpoint

variable {iovLimit n : UInt64} {group : List LocalRegion} {remote : RemoteRegion}
  {immData : Option UInt32} {i remoteOffset : UInt64} {rounds : Nat}

/-! ### A group that fits -/

theorem length_writeRounds (hcovers : Covers iovLimit n group) (hrounds : i.toNat + rounds = n.toNat)
    (hok : (writeRounds iovLimit n group remote immData rounds i remoteOffset).2 = .ok ()) :
    (writeRounds iovLimit n group remote immData rounds i remoteOffset).1.length = rounds := by
  induction rounds generalizing i remoteOffset with
  | zero => rfl
  | succ rounds ih =>
    have hsucc := toNat_succ hrounds
    rw [writeRounds_succ hcovers (by omega)] at hok ⊢
    dsimp only at hok ⊢
    split at hok
    · cases hok
    · next hfit =>
      rw [if_neg hfit, List.length_cons, @ih (i + 1) _ (by omega) hok]

theorem length_msgIov_le (hcovers : Covers iovLimit n group)
    (hrounds : i.toNat + rounds = n.toNat) :
    ∀ write ∈ (writeRounds iovLimit n group remote immData rounds i remoteOffset).1,
      write.msgIov.length ≤ iovLimit.toNat := by
  induction rounds generalizing i remoteOffset with
  | zero => nofun
  | succ rounds ih =>
    have hsucc := toNat_succ hrounds
    rw [writeRounds_succ hcovers (by omega)]
    dsimp only
    split
    · nofun
    · intro write hwrite
      rcases List.mem_cons.mp hwrite with rfl | hrest
      · exact List.length_take_le _ _
      · exact @ih (i + 1) _ (by omega) write hrest

theorem sum_len_of_consecutive {writes : List RmaWrite}
    (h : Consecutive remote immData remoteOffset writes)
    (htotal : totalBytes (writes.flatMap RmaWrite.msgIov) < 2 ^ 64) :
    (writes.map fun write => write.rmaIov.len.toNat).sum =
      totalBytes (writes.flatMap RmaWrite.msgIov) := by
  induction writes generalizing remoteOffset with
  | nil => rfl
  | cons write writes ih =>
    rw [List.flatMap_cons, totalBytes_append] at htotal ⊢
    obtain ⟨hiov, hrest⟩ := h
    have hlen : write.rmaIov.len.toNat = totalBytes write.msgIov := by
      rw [hiov]
      exact toNat_byteSize (by omega)
    rw [List.map_cons, List.sum_cons, hlen]
    by_cases hnil : writes = []
    · subst hnil
      rfl
    · rw [if_neg hnil] at hrest
      rw [ih hrest.2 (by omega)]

theorem toNat_nbWrites_eq_ceilDiv (hlimit : 0 < iovLimit.toNat)
    (hwrap : group.length + iovLimit.toNat ≤ 2 ^ 64) :
    (nbWrites iovLimit group).toNat = ceilDiv group.length iovLimit.toNat := by
  rw [toNat_nbWrites (by omega) hlimit, Nat.mod_eq_of_lt (by omega)]
  rfl

/-! ### A group that does not fit -/

/-- The check of a round, in integers. -/
theorem toNat_offset_add (group : List LocalRegion) {offset : UInt64} {j : Nat}
    (hoffset : offset.toNat = totalBytes (group.take (j * iovLimit.toNat))) :
    (offset + byteSize ((group.drop (j * iovLimit.toNat)).take iovLimit.toNat)).toNat =
      totalBytes (group.take ((j + 1) * iovLimit.toNat)) % 2 ^ 64 := by
  rw [UInt64.toNat_add, toNat_byteSize_mod, Nat.add_mod_mod, hoffset, ← totalBytes_take_succ]

/-- There is one chunk that goes beyond the remote region. -/
theorem detected_iff_of_chunk {i : Nat}
    (hbefore : totalBytes (group.take (i * iovLimit.toNat)) ≤ remote.len.toNat)
    (hafter : remote.len.toNat < totalBytes (group.take ((i + 1) * iovLimit.toNat))) :
    Detected iovLimit group remote ↔
      remote.len.toNat < totalBytes (group.take ((i + 1) * iovLimit.toNat)) % 2 ^ 64 := by
  have hmono : ∀ {j k : Nat}, j < k → totalBytes (group.take ((j + 1) * iovLimit.toNat)) ≤
      totalBytes (group.take (k * iovLimit.toNat)) := by
    intro j k hlt
    exact totalBytes_take_mono group (Nat.mul_le_mul_right iovLimit.toNat hlt)
  constructor
  · intro h
    exact h i hbefore hafter
  · intro h j hbefore' hafter'
    have hj : j = i := by
      rcases Nat.lt_trichotomy j i with hlt | heq | hgt
      · have hle := hmono hlt
        omega
      · exact heq
      · have hle := hmono hgt
        omega
    rw [hj]
    exact h

/-- The rounds throw before they write beyond the remote region exactly if the round
    that does not fit is detected. -/
theorem writeRounds_exceeding_iff (hcovers : Covers iovLimit n group)
    (hrounds : i.toNat + rounds = n.toNat)
    (hoffset : remoteOffset.toNat = totalBytes (group.take (i.toNat * iovLimit.toNat)))
    (hinside : remoteOffset.toNat ≤ remote.len.toNat)
    (htotal : remote.len.toNat < totalBytes group) :
    ((∃ exception,
        (writeRounds iovLimit n group remote immData rounds i remoteOffset).2 = .error exception) ∧
      ∀ write ∈ (writeRounds iovLimit n group remote immData rounds i remoteOffset).1,
        Inside remote write ∧ write.immData = none) ↔ Detected iovLimit group remote := by
  induction rounds generalizing i remoteOffset with
  | zero =>
    -- the whole group has been sent
    have hends := hcovers.ends
    rw [← hrounds, Nat.add_zero] at hends
    rw [List.take_of_length_le hends] at hoffset
    omega
  | succ rounds ih =>
    have hsucc := toNat_succ hrounds
    have hend := toNat_offset_add group hoffset
    have hchunk := totalBytes_take_succ group i.toNat iovLimit.toNat
    rw [writeRounds_succ hcovers (by omega)]
    dsimp only
    by_cases hfit : totalBytes (group.take ((i.toNat + 1) * iovLimit.toNat)) ≤ remote.len.toNat
    · have hlen := remote.len.toNat_lt
      rw [Nat.mod_eq_of_lt (by omega)] at hend
      rw [if_neg (by rw [gt_iff_lt, UInt64.lt_iff_toNat_lt, hend]; omega)]
      -- more is to come, since the group does not fit
      have hmore : rounds ≠ 0 := by
        rintro rfl
        have hends := hcovers.ends
        rw [← hrounds] at hends
        have hall := List.take_of_length_le hends
        rw [hall] at hfit
        omega
      have hnone : i ≠ n - 1 := mt (eq_last_iff hrounds).mp hmore
      have hrest := @ih (i + 1) _ (by omega) (by rw [hend, hsucc]) (by omega)
      rw [← hrest]
      refine and_congr_right fun _ => ⟨fun h write hwrite => h write (List.mem_cons_of_mem _ hwrite),
        fun h write hwrite => ?_⟩
      rcases List.mem_cons.mp hwrite with rfl | hwrite
      · refine ⟨?_, if_neg hnone⟩
        unfold Inside
        dsimp only
        rw [UInt64.add_comm, UInt64.add_sub_cancel, hoffset]
        omega
      · exact h write hwrite
    · -- this is the round that does not fit
      rw [detected_iff_of_chunk (hoffset ▸ hinside) (Nat.lt_of_not_le hfit)]
      by_cases hcheck : remote.len.toNat <
          totalBytes (group.take ((i.toNat + 1) * iovLimit.toNat)) % 2 ^ 64
      · rw [if_pos (by rw [gt_iff_lt, UInt64.lt_iff_toNat_lt, hend]; exact hcheck)]
        exact iff_of_true ⟨⟨_, rfl⟩, nofun⟩ hcheck
      · rw [if_neg (by rw [gt_iff_lt, UInt64.lt_iff_toNat_lt, hend]; exact hcheck)]
        refine iff_of_false (fun h => ?_) hcheck
        have hwrite := (h.2 _ List.mem_cons_self).1
        unfold Inside at hwrite
        dsimp only at hwrite
        rw [UInt64.add_comm, UInt64.add_sub_cancel, hoffset] at hwrite
        omega

/-- A prefix of the writes has what all of them have. -/
theorem exceeding_accepted (localGroup : LocalRegionGroup) (accepted : Nat)
    (hexceeding : (∃ exception,
        (writeGroup iovLimit localGroup.inner remote immData).2 = .error exception) ∧
      ∀ write ∈ (writeGroup iovLimit localGroup.inner remote immData).1,
        Inside remote write ∧ write.immData = none) :
    (∃ exception, (writeAccepted accepted iovLimit localGroup remote immData).2 =
        .error exception) ∧
      ∀ write ∈ (writeAccepted accepted iovLimit localGroup remote immData).1,
        Inside remote write ∧ write.immData = none := by
  obtain ⟨⟨exception, hthrown⟩, hwrites⟩ := hexceeding
  unfold writeAccepted
  dsimp only
  rw [hthrown]
  split
  · exact ⟨⟨_, rfl⟩, hwrites⟩
  · exact ⟨⟨_, rfl⟩, fun write hwrite => hwrites write (List.mem_of_mem_take hwrite)⟩

/-- A provider that takes all posts lets the loop's own result through. -/
theorem writeAccepted_of_le {accepted : Nat} {localGroup : LocalRegionGroup}
    (h : (writeGroup iovLimit localGroup.inner remote immData).1.length ≤ accepted) :
    writeAccepted accepted iovLimit localGroup remote immData =
      match (writeGroup iovLimit localGroup.inner remote immData).2 with
      | .ok () => ((writeGroup iovLimit localGroup.inner remote immData).1,
          .ok (nbWrites iovLimit localGroup.inner))
      | .error exception => ((writeGroup iovLimit localGroup.inner remote immData).1,
          .error (.fabrics exception)) := by
  unfold writeAccepted
  dsimp only
  rw [if_pos h]

theorem splits_of_counted {localGroup : LocalRegionGroup} (hgroup : localGroup.inner ≠ [])
    (hlimit : 0 < iovLimit.toNat)
    (hcounted : localGroup.inner.length + iovLimit.toNat ≤ 2 ^ 64)
    (hdetected : Detected iovLimit localGroup.inner remote) (accepted : Nat) :
    Splits iovLimit localGroup remote immData accepted := by
  have hcovers := covers_nbWrites hlimit hcounted
  have hn := toNat_nbWrites_eq_ceilDiv hlimit hcounted
  constructor
  · intro hfit haccepted
    have hfit' : (0 : UInt64).toNat + totalBytes (localGroup.inner.drop
        ((0 : UInt64).toNat * iovLimit.toNat)) ≤ remote.len.toNat := by
      rw [UInt64.toNat_zero, Nat.zero_mul, Nat.zero_add]
      exact hfit
    have hok : (writeGroup iovLimit localGroup.inner remote immData).2 = .ok () :=
      writeRounds_fit hcovers (Nat.zero_add _) hfit'
    have hlength : (writeGroup iovLimit localGroup.inner remote immData).1.length =
        (nbWrites iovLimit localGroup.inner).toNat :=
      length_writeRounds hcovers (Nat.zero_add _) hok
    obtain ⟨hconsecutive, hflat⟩ := writeGroup_ok hlimit hcounted hgroup hok
    refine ⟨_, _, ?_, hn, hlength, length_msgIov_le hcovers (Nat.zero_add _), hflat, hconsecutive, ?_⟩
    · rw [writeAccepted_of_le (by rw [hlength, hn]; exact haccepted), hok]
    · have hlen := remote.len.toNat_lt
      have hsum := sum_len_of_consecutive hconsecutive (by rw [hflat]; omega)
      rwa [hflat] at hsum
  · intro hexceeding
    apply exceeding_accepted
    refine (writeRounds_exceeding_iff hcovers (Nat.zero_add _) ?_ ?_ hexceeding).mpr hdetected
    · rw [UInt64.toNat_zero, Nat.zero_mul]
      rfl
    · exact Nat.zero_le _

/-- A limit so large that the rounded-up quotient wraps: nothing is posted or thrown. -/
theorem not_splits_of_wrap {localGroup : LocalRegionGroup} (hgroup : localGroup.inner ≠ [])
    (hlimit : 0 < iovLimit.toNat)
    (hwrap : 2 ^ 64 < localGroup.inner.length + iovLimit.toNat) :
    ∃ accepted, ¬ Splits iovLimit localGroup remote immData accepted := by
  refine ⟨ceilDiv localGroup.inner.length iovLimit.toNat, fun h => ?_⟩
  have hnothing := @writeGroup_of_wrap iovLimit localGroup.inner remote immData localGroup.size_lt
    hlimit hwrap
  have hreturned : writeAccepted (ceilDiv localGroup.inner.length iovLimit.toNat) iovLimit
      localGroup remote immData = ([], .ok (nbWrites iovLimit localGroup.inner)) := by
    rw [writeAccepted_of_le (by rw [hnothing]; exact Nat.zero_le _), hnothing]
  rcases Nat.lt_or_ge remote.len.toNat (totalBytes localGroup.inner) with hexceeding | hfit
  · obtain ⟨⟨exception, hthrown⟩, -⟩ := h.exceeding hexceeding
    rw [hreturned] at hthrown
    cases hthrown
  · obtain ⟨writes, n, heq, -, -, -, hflat, -⟩ := h.fitting hfit le_rfl
    rw [hreturned] at heq
    obtain ⟨rfl, -⟩ := Prod.mk.inj heq
    exact hgroup hflat.symm

/-- An end that wraps is not detected, and the write goes beyond the remote region. -/
theorem not_splits_of_not_detected {localGroup : LocalRegionGroup} (hlimit : 0 < iovLimit.toNat)
    (hcounted : localGroup.inner.length + iovLimit.toNat ≤ 2 ^ 64)
    (hdetected : ¬ Detected iovLimit localGroup.inner remote) :
    ∃ accepted, ¬ Splits iovLimit localGroup remote immData accepted := by
  have hexceeding : remote.len.toNat < totalBytes localGroup.inner := by
    simp only [Detected, not_forall] at hdetected
    obtain ⟨i, -, hafter, -⟩ := hdetected
    exact lt_of_lt_of_le hafter (totalBytes_take_le _ _)
  have hiff := @writeRounds_exceeding_iff iovLimit (nbWrites iovLimit localGroup.inner)
    localGroup.inner remote immData 0 0 _ (covers_nbWrites hlimit hcounted) (Nat.zero_add _)
    (by rw [UInt64.toNat_zero, Nat.zero_mul]; rfl) (Nat.zero_le _) hexceeding
  refine ⟨(writeGroup iovLimit localGroup.inner remote immData).1.length, fun h => ?_⟩
  obtain ⟨⟨exception, hthrown⟩, hwrites⟩ := h.exceeding hexceeding
  rw [writeAccepted_of_le le_rfl] at hthrown hwrites
  apply hdetected
  apply hiff.mp
  change (∃ exception, (writeGroup iovLimit localGroup.inner remote immData).2 =
    .error exception) ∧ ∀ write ∈ (writeGroup iovLimit localGroup.inner remote immData).1, _
  cases hresult : (writeGroup iovLimit localGroup.inner remote immData).2 with
  | ok _ =>
    rw [hresult] at hthrown
    cases hthrown
  | error exception =>
    rw [hresult] at hwrites
    exact ⟨⟨_, rfl⟩, hwrites⟩

end Endpoint

/-- **Splitting a group.**  A group is split into the writes that carry it, and one that
    does not fit is turned down in time, whatever the provider takes, if and only if
    neither the number of writes nor the end of the chunk that does not fit wraps. -/
theorem splits_iff (iovLimit : UInt64) (localGroup : LocalRegionGroup) (remote : RemoteRegion)
    (immData : Option UInt32) (hgroup : localGroup.inner ≠ []) (hlimit : 1 ≤ iovLimit.toNat) :
    (∀ accepted, Splits iovLimit localGroup remote immData accepted) ↔
      localGroup.inner.length + iovLimit.toNat ≤ 2 ^ 64 ∧
        Detected iovLimit localGroup.inner remote := by
  constructor
  · intro h
    have hcounted : localGroup.inner.length + iovLimit.toNat ≤ 2 ^ 64 := by
      by_contra hwrap
      obtain ⟨accepted, hnot⟩ := @Endpoint.not_splits_of_wrap iovLimit remote immData localGroup
        hgroup hlimit (by omega)
      exact hnot (h accepted)
    refine ⟨hcounted, ?_⟩
    by_contra hdetected
    obtain ⟨accepted, hnot⟩ := @Endpoint.not_splits_of_not_detected iovLimit remote immData
      localGroup hlimit hcounted hdetected
    exact hnot (h accepted)
  · rintro ⟨hcounted, hdetected⟩ accepted
    exact Endpoint.splits_of_counted hgroup hlimit hcounted hdetected accepted

/-! ### Groups of three and of two regions -/

theorem threeRegions_size_lt : [LocalRegion.mk 0 4 0, ⟨8, 4, 0⟩, ⟨16, 4, 0⟩].length < 2 ^ 64 := by
  decide

/-- Three regions of four bytes. -/
def threeRegions : LocalRegionGroup := ⟨[⟨0, 4, 0⟩, ⟨8, 4, 0⟩, ⟨16, 4, 0⟩], threeRegions_size_lt⟩

theorem totalBytes_threeRegions : totalBytes threeRegions.inner = 12 := rfl

/-- Three regions and a limit of two, for a remote region of 16 bytes. -/
theorem splits_threeRegions : Splits 2 threeRegions ⟨4096, 16, 0⟩ (some 7) 2 := by
  refine (splits_iff 2 threeRegions ⟨4096, 16, 0⟩ (some 7) (List.cons_ne_nil _ _) (by decide)).mpr
    ⟨by decide, fun i _ hafter => ?_⟩ 2
  have hle := totalBytes_take_le threeRegions.inner ((i + 1) * (2 : UInt64).toNat)
  rw [totalBytes_threeRegions] at hle
  exact absurd (lt_of_lt_of_le hafter hle) (by decide)

theorem halves_size_lt :
    [LocalRegion.mk 0 9223372036854775808 0, ⟨0, 9223372036854775812, 0⟩].length < 2 ^ 64 := by
  decide

/-- Two regions, four bytes longer together than the number range. -/
def halves : LocalRegionGroup :=
  ⟨[⟨0, 9223372036854775808, 0⟩, ⟨0, 9223372036854775812, 0⟩], halves_size_lt⟩

/-- A limit next to the end of the number range sends nothing, and of two regions whose
    sizes wrap together the second one is written beyond the remote region. -/
theorem nothing_written_or_too_much :
    (∃ accepted, ¬ Splits 18446744073709551615 threeRegions ⟨4096, 16, 0⟩ (some 7) accepted) ∧
      ∃ accepted, ¬ Splits 1 halves ⟨4096, 9223372036854775808, 0⟩ (some 7) accepted := by
  constructor
  · exact Endpoint.not_splits_of_wrap (List.cons_ne_nil _ _) (by decide) (by decide)
  · apply Endpoint.not_splits_of_not_detected (by decide) (by decide)
    intro h
    exact absurd (h 1 (by decide) (by decide)) (by decide)

end MediaExchange
