/-
  MediaExchange/AncillaryRoundTrip.lean
  =====================================
  **Ancillary data, there and back.**

  Each parser of `AncillaryData` accepts exactly what the writer of its layout
  produces: `st2038Packet` and `smpte291Packet` are the two layouts of one
  `AncillaryMeta`, and a parser succeeds on a packet in front of anything.  The
  loops over the packets inherit this (`convertToSmpte291_eq_ok`,
  `convertToSt2038_eq_ok`), so that a whole buffer and a whole grain are one list
  of `AncillaryMeta` in two layouts.

  `S`, `StreamNum`, `F`, the reserved bits and what stands behind `Length` are the
  only bits of a grain that ST 2038 does not carry.  Where they are zero, nothing
  is lost on the way back either.
-/
import MediaExchange.AncillaryData

namespace MediaExchange.AncillaryData

open MediaExchange.BitStream

/-! ### Words -/

theorem readU16_eq_ok {n : Nat} (hn : n ≤ 16) {e : AncillaryMapError} {bits rest : List Bool}
    {v : UInt16} :
    readU16 n e bits = .ok (v, rest) ↔ bits = bitsOfNat n v.toNat ++ rest ∧ v.toNat < 2 ^ n := by
  have hsize : 2 ^ n ≤ 2 ^ 16 := Nat.pow_le_pow_right (by decide) hn
  simp only [readU16, bind_eq_ok, read_eq_ok, pure_eq_ok]
  constructor
  · rintro ⟨w, _, ⟨rfl, hw⟩, rfl, rfl⟩
    have htoNat : (UInt16.ofNat w).toNat = w := by
      rw [UInt16.toNat_ofNat']
      exact Nat.mod_eq_of_lt (Nat.lt_of_lt_of_le hw hsize)
    rw [htoNat]
    exact ⟨rfl, hw⟩
  · rintro ⟨rfl, hv⟩
    exact ⟨v.toNat, rest, ⟨rfl, hv⟩, UInt16.ofNat_toNat, rfl⟩

theorem readUserData_eq_ok {n : Nat} {e : AncillaryMapError} {bits rest : List Bool}
    {data : List UInt16} :
    readMany (readU16 10 e) n bits = .ok (data, rest) ↔
      bits = data.flatMap (fun udw => bitsOfNat 10 udw.toNat) ++ rest ∧ data.length = n ∧
        ∀ udw ∈ data, udw.toNat < 2 ^ 10 :=
  readMany_eq_ok fun _ _ _ => readU16_eq_ok (by decide)

/-! ### The two layouts of a packet -/

/-- Every field fits its bits, and there are as many user data words as are
    announced. -/
structure AncillaryMeta.WellFormed (m : AncillaryMeta) : Prop where
  line : m.line.toNat < 2 ^ 11
  offset : m.offset.toNat < 2 ^ 12
  did : m.did.toNat < 2 ^ 10
  sdidBlockNumber : m.sdidBlockNumber.toNat < 2 ^ 10
  dataCount : m.dataCount.toNat < 2 ^ 10
  length : m.data.length = (m.dataCount &&& 0xff).toNat
  data : ∀ udw ∈ m.data, udw.toNat < 2 ^ 10
  checksum : m.checksum.toNat < 2 ^ 10

/-- The channel and the place, with which both layouts begin. -/
def AncillaryMeta.place (m : AncillaryMeta) : List Bool :=
  m.cNotYChannel :: (bitsOfNat 11 m.line.toNat ++ bitsOfNat 12 m.offset.toNat)

/-- The data packet, with which both layouts end. -/
def AncillaryMeta.dataPacket (m : AncillaryMeta) : List Bool :=
  bitsOfNat 10 m.did.toNat ++ bitsOfNat 10 m.sdidBlockNumber.toNat ++
    bitsOfNat 10 m.dataCount.toNat ++ m.data.flatMap (fun udw => bitsOfNat 10 udw.toNat) ++
    bitsOfNat 10 m.checksum.toNat

def st2038Bits (m : AncillaryMeta) : List Bool := bitsOfNat 6 0 ++ m.place ++ m.dataPacket

def st2038Packet (m : AncillaryMeta) : List UInt8 := ofBits (aligned true (st2038Bits m))

def smpte291Bits (s streamNum : Nat) (m : AncillaryMeta) : List Bool :=
  m.place ++ (bitsOfNat 1 s ++ bitsOfNat 7 streamNum) ++ m.dataPacket

def smpte291Packet (s streamNum : Nat) (m : AncillaryMeta) : List UInt8 :=
  wordAlign (ofBits (aligned false (smpte291Bits s streamNum m)))

/-! ### Parsers accept what is written -/

theorem readSt2038Packet_eq_ok {bits rest : List Bool} {m : AncillaryMeta}
    (h : bits.length % 8 = 0) :
    readSt2038Packet bits = .ok (m, rest) ↔
      ∃ word, (m.WellFormed ∧ word = aligned true (st2038Bits m)) ∧ bits = word ++ rest := by
  have hfields : readSt2038Packet bits = .ok (m, rest) ↔
      m.WellFormed ∧ ∃ unaligned, bits = st2038Bits m ++ unaligned ∧
        unaligned = List.replicate (unaligned.length % 8) true ++ rest := by
    simp only [readSt2038Packet, bind_eq_ok, read_eq_ok, ensure_eq_ok, readBit_eq_ok,
      readU16_eq_ok (n := 10) (by decide), readU16_eq_ok (n := 11) (by decide),
      readU16_eq_ok (n := 12) (by decide), readUserData_eq_ok, skipToByte_eq_ok, pure_eq_ok]
    constructor
    · rintro ⟨zeroes, _, ⟨rfl, -⟩, _, _, ⟨rfl, rfl⟩, c, _, rfl, line, _, ⟨rfl, hline⟩,
        offset, _, ⟨rfl, hoffset⟩, did, _, ⟨rfl, hdid⟩, sdid, _, ⟨rfl, hsdid⟩,
        dataCount, _, ⟨rfl, hdataCount⟩, data, _, ⟨rfl, hlength, hdata⟩,
        checksum, unaligned, ⟨rfl, hchecksum⟩, _, _, hskip, rfl, rfl⟩
      refine ⟨⟨hline, hoffset, hdid, hsdid, hdataCount, hlength, hdata, hchecksum⟩,
        unaligned, ?_, hskip⟩
      simp only [st2038Bits, AncillaryMeta.place, AncillaryMeta.dataPacket, List.append_assoc,
        List.cons_append]
    · rintro ⟨hm, unaligned, rfl, hskip⟩
      refine ⟨0, _, ⟨?_, by decide⟩, (), _, ⟨rfl, rfl⟩, m.cNotYChannel, _, rfl,
        m.line, _, ⟨rfl, hm.line⟩, m.offset, _, ⟨rfl, hm.offset⟩, m.did, _, ⟨rfl, hm.did⟩,
        m.sdidBlockNumber, _, ⟨rfl, hm.sdidBlockNumber⟩, m.dataCount, _, ⟨rfl, hm.dataCount⟩,
        m.data, _, ⟨rfl, hm.length, hm.data⟩, m.checksum, unaligned, ⟨rfl, hm.checksum⟩,
        (), rest, hskip, rfl, rfl⟩
      simp only [st2038Bits, AncillaryMeta.place, AncillaryMeta.dataPacket, List.append_assoc,
        List.cons_append]
  rw [hfields, skip_aligned h]
  constructor
  · rintro ⟨hm, hbits⟩
    exact ⟨_, ⟨hm, rfl⟩, hbits⟩
  · rintro ⟨_, ⟨hm, rfl⟩, hbits⟩
    exact ⟨hm, hbits⟩

theorem ancillaryMetaFromSt2038AncPacket_eq_ok {st2038 rest : List UInt8} {m : AncillaryMeta} :
    ancillaryMetaFromSt2038AncPacket st2038 = .ok (m, rest) ↔
      m.WellFormed ∧ st2038 = st2038Packet m ++ rest := by
  rw [ancillaryMetaFromSt2038AncPacket,
    onBytes_eq_ok (fun m word (h : m.WellFormed ∧ word = aligned true (st2038Bits m)) =>
      h.2 ▸ length_aligned true _) (fun _ _ _ => readSt2038Packet_eq_ok)]
  constructor
  · rintro ⟨_, ⟨hm, rfl⟩, h⟩
    exact ⟨hm, h⟩
  · rintro ⟨hm, h⟩
    exact ⟨_, ⟨hm, rfl⟩, h⟩

/-- The bits of an RFC 8331 packet, up to its last byte. -/
def WritesSmpte291 (m : AncillaryMeta) (word : List Bool) : Prop :=
  m.WellFormed ∧ ∃ s streamNum, s < 2 ^ 1 ∧ streamNum < 2 ^ 7 ∧
    word = aligned false (smpte291Bits s streamNum m)

theorem readSmpte291Packet_eq_ok {bits rest : List Bool} {m : AncillaryMeta}
    (h : bits.length % 8 = 0) :
    readSmpte291Packet bits = .ok (m, rest) ↔
      ∃ word, WritesSmpte291 m word ∧ bits = word ++ rest := by
  have hfields : readSmpte291Packet bits = .ok (m, rest) ↔
      m.WellFormed ∧ ∃ s streamNum, s < 2 ^ 1 ∧ streamNum < 2 ^ 7 ∧
        ∃ unaligned, bits = smpte291Bits s streamNum m ++ unaligned ∧
          unaligned = List.replicate (unaligned.length % 8) false ++ rest := by
    simp only [readSmpte291Packet, bind_eq_ok, read_eq_ok, readBit_eq_ok,
      readU16_eq_ok (n := 10) (by decide), readU16_eq_ok (n := 11) (by decide),
      readU16_eq_ok (n := 12) (by decide), readUserData_eq_ok, skipToByte_eq_ok, pure_eq_ok]
    constructor
    · rintro ⟨c, _, rfl, line, _, ⟨rfl, hline⟩, offset, _, ⟨rfl, hoffset⟩, s, _, ⟨rfl, hs⟩,
        streamNum, _, ⟨rfl, hstreamNum⟩, did, _, ⟨rfl, hdid⟩, sdid, _, ⟨rfl, hsdid⟩,
        dataCount, _, ⟨rfl, hdataCount⟩, data, _, ⟨rfl, hlength, hdata⟩,
        checksum, unaligned, ⟨rfl, hchecksum⟩, _, _, hskip, rfl, rfl⟩
      refine ⟨⟨hline, hoffset, hdid, hsdid, hdataCount, hlength, hdata, hchecksum⟩,
        s, streamNum, hs, hstreamNum, unaligned, ?_, hskip⟩
      simp only [smpte291Bits, AncillaryMeta.place, AncillaryMeta.dataPacket, List.append_assoc,
        List.cons_append]
    · rintro ⟨hm, s, streamNum, hs, hstreamNum, unaligned, rfl, hskip⟩
      refine ⟨m.cNotYChannel, _, ?_, m.line, _, ⟨rfl, hm.line⟩, m.offset, _, ⟨rfl, hm.offset⟩,
        s, _, ⟨rfl, hs⟩, streamNum, _, ⟨rfl, hstreamNum⟩, m.did, _, ⟨rfl, hm.did⟩,
        m.sdidBlockNumber, _, ⟨rfl, hm.sdidBlockNumber⟩, m.dataCount, _, ⟨rfl, hm.dataCount⟩,
        m.data, _, ⟨rfl, hm.length, hm.data⟩, m.checksum, unaligned, ⟨rfl, hm.checksum⟩,
        (), rest, hskip, rfl, rfl⟩
      simp only [smpte291Bits, AncillaryMeta.place, AncillaryMeta.dataPacket, List.append_assoc,
        List.cons_append]
  simp only [hfields, skip_aligned h, WritesSmpte291]
  constructor
  · rintro ⟨hm, s, streamNum, hs, hstreamNum, hbits⟩
    exact ⟨_, ⟨hm, s, streamNum, hs, hstreamNum, rfl⟩, hbits⟩
  · rintro ⟨_, ⟨hm, s, streamNum, hs, hstreamNum, rfl⟩, hbits⟩
    exact ⟨hm, s, streamNum, hs, hstreamNum, hbits⟩

theorem skipToWord_eq_ok {position : Nat} {bytes rest : List UInt8} :
    skipToWord position bytes = .ok rest ↔
      bytes = List.replicate ((4 - position % 4) % 4) 0 ++ rest := by
  induction bytes generalizing position with
  | nil =>
    rw [skipToWord]
    split
    · next hword => simp [hword, eq_comm]
    · next hword =>
      have hmissing : (4 - position % 4) % 4 ≠ 0 := by omega
      constructor
      · intro h
        cases h
      · intro h
        have hlength := congrArg List.length h
        rw [List.length_nil, List.length_append, List.length_replicate] at hlength
        omega
  | cons zero bytes ih =>
    rw [skipToWord]
    split
    · next hword => simp [hword]
    · next hword =>
      have hmissing : (4 - position % 4) % 4 = (4 - (position + 1) % 4) % 4 + 1 := by omega
      rw [hmissing, List.replicate_succ, List.cons_append, List.cons.injEq]
      split
      · next hzero =>
        constructor
        · intro h
          cases h
        · intro h
          exact absurd h.1 hzero
      · next hzero => rw [ih, and_iff_right (not_not.mp hzero)]

theorem wordAlign_eq (packet : List UInt8) :
    wordAlign packet = packet ++ List.replicate ((4 - packet.length % 4) % 4) 0 := by
  fun_induction wordAlign packet with
  | case1 packet h => simp [h]
  | case2 packet h ih =>
    have hmissing : (4 - packet.length % 4) % 4 = (4 - (packet.length + 1) % 4) % 4 + 1 := by omega
    rw [ih, List.length_append, List.length_singleton, hmissing, List.replicate_succ,
      List.append_assoc, List.singleton_append]

/-- Skipping to the next word after a packet finds what follows its alignment. -/
theorem skipToWord_left {packet left rest : List UInt8} :
    skipToWord ((packet ++ left).length - left.length) left = .ok rest ↔
      packet ++ left = wordAlign packet ++ rest := by
  rw [List.length_append, Nat.add_sub_cancel, skipToWord_eq_ok, wordAlign_eq, List.append_assoc,
    List.append_cancel_left_eq]

theorem ancillaryMetaFromSmpte291AncPacket_eq_ok {smpte291 rest : List UInt8}
    {m : AncillaryMeta} :
    ancillaryMetaFromSmpte291AncPacket smpte291 = .ok (m, rest) ↔
      m.WellFormed ∧ ∃ s streamNum, s < 2 ^ 1 ∧ streamNum < 2 ^ 7 ∧
        smpte291 = smpte291Packet s streamNum m ++ rest := by
  have hread {left : List UInt8} : onBytes readSmpte291Packet smpte291 = .ok (m, left) ↔
      ∃ word, WritesSmpte291 m word ∧ smpte291 = ofBits word ++ left := by
    apply onBytes_eq_ok
    · rintro m word ⟨-, s, streamNum, -, -, rfl⟩
      exact length_aligned false _
    · intro _ _ _
      exact readSmpte291Packet_eq_ok
  constructor
  · intro h
    rw [ancillaryMetaFromSmpte291AncPacket] at h
    obtain ⟨⟨m', left⟩, hpacket, h⟩ := of_bind_eq_ok h
    obtain ⟨left', hword, h⟩ := of_bind_eq_ok h
    obtain ⟨rfl, rfl⟩ := Prod.mk.inj (Except.ok.inj h)
    obtain ⟨_, ⟨hm, s, streamNum, hs, hstreamNum, rfl⟩, rfl⟩ := hread.mp hpacket
    exact ⟨hm, s, streamNum, hs, hstreamNum, skipToWord_left.mp hword⟩
  · rintro ⟨hm, s, streamNum, hs, hstreamNum, hsplit⟩
    have hpadded := hsplit
    rw [smpte291Packet, wordAlign_eq, List.append_assoc] at hpadded
    have hpacket := hread.mpr ⟨_, ⟨hm, s, streamNum, hs, hstreamNum, rfl⟩, hpadded⟩
    have hword := skipToWord_left.mpr (hpadded.symm.trans hsplit)
    rw [← hpadded] at hword
    rw [ancillaryMetaFromSmpte291AncPacket, hpacket, ok_bind]
    simp only [hword, ok_bind]
    rfl

/-! ### Writers write the layout -/

theorem writeU16_eq_ok {n : Nat} {v : UInt16} {e : AncillaryMapError} {bits : List Bool}
    (h : v.toNat < 2 ^ n) : writeU16 n v e bits = .ok (bits ++ bitsOfNat n v.toNat) :=
  write_eq_ok h

theorem writeUserData_eq_ok {e : AncillaryMapError} {data : List UInt16} {bits : List Bool}
    (h : ∀ udw ∈ data, udw.toNat < 2 ^ 10) :
    writeUserData e data bits = .ok (bits ++ data.flatMap fun udw => bitsOfNat 10 udw.toNat) := by
  have hmap : ∀ v ∈ data.map UInt16.toNat, v < 2 ^ 10 := by
    intro v hv
    obtain ⟨udw, hudw, rfl⟩ := List.mem_map.mp hv
    exact h udw hudw
  rw [writeUserData, writeMany_eq_ok hmap, List.flatMap_map]

theorem st2038AncPacketFromAncillaryMeta_eq {st2038 : List UInt8} {m : AncillaryMeta}
    (hm : m.WellFormed) :
    st2038AncPacketFromAncillaryMeta st2038 m = .ok (st2038 ++ st2038Packet m) := by
  have hzeroes : (0 : Nat) < 2 ^ 6 := by decide
  simp only [st2038AncPacketFromAncillaryMeta, write_eq_ok hzeroes, writeU16_eq_ok hm.line,
    writeU16_eq_ok hm.offset, writeU16_eq_ok hm.did, writeU16_eq_ok hm.sdidBlockNumber,
    writeU16_eq_ok hm.dataCount, writeUserData_eq_ok hm.data, writeU16_eq_ok hm.checksum, ok_bind,
    st2038Packet, st2038Bits, AncillaryMeta.place, AncillaryMeta.dataPacket, List.append_assoc,
    List.cons_append, List.nil_append]
  rfl

theorem smpte291AncPacketFromAncillaryMeta_eq {smpte291 : List UInt8} {m : AncillaryMeta}
    (hm : m.WellFormed) :
    smpte291AncPacketFromAncillaryMeta smpte291 m = .ok (smpte291 ++ smpte291Packet 0 0 m) := by
  have hstreamNum : (0 : Nat) < 2 ^ 7 := by decide
  have hs : bitsOfNat 1 0 = [false] := rfl
  simp only [smpte291AncPacketFromAncillaryMeta, write_eq_ok hstreamNum, writeU16_eq_ok hm.line,
    writeU16_eq_ok hm.offset, writeU16_eq_ok hm.did, writeU16_eq_ok hm.sdidBlockNumber,
    writeU16_eq_ok hm.dataCount, writeUserData_eq_ok hm.data, writeU16_eq_ok hm.checksum, ok_bind,
    smpte291Packet, smpte291Bits, hs, AncillaryMeta.place, AncillaryMeta.dataPacket,
    List.append_assoc, List.cons_append, List.nil_append]
  rfl

/-! ### The loops over the packets -/

theorem smpte291FromSt2038AncPacket_eq_ok {smpte291 st2038 written rest : List UInt8} :
    smpte291FromSt2038AncPacket smpte291 st2038 = .ok (written, rest) ↔
      ∃ m : AncillaryMeta, m.WellFormed ∧ st2038 = st2038Packet m ++ rest ∧
        written = smpte291 ++ smpte291Packet 0 0 m := by
  rw [smpte291FromSt2038AncPacket]
  constructor
  · intro h
    obtain ⟨⟨m, rest'⟩, hread, h⟩ := of_bind_eq_ok h
    obtain ⟨hm, hsplit⟩ := ancillaryMetaFromSt2038AncPacket_eq_ok.mp hread
    simp only [smpte291AncPacketFromAncillaryMeta_eq hm] at h
    obtain ⟨rfl, rfl⟩ := Prod.mk.inj (Except.ok.inj h)
    exact ⟨m, hm, hsplit, rfl⟩
  · rintro ⟨m, hm, hsplit, rfl⟩
    have hread := ancillaryMetaFromSt2038AncPacket_eq_ok.mpr ⟨hm, hsplit⟩
    simp only [hread, ok_bind, smpte291AncPacketFromAncillaryMeta_eq hm]
    rfl

theorem st2038FromSmpte291AncPacket_eq_ok {st2038 smpte291 written rest : List UInt8} :
    st2038FromSmpte291AncPacket st2038 smpte291 = .ok (written, rest) ↔
      ∃ m : AncillaryMeta, (m.WellFormed ∧ ∃ s streamNum, s < 2 ^ 1 ∧ streamNum < 2 ^ 7 ∧
        smpte291 = smpte291Packet s streamNum m ++ rest) ∧ written = st2038 ++ st2038Packet m := by
  rw [st2038FromSmpte291AncPacket]
  constructor
  · intro h
    obtain ⟨⟨m, rest'⟩, hread, h⟩ := of_bind_eq_ok h
    have hm := ancillaryMetaFromSmpte291AncPacket_eq_ok.mp hread
    simp only [st2038AncPacketFromAncillaryMeta_eq hm.1] at h
    obtain ⟨rfl, rfl⟩ := Prod.mk.inj (Except.ok.inj h)
    exact ⟨m, hm, rfl⟩
  · rintro ⟨m, hm, rfl⟩
    have hread := ancillaryMetaFromSmpte291AncPacket_eq_ok.mpr hm
    simp only [hread, ok_bind, st2038AncPacketFromAncillaryMeta_eq hm.1]
    rfl

theorem st2038Packet_ne_nil (m : AncillaryMeta) : st2038Packet m ≠ [] := by
  intro h
  have hlength := length_ofBits (length_aligned true (st2038Bits m))
  have hzeroes : 6 ≤ (aligned true (st2038Bits m)).length := by
    simp only [aligned, st2038Bits, List.length_append, length_bitsOfNat]
    omega
  rw [← st2038Packet, h, List.length_nil] at hlength
  omega

/-- The first loop: a buffer is a list of packets, not more than `ancCount` can
    count. -/
theorem convertToSmpte291_eq_ok {smpte291 remaining written : List UInt8}
    {ancCount total : UInt8} :
    convertToSmpte291 smpte291 remaining ancCount = .ok (written, total) ↔
      ∃ metas : List AncillaryMeta, (∀ m ∈ metas, m.WellFormed) ∧
        remaining = metas.flatMap st2038Packet ∧
        written = smpte291 ++ metas.flatMap (smpte291Packet 0 0) ∧
        ancCount.toNat + metas.length = total.toNat := by
  fun_induction convertToSmpte291 smpte291 remaining ancCount with
  | case1 smpte291 ancCount =>
    constructor
    · intro h
      obtain ⟨rfl, rfl⟩ := Prod.mk.inj (Except.ok.inj h)
      exact ⟨[], List.forall_mem_nil _, rfl, (List.append_nil _).symm, rfl⟩
    · rintro ⟨metas, -, hempty, rfl, htotal⟩
      cases metas with
      | nil => rw [List.flatMap_nil, List.append_nil, UInt8.toNat_inj.mp htotal]
      | cons m metas =>
        rw [List.flatMap_cons] at hempty
        exact absurd (List.append_eq_nil_iff.mp hempty.symm).1 (st2038Packet_ne_nil m)
  | case2 smpte291 remaining hremaining =>
    constructor
    · intro h
      cases h
    · rintro ⟨metas, -, hsplit, -, htotal⟩
      cases metas with
      | nil => exact absurd hsplit hremaining
      | cons m metas =>
        have hlt := total.toNat_lt
        change 255 + (metas.length + 1) = total.toNat at htotal
        omega
  | case3 smpte291 remaining ancCount hremaining hcount e hpacket =>
    constructor
    · intro h
      cases h
    · rintro ⟨metas, hwell, hsplit, -, -⟩
      cases metas with
      | nil => exact absurd hsplit hremaining
      | cons m metas =>
        have hok := (@smpte291FromSt2038AncPacket_eq_ok smpte291 _ _ _).mpr
          ⟨m, hwell m List.mem_cons_self, hsplit, rfl⟩
        rw [hpacket] at hok
        cases hok
  | case4 smpte291 remaining ancCount hremaining hcount smpte291' remaining' hpacket ih =>
    have hsucc := toNat_ancCount_succ hcount
    obtain ⟨m, hm, hsplit, rfl⟩ := smpte291FromSt2038AncPacket_eq_ok.mp hpacket
    rw [ih]
    constructor
    · rintro ⟨metas, hwell, rfl, rfl, htotal⟩
      refine ⟨m :: metas, ?_, hsplit, ?_, ?_⟩
      · exact List.forall_mem_cons.mpr ⟨hm, hwell⟩
      · rw [List.flatMap_cons, List.append_assoc]
      · rw [List.length_cons, ← htotal, hsucc]
        omega
    · rintro ⟨metas, hwell, hsplit', rfl, htotal⟩
      cases metas with
      | nil => exact absurd hsplit' hremaining
      | cons m' metas =>
        obtain ⟨hm', hmetas⟩ := List.forall_mem_cons.mp hwell
        -- the packet in front is read in one way
        have hread := ancillaryMetaFromSt2038AncPacket_eq_ok.mpr ⟨hm, hsplit⟩
        rw [ancillaryMetaFromSt2038AncPacket_eq_ok.mpr ⟨hm', hsplit'⟩] at hread
        obtain ⟨rfl, rfl⟩ := Prod.mk.inj (Except.ok.inj hread)
        refine ⟨metas, hmetas, rfl, ?_, ?_⟩
        · rw [List.flatMap_cons, List.append_assoc]
        · rw [hsucc, ← htotal, List.length_cons]
          omega

/-- An RFC 8331 packet with what ST 2038 does not carry. -/
structure Smpte291Packet where
  s : Nat
  streamNum : Nat
  ancMeta : AncillaryMeta

namespace Smpte291Packet

structure WellFormed (p : Smpte291Packet) : Prop where
  s : p.s < 2 ^ 1
  streamNum : p.streamNum < 2 ^ 7
  ancMeta : p.ancMeta.WellFormed

def bytes (p : Smpte291Packet) : List UInt8 := smpte291Packet p.s p.streamNum p.ancMeta

end Smpte291Packet

/-- The second loop. -/
theorem convertToSt2038_eq_ok {ancCount : Nat} {st2038 remaining written rest : List UInt8} :
    convertToSt2038 ancCount st2038 remaining = .ok (written, rest) ↔
      ∃ packets : List Smpte291Packet, (∀ p ∈ packets, p.WellFormed) ∧
        packets.length = ancCount ∧ remaining = packets.flatMap Smpte291Packet.bytes ++ rest ∧
        written = st2038 ++ packets.flatMap (fun p => st2038Packet p.ancMeta) := by
  induction ancCount generalizing st2038 remaining with
  | zero =>
    rw [convertToSt2038]
    constructor
    · intro h
      obtain ⟨rfl, rfl⟩ := Prod.mk.inj (Except.ok.inj h)
      exact ⟨[], List.forall_mem_nil _, rfl, rfl, (List.append_nil _).symm⟩
    · rintro ⟨packets, -, hlength, rfl, rfl⟩
      obtain rfl := List.length_eq_zero_iff.mp hlength
      rw [List.flatMap_nil, List.flatMap_nil, List.append_nil, List.nil_append]
  | succ ancCount ih =>
    rw [convertToSt2038]
    constructor
    · intro h
      obtain ⟨⟨st2038', remaining'⟩, hpacket, h⟩ := of_bind_eq_ok h
      obtain ⟨packets, hwell, hlength, rfl, rfl⟩ := ih.mp h
      obtain ⟨m, ⟨hm, s, streamNum, hs, hstreamNum, rfl⟩, rfl⟩ :=
        st2038FromSmpte291AncPacket_eq_ok.mp hpacket
      refine ⟨⟨s, streamNum, m⟩ :: packets, ?_, ?_, ?_, ?_⟩
      · exact List.forall_mem_cons.mpr ⟨⟨hs, hstreamNum, hm⟩, hwell⟩
      · rw [List.length_cons, hlength]
      · rw [List.flatMap_cons, List.append_assoc]
        rfl
      · rw [List.flatMap_cons, List.append_assoc]
    · rintro ⟨packets, hwell, hlength, rfl, rfl⟩
      cases packets with
      | nil => cases hlength
      | cons p packets =>
        obtain ⟨hp, hpackets⟩ := List.forall_mem_cons.mp hwell
        have hpacket : st2038FromSmpte291AncPacket st2038
            (p.bytes ++ (packets.flatMap Smpte291Packet.bytes ++ rest)) =
            .ok (st2038 ++ st2038Packet p.ancMeta,
              packets.flatMap Smpte291Packet.bytes ++ rest) :=
          st2038FromSmpte291AncPacket_eq_ok.mpr ⟨p.ancMeta,
            ⟨hp.ancMeta, p.s, p.streamNum, hp.s, hp.streamNum, rfl⟩, rfl⟩
        rw [List.flatMap_cons, List.append_assoc, hpacket, ok_bind]
        apply ih.mpr
        refine ⟨packets, hpackets, Nat.succ.inj hlength, rfl, ?_⟩
        rw [List.flatMap_cons, List.append_assoc]

/-! ### Grains -/

/-- `S` and `StreamNum` are the fourth byte of each of the packets: it is zero. -/
def PlainPackets : Nat → List UInt8 → Prop
  | 0, _ => True
  | ancCount + 1, remaining =>
      match ancillaryMetaFromSmpte291AncPacket remaining with
      | .error _ => False
      | .ok (_, left) => remaining[3]? = some 0 ∧ PlainPackets ancCount left

theorem smpte291Packet_byte_three (s streamNum : Nat) (m : AncillaryMeta) (rest : List UInt8) :
    (smpte291Packet s streamNum m ++ rest)[3]? =
      some (UInt8.ofNat (natOfBits (bitsOfNat 1 s ++ bitsOfNat 7 streamNum))) := by
  have hplace : m.place.length = 24 := by
    simp only [AncillaryMeta.place, List.length_cons, List.length_append, length_bitsOfNat]
  have hfront : (ofBits m.place).length = 3 := by
    have hlength := @length_ofBits m.place (by rw [hplace])
    omega
  have hbyte : (bitsOfNat 1 s ++ bitsOfNat 7 streamNum).length = 8 := by
    rw [List.length_append, length_bitsOfNat, length_bitsOfNat]
  obtain ⟨zeros, haligned⟩ : ∃ zeros, aligned false (smpte291Bits s streamNum m) =
      m.place ++ ((bitsOfNat 1 s ++ bitsOfNat 7 streamNum) ++ (m.dataPacket ++ zeros)) := by
    refine ⟨List.replicate ((8 - (smpte291Bits s streamNum m).length % 8) % 8) false, ?_⟩
    simp only [aligned, smpte291Bits, List.append_assoc]
  have hwhole := length_aligned false (smpte291Bits s streamNum m)
  rw [haligned, List.length_append] at hwhole
  rw [smpte291Packet, wordAlign_eq, haligned,
    ofBits_append_ofBits (by rw [hplace]) (by omega), ofBits_append hbyte, List.append_assoc,
    List.append_assoc, List.getElem?_append_right (by omega), hfront]
  rfl

theorem zero_of_byte_zero {s streamNum : Nat} (hs : s < 2 ^ 1) (hstreamNum : streamNum < 2 ^ 7)
    (h : UInt8.ofNat (natOfBits (bitsOfNat 1 s ++ bitsOfNat 7 streamNum)) = 0) :
    s = 0 ∧ streamNum = 0 := by
  have hvalue := congrArg UInt8.toNat h
  rw [UInt8.toNat_ofNat', natOfBits_append, natOfBits_bitsOfNat hs,
    natOfBits_bitsOfNat hstreamNum, length_bitsOfNat] at hvalue
  change (s * 2 ^ 7 + streamNum) % 2 ^ 8 = 0 at hvalue
  omega

/-- Plain packets carry nothing that ST 2038 does not. -/
theorem bytes_of_plainPackets {packets : List Smpte291Packet} {rest : List UInt8}
    (hwell : ∀ p ∈ packets, p.WellFormed)
    (hplain : PlainPackets packets.length (packets.flatMap Smpte291Packet.bytes ++ rest)) :
    packets.flatMap Smpte291Packet.bytes =
      (packets.map Smpte291Packet.ancMeta).flatMap (smpte291Packet 0 0) := by
  induction packets with
  | nil => rfl
  | cons p packets ih =>
    obtain ⟨hp, hpackets⟩ := List.forall_mem_cons.mp hwell
    have hread : ancillaryMetaFromSmpte291AncPacket
        (p.bytes ++ (packets.flatMap Smpte291Packet.bytes ++ rest)) =
        .ok (p.ancMeta, packets.flatMap Smpte291Packet.bytes ++ rest) :=
      ancillaryMetaFromSmpte291AncPacket_eq_ok.mpr
        ⟨hp.ancMeta, p.s, p.streamNum, hp.s, hp.streamNum, rfl⟩
    simp only [List.flatMap_cons, List.append_assoc, List.length_cons, PlainPackets, hread]
      at hplain
    obtain ⟨hbyte, hrest⟩ := hplain
    rw [Smpte291Packet.bytes, smpte291Packet_byte_three] at hbyte
    obtain ⟨hs, hstreamNum⟩ := zero_of_byte_zero hp.s hp.streamNum (Option.some.inj hbyte)
    rw [List.flatMap_cons, ih hpackets hrest, List.map_cons, List.flatMap_cons,
      Smpte291Packet.bytes, hs, hstreamNum]

theorem grainHeader_eq {length ancCount f reserved : Nat} (hlength : length < 2 ^ 16)
    (hcount : ancCount < 2 ^ 8) :
    grainHeader length ancCount f reserved =
      [UInt8.ofNat (length / 256), UInt8.ofNat (length % 256), UInt8.ofNat ancCount] ++
        ofBits (bitsOfNat 2 f ++ bitsOfNat 22 reserved) := by
  have hhigh : length / 2 ^ 8 < 2 ^ 8 := by omega
  have hlow : length % 2 ^ 8 < 2 ^ 8 := Nat.mod_lt _ (by decide)
  rw [grainHeader, bitsOfNat_add 8 8, List.append_assoc, List.append_assoc, List.append_assoc,
    ofBits_append (length_bitsOfNat 8 _), ofBits_append (length_bitsOfNat 8 _),
    ofBits_append (length_bitsOfNat 8 _), natOfBits_bitsOfNat hhigh, natOfBits_bitsOfNat hlow,
    natOfBits_bitsOfNat hcount]
  rfl

theorem readGrainHeader_eq_ok {smpte291 left : List UInt8} {length ancCount : Nat} :
    onBytes readGrainHeader smpte291 = .ok ((length, ancCount), left) ↔
      length < 2 ^ 16 ∧ ancCount < 2 ^ 8 ∧ ∃ f reserved, f < 2 ^ 2 ∧ reserved < 2 ^ 22 ∧
        smpte291 = grainHeader length ancCount f reserved ++ left := by
  let Writes (header : Nat × Nat) (word : List Bool) : Prop :=
    header.1 < 2 ^ 16 ∧ header.2 < 2 ^ 8 ∧ ∃ f reserved, f < 2 ^ 2 ∧ reserved < 2 ^ 22 ∧
      word = bitsOfNat 16 header.1 ++ bitsOfNat 8 header.2 ++ bitsOfNat 2 f ++ bitsOfNat 22 reserved
  have hwhole (header : Nat × Nat) (word : List Bool) (h : Writes header word) :
      word.length % 8 = 0 := by
    obtain ⟨-, -, f, reserved, -, -, rfl⟩ := h
    simp only [List.length_append, length_bitsOfNat]
  have hread (bits : List Bool) (header : Nat × Nat) (rest : List Bool)
      (_ : bits.length % 8 = 0) :
      readGrainHeader bits = .ok (header, rest) ↔ ∃ word, Writes header word ∧
        bits = word ++ rest := by
    simp only [readGrainHeader, bind_eq_ok, read_eq_ok, pure_eq_ok]
    constructor
    · rintro ⟨length, _, ⟨rfl, hlength⟩, ancCount, _, ⟨rfl, hcount⟩, f, _, ⟨rfl, hf⟩, reserved, _,
        ⟨rfl, hreserved⟩, rfl, rfl⟩
      refine ⟨_, ⟨hlength, hcount, f, reserved, hf, hreserved, rfl⟩, ?_⟩
      simp only [List.append_assoc]
    · rintro ⟨_, ⟨hlength, hcount, f, reserved, hf, hreserved, rfl⟩, rfl⟩
      refine ⟨header.1, _, ⟨?_, hlength⟩, header.2, _, ⟨rfl, hcount⟩, f, _, ⟨rfl, hf⟩, reserved, rest,
        ⟨rfl, hreserved⟩, rfl, rfl⟩
      simp only [List.append_assoc]
  rw [onBytes_eq_ok hwhole hread]
  constructor
  · rintro ⟨_, ⟨hlength, hcount, f, reserved, hf, hreserved, rfl⟩, rfl⟩
    exact ⟨hlength, hcount, f, reserved, hf, hreserved, rfl⟩
  · rintro ⟨hlength, hcount, f, reserved, hf, hreserved, rfl⟩
    exact ⟨_, ⟨hlength, hcount, f, reserved, hf, hreserved, rfl⟩, rfl⟩

theorem length_grainHeader (length ancCount f reserved : Nat) :
    (grainHeader length ancCount f reserved).length = 6 := by
  have hbits : (bitsOfNat 16 length ++ bitsOfNat 8 ancCount ++ bitsOfNat 2 f ++
      bitsOfNat 22 reserved).length = 48 := by
    simp only [List.length_append, length_bitsOfNat]
  have hlength := length_ofBits (by rw [hbits] : _ % 8 = 0)
  rw [hbits] at hlength
  rw [grainHeader]
  omega

/-- The packets of a grain that is made from a buffer. -/
def payloadOf (metas : List AncillaryMeta) : List UInt8 := metas.flatMap (smpte291Packet 0 0)

def grainOf (metas : List AncillaryMeta) : List UInt8 :=
  grainHeader (payloadOf metas).length metas.length 0 0 ++ payloadOf metas ++
    List.replicate (MXL_DATA_FORMAT_GRAIN_SIZE - (6 + (payloadOf metas).length)) 0

theorem padGrain_eq_ok {buf grain : List UInt8} :
    padGrain buf = .ok grain ↔ buf.length ≤ MXL_DATA_FORMAT_GRAIN_SIZE ∧
      grain = buf ++ List.replicate (MXL_DATA_FORMAT_GRAIN_SIZE - buf.length) 0 := by
  rw [padGrain]
  split
  · next h =>
    constructor
    · intro hok
      cases hok
    · intro hok
      exact absurd hok.1 (Nat.not_le.mpr h)
  · next h => rw [Except.ok.injEq, and_iff_right (Nat.not_lt.mp h), eq_comm]

/-- The header is written over the zeros that were put in its place. -/
theorem set_grainHeader {payload : List UInt8} {ancCount : UInt8} (h : payload.length < 2 ^ 16) :
    (((grainHeader 0 0 0 0 ++ payload).set 0 (UInt8.ofNat (payload.length / 256))).set 1
      (UInt8.ofNat (payload.length % 256))).set 2 ancCount =
      grainHeader payload.length ancCount.toNat 0 0 ++ payload := by
  rw [grainHeader_eq (by decide) (by decide), grainHeader_eq h ancCount.toNat_lt,
    UInt8.ofNat_toNat]
  rfl

theorem mxlSmpte291GrainFromGstSt2038_eq_ok {st2038 grain : List UInt8} :
    mxlSmpte291GrainFromGstSt2038 st2038 = .ok grain ↔
      ∃ metas : List AncillaryMeta, (∀ m ∈ metas, m.WellFormed) ∧ metas.length ≤ 255 ∧
        st2038 = metas.flatMap st2038Packet ∧
        6 + (payloadOf metas).length ≤ MXL_DATA_FORMAT_GRAIN_SIZE ∧ grain = grainOf metas := by
  rw [mxlSmpte291GrainFromGstSt2038]
  constructor
  · intro h
    obtain ⟨⟨written, total⟩, hloop, h⟩ := of_bind_eq_ok h
    obtain ⟨metas, hwell, rfl, rfl, htotal⟩ := convertToSmpte291_eq_ok.mp hloop
    simp only [List.length_append, Nat.add_sub_cancel_left] at h
    obtain rfl : total = UInt8.ofNat metas.length := by
      rw [← UInt8.toNat_inj, ← htotal, UInt8.toNat_ofNat']
      have hlt := total.toNat_lt
      change 0 + metas.length = total.toNat at htotal
      change 0 + metas.length = metas.length % 2 ^ 8
      omega
    have hcount : metas.length ≤ 255 := by
      change 0 + metas.length = metas.length % 2 ^ 8 at htotal
      omega
    split at h
    · cases h
    · next hlength =>
      rw [set_grainHeader (Nat.not_le.mp hlength), padGrain_eq_ok, List.length_append,
        length_grainHeader, ← htotal] at h
      obtain ⟨hfits, rfl⟩ := h
      refine ⟨metas, hwell, hcount, rfl, hfits, ?_⟩
      have hzero : (0 : UInt8).toNat + metas.length = metas.length := Nat.zero_add _
      rw [hzero]
      rfl
  · rintro ⟨metas, hwell, hcount, rfl, hfits, rfl⟩
    have hlength : (payloadOf metas).length < 2 ^ 16 := by
      change 6 + (payloadOf metas).length ≤ 4096 at hfits
      omega
    have htotal : (UInt8.ofNat metas.length).toNat = metas.length := by
      rw [UInt8.toNat_ofNat']
      omega
    have hloop : convertToSmpte291 (grainHeader 0 0 0 0) (metas.flatMap st2038Packet) 0 =
        .ok (grainHeader 0 0 0 0 ++ payloadOf metas, UInt8.ofNat metas.length) := by
      refine convertToSmpte291_eq_ok.mpr ⟨metas, hwell, rfl, rfl, ?_⟩
      rw [htotal]
      exact Nat.zero_add _
    simp only [hloop, ok_bind, List.length_append, Nat.add_sub_cancel_left]
    rw [if_neg (Nat.not_le.mpr hlength), set_grainHeader hlength, padGrain_eq_ok,
      List.length_append, length_grainHeader, htotal]
    exact ⟨hfits, rfl⟩

theorem gstSt2038FromMxlSmpte291Grain_eq_ok {grain st2038 : List UInt8} :
    gstSt2038FromMxlSmpte291Grain grain = .ok st2038 ↔
      ∃ (packets : List Smpte291Packet) (f reserved : Nat) (behind : List UInt8),
        (∀ p ∈ packets, p.WellFormed) ∧ packets.length < 2 ^ 8 ∧ f < 2 ^ 2 ∧ reserved < 2 ^ 22 ∧
          (packets.flatMap Smpte291Packet.bytes).length < 2 ^ 16 ∧
          grain = grainHeader (packets.flatMap Smpte291Packet.bytes).length packets.length f
            reserved ++ (packets.flatMap Smpte291Packet.bytes ++ behind) ∧
          st2038 = packets.flatMap fun p => st2038Packet p.ancMeta := by
  rw [gstSt2038FromMxlSmpte291Grain]
  constructor
  · intro h
    obtain ⟨⟨⟨length, ancCount⟩, left⟩, hread, h⟩ := of_bind_eq_ok h
    obtain ⟨hlength, hcount, f, reserved, hf, hreserved, rfl⟩ := readGrainHeader_eq_ok.mp hread
    have hheader := length_grainHeader length ancCount f reserved
    simp only [List.length_append, Nat.add_sub_cancel, List.drop_left] at h
    split at h
    · cases h
    · next hwithin =>
      obtain ⟨⟨written, rest⟩, hloop, h⟩ := of_bind_eq_ok h
      simp only at h
      split at h
      · cases h
      · next hrest =>
        obtain rfl := Except.ok.inj h
        obtain ⟨packets, hwell, rfl, hsplit, rfl⟩ := convertToSt2038_eq_ok.mp hloop
        rw [not_not.mp hrest, List.append_nil] at hsplit
        have hpayload : (packets.flatMap Smpte291Packet.bytes).length = length := by
          rw [← hsplit, List.length_take]
          omega
        refine ⟨packets, f, reserved, left.drop length, hwell, hcount, hf, hreserved,
          hpayload ▸ hlength, ?_, rfl⟩
        rw [hpayload, ← hsplit, List.take_append_drop]
  · rintro ⟨packets, f, reserved, behind, hwell, hcount, hf, hreserved, hlength, rfl, rfl⟩
    have hread := readGrainHeader_eq_ok.mpr ⟨hlength, hcount, f, reserved, hf, hreserved,
      Eq.refl (_ ++ (packets.flatMap Smpte291Packet.bytes ++ behind))⟩
    have hloop : convertToSt2038 packets.length [] (packets.flatMap Smpte291Packet.bytes) =
        .ok (packets.flatMap (fun p => st2038Packet p.ancMeta), []) :=
      convertToSt2038_eq_ok.mpr ⟨packets, hwell, rfl, (List.append_nil _).symm, rfl⟩
    simp only [hread, ok_bind, List.length_append, Nat.add_sub_cancel, List.drop_left,
      List.take_left, hloop]
    rw [if_neg (by omega)]
    rfl

/-! ### Round trips -/

/-- The fields that ST 2038 does not carry are zero: `F` and the reserved bits, `S`
    and `StreamNum` of every packet, and what stands behind `Length`. -/
def UncarriedZero (grain : List UInt8) : Prop :=
  match onBytes readGrainHeader grain with
  | .error _ => False
  | .ok ((length, ancCount), left) =>
      (grain.drop 3).take 3 = [0, 0, 0] ∧ PlainPackets ancCount (left.take length) ∧
        ∀ byte ∈ left.drop length, byte = 0

theorem length_grainOf {metas : List AncillaryMeta}
    (h : 6 + (payloadOf metas).length ≤ MXL_DATA_FORMAT_GRAIN_SIZE) :
    (grainOf metas).length = MXL_DATA_FORMAT_GRAIN_SIZE := by
  rw [grainOf, List.length_append, List.length_append, length_grainHeader, List.length_replicate]
  omega

theorem wellFormed_map {metas : List AncillaryMeta} (h : ∀ m ∈ metas, m.WellFormed) :
    ∀ p ∈ metas.map (Smpte291Packet.mk 0 0), p.WellFormed := by
  intro p hp
  obtain ⟨m, hm, rfl⟩ := List.mem_map.mp hp
  exact ⟨Nat.two_pow_pos 1, Nat.two_pow_pos 7, h m hm⟩

/-- A grain made from a buffer is read back as that buffer. -/
theorem gstSt2038_of_grainOf {metas : List AncillaryMeta} (hwell : ∀ m ∈ metas, m.WellFormed)
    (hcount : metas.length ≤ 255)
    (hfits : 6 + (payloadOf metas).length ≤ MXL_DATA_FORMAT_GRAIN_SIZE) :
    gstSt2038FromMxlSmpte291Grain (grainOf metas) = .ok (metas.flatMap st2038Packet) := by
  have hpayload : (metas.map (Smpte291Packet.mk 0 0)).flatMap Smpte291Packet.bytes =
      payloadOf metas := List.flatMap_map ..
  have hlength : (payloadOf metas).length < 2 ^ 16 := by
    change 6 + (payloadOf metas).length ≤ 4096 at hfits
    omega
  apply gstSt2038FromMxlSmpte291Grain_eq_ok.mpr
  refine ⟨metas.map (Smpte291Packet.mk 0 0), 0, 0,
    List.replicate (MXL_DATA_FORMAT_GRAIN_SIZE - (6 + (payloadOf metas).length)) 0,
    wellFormed_map hwell, ?_, Nat.two_pow_pos 2, Nat.two_pow_pos 22, hpayload ▸ hlength, ?_, ?_⟩
  · rw [List.length_map]
    omega
  · rw [hpayload, List.length_map, ← List.append_assoc]
    rfl
  · rw [List.flatMap_map]

theorem plainPackets_payloadOf {metas : List AncillaryMeta} (hwell : ∀ m ∈ metas, m.WellFormed) :
    PlainPackets metas.length (payloadOf metas) := by
  induction metas with
  | nil => trivial
  | cons m metas ih =>
    obtain ⟨hm, hmetas⟩ := List.forall_mem_cons.mp hwell
    have hread : ancillaryMetaFromSmpte291AncPacket (smpte291Packet 0 0 m ++ payloadOf metas) =
        .ok (m, payloadOf metas) :=
      ancillaryMetaFromSmpte291AncPacket_eq_ok.mpr
        ⟨hm, 0, 0, Nat.two_pow_pos 1, Nat.two_pow_pos 7, rfl⟩
    rw [payloadOf, List.flatMap_cons, List.length_cons, ← payloadOf]
    simp only [PlainPackets, hread]
    exact ⟨smpte291Packet_byte_three 0 0 m _, ih hmetas⟩

/-- A grain made from a buffer has nothing that a buffer cannot carry. -/
theorem uncarriedZero_grainOf {metas : List AncillaryMeta} (hwell : ∀ m ∈ metas, m.WellFormed)
    (hcount : metas.length ≤ 255)
    (hfits : 6 + (payloadOf metas).length ≤ MXL_DATA_FORMAT_GRAIN_SIZE) :
    UncarriedZero (grainOf metas) := by
  have hlength : (payloadOf metas).length < 2 ^ 16 := by
    change 6 + (payloadOf metas).length ≤ 4096 at hfits
    omega
  have hcount' : metas.length < 2 ^ 8 := by omega
  have hread := readGrainHeader_eq_ok.mpr ⟨hlength, hcount', 0, 0, Nat.two_pow_pos 2,
    Nat.two_pow_pos 22, List.append_assoc (grainHeader (payloadOf metas).length metas.length 0 0)
      (payloadOf metas) (List.replicate (MXL_DATA_FORMAT_GRAIN_SIZE -
        (6 + (payloadOf metas).length)) 0)⟩
  rw [UncarriedZero, grainOf, hread]
  change _ ∧ _ ∧ ∀ byte ∈ (payloadOf metas ++ _).drop _, byte = 0
  rw [List.take_left, List.drop_left]
  refine ⟨?_, plainPackets_payloadOf hwell, fun byte hbyte => List.eq_of_mem_replicate hbyte⟩
  rw [grainHeader_eq hlength hcount', List.append_assoc]
  rfl

/-- A grain with nothing that ST 2038 does not carry is made from a buffer. -/
theorem eq_grainOf {packets : List Smpte291Packet} {f reserved : Nat} {behind : List UInt8}
    (hwell : ∀ p ∈ packets, p.WellFormed) (hcount : packets.length < 2 ^ 8) (hf : f < 2 ^ 2)
    (hreserved : reserved < 2 ^ 22)
    (hlength : (packets.flatMap Smpte291Packet.bytes).length < 2 ^ 16)
    (hsize : (grainHeader (packets.flatMap Smpte291Packet.bytes).length packets.length f reserved ++
      (packets.flatMap Smpte291Packet.bytes ++ behind)).length = MXL_DATA_FORMAT_GRAIN_SIZE)
    (hzero : UncarriedZero (grainHeader (packets.flatMap Smpte291Packet.bytes).length
      packets.length f reserved ++ (packets.flatMap Smpte291Packet.bytes ++ behind))) :
    6 + (payloadOf (packets.map Smpte291Packet.ancMeta)).length ≤ MXL_DATA_FORMAT_GRAIN_SIZE ∧
      grainHeader (packets.flatMap Smpte291Packet.bytes).length packets.length f reserved ++
        (packets.flatMap Smpte291Packet.bytes ++ behind) =
        grainOf (packets.map Smpte291Packet.ancMeta) := by
  have hread := readGrainHeader_eq_ok.mpr ⟨hlength, hcount, f, reserved, hf, hreserved,
    Eq.refl (_ ++ (packets.flatMap Smpte291Packet.bytes ++ behind))⟩
  simp only [UncarriedZero, hread, List.take_left, List.drop_left] at hzero
  obtain ⟨hflags, hplain, hbehind⟩ := hzero
  have hpayload : packets.flatMap Smpte291Packet.bytes =
      payloadOf (packets.map Smpte291Packet.ancMeta) :=
    @bytes_of_plainPackets _ [] hwell (by rwa [List.append_nil])
  have hheader : grainHeader (packets.flatMap Smpte291Packet.bytes).length packets.length f
      reserved = grainHeader (packets.flatMap Smpte291Packet.bytes).length packets.length 0 0 := by
    have hthree : (ofBits (bitsOfNat 2 f ++ bitsOfNat 22 reserved)).length = 3 := by
      have hbytes := @length_ofBits (bitsOfNat 2 f ++ bitsOfNat 22 reserved)
        (by rw [List.length_append, length_bitsOfNat, length_bitsOfNat])
      rw [List.length_append, length_bitsOfNat, length_bitsOfNat] at hbytes
      omega
    rw [grainHeader_eq hlength hcount, List.append_assoc] at hflags
    rw [grainHeader_eq hlength hcount, grainHeader_eq hlength hcount]
    change (ofBits _ ++ _).take 3 = [0, 0, 0] at hflags
    rw [← hthree, List.take_left] at hflags
    rw [hflags]
    rfl
  rw [List.length_append, List.length_append, length_grainHeader, hpayload] at hsize
  refine ⟨by omega, ?_⟩
  have hzeros : behind = List.replicate behind.length 0 := List.eq_replicate_of_mem hbehind
  have hrest : MXL_DATA_FORMAT_GRAIN_SIZE -
      (6 + (payloadOf (packets.map Smpte291Packet.ancMeta)).length) = behind.length := by omega
  rw [hheader, hpayload, grainOf, List.length_map, List.append_assoc, hrest, ← hzeros]

/-- A buffer that becomes a grain becomes a whole one, and comes back as it was; a
    grain that becomes a buffer comes back as it was, unless it carries something
    that a buffer cannot. -/
theorem ancillary_roundTrip :
    (∀ st2038 grain, mxlSmpte291GrainFromGstSt2038 st2038 = .ok grain →
      grain.length = MXL_DATA_FORMAT_GRAIN_SIZE ∧
        gstSt2038FromMxlSmpte291Grain grain = .ok st2038) ∧
    ∀ grain st2038, grain.length = MXL_DATA_FORMAT_GRAIN_SIZE →
      gstSt2038FromMxlSmpte291Grain grain = .ok st2038 → UncarriedZero grain →
        mxlSmpte291GrainFromGstSt2038 st2038 = .ok grain := by
  constructor
  · intro st2038 grain h
    obtain ⟨metas, hwell, hcount, rfl, hfits, rfl⟩ := mxlSmpte291GrainFromGstSt2038_eq_ok.mp h
    exact ⟨length_grainOf hfits, gstSt2038_of_grainOf hwell hcount hfits⟩
  · intro grain st2038 hsize h hzero
    obtain ⟨packets, f, reserved, behind, hwell, hcount, hf, hreserved, hlength, rfl, rfl⟩ :=
      gstSt2038FromMxlSmpte291Grain_eq_ok.mp h
    obtain ⟨hfits, hgrain⟩ := eq_grainOf hwell hcount hf hreserved hlength hsize hzero
    apply mxlSmpte291GrainFromGstSt2038_eq_ok.mpr
    refine ⟨packets.map Smpte291Packet.ancMeta, ?_, ?_, ?_, hfits, hgrain⟩
    · intro m hm
      obtain ⟨p, hp, rfl⟩ := List.mem_map.mp hm
      exact (hwell p hp).ancMeta
    · rw [List.length_map]
      omega
    · rw [List.flatMap_map]

/-- A closed caption packet with one user data word. -/
def captionMeta : AncillaryMeta :=
  { cNotYChannel := false, line := 9, offset := 0, did := 0x161, sdidBlockNumber := 0x101
    dataCount := 0x101, data := [0x296], checksum := 0x1f9 }

theorem captionMeta_wellFormed : ∀ m ∈ [captionMeta], m.WellFormed := by
  intro m hm
  obtain rfl := List.mem_singleton.mp hm
  have hdata : ∀ udw ∈ captionMeta.data, udw.toNat < 2 ^ 10 := by
    intro udw hudw
    obtain rfl := List.mem_singleton.mp hudw
    decide
  exact ⟨by decide, by decide, by decide, by decide, by decide, by decide, hdata, by decide⟩

theorem roundTrip_of_caption :
    ∃ st2038 grain, st2038.length = 10 ∧ mxlSmpte291GrainFromGstSt2038 st2038 = .ok grain ∧
      gstSt2038FromMxlSmpte291Grain grain = .ok st2038 ∧ UncarriedZero grain ∧
        mxlSmpte291GrainFromGstSt2038 st2038 = .ok grain := by
  have hfits : 6 + (payloadOf [captionMeta]).length ≤ MXL_DATA_FORMAT_GRAIN_SIZE := by
    rw [payloadOf, List.flatMap_cons, List.flatMap_nil, smpte291Packet, wordAlign_eq]
    decide
  have h := mxlSmpte291GrainFromGstSt2038_eq_ok.mpr
    ⟨[captionMeta], captionMeta_wellFormed, by decide, rfl, hfits, rfl⟩
  obtain ⟨hsize, hback⟩ := ancillary_roundTrip.1 _ _ h
  have hzero := uncarriedZero_grainOf captionMeta_wellFormed (by decide) hfits
  exact ⟨_, _, rfl, h, hback, hzero, ancillary_roundTrip.2 _ _ hsize hback hzero⟩

end MediaExchange.AncillaryData
