/-
  MediaExchange/AncillaryProbe.lean
  =================================
  **What the data probe prints of a grain.**

  `tools/mxl-data-probe/main.cpp` has a parser of its own for the grains of an
  ancillary data flow (`parseAncFrame`).  It reads words of 16 bits, skips one where
  a packet would not begin behind an odd number of words, and unpacks the user data
  words from the word behind the one that ends with `DC`.  Two bits of the first user
  data word are in that word, so that all of them are read two bits too far on.

  The grains are those of the element that writes them
  (`mxlSmpte291GrainFromGstSt2038`).  The place, the identifiers and the count of a
  packet are printed as they were sent; the user data words are not.  A packet whose
  count leaves the remainder 12 modulo 16 fills its last word, and the unpacker reads
  one word beyond it: what follows such a packet is read at the wrong place.
-/
import MediaExchange.AncillaryRoundTrip

namespace MediaExchange.AncillaryProbe

open MediaExchange.BitStream
open MediaExchange.AncillaryData

def Rfc8331HeaderSizeBytes : Nat := 6

def Lower8Bits : Nat := 0x00ff

def Lower10Bits : Nat := 0x03ff

def Lower11Bits : Nat := 0x07ff

/-- Reads big-endian words of 16 bits.  The errors of all readers here are the texts of
    the exceptions. -/
structure BigEndianWordReader where
  bytes : List UInt8
  offset : Nat
  deriving DecidableEq, Repr

namespace BigEndianWordReader

def read (reader : BigEndianWordReader) : Except String (Nat × BigEndianWordReader) :=
  if reader.bytes.length - reader.offset < 2 then
    .error "Out-of-bounds read while parsing RFC-8331 ANC payload."
  else
    let value := (reader.bytes.getD reader.offset 0).toNat <<< 8 |||
      (reader.bytes.getD (reader.offset + 1) 0).toNat
    .ok (value, { reader with offset := reader.offset + 2 })

def wordOffset (reader : BigEndianWordReader) : Nat := reader.offset / 2

end BigEndianWordReader

/-- Takes words of 10 bits from words of 16 bits. -/
structure UdwUnpacker where
  reader : BigEndianWordReader
  accumulatedBits : Nat
  bitCount : Nat
  deriving DecidableEq, Repr

namespace UdwUnpacker

/-- The loop of `read`; `accumulatedBits` has 32 bits. -/
def refill (unpacker : UdwUnpacker) : Except String UdwUnpacker :=
  if unpacker.bitCount < 10 then
    match unpacker.reader.read with
    | .error what => .error what
    | .ok (word, reader) =>
        refill
          { reader
            accumulatedBits := (unpacker.accumulatedBits <<< 16 ||| word) % 2 ^ 32
            bitCount := unpacker.bitCount + 16 }
  else .ok unpacker
termination_by 10 - unpacker.bitCount

def read (unpacker : UdwUnpacker) : Except String (Nat × UdwUnpacker) := do
  let unpacker ← unpacker.refill
  let value := (unpacker.accumulatedBits >>> (unpacker.bitCount - 10)) &&& Lower10Bits
  let bitCount := unpacker.bitCount - 10
  let accumulatedBits := unpacker.accumulatedBits &&& (1 <<< bitCount - 1)
  .ok (value, { unpacker with bitCount, accumulatedBits })

end UdwUnpacker

structure AncElement where
  lineNumber : UInt16
  did : UInt8
  sdid : UInt8
  dataCount : UInt8
  udw : List UInt8
  deriving DecidableEq, Repr

structure AncFrame where
  length : UInt16
  ancCount : UInt8
  elements : List AncElement
  deriving DecidableEq, Repr

/-- The loop over the user data words of an element. -/
def readUdw : Nat → UdwUnpacker → Except String (List UInt8 × UdwUnpacker)
  | 0, unpacker => .ok ([], unpacker)
  | dataCount + 1, unpacker => do
      let (value, unpacker) ← unpacker.read
      let (udw, unpacker) ← readUdw dataCount unpacker
      .ok (UInt8.ofNat (value &&& Lower8Bits) :: udw, unpacker)

/-- The word that is skipped in front of an element. -/
def alignElement (reader : BigEndianWordReader) : Except String BigEndianWordReader :=
  if reader.wordOffset % 2 = 0 then do
    let (_, reader) ← reader.read
    .ok reader
  else .ok reader

def readElement (reader : BigEndianWordReader) :
    Except String (AncElement × BigEndianWordReader) := do
  let reader ← alignElement reader
  let (word0, reader) ← reader.read
  let (_, reader) ← reader.read
  let (word2, reader) ← reader.read
  let (word3, reader) ← reader.read
  let lineNumber := UInt16.ofNat (word0 >>> 4 &&& Lower11Bits)
  let did := UInt8.ofNat (word2 >>> 6 &&& Lower8Bits)
  let sdid := UInt8.ofNat ((word2 &&& 0x000f) <<< 4 ||| word3 >>> 12 &&& 0x000f)
  let dataCount := UInt8.ofNat (word3 >>> 2 &&& Lower8Bits)
  let (udw, unpacker) ← readUdw dataCount.toNat { reader, accumulatedBits := 0, bitCount := 0 }
  let (_, unpacker) ← unpacker.read
  .ok ({ lineNumber, did, sdid, dataCount, udw }, unpacker.reader)

/-- The loop over the elements of a frame. -/
def readElements : Nat → BigEndianWordReader →
    Except String (List AncElement × BigEndianWordReader)
  | 0, reader => .ok ([], reader)
  | ancCount + 1, reader => do
      let (element, reader) ← readElement reader
      let (elements, reader) ← readElements ancCount reader
      .ok (element :: elements, reader)

def parseAncFrame (payload : List UInt8) : Except String AncFrame := do
  if payload.length < Rfc8331HeaderSizeBytes then
    .error "Grain payload is too small to contain an RFC-8331 ANC header."
  else
    let reader : BigEndianWordReader := { bytes := payload, offset := 0 }
    let (length, reader) ← reader.read
    let (word1, reader) ← reader.read
    let ancCount := UInt8.ofNat (word1 >>> 8)
    let (_, reader) ← reader.read
    if payload.length < length + Rfc8331HeaderSizeBytes then
      .error "RFC-8331 Length field exceeds the available grain payload."
    else
      let (elements, _) ← readElements ancCount.toNat reader
      .ok { length := UInt16.ofNat length, ancCount, elements }

/-! ### The reader -/

namespace BigEndianWordReader

/-- What is left to read. -/
def left (reader : BigEndianWordReader) : List UInt8 := reader.bytes.drop reader.offset

theorem left_advance {reader : BigEndianWordReader} {front back : List UInt8} (n : Nat)
    (h : reader.left = front ++ back) (hn : n = front.length) :
    left { reader with offset := reader.offset + n } = back := by
  subst hn
  rw [left] at h
  simp only [left]
  rw [← List.drop_drop, h, List.drop_left]

theorem read_of_left {reader : BigEndianWordReader} {high low : UInt8} {rest : List UInt8}
    (h : reader.left = high :: low :: rest) :
    reader.read =
      .ok (high.toNat * 2 ^ 8 + low.toNat, { reader with offset := reader.offset + 2 }) := by
  have hhigh : reader.bytes[reader.offset]? = some high := by
    rw [← List.head?_drop]
    exact congrArg List.head? h
  have hlow : reader.bytes[reader.offset + 1]? = some low := by
    rw [← List.head?_drop, ← List.drop_drop]
    exact congrArg (fun bytes => (bytes.drop 1).head?) h
  have hlength : ¬reader.bytes.length - reader.offset < 2 := by
    rw [← List.length_drop]
    simp [show reader.bytes.drop reader.offset = _ from h]
  rw [read, if_neg hlength]
  simp only [List.getD_eq_getElem?_getD, hhigh, hlow, Option.getD_some, or_shifted low.toNat_lt]

/-- A word that is in front is read. -/
theorem read_of_bits {reader : BigEndianWordReader} {v : Nat} {rest : List Bool}
    (hv : v < 2 ^ 16) (h : toBits reader.left = bitsOfNat 16 v ++ rest) :
    reader.read = .ok (v, { reader with offset := reader.offset + 2 }) ∧
      toBits (left { reader with offset := reader.offset + 2 }) = rest := by
  have hlength := congrArg List.length h
  simp only [length_toBits, List.length_append, length_bitsOfNat] at hlength
  obtain ⟨high, low, tail, hleft⟩ : ∃ high low tail, reader.left = high :: low :: tail := by
    match hleft : reader.left with
    | [] | [_] =>
      rw [hleft] at hlength
      simp only [List.length_nil, List.length_singleton] at hlength
      omega
    | high :: low :: tail => exact ⟨high, low, tail, rfl⟩
  have hword : bitsOfNat 16 (high.toNat * 2 ^ 8 + low.toNat) ++ toBits tail =
      bitsOfNat 16 v ++ rest := by
    rw [← h, hleft, toBits_cons, toBits_cons, ← List.append_assoc,
      bitsOfNat_append 8 high.toNat low.toNat_lt]
  have hlt : high.toNat * 2 ^ 8 + low.toNat < 2 ^ 16 := by
    have hhigh := high.toNat_lt
    have hlow := low.toNat_lt
    omega
  obtain ⟨rfl, rfl⟩ := bitsOfNat_cancel hlt hv hword
  refine ⟨read_of_left hleft, ?_⟩
  have hfront : reader.left = [high, low] ++ tail := hleft
  rw [left_advance 2 hfront rfl]

end BigEndianWordReader

/-! ### The unpacker -/

namespace UdwUnpacker

/-- What the unpacker is to take words from: the bits it holds, and those behind. -/
structure Holds (unpacker : UdwUnpacker) (bits : List Bool) : Prop where
  bits : bitsOfNat unpacker.bitCount unpacker.accumulatedBits ++ toBits unpacker.reader.left = bits
  fits : unpacker.accumulatedBits < 2 ^ unpacker.bitCount
  even : unpacker.bitCount % 2 = 0
  short : unpacker.bitCount < 16

/-- One word of 16 bits is enough. -/
theorem refill_of_short {unpacker : UdwUnpacker} {word : Nat} {rest : List Bool}
    (hshort : unpacker.bitCount < 10) (hfits : unpacker.accumulatedBits < 2 ^ unpacker.bitCount)
    (hword : word < 2 ^ 16) (h : toBits unpacker.reader.left = bitsOfNat 16 word ++ rest) :
    unpacker.refill =
      .ok { reader := { unpacker.reader with offset := unpacker.reader.offset + 2 }
            accumulatedBits := unpacker.accumulatedBits * 2 ^ 16 + word
            bitCount := unpacker.bitCount + 16 } := by
  have hbound : unpacker.accumulatedBits < 2 ^ 10 :=
    Nat.lt_of_lt_of_le hfits (Nat.pow_le_pow_right Nat.two_pos (Nat.le_of_lt hshort))
  have hlt : unpacker.accumulatedBits * 2 ^ 16 + word < 2 ^ 32 := by
    omega
  rw [refill, if_pos hshort, (BigEndianWordReader.read_of_bits hword h).1]
  dsimp only
  rw [or_shifted hword, Nat.mod_eq_of_lt hlt, refill, if_neg (by simp)]

theorem refill_of_enough {unpacker : UdwUnpacker} (h : ¬unpacker.bitCount < 10) :
    unpacker.refill = .ok unpacker := by
  rw [refill, if_neg h]

/-- What is taken of an accumulator with enough bits. -/
theorem take_word {bitCount accumulatedBits v : Nat} {behind rest : List Bool}
    (hcount : 10 ≤ bitCount) (hfits : accumulatedBits < 2 ^ bitCount) (hv : v < 2 ^ 10)
    (h : bitsOfNat bitCount accumulatedBits ++ behind = bitsOfNat 10 v ++ rest) :
    accumulatedBits >>> (bitCount - 10) &&& Lower10Bits = v ∧
      bitsOfNat (bitCount - 10) (accumulatedBits &&& (1 <<< (bitCount - 10) - 1)) ++ behind = rest := by
  have hsplit : bitsOfNat bitCount accumulatedBits =
      bitsOfNat 10 (accumulatedBits / 2 ^ (bitCount - 10)) ++
        bitsOfNat (bitCount - 10) (accumulatedBits % 2 ^ (bitCount - 10)) := by
    rw [← bitsOfNat_add, Nat.add_sub_cancel' hcount]
  have hhigh : accumulatedBits / 2 ^ (bitCount - 10) < 2 ^ 10 := by
    rw [Nat.div_lt_iff_lt_mul (Nat.two_pow_pos _), ← Nat.pow_add, Nat.add_sub_cancel' hcount]
    exact hfits
  rw [hsplit, List.append_assoc] at h
  obtain ⟨hword, hrest⟩ := bitsOfNat_cancel hhigh hv h
  constructor
  · rw [Nat.shiftRight_eq_div_pow, hword]
    exact (Nat.and_two_pow_sub_one_eq_mod v 10).trans (Nat.mod_eq_of_lt hv)
  · rw [lower_bits, hrest]

/-- The word that is in front is taken.  The bits that are read for it, less those
    that were held, are its own and those that are held now. -/
theorem read_of_holds {unpacker : UdwUnpacker} {v : Nat} {rest : List Bool} (hv : v < 2 ^ 10)
    (h : unpacker.Holds (bitsOfNat 10 v ++ rest)) (hrest : 14 ≤ rest.length) :
    ∃ next : UdwUnpacker, unpacker.read = .ok (v, next) ∧ next.Holds rest ∧
      next.reader.bytes = unpacker.reader.bytes ∧
      next.reader.offset % 2 = unpacker.reader.offset % 2 ∧
      unpacker.bitCount + 8 * next.reader.offset =
        next.bitCount + 8 * unpacker.reader.offset + 10 := by
  obtain ⟨hbits, hfits, heven, hshort⟩ := h
  have hmask {bitCount value : Nat} : value &&& (1 <<< bitCount - 1) < 2 ^ bitCount := by
    rw [lower_bits]
    exact Nat.mod_lt _ (Nat.two_pow_pos _)
  by_cases hcount : unpacker.bitCount < 10
  · have hlength := congrArg List.length hbits
    simp only [List.length_append, length_bitsOfNat] at hlength
    have henough : 16 ≤ (toBits unpacker.reader.left).length := by
      omega
    obtain ⟨word, behind, hlt, hleft⟩ := exists_word henough
    have hrefill := refill_of_short hcount hfits hlt hleft
    have hleft' := (BigEndianWordReader.read_of_bits hlt hleft).2
    rw [hleft, ← List.append_assoc, bitsOfNat_append _ _ hlt] at hbits
    have hfits' : unpacker.accumulatedBits * 2 ^ 16 + word < 2 ^ (unpacker.bitCount + 16) := by
      rw [Nat.pow_add]
      calc unpacker.accumulatedBits * 2 ^ 16 + word
          < unpacker.accumulatedBits * 2 ^ 16 + 2 ^ 16 := Nat.add_lt_add_left hlt _
        _ = (unpacker.accumulatedBits + 1) * 2 ^ 16 := (Nat.succ_mul _ _).symm
        _ ≤ 2 ^ unpacker.bitCount * 2 ^ 16 := Nat.mul_le_mul_right _ hfits
    obtain ⟨hvalue, hheld⟩ := take_word (Nat.le_add_left_of_le (by decide)) hfits' hv hbits
    rw [read, hrefill]
    refine ⟨_, congrArg (fun value => Except.ok (value, _)) hvalue, ⟨?_, hmask, ?_, ?_⟩, rfl,
      Nat.add_mod_right _ _, ?_⟩
    · rw [hleft']
      exact hheld
    · simp only
      omega
    · simp only
      omega
    · simp only
      omega
  · have hcount' : 10 ≤ unpacker.bitCount := Nat.le_of_not_lt hcount
    obtain ⟨hvalue, hheld⟩ := take_word hcount' hfits hv hbits
    rw [read, refill_of_enough hcount]
    refine ⟨_, congrArg (fun value => Except.ok (value, _)) hvalue, ⟨hheld, hmask, ?_, ?_⟩, rfl,
      rfl, ?_⟩
    · simp only
      omega
    · simp only
      omega
    · simp only
      omega

end UdwUnpacker

theorem readUdw_of_holds {vs : List Nat} {unpacker : UdwUnpacker} {rest : List Bool}
    (hvs : ∀ v ∈ vs, v < 2 ^ 10) (h : unpacker.Holds (vs.flatMap (bitsOfNat 10) ++ rest))
    (hrest : 14 ≤ rest.length) :
    ∃ next : UdwUnpacker,
      readUdw vs.length unpacker = .ok (vs.map fun v => UInt8.ofNat (v &&& Lower8Bits), next) ∧
      next.Holds rest ∧ next.reader.bytes = unpacker.reader.bytes ∧
      next.reader.offset % 2 = unpacker.reader.offset % 2 ∧
      unpacker.bitCount + 8 * next.reader.offset =
        next.bitCount + 8 * unpacker.reader.offset + 10 * vs.length := by
  induction vs generalizing unpacker with
  | nil => exact ⟨unpacker, rfl, h, rfl, rfl, rfl⟩
  | cons v vs ih =>
    rw [List.flatMap_cons, List.append_assoc] at h
    have hfirst : 14 ≤ (vs.flatMap (bitsOfNat 10) ++ rest).length := by
      rw [List.length_append]
      exact Nat.le_add_left_of_le hrest
    obtain ⟨middle, hread, hmiddle, hbytes, hparity, hcount⟩ :=
      UdwUnpacker.read_of_holds (hvs v List.mem_cons_self) h hfirst
    obtain ⟨next, hudw, hnext, hbytes', hparity', hcount'⟩ :=
      ih (fun w hw => hvs w (List.mem_cons_of_mem v hw)) hmiddle
    refine ⟨next, ?_, hnext, hbytes'.trans hbytes, hparity'.trans hparity, ?_⟩
    · rw [List.length_cons, readUdw, hread]
      simp only [ok_bind]
      rw [hudw]
      rfl
    · rw [List.length_cons]
      omega

/-! ### Packets -/

/-- The user data words and the checksum. -/
def userWords (m : AncillaryMeta) : List Nat := (m.data ++ [m.checksum]).map UInt16.toNat

/-- Words that are read two bits too far on. -/
def shiftedWords : List Nat → List Nat
  | first :: second :: rest => (first % 256 * 4 + second / 256) :: shiftedWords (second :: rest)
  | _ => []

/-- What the probe prints of a packet.  The high two bits of a user data word are
    those of the next: the number of its ones modulo 2, and the inverse of that. -/
def printed (m : AncillaryMeta) : AncElement where
  lineNumber := m.line
  did := m.did.toUInt8
  sdid := m.sdidBlockNumber.toUInt8
  dataCount := m.dataCount.toUInt8
  udw := (shiftedWords (userWords m)).map fun v => UInt8.ofNat (v &&& Lower8Bits)

/-- The packet does not fill its last word. -/
def InStep (m : AncillaryMeta) : Prop := m.data.length % 16 ≠ 12

instance (m : AncillaryMeta) : Decidable (InStep m) := inferInstanceAs (Decidable (_ ≠ _))

theorem length_shiftedWords (first : Nat) (rest : List Nat) :
    (shiftedWords (first :: rest)).length = rest.length := by
  induction rest generalizing first with
  | nil => rfl
  | cons second rest ih => rw [shiftedWords, List.length_cons, ih, List.length_cons]

theorem shiftedWords_lt {words : List Nat} (h : ∀ w ∈ words, w < 2 ^ 10) :
    ∀ v ∈ shiftedWords words, v < 2 ^ 10 := by
  fun_induction shiftedWords words with
  | case1 first second rest ih =>
    intro v hv
    rcases List.mem_cons.mp hv with rfl | hv
    · have hsecond := h second (by simp)
      omega
    · exact ih (fun w hw => h w (List.mem_cons_of_mem first hw)) v hv
  | case2 => simp

/-- Two bits into the words begin the words that are printed. -/
theorem bits_shiftedWords {first : Nat} {rest : List Nat} (h : ∀ w ∈ rest, w < 2 ^ 10) :
    ∃ low, bitsOfNat 8 (first % 256) ++ rest.flatMap (bitsOfNat 10) =
      (shiftedWords (first :: rest)).flatMap (bitsOfNat 10) ++ bitsOfNat 8 low ∧ low < 2 ^ 8 := by
  induction rest generalizing first with
  | nil =>
    refine ⟨first % 256, ?_, Nat.mod_lt _ (by decide)⟩
    simp [shiftedWords]
  | cons second rest ih =>
    have hsecond : second / 2 ^ 8 < 2 ^ 2 := by
      have hlt := h second List.mem_cons_self
      omega
    have hrest : ∀ w ∈ rest, w < 2 ^ 10 := fun w hw => h w (List.mem_cons_of_mem second hw)
    obtain ⟨low, htail, hlow⟩ := @ih second hrest
    have hsplit : bitsOfNat 10 second = bitsOfNat 2 (second / 256) ++ bitsOfNat 8 (second % 256) :=
      bitsOfNat_add 2 8 second
    have hjoined : bitsOfNat 8 (first % 256) ++ bitsOfNat 2 (second / 256) =
        bitsOfNat 10 (first % 256 * 4 + second / 256) := bitsOfNat_append 8 _ hsecond
    refine ⟨low, ?_, hlow⟩
    rw [List.flatMap_cons, hsplit, List.append_assoc, ← List.append_assoc, hjoined, shiftedWords,
      List.flatMap_cons, List.append_assoc, ← htail]

def word0 (m : AncillaryMeta) : Nat :=
  (m.cNotYChannel.toNat * 2 ^ 11 + m.line.toNat) * 2 ^ 4 + m.offset.toNat / 2 ^ 8

def word1 (m : AncillaryMeta) : Nat := m.offset.toNat % 2 ^ 8 * 2 ^ 8

def word2 (m : AncillaryMeta) : Nat := m.did.toNat * 2 ^ 6 + m.sdidBlockNumber.toNat / 2 ^ 4

def word3 (m : AncillaryMeta) (first : Nat) : Nat :=
  (m.sdidBlockNumber.toNat % 2 ^ 4 * 2 ^ 10 + m.dataCount.toNat) * 2 ^ 2 + first / 2 ^ 8

theorem userWords_cons (m : AncillaryMeta) :
    ∃ first rest, userWords m = first :: rest ∧ rest.length = m.data.length := by
  cases hwords : userWords m with
  | nil => simp [userWords] at hwords
  | cons first rest =>
    refine ⟨first, rest, rfl, ?_⟩
    have hlength := congrArg List.length hwords
    simp only [userWords, List.length_map, List.length_append, List.length_cons,
      List.length_nil] at hlength
    omega

theorem userWords_lt {m : AncillaryMeta} (hm : m.WellFormed) : ∀ w ∈ userWords m, w < 2 ^ 10 := by
  intro w hw
  obtain ⟨udw, hudw, rfl⟩ := List.mem_map.mp hw
  rcases List.mem_append.mp hudw with hdata | hchecksum
  · exact hm.data udw hdata
  · obtain rfl := List.mem_singleton.mp hchecksum
    exact hm.checksum

theorem bitsOfNat_one (b : Bool) : bitsOfNat 1 b.toNat = [b] := by
  cases b <;> rfl

/-- A packet in words of 16 bits, up to the one in which the user data words begin. -/
theorem smpte291Bits_words {m : AncillaryMeta} (hm : m.WellFormed) {first : Nat} {rest : List Nat}
    (hwords : userWords m = first :: rest) :
    smpte291Bits 0 0 m = bitsOfNat 16 (word0 m) ++ (bitsOfNat 16 (word1 m) ++
      (bitsOfNat 16 (word2 m) ++ (bitsOfNat 16 (word3 m first) ++
        (bitsOfNat 8 (first % 256) ++ rest.flatMap (bitsOfNat 10))))) := by
  have hoffset : m.offset.toNat / 2 ^ 8 < 2 ^ 4 := by
    have := hm.offset
    omega
  have hsdid : m.sdidBlockNumber.toNat / 2 ^ 4 < 2 ^ 6 := by
    have := hm.sdidBlockNumber
    omega
  have hfirst : first / 2 ^ 8 < 2 ^ 2 := by
    have := userWords_lt hm first (by simp [hwords])
    omega
  have hdata : m.data.flatMap (fun udw => bitsOfNat 10 udw.toNat) ++ bitsOfNat 10 m.checksum.toNat =
      bitsOfNat 10 first ++ rest.flatMap (bitsOfNat 10) := by
    rw [← List.flatMap_cons, ← hwords, userWords, List.flatMap_map, List.flatMap_append]
    simp
  have hzero : bitsOfNat 1 0 ++ bitsOfNat 7 0 = bitsOfNat 8 0 := by decide
  have hplace : m.place = bitsOfNat 16 (word0 m) ++ bitsOfNat 8 (m.offset.toNat % 2 ^ 8) := by
    rw [AncillaryMeta.place, ← List.singleton_append, ← bitsOfNat_one, ← List.append_assoc,
      bitsOfNat_append 1 _ hm.line, bitsOfNat_add 4 8 m.offset.toNat, ← List.append_assoc,
      bitsOfNat_append 12 _ hoffset, word0]
  have hsecond : bitsOfNat 8 (m.offset.toNat % 2 ^ 8) ++ bitsOfNat 8 0 = bitsOfNat 16 (word1 m) := by
    rw [bitsOfNat_append 8 _ (Nat.two_pow_pos 8)]
    simp only [word1, Nat.add_zero]
  have hsplit : bitsOfNat 10 first = bitsOfNat 2 (first / 2 ^ 8) ++ bitsOfNat 8 (first % 256) :=
    bitsOfNat_add 2 8 first
  have hpacket : m.dataPacket = bitsOfNat 16 (word2 m) ++ (bitsOfNat 16 (word3 m first) ++
      (bitsOfNat 8 (first % 256) ++ rest.flatMap (bitsOfNat 10))) := by
    rw [AncillaryMeta.dataPacket, List.append_assoc, hdata,
      bitsOfNat_add 6 4 m.sdidBlockNumber.toNat, hsplit]
    simp only [List.append_assoc]
    rw [← List.append_assoc (bitsOfNat 10 m.did.toNat), bitsOfNat_append 10 _ hsdid,
      ← List.append_assoc (bitsOfNat 4 _), bitsOfNat_append 4 _ hm.dataCount,
      ← List.append_assoc (bitsOfNat (4 + 10) _), bitsOfNat_append (4 + 10) _ hfirst, word2, word3]
  rw [smpte291Bits, hplace, hpacket, hzero, List.append_assoc (bitsOfNat 16 (word0 m)), hsecond]
  simp only [List.append_assoc]

theorem words_lt {m : AncillaryMeta} (hm : m.WellFormed) {first : Nat} (hfirst : first < 2 ^ 10) :
    word0 m < 2 ^ 16 ∧ word1 m < 2 ^ 16 ∧ word2 m < 2 ^ 16 ∧ word3 m first < 2 ^ 16 := by
  obtain ⟨hline, hoffset, hdid, hsdid, hcount, -, -, -⟩ := hm
  have hchannel : m.cNotYChannel.toNat < 2 := Bool.toNat_lt _
  refine ⟨?_, ?_, ?_, ?_⟩
  · rw [word0]
    omega
  · rw [word1]
    omega
  · rw [word2]
    omega
  · rw [word3]
    omega

theorem length_smpte291Bits (m : AncillaryMeta) :
    (smpte291Bits 0 0 m).length = 72 + 10 * m.data.length := by
  have hdata : (m.data.flatMap fun udw => bitsOfNat 10 udw.toNat).length = 10 * m.data.length := by
    rw [List.length_flatMap]
    simp [Nat.mul_comm]
  simp only [smpte291Bits, AncillaryMeta.place, AncillaryMeta.dataPacket, List.length_append,
    List.length_cons, length_bitsOfNat, hdata]
  omega

/-- A packet is padded to a multiple of four bytes. -/
theorem toBits_smpte291Packet (m : AncillaryMeta) :
    (smpte291Packet 0 0 m).length % 4 = 0 ∧ ∃ padding,
      toBits (smpte291Packet 0 0 m) = smpte291Bits 0 0 m ++ padding ∧ padding.length < 32 := by
  have haligned := length_aligned false (smpte291Bits 0 0 m)
  have hbytes := length_ofBits haligned
  constructor
  · rw [smpte291Packet, wordAlign_eq, List.length_append, List.length_replicate]
    omega
  · refine ⟨List.replicate ((8 - (smpte291Bits 0 0 m).length % 8) % 8) false ++
      toBits (List.replicate ((4 - (ofBits (aligned false (smpte291Bits 0 0 m))).length % 4) % 4) 0),
      ?_, ?_⟩
    · rw [smpte291Packet, wordAlign_eq, toBits_append, toBits_ofBits haligned, aligned,
        List.append_assoc]
    · rw [List.length_append, List.length_replicate, length_toBits, List.length_replicate]
      omega

/-! ### Elements -/

theorem lower8Bits (v : Nat) : v &&& Lower8Bits = v % 2 ^ 8 := Nat.and_two_pow_sub_one_eq_mod v 8

theorem lineNumber_of_word0 {m : AncillaryMeta} (hm : m.WellFormed) :
    UInt16.ofNat (word0 m >>> 4 &&& Lower11Bits) = m.line := by
  have hmask : word0 m >>> 4 &&& Lower11Bits = word0 m / 2 ^ 4 % 2 ^ 11 := by
    rw [Nat.shiftRight_eq_div_pow]
    exact Nat.and_two_pow_sub_one_eq_mod _ 11
  have hline := hm.line
  have hoffset := hm.offset
  have hvalue : word0 m / 2 ^ 4 % 2 ^ 11 = m.line.toNat := by
    rw [word0]
    omega
  rw [hmask, hvalue, UInt16.ofNat_toNat]

theorem toUInt8_eq {v : UInt16} {n : Nat} (h : n = v.toNat % 2 ^ 8) : UInt8.ofNat n = v.toUInt8 := by
  apply UInt8.toNat_inj.mp
  rw [UInt16.toNat_toUInt8, UInt8.toNat_ofNat', h, Nat.mod_mod]

theorem did_of_word2 {m : AncillaryMeta} (hm : m.WellFormed) :
    UInt8.ofNat (word2 m >>> 6 &&& Lower8Bits) = m.did.toUInt8 := by
  apply toUInt8_eq
  have hsdid := hm.sdidBlockNumber
  rw [lower8Bits, Nat.shiftRight_eq_div_pow, word2]
  omega

theorem sdid_of_words {m : AncillaryMeta} (hm : m.WellFormed) {first : Nat} (hfirst : first < 2 ^ 10) :
    UInt8.ofNat ((word2 m &&& 0x000f) <<< 4 ||| word3 m first >>> 12 &&& 0x000f) =
      m.sdidBlockNumber.toUInt8 := by
  have hmask (v : Nat) : v &&& 0x000f = v % 2 ^ 4 := Nat.and_two_pow_sub_one_eq_mod v 4
  have hcount := hm.dataCount
  have hsdid := hm.sdidBlockNumber
  apply toUInt8_eq
  rw [hmask, hmask, or_shifted (Nat.mod_lt _ (Nat.two_pow_pos 4)), Nat.shiftRight_eq_div_pow, word2,
    word3]
  omega

theorem dataCount_of_word3 {m : AncillaryMeta} {first : Nat} (hfirst : first < 2 ^ 10) :
    UInt8.ofNat (word3 m first >>> 2 &&& Lower8Bits) = m.dataCount.toUInt8 := by
  apply toUInt8_eq
  rw [lower8Bits, Nat.shiftRight_eq_div_pow, word3]
  omega

theorem toNat_dataCount {m : AncillaryMeta} (hm : m.WellFormed) :
    m.dataCount.toUInt8.toNat = m.data.length := by
  rw [hm.length, UInt16.toNat_toUInt8, UInt16.toNat_and]
  exact (Nat.and_two_pow_sub_one_eq_mod _ 8).symm

/-- An element that begins with a packet is what is printed of it. -/
theorem readElement_of_packet {m : AncillaryMeta} (hm : m.WellFormed)
    {reader start : BigEndianWordReader} {tail : List UInt8} (hstart : alignElement reader = .ok start)
    (hleft : start.left = smpte291Packet 0 0 m ++ tail) (htail : 2 ≤ tail.length) :
    ∃ next held, readElement reader = .ok (printed m, next) ∧ next.bytes = start.bytes ∧
      next.offset % 2 = start.offset % 2 ∧ held < 16 ∧
      8 * next.offset = held + 8 * (start.offset + 8) + 10 * (m.data.length + 1) := by
  obtain ⟨first, rest, hwords, hrest⟩ := userWords_cons m
  have hlt := userWords_lt hm
  rw [hwords] at hlt
  have hfirst : first < 2 ^ 10 := hlt first List.mem_cons_self
  obtain ⟨hword0, hword1, hword2, hword3⟩ := words_lt hm hfirst
  obtain ⟨hwhole, padding, hpacket, -⟩ := toBits_smpte291Packet m
  have hltRest : ∀ w ∈ rest, w < 2 ^ 10 := fun w hw => hlt w (List.mem_cons_of_mem first hw)
  obtain ⟨low, hshifted, hlow⟩ := @bits_shiftedWords first rest hltRest
  have hpacketLength := congrArg List.length hpacket
  rw [length_toBits, List.length_append, length_smpte291Bits] at hpacketLength
  have hbits : toBits start.left = bitsOfNat 16 (word0 m) ++ (bitsOfNat 16 (word1 m) ++
      (bitsOfNat 16 (word2 m) ++ (bitsOfNat 16 (word3 m first) ++
        ((shiftedWords (first :: rest)).flatMap (bitsOfNat 10) ++
          (bitsOfNat 8 low ++ (padding ++ toBits tail)))))) := by
    rw [hleft, toBits_append, hpacket, smpte291Bits_words hm hwords, hshifted]
    simp only [List.append_assoc]
  obtain ⟨hread0, hbits⟩ := BigEndianWordReader.read_of_bits hword0 hbits
  obtain ⟨hread1, hbits⟩ := BigEndianWordReader.read_of_bits hword1 hbits
  obtain ⟨hread2, hbits⟩ := BigEndianWordReader.read_of_bits hword2 hbits
  obtain ⟨hread3, hbits⟩ := BigEndianWordReader.read_of_bits hword3 hbits
  -- the checksum, read two bits too far on, ends in the padding or behind the packet
  have hleftOver : 10 ≤ (bitsOfNat 8 low ++ (padding ++ toBits tail)).length := by
    simp only [List.length_append, length_bitsOfNat, length_toBits]
    omega
  obtain ⟨checksum, behind, hchecksum, hend⟩ := exists_word hleftOver
  have hbehind : 14 ≤ behind.length := by
    have hlength := congrArg List.length hend
    simp only [List.length_append, length_bitsOfNat, length_toBits] at hlength
    omega
  rw [hend] at hbits
  have hholds : UdwUnpacker.Holds
      { reader := { start with offset := start.offset + 2 + 2 + 2 + 2 }, accumulatedBits := 0,
        bitCount := 0 }
      ((shiftedWords (first :: rest)).flatMap (bitsOfNat 10) ++ (bitsOfNat 10 checksum ++ behind)) :=
    ⟨hbits, Nat.one_pos, rfl, by simp⟩
  obtain ⟨middle, hudw, hmiddle, hbytes, hparity, hcount⟩ :=
    readUdw_of_holds (shiftedWords_lt hlt) hholds (by
      rw [List.length_append]
      exact Nat.le_add_left_of_le hbehind)
  obtain ⟨next, hlast, hnext, hbytes', hparity', hcount'⟩ :=
    middle.read_of_holds hchecksum hmiddle hbehind
  rw [length_shiftedWords, hrest] at hudw hcount
  refine ⟨next.reader, next.bitCount, ?_, hbytes'.trans hbytes, ?_, hnext.short, ?_⟩
  · rw [readElement, hstart]
    simp only [ok_bind, hread0, hread1, hread2, hread3, lineNumber_of_word0 hm, did_of_word2 hm,
      sdid_of_words hm hfirst, dataCount_of_word3 hfirst, toNat_dataCount hm, hudw, hlast, printed,
      hwords]
  · simp only at hparity
    omega
  · simp only at hcount
    omega

/-! ### Frames -/

/-- The next element begins with these bytes, at an odd word. -/
def Begins (reader : BigEndianWordReader) (bytes : List UInt8) : Prop :=
  ∃ start, alignElement reader = .ok start ∧ start.left = bytes ∧ start.offset % 4 = 2

/-- Behind a packet the reader is where it ends or, by the padding, a word before; if
    the packet fills its last word, the reader is a word behind, and skips another. -/
theorem begins_behind_iff {m : AncillaryMeta} {start next : BigEndianWordReader}
    {tail : List UInt8} {held : Nat} (hleft : start.left = smpte291Packet 0 0 m ++ tail)
    (hodd : start.offset % 4 = 2) (hbytes : next.bytes = start.bytes)
    (hparity : next.offset % 2 = start.offset % 2) (hheld : held < 16)
    (hcount : 8 * next.offset = held + 8 * (start.offset + 8) + 10 * (m.data.length + 1))
    (htail : 4 ≤ tail.length) : Begins next tail ↔ InStep m := by
  obtain ⟨hwhole, padding, hpacket, hpadding⟩ := toBits_smpte291Packet m
  have hlength := congrArg List.length hpacket
  rw [length_toBits, List.length_append, length_smpte291Bits] at hlength
  have hend : start.bytes.drop (start.offset + (smpte291Packet 0 0 m).length) = tail :=
    BigEndianWordReader.left_advance _ hleft rfl
  have htotal := congrArg List.length hleft
  rw [BigEndianWordReader.left, List.length_drop, List.length_append] at htotal
  -- the reader skips a word at an even one
  have heven (h : next.offset % 4 = 0) :
      alignElement next = .ok { next with offset := next.offset + 2 } := by
    have hbefore : ¬next.bytes.length - next.offset < 2 := by
      rw [hbytes]
      omega
    rw [alignElement, BigEndianWordReader.wordOffset, if_pos (by omega),
      BigEndianWordReader.read, if_neg hbefore]
    rfl
  rw [InStep]
  constructor
  · rintro ⟨start', hstart, hleft', hodd'⟩ hfull
    have hbehind : next.offset = start.offset + (smpte291Packet 0 0 m).length + 2 := by
      omega
    rw [heven (by omega)] at hstart
    obtain rfl := Except.ok.inj hstart
    have hshort := congrArg List.length hleft'
    rw [BigEndianWordReader.left, List.length_drop] at hshort
    simp only [hbytes] at hshort
    omega
  · intro hinStep
    have hbound : next.offset ≤ start.offset + (smpte291Packet 0 0 m).length := by
      by_contra hbeyond
      have hfull : 8 * (smpte291Packet 0 0 m).length = 72 + 10 * m.data.length := by
        omega
      omega
    have hplace : next.offset = start.offset + (smpte291Packet 0 0 m).length ∨
        next.offset + 2 = start.offset + (smpte291Packet 0 0 m).length := by
      omega
    rcases hplace with hplace | hplace
    · refine ⟨next, ?_, ?_, ?_⟩
      · rw [alignElement, BigEndianWordReader.wordOffset, if_neg (by omega)]
      · rw [BigEndianWordReader.left, hbytes, hplace, hend]
      · omega
    · refine ⟨{ next with offset := next.offset + 2 }, heven (by omega), ?_, ?_⟩
      · simp only [BigEndianWordReader.left, hbytes, hplace, hend]
      · simp only
        omega

/-- The elements of packets all of which, but for the last, are in step. -/
theorem readElements_of_packets {metas : List AncillaryMeta} (hwell : ∀ m ∈ metas, m.WellFormed)
    (hinStep : ∀ m ∈ metas.dropLast, InStep m) {reader : BigEndianWordReader} {tail : List UInt8}
    (hbegins : Begins reader (payloadOf metas ++ tail)) (htail : 2 ≤ tail.length) :
    ∃ next, readElements metas.length reader = .ok (metas.map printed, next) := by
  induction metas generalizing reader with
  | nil => exact ⟨reader, rfl⟩
  | cons m metas ih =>
    obtain ⟨start, hstart, hleft, hodd⟩ := hbegins
    rw [payloadOf, List.flatMap_cons, List.append_assoc] at hleft
    obtain ⟨middle, held, hread, hbytes, hparity, hheld, hcount⟩ :=
      readElement_of_packet (hwell m List.mem_cons_self) hstart hleft (by
        rw [List.length_append]
        exact Nat.le_add_left_of_le htail)
    have hrest : ∃ next, readElements metas.length middle = .ok (metas.map printed, next) := by
      cases metas with
      | nil => exact ⟨middle, rfl⟩
      | cons second metas =>
        rw [List.dropLast_cons_cons] at hinStep
        apply ih (fun n hn => hwell n (List.mem_cons_of_mem m hn))
          (fun n hn => hinStep n (List.mem_cons_of_mem m hn))
        refine (begins_behind_iff hleft hodd hbytes hparity hheld hcount ?_).mpr
          (hinStep m List.mem_cons_self)
        obtain ⟨hwhole, padding, hpacket, -⟩ := toBits_smpte291Packet second
        have hlength := congrArg List.length hpacket
        rw [length_toBits, List.length_append, length_smpte291Bits] at hlength
        rw [List.flatMap_cons, List.append_assoc, List.length_append]
        omega
    obtain ⟨next, hnext⟩ := hrest
    refine ⟨next, ?_⟩
    rw [List.length_cons, readElements, hread, List.map_cons]
    simp only [ok_bind, hnext]

/-- The first elements do not depend on how many are read. -/
theorem readElements_add {m n : Nat} {reader middle next : BigEndianWordReader}
    {front elements : List AncElement} (hfront : readElements m reader = .ok (front, middle))
    (h : readElements (m + n) reader = .ok (elements, next)) :
    ∃ others, elements = front ++ others := by
  induction m generalizing reader front elements next with
  | zero =>
    obtain ⟨rfl, rfl⟩ := Prod.mk.inj (Except.ok.inj hfront)
    exact ⟨elements, rfl⟩
  | succ m ih =>
    rw [readElements] at hfront
    obtain ⟨⟨element, reader'⟩, hread, hfront⟩ := of_bind_eq_ok hfront
    obtain ⟨⟨front', middle'⟩, hfront', heq⟩ := of_bind_eq_ok hfront
    obtain ⟨rfl, rfl⟩ := Prod.mk.inj (Except.ok.inj heq)
    rw [Nat.succ_add, readElements, hread, ok_bind] at h
    obtain ⟨⟨elements', next'⟩, helements, heq⟩ := of_bind_eq_ok h
    obtain ⟨rfl, rfl⟩ := Prod.mk.inj (Except.ok.inj heq)
    obtain ⟨others, rfl⟩ := ih hfront' helements
    exact ⟨others, rfl⟩

theorem length_payloadOf (metas : List AncillaryMeta) : (payloadOf metas).length % 4 = 0 := by
  induction metas with
  | nil => rfl
  | cons m metas ih =>
    have hwhole := (toBits_smpte291Packet m).1
    rw [payloadOf] at ih ⊢
    rw [List.flatMap_cons, List.length_append]
    omega

/-- What there is of a grain behind its header. -/
def behindHeader (metas : List AncillaryMeta) : List UInt8 :=
  payloadOf metas ++
    List.replicate (MXL_DATA_FORMAT_GRAIN_SIZE - (6 + (payloadOf metas).length)) 0

theorem begins_behindHeader (metas : List AncillaryMeta) :
    Begins { bytes := grainOf metas, offset := 6 } (behindHeader metas) := by
  refine ⟨{ bytes := grainOf metas, offset := 6 }, ?_, ?_, ?_⟩
  · simp [alignElement, BigEndianWordReader.wordOffset]
  · rw [BigEndianWordReader.left, grainOf, List.append_assoc]
    exact List.drop_left' (length_grainHeader _ _ _ _)
  · simp

/-- The header is read as it was written. -/
theorem parseAncFrame_grainOf {metas : List AncillaryMeta} (hcount : metas.length ≤ 255)
    (hfits : 6 + (payloadOf metas).length ≤ MXL_DATA_FORMAT_GRAIN_SIZE) :
    parseAncFrame (grainOf metas) = (do
      let (elements, _) ← readElements metas.length { bytes := grainOf metas, offset := 6 }
      .ok { length := UInt16.ofNat (payloadOf metas).length
            ancCount := UInt8.ofNat metas.length, elements }) := by
  have hsize : MXL_DATA_FORMAT_GRAIN_SIZE = 4096 := rfl
  have hlength : (payloadOf metas).length < 2 ^ 16 := by
    omega
  have hgrain : (grainOf metas).length = 4096 := length_grainOf hfits
  obtain ⟨f0, f1, f2, hreserved⟩ : ∃ f0 f1 f2,
      ofBits (bitsOfNat 2 0 ++ bitsOfNat 22 0) = [f0, f1, f2] := ⟨0, 0, 0, by decide⟩
  have hheader : grainOf metas = UInt8.ofNat ((payloadOf metas).length / 256) ::
      UInt8.ofNat ((payloadOf metas).length % 256) :: UInt8.ofNat metas.length :: f0 :: f1 :: f2 ::
      behindHeader metas := by
    rw [grainOf, grainHeader_eq hlength (by omega), hreserved, List.append_assoc]
    rfl
  have hread0 := @BigEndianWordReader.read_of_left { bytes := grainOf metas, offset := 0 } _ _ _
    hheader
  have hread1 := @BigEndianWordReader.read_of_left { bytes := grainOf metas, offset := 2 } _ _ _
    (congrArg (List.drop 2) hheader)
  have hread2 := @BigEndianWordReader.read_of_left { bytes := grainOf metas, offset := 4 } _ _ _
    (congrArg (List.drop 4) hheader)
  have hvalue : (UInt8.ofNat ((payloadOf metas).length / 256)).toNat * 2 ^ 8 +
      (UInt8.ofNat ((payloadOf metas).length % 256)).toNat = (payloadOf metas).length := by
    rw [UInt8.toNat_ofNat', UInt8.toNat_ofNat']
    omega
  have hancCount : (metas.length * 2 ^ 8 + f0.toNat) >>> 8 = metas.length := by
    have hlow := f0.toNat_lt
    rw [Nat.shiftRight_eq_div_pow, Nat.mul_comm, Nat.mul_add_div (by decide),
      Nat.div_eq_of_lt hlow, Nat.add_zero]
  have htoNat : (UInt8.ofNat metas.length).toNat = metas.length := by
    rw [UInt8.toNat_ofNat']
    omega
  have hheaderFits : ¬(grainOf metas).length < Rfc8331HeaderSizeBytes := by
    rw [hgrain]
    decide
  have hpayloadFits : ¬(grainOf metas).length < (payloadOf metas).length + Rfc8331HeaderSizeBytes := by
    rw [hgrain, Rfc8331HeaderSizeBytes]
    omega
  rw [parseAncFrame, if_neg hheaderFits]
  simp only [hread0, hvalue, ok_bind, Nat.zero_add, hread1, Nat.reduceAdd, htoNat, hancCount,
    hread2, if_neg hpayloadFits]

/-- **What is printed of a grain.**  A grain that is made of the packets of a buffer is
    read whole if all of them but the last are in step, and every element is what is
    printed of its packet.  Whatever else is read of any grain, it begins with what is
    printed of the packets up to the first that is not in step. -/
theorem probe_of_grain {st2038 grain : List UInt8}
    (h : mxlSmpte291GrainFromGstSt2038 st2038 = .ok grain) :
    ∃ metas : List AncillaryMeta, (∀ m ∈ metas, m.WellFormed) ∧
      st2038 = metas.flatMap st2038Packet ∧
      ((∀ m ∈ metas.dropLast, InStep m) → parseAncFrame grain =
        .ok { length := UInt16.ofNat (payloadOf metas).length
              ancCount := UInt8.ofNat metas.length, elements := metas.map printed }) ∧
      ∀ front back, metas = front ++ back → (∀ m ∈ front.dropLast, InStep m) →
        ∀ frame, parseAncFrame grain = .ok frame →
          ∃ others, frame.elements = front.map printed ++ others := by
  obtain ⟨metas, hwell, hcount, rfl, hfits, rfl⟩ := mxlSmpte291GrainFromGstSt2038_eq_ok.mp h
  have hsize : MXL_DATA_FORMAT_GRAIN_SIZE = 4096 := rfl
  have hmod := length_payloadOf metas
  -- the packets end at a multiple of four, and the header does not
  have hzeros : 2 ≤ (List.replicate
      (MXL_DATA_FORMAT_GRAIN_SIZE - (6 + (payloadOf metas).length)) (0 : UInt8)).length := by
    rw [List.length_replicate]
    omega
  have hparse := parseAncFrame_grainOf hcount hfits
  have hbegins := begins_behindHeader metas
  refine ⟨metas, hwell, rfl, ?_, ?_⟩
  · intro hinStep
    obtain ⟨next, hread⟩ := readElements_of_packets hwell hinStep hbegins hzeros
    rw [hparse, hread]
    rfl
  · rintro front back rfl hinStep frame hframe
    have hsplit : behindHeader (front ++ back) = payloadOf front ++ (payloadOf back ++
        List.replicate (MXL_DATA_FORMAT_GRAIN_SIZE - (6 + (payloadOf (front ++ back)).length)) 0) := by
      rw [behindHeader, ← List.append_assoc (payloadOf front)]
      exact congrArg (· ++ _) List.flatMap_append
    rw [hsplit] at hbegins
    obtain ⟨middle, hfront⟩ :=
      readElements_of_packets (fun m hm => hwell m (List.mem_append_left back hm)) hinStep hbegins (by
        rw [List.length_append]
        exact Nat.le_add_left_of_le hzeros)
    rw [hparse] at hframe
    obtain ⟨⟨elements, next⟩, helements, hframe⟩ := of_bind_eq_ok hframe
    obtain rfl := Except.ok.inj hframe
    rw [List.length_append] at helements
    exact readElements_add hfront helements

theorem probe_of_caption :
    ∃ st2038 grain, mxlSmpte291GrainFromGstSt2038 st2038 = .ok grain ∧
      ∃ metas : List AncillaryMeta, (∀ m ∈ metas, m.WellFormed) ∧
        st2038 = metas.flatMap st2038Packet ∧
        ((∀ m ∈ metas.dropLast, InStep m) → parseAncFrame grain =
          .ok { length := UInt16.ofNat (payloadOf metas).length
                ancCount := UInt8.ofNat metas.length, elements := metas.map printed }) ∧
        ∀ front back, metas = front ++ back → (∀ m ∈ front.dropLast, InStep m) →
          ∀ frame, parseAncFrame grain = .ok frame →
            ∃ others, frame.elements = front.map printed ++ others := by
  have hfits : 6 + (payloadOf [captionMeta]).length ≤ MXL_DATA_FORMAT_GRAIN_SIZE := by
    rw [payloadOf, List.flatMap_cons, List.flatMap_nil, smpte291Packet, wordAlign_eq]
    decide
  have h := mxlSmpte291GrainFromGstSt2038_eq_ok.mpr
    ⟨[captionMeta], captionMeta_wellFormed, by decide, rfl, hfits, rfl⟩
  exact ⟨_, _, h, probe_of_grain h⟩

/-- The one user data word of a caption, `0x96`, is printed as `0x59`. -/
example : (printed captionMeta).udw = [0x59] := by decide

end MediaExchange.AncillaryProbe
