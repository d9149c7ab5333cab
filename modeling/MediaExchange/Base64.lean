/-
  MediaExchange/Base64.lean
  =========================
  **The base64 codec** (`Base64.hpp`).

  The encoder and the decoder look characters up in tables of 256 entries, the decoder
  with the bits of a digit already at their places in the three bytes of a group.  An
  entry of a character that is no digit is `bad_char`, which is beyond all that digits
  can make together, so that one comparison for a group finds it.  The number of
  padding characters is counted in the last four characters, wherever they stand there.

  A text that is accepted is digits followed by its padding, and its bytes are the
  complete ones of the digits' bits (`decodeInto_eq_ok`).  What is encoded is decoded
  as it was; of the texts that are decoded to some bytes, the encoder's is the one
  whose left over bits are zero (`encodeInto_canonical`).
-/
import MediaExchange.Library.BitStream

namespace MediaExchange.Base64

open MediaExchange.BitStream

/-- Six bits a digit. -/
def alphabet : List UInt8 :=
  ['A', 'B', 'C', 'D', 'E', 'F', 'G', 'H', 'I', 'J', 'K', 'L', 'M', 'N', 'O', 'P', 'Q', 'R', 'S',
    'T', 'U', 'V', 'W', 'X', 'Y', 'Z', 'a', 'b', 'c', 'd', 'e', 'f', 'g', 'h', 'i', 'j', 'k', 'l',
    'm', 'n', 'o', 'p', 'q', 'r', 's', 't', 'u', 'v', 'w', 'x', 'y', 'z', '0', '1', '2', '3', '4',
    '5', '6', '7', '8', '9', '+', '/'].map fun c => UInt8.ofNat c.toNat

def padding_char : UInt8 := UInt8.ofNat '='.toNat

def bad_char : Nat := 0x01FFFFFF

def digit (v : Nat) : UInt8 := alphabet.getD v padding_char

def value? (c : UInt8) : Option Nat := alphabet.idxOf? c

/-! ### Tables -/

def encode_table_0 (t : UInt8) : UInt8 := digit (t.toNat >>> 2)

def encode_table_1 (t : Nat) : UInt8 := digit (t &&& 0x3f)

/-- An entry of a decoding table; `place` puts the bits of a digit where they belong in
    the three bytes of a group, the first of them the least significant. -/
def decode_table (place : Nat → Nat) (c : UInt8) : Nat :=
  match value? c with
  | some v => place v
  | none => bad_char

def place_0 (v : Nat) : Nat := v <<< 2

def place_1 (v : Nat) : Nat := v >>> 4 ||| (v &&& 0xf) <<< 12

def place_2 (v : Nat) : Nat := v >>> 2 <<< 8 ||| (v &&& 0x3) <<< 22

def place_3 (v : Nat) : Nat := v <<< 16

def decode_table_0 : UInt8 → Nat := decode_table place_0

def decode_table_1 : UInt8 → Nat := decode_table place_1

def decode_table_2 : UInt8 → Nat := decode_table place_2

def decode_table_3 : UInt8 → Nat := decode_table place_3

/-! ### Encoding and decoding -/

def encodeInto : List UInt8 → List UInt8
  | t1 :: t2 :: t3 :: bytes =>
      encode_table_0 t1 ::
      encode_table_1 ((t1.toNat &&& 0x03) <<< 4 ||| t2.toNat >>> 4 &&& 0x0F) ::
      encode_table_1 ((t2.toNat &&& 0x0F) <<< 2 ||| t3.toNat >>> 6 &&& 0x03) ::
      encode_table_1 t3.toNat :: encodeInto bytes
  | [t1, t2] =>
      [encode_table_0 t1,
        encode_table_1 ((t1.toNat &&& 0x03) <<< 4 ||| t2.toNat >>> 4 &&& 0x0F),
        encode_table_1 ((t2.toNat &&& 0x0F) <<< 2), padding_char]
  | [t1] => [encode_table_0 t1, encode_table_1 ((t1.toNat &&& 0x03) <<< 4), padding_char, padding_char]
  | [] => []

/-- A byte of a word, the least significant first. -/
def tempByte (temp i : Nat) : UInt8 := UInt8.ofNat (temp >>> (8 * i) &&& 0xff)

/-- The first bytes of a group. -/
def decodeTemp (temp count : Nat) : Except String (List UInt8) :=
  if bad_char ≤ temp then .error "Invalid base64 encoded data - Invalid character"
  else .ok ((List.range count).map (tempByte temp))

/-- The groups without padding; also what is behind them. -/
def decodeGroups : Nat → List UInt8 → Except String (List UInt8 × List UInt8)
  | i + 1, t1 :: t2 :: t3 :: t4 :: bytes => do
      let group ← decodeTemp
        (decode_table_0 t1 ||| decode_table_1 t2 ||| decode_table_2 t3 ||| decode_table_3 t4) 3
      let (decoded, bytes) ← decodeGroups i bytes
      .ok (group ++ decoded, bytes)
  | _, bytes => .ok ([], bytes)

/-- The group with padding. -/
def decodeLast : Nat → List UInt8 → Except String (List UInt8)
  | 0, _ => .ok []
  | 1, t1 :: t2 :: t3 :: _ =>
      decodeTemp (decode_table_0 t1 ||| decode_table_1 t2 ||| decode_table_2 t3) 2
  | 2, t1 :: t2 :: _ => decodeTemp (decode_table_0 t1 ||| decode_table_1 t2) 1
  | _, _ => .error "Invalid base64 encoded data - Invalid padding number"

/-- `decode_into`; an exception is its text. -/
def decodeInto (base64Text : List UInt8) : Except String (List UInt8) :=
  if base64Text = [] then .ok []
  else if base64Text.length &&& 3 ≠ 0 then
    .error "Invalid base64 encoded data - Size not divisible by 4"
  else
    let numPadding := (base64Text.reverse.take 4).count padding_char
    if 2 < numPadding then
      .error "Invalid base64 encoded data - Found more than 2 padding signs"
    else do
      let groups := base64Text.length >>> 2 - if numPadding ≠ 0 then 1 else 0
      let (decoded, bytes) ← decodeGroups groups base64Text
      let last ← decodeLast numPadding bytes
      .ok (decoded ++ last)

/-! ### Digits -/

/-- The text of some digits. -/
def digits (vs : List Nat) : List UInt8 := vs.map digit

/-- The bits of some digits. -/
def digitBits (vs : List Nat) : List Bool := vs.flatMap (bitsOfNat 6)

theorem value?_digit : ∀ v < 64, value? (digit v) = some v := by decide

theorem value?_padding_char : value? padding_char = none := by decide

theorem value?_eq_some {c : UInt8} {v : Nat} (h : value? c = some v) : v < 64 ∧ c = digit v := by
  rw [value?, List.idxOf?_eq_some_iff] at h
  obtain ⟨hlt, hc, -⟩ := h
  refine ⟨hlt, ?_⟩
  rw [digit, List.getD_eq_getElem?_getD, List.getElem?_eq_getElem hlt, Option.getD_some]
  exact hc.symm

theorem digit_ne_padding {v : Nat} (h : v < 64) : digit v ≠ padding_char := by
  intro heq
  have hdigit := value?_digit v h
  rw [heq, value?_padding_char] at hdigit
  cases hdigit

theorem decode_table_digit {place : Nat → Nat} {v : Nat} (h : v < 64) :
    decode_table place (digit v) = place v := by
  rw [decode_table, value?_digit v h]

/-- A character is a digit, or its entries are bad. -/
theorem digit_or_bad (c : UInt8) :
    (∃ v < 64, c = digit v) ∨ ∀ place, decode_table place c = bad_char := by
  cases hvalue : value? c with
  | none =>
    refine Or.inr fun place => ?_
    rw [decode_table, hvalue]
  | some v => exact Or.inl ⟨v, value?_eq_some hvalue⟩

/-! ### One group -/

theorem place_lt :
    ∀ v < 64, place_0 v < 2 ^ 24 ∧ place_1 v < 2 ^ 24 ∧ place_2 v < 2 ^ 24 ∧ place_3 v < 2 ^ 24 := by
  decide

theorem tempByte_or (first second n : Nat) :
    (first ||| second) >>> n &&& 0xff = (first >>> n &&& 0xff) ||| (second >>> n &&& 0xff) := by
  rw [Nat.shiftRight_or_distrib, Nat.and_or_distrib_right]

/-- The bits of each digit in each of the three bytes. -/
theorem place_bytes : ∀ v < 64,
    (place_0 v >>> 0 &&& 0xff = v <<< 2 ∧ place_0 v >>> 8 &&& 0xff = 0 ∧
      place_0 v >>> 16 &&& 0xff = 0) ∧
    (place_1 v >>> 0 &&& 0xff = v / 16 ∧ place_1 v >>> 8 &&& 0xff = (v % 16) <<< 4 ∧
      place_1 v >>> 16 &&& 0xff = 0) ∧
    (place_2 v >>> 0 &&& 0xff = 0 ∧ place_2 v >>> 8 &&& 0xff = v / 4 ∧
      place_2 v >>> 16 &&& 0xff = (v % 4) <<< 6) ∧
    (place_3 v >>> 0 &&& 0xff = 0 ∧ place_3 v >>> 8 &&& 0xff = 0 ∧
      place_3 v >>> 16 &&& 0xff = v) := by
  decide

theorem second_digit (v : Nat) : bitsOfNat 6 v = bitsOfNat 2 (v / 16) ++ bitsOfNat 4 (v % 16) :=
  bitsOfNat_add 2 4 v

theorem third_digit (v : Nat) : bitsOfNat 6 v = bitsOfNat 4 (v / 4) ++ bitsOfNat 2 (v % 4) :=
  bitsOfNat_add 4 2 v

theorem first_byte (v1 : Nat) {v2 : Nat} (h : v2 < 64) :
    bitsOfNat 6 v1 ++ bitsOfNat 2 (v2 / 16) = bitsOfNat 8 (v1 * 4 + v2 / 16) :=
  bitsOfNat_append 6 v1 (by omega)

theorem second_byte (v2 : Nat) {v3 : Nat} (h : v3 < 64) :
    bitsOfNat 4 (v2 % 16) ++ bitsOfNat 4 (v3 / 4) = bitsOfNat 8 (v2 % 16 * 16 + v3 / 4) :=
  bitsOfNat_append 4 _ (by omega)

theorem third_byte (v3 : Nat) {v4 : Nat} (h : v4 < 64) :
    bitsOfNat 2 (v3 % 4) ++ bitsOfNat 6 v4 = bitsOfNat 8 (v3 % 4 * 64 + v4) :=
  bitsOfNat_append 2 _ h

theorem ofBits_word {v : Nat} (hv : v < 2 ^ 8) (bits : List Bool) :
    ofBits (bitsOfNat 8 v ++ bits) = UInt8.ofNat v :: ofBits bits := by
  rw [ofBits_append (length_bitsOfNat 8 v), natOfBits_bitsOfNat hv]

/-- Two digits and the bits left over. -/
theorem digitBits_two {v1 v2 : Nat} (h2 : v2 < 64) :
    digitBits [v1, v2] = bitsOfNat 8 (v1 * 4 + v2 / 16) ++ bitsOfNat 4 (v2 % 16) := by
  simp only [digitBits, List.flatMap_cons, List.flatMap_nil, List.append_nil, second_digit v2,
    ← first_byte v1 h2, List.append_assoc]

/-- Three digits and the bits left over. -/
theorem digitBits_three {v1 v2 v3 : Nat} (h2 : v2 < 64) (h3 : v3 < 64) :
    digitBits [v1, v2, v3] = bitsOfNat 8 (v1 * 4 + v2 / 16) ++
      (bitsOfNat 8 (v2 % 16 * 16 + v3 / 4) ++ bitsOfNat 2 (v3 % 4)) := by
  simp only [digitBits, List.flatMap_cons, List.flatMap_nil, List.append_nil, second_digit v2,
    third_digit v3, ← first_byte v1 h2, ← second_byte v2 h3, List.append_assoc]

theorem digitBits_four {v1 v2 v3 v4 : Nat} (h2 : v2 < 64) (h3 : v3 < 64) (h4 : v4 < 64) :
    digitBits [v1, v2, v3, v4] = bitsOfNat 8 (v1 * 4 + v2 / 16) ++
      (bitsOfNat 8 (v2 % 16 * 16 + v3 / 4) ++ bitsOfNat 8 (v3 % 4 * 64 + v4)) := by
  simp only [digitBits, List.flatMap_cons, List.flatMap_nil, List.append_nil, second_digit v2,
    third_digit v3, ← first_byte v1 h2, ← second_byte v2 h3, ← third_byte v3 h4, List.append_assoc]

/-- The bytes that the places of four digits make together. -/
theorem tempByte_places {v1 v2 v3 v4 : Nat} (h1 : v1 < 64) (h2 : v2 < 64) (h3 : v3 < 64)
    (h4 : v4 < 64) :
    tempByte (place_0 v1 ||| place_1 v2 ||| place_2 v3 ||| place_3 v4) 0 =
        UInt8.ofNat (v1 * 4 + v2 / 16) ∧
      tempByte (place_0 v1 ||| place_1 v2 ||| place_2 v3 ||| place_3 v4) 1 =
        UInt8.ofNat (v2 % 16 * 16 + v3 / 4) ∧
      tempByte (place_0 v1 ||| place_1 v2 ||| place_2 v3 ||| place_3 v4) 2 =
        UInt8.ofNat (v3 % 4 * 64 + v4) := by
  obtain ⟨⟨a0, a1, a2⟩, -, -, -⟩ := place_bytes v1 h1
  obtain ⟨-, ⟨b0, b1, b2⟩, -, -⟩ := place_bytes v2 h2
  obtain ⟨-, -, ⟨c0, c1, c2⟩, -⟩ := place_bytes v3 h3
  obtain ⟨-, -, -, d0, d1, d2⟩ := place_bytes v4 h4
  have hbyte0 : v1 <<< 2 ||| v2 / 16 = v1 * 4 + v2 / 16 := or_shifted (n := 2) (by omega)
  have hbyte1 : (v2 % 16) <<< 4 ||| v3 / 4 = v2 % 16 * 16 + v3 / 4 := or_shifted (n := 4) (by omega)
  have hbyte2 : (v3 % 4) <<< 6 ||| v4 = v3 % 4 * 64 + v4 := or_shifted (n := 6) h4
  refine ⟨?_, ?_, ?_⟩
  · simp only [tempByte, tempByte_or, Nat.mul_zero, a0, b0, c0, d0, Nat.or_zero, hbyte0]
  · simp only [tempByte, tempByte_or, Nat.mul_one, a1, b1, c1, d1, Nat.zero_or, Nat.or_zero, hbyte1]
  · simp only [tempByte, tempByte_or, Nat.reduceMul, a2, b2, c2, d2, Nat.zero_or, hbyte2]

theorem places_lt {v1 v2 v3 v4 : Nat} (h1 : v1 < 64) (h2 : v2 < 64) (h3 : v3 < 64) (h4 : v4 < 64) :
    ¬bad_char ≤ place_0 v1 ||| place_1 v2 ||| place_2 v3 ||| place_3 v4 := by
  have hlt : place_0 v1 ||| place_1 v2 ||| place_2 v3 ||| place_3 v4 < 2 ^ 24 := by
    apply Nat.or_lt_two_pow
    · apply Nat.or_lt_two_pow
      · exact Nat.or_lt_two_pow (place_lt v1 h1).1 (place_lt v2 h2).2.1
      · exact (place_lt v3 h3).2.2.1
    · exact (place_lt v4 h4).2.2.2
  rw [bad_char]
  omega

theorem decodeTemp_four {v1 v2 v3 v4 : Nat} (h1 : v1 < 64) (h2 : v2 < 64) (h3 : v3 < 64)
    (h4 : v4 < 64) :
    decodeTemp (place_0 v1 ||| place_1 v2 ||| place_2 v3 ||| place_3 v4) 3 =
      .ok (ofBits (digitBits [v1, v2, v3, v4])) := by
  obtain ⟨hbyte0, hbyte1, hbyte2⟩ := tempByte_places h1 h2 h3 h4
  rw [decodeTemp, if_neg (places_lt h1 h2 h3 h4), digitBits_four h2 h3 h4,
    ofBits_word (by omega), ofBits_word (by omega), ← List.append_nil (bitsOfNat 8 _),
    ofBits_word (by omega), ← hbyte0, ← hbyte1, ← hbyte2]
  rfl

theorem decodeTemp_three {v1 v2 v3 : Nat} (h1 : v1 < 64) (h2 : v2 < 64) (h3 : v3 < 64) :
    decodeTemp (place_0 v1 ||| place_1 v2 ||| place_2 v3) 2 =
      .ok (ofBits (digitBits [v1, v2, v3])) := by
  have hzero : place_0 v1 ||| place_1 v2 ||| place_2 v3 =
      place_0 v1 ||| place_1 v2 ||| place_2 v3 ||| place_3 0 := (Nat.or_zero _).symm
  have h4 : 0 < 64 := by
    decide
  obtain ⟨hbyte0, hbyte1, -⟩ := tempByte_places h1 h2 h3 h4
  rw [hzero, decodeTemp, if_neg (places_lt h1 h2 h3 (by decide)), digitBits_three h2 h3,
    ofBits_word (by omega), ofBits_word (by omega), ← hbyte0, ← hbyte1]
  rfl

theorem decodeTemp_two {v1 v2 : Nat} (h1 : v1 < 64) (h2 : v2 < 64) :
    decodeTemp (place_0 v1 ||| place_1 v2) 1 = .ok (ofBits (digitBits [v1, v2])) := by
  have hzero : place_0 v1 ||| place_1 v2 =
      place_0 v1 ||| place_1 v2 ||| place_2 0 ||| place_3 0 := by
    simp [place_2, place_3]
  have h3 : 0 < 64 := by
    decide
  obtain ⟨hbyte0, -, -⟩ := tempByte_places h1 h2 h3 h3
  rw [hzero, decodeTemp, if_neg (places_lt h1 h2 (by decide) (by decide)), digitBits_two h2,
    ofBits_word (by omega), ← hbyte0]
  rfl

theorem decodeTemp_bad {temp count : Nat} (h : bad_char ≤ temp) :
    decodeTemp temp count = .error "Invalid base64 encoded data - Invalid character" := by
  rw [decodeTemp, if_pos h]

/-- The characters of a group that is decoded are digits: a bad entry is at most the
    word it becomes a part of. -/
theorem digit_of_entry {place : Nat → Nat} {c : UInt8} {temp count : Nat} {bytes : List UInt8}
    (h : decodeTemp temp count = .ok bytes) (hentry : decode_table place c ≤ temp) :
    ∃ v < 64, c = digit v := by
  rcases digit_or_bad c with hdigit | hbad
  · exact hdigit
  · rw [hbad] at hentry
    rw [decodeTemp_bad hentry] at h
    cases h

theorem group_eq_ok {t1 t2 t3 t4 : UInt8} {bytes : List UInt8} :
    decodeTemp (decode_table_0 t1 ||| decode_table_1 t2 ||| decode_table_2 t3 ||| decode_table_3 t4)
        3 = .ok bytes ↔
      ∃ v1 v2 v3 v4, (v1 < 64 ∧ v2 < 64 ∧ v3 < 64 ∧ v4 < 64) ∧
        [t1, t2, t3, t4] = digits [v1, v2, v3, v4] ∧ bytes = ofBits (digitBits [v1, v2, v3, v4]) := by
  constructor
  · intro h
    obtain ⟨v1, h1, rfl⟩ := digit_of_entry h
      (Nat.le_trans Nat.left_le_or (Nat.le_trans Nat.left_le_or Nat.left_le_or))
    obtain ⟨v2, h2, rfl⟩ := digit_of_entry h
      (Nat.le_trans Nat.right_le_or (Nat.le_trans Nat.left_le_or Nat.left_le_or))
    obtain ⟨v3, h3, rfl⟩ := digit_of_entry h (Nat.le_trans Nat.right_le_or Nat.left_le_or)
    obtain ⟨v4, h4, rfl⟩ := digit_of_entry h Nat.right_le_or
    simp only [decode_table_0, decode_table_1, decode_table_2, decode_table_3, decode_table_digit h1,
      decode_table_digit h2, decode_table_digit h3, decode_table_digit h4,
      decodeTemp_four h1 h2 h3 h4, Except.ok.injEq] at h
    exact ⟨v1, v2, v3, v4, ⟨h1, h2, h3, h4⟩, rfl, h.symm⟩
  · rintro ⟨v1, v2, v3, v4, ⟨h1, h2, h3, h4⟩, htext, rfl⟩
    simp only [digits, List.map_cons, List.map_nil, List.cons.injEq, and_true] at htext
    obtain ⟨rfl, rfl, rfl, rfl⟩ := htext
    simp only [decode_table_0, decode_table_1, decode_table_2, decode_table_3,
      decode_table_digit h1, decode_table_digit h2, decode_table_digit h3, decode_table_digit h4,
      decodeTemp_four h1 h2 h3 h4]

theorem group_three_eq_ok {t1 t2 t3 : UInt8} {bytes : List UInt8} :
    decodeTemp (decode_table_0 t1 ||| decode_table_1 t2 ||| decode_table_2 t3) 2 = .ok bytes ↔
      ∃ v1 v2 v3, (v1 < 64 ∧ v2 < 64 ∧ v3 < 64) ∧
        [t1, t2, t3] = digits [v1, v2, v3] ∧ bytes = ofBits (digitBits [v1, v2, v3]) := by
  constructor
  · intro h
    obtain ⟨v1, h1, rfl⟩ := digit_of_entry h (Nat.le_trans Nat.left_le_or Nat.left_le_or)
    obtain ⟨v2, h2, rfl⟩ := digit_of_entry h (Nat.le_trans Nat.right_le_or Nat.left_le_or)
    obtain ⟨v3, h3, rfl⟩ := digit_of_entry h Nat.right_le_or
    simp only [decode_table_0, decode_table_1, decode_table_2, decode_table_digit h1,
      decode_table_digit h2, decode_table_digit h3, decodeTemp_three h1 h2 h3, Except.ok.injEq] at h
    exact ⟨v1, v2, v3, ⟨h1, h2, h3⟩, rfl, h.symm⟩
  · rintro ⟨v1, v2, v3, ⟨h1, h2, h3⟩, htext, rfl⟩
    simp only [digits, List.map_cons, List.map_nil, List.cons.injEq, and_true] at htext
    obtain ⟨rfl, rfl, rfl⟩ := htext
    simp only [decode_table_0, decode_table_1, decode_table_2, decode_table_digit h1,
      decode_table_digit h2, decode_table_digit h3, decodeTemp_three h1 h2 h3]

theorem group_two_eq_ok {t1 t2 : UInt8} {bytes : List UInt8} :
    decodeTemp (decode_table_0 t1 ||| decode_table_1 t2) 1 = .ok bytes ↔
      ∃ v1 v2, (v1 < 64 ∧ v2 < 64) ∧ [t1, t2] = digits [v1, v2] ∧
        bytes = ofBits (digitBits [v1, v2]) := by
  constructor
  · intro h
    obtain ⟨v1, h1, rfl⟩ := digit_of_entry h Nat.left_le_or
    obtain ⟨v2, h2, rfl⟩ := digit_of_entry h Nat.right_le_or
    simp only [decode_table_0, decode_table_1, decode_table_digit h1, decode_table_digit h2,
      decodeTemp_two h1 h2, Except.ok.injEq] at h
    exact ⟨v1, v2, ⟨h1, h2⟩, rfl, h.symm⟩
  · rintro ⟨v1, v2, ⟨h1, h2⟩, htext, rfl⟩
    simp only [digits, List.map_cons, List.map_nil, List.cons.injEq, and_true] at htext
    obtain ⟨rfl, rfl⟩ := htext
    simp only [decode_table_0, decode_table_1, decode_table_digit h1, decode_table_digit h2,
      decodeTemp_two h1 h2]

/-! ### Groups -/

theorem digits_append (vs ws : List Nat) : digits (vs ++ ws) = digits vs ++ digits ws :=
  List.map_append

theorem digitBits_append (vs ws : List Nat) : digitBits (vs ++ ws) = digitBits vs ++ digitBits ws :=
  List.flatMap_append

@[simp] theorem length_digits (vs : List Nat) : (digits vs).length = vs.length := List.length_map _

@[simp] theorem length_digitBits (vs : List Nat) : (digitBits vs).length = 6 * vs.length := by
  rw [digitBits, List.length_flatMap]
  simp [Nat.mul_comm]

/-- The bytes of whole groups in front of others. -/
theorem ofBits_groups {vs : List Nat} (h : vs.length % 4 = 0) (bits : List Bool) :
    ofBits (digitBits vs ++ bits) = ofBits (digitBits vs) ++ ofBits bits := by
  have hwhole : (digitBits vs).length % 8 = 0 := by
    rw [length_digitBits]
    omega
  have hbytes := toBits_ofBits hwhole
  generalize ofBits (digitBits vs) = bytes at hbytes ⊢
  rw [← hbytes]
  clear hbytes
  induction bytes with
  | nil => rfl
  | cons byte bytes ih =>
    rw [toBits_cons, List.append_assoc, ofBits_word byte.toNat_lt, UInt8.ofNat_toNat]
    exact congrArg (byte :: ·) ih

/-- The loop over the groups: as many times four digits. -/
theorem decodeGroups_eq_ok {i : Nat} {text decoded rest : List UInt8} (hlength : 4 * i ≤ text.length) :
    decodeGroups i text = .ok (decoded, rest) ↔
      ∃ vs : List Nat, vs.length = 4 * i ∧ (∀ v ∈ vs, v < 64) ∧ text = digits vs ++ rest ∧
        decoded = ofBits (digitBits vs) := by
  induction i generalizing text decoded with
  | zero =>
    constructor
    · intro h
      have hnone : decodeGroups 0 text = .ok ([], text) := by
        unfold decodeGroups
        rfl
      rw [hnone] at h
      obtain ⟨rfl, rfl⟩ := Prod.mk.inj (Except.ok.inj h)
      exact ⟨[], rfl, by simp, rfl, rfl⟩
    · rintro ⟨vs, hvs, -, rfl, rfl⟩
      obtain rfl := List.length_eq_zero_iff.mp hvs
      unfold decodeGroups
      rfl
  | succ i ih =>
    obtain ⟨t1, t2, t3, t4, bytes, rfl⟩ : ∃ t1 t2 t3 t4 bytes, text = t1 :: t2 :: t3 :: t4 :: bytes := by
      match text, hlength with
      | t1 :: t2 :: t3 :: t4 :: bytes, _ => exact ⟨t1, t2, t3, t4, bytes, rfl⟩
    have hbytes : 4 * i ≤ bytes.length := by
      simp only [List.length_cons] at hlength
      omega
    rw [decodeGroups]
    constructor
    · intro h
      obtain ⟨group, hgroup, h⟩ := of_bind_eq_ok h
      obtain ⟨⟨behind, rest'⟩, hloop, h⟩ := of_bind_eq_ok h
      obtain ⟨rfl, rfl⟩ := Prod.mk.inj (Except.ok.inj h)
      obtain ⟨v1, v2, v3, v4, ⟨h1, h2, h3, h4⟩, htext, rfl⟩ := group_eq_ok.mp hgroup
      obtain ⟨vs, hvs, hall, rfl, rfl⟩ := (ih hbytes).mp hloop
      refine ⟨[v1, v2, v3, v4] ++ vs, ?_, ?_, ?_, ?_⟩
      · rw [List.length_append, hvs]
        exact Nat.add_comm 4 (4 * i)
      · intro v hv
        rcases List.mem_append.mp hv with hv | hv
        · simp only [List.mem_cons, List.not_mem_nil, or_false] at hv
          rcases hv with rfl | rfl | rfl | rfl <;> assumption
        · exact hall v hv
      · rw [digits_append, ← htext]
        rfl
      · rw [digitBits_append, ofBits_groups (by simp)]
    · rintro ⟨vs, hvs, hall, htext, rfl⟩
      obtain ⟨v1, v2, v3, v4, ws, rfl⟩ : ∃ v1 v2 v3 v4 ws, vs = v1 :: v2 :: v3 :: v4 :: ws := by
        match vs, hvs with
        | v1 :: v2 :: v3 :: v4 :: ws, _ => exact ⟨v1, v2, v3, v4, ws, rfl⟩
      have hsplit : digits (v1 :: v2 :: v3 :: v4 :: ws) ++ rest =
          digit v1 :: digit v2 :: digit v3 :: digit v4 :: (digits ws ++ rest) := rfl
      rw [hsplit] at htext
      simp only [List.cons.injEq] at htext
      obtain ⟨rfl, rfl, rfl, rfl, rfl⟩ := htext
      have hws : ws.length = 4 * i := by
        simp only [List.length_cons] at hvs
        omega
      have hgroup := group_eq_ok.mpr ⟨v1, v2, v3, v4,
        ⟨hall v1 (by simp), hall v2 (by simp), hall v3 (by simp), hall v4 (by simp)⟩, rfl, rfl⟩
      have hloop := (ih hbytes).mpr ⟨ws, hws, fun v hv => hall v (by simp [hv]), rfl, rfl⟩
      have hbits : digitBits (v1 :: v2 :: v3 :: v4 :: ws) = digitBits [v1, v2, v3, v4] ++ digitBits ws :=
        digitBits_append [v1, v2, v3, v4] ws
      rw [hgroup, ok_bind, hloop, hbits, ofBits_groups (by simp)]
      rfl

/-! ### What is decoded -/

/-- A text is digits behind which padding fills the last group. -/
structure Spells (text : List UInt8) (vs : List Nat) (padding : Nat) : Prop where
  small : ∀ v ∈ vs, v < 64
  text : text = digits vs ++ List.replicate padding padding_char
  short : padding ≤ 2
  groups : (vs.length + padding) % 4 = 0

/-- The last group of a text. -/
theorem exists_last {text : List UInt8} (hne : text ≠ []) (hgroups : text.length % 4 = 0) :
    ∃ front a b c d k, text = front ++ [a, b, c, d] ∧ front.length = 4 * k := by
  have hlength : 0 < text.length := List.length_pos_iff.mpr hne
  have hlast : (text.drop (text.length - 4)).length = 4 := by
    rw [List.length_drop]
    omega
  obtain ⟨a, b, c, d, hdrop⟩ : ∃ a b c d, text.drop (text.length - 4) = [a, b, c, d] := by
    match text.drop (text.length - 4), hlast with
    | [a, b, c, d], _ => exact ⟨a, b, c, d, rfl⟩
  refine ⟨text.take (text.length - 4), a, b, c, d, text.length / 4 - 1, ?_, ?_⟩
  · rw [← hdrop, List.take_append_drop]
  · rw [List.length_take]
    omega

theorem decodeInto_last {front : List UInt8} {a b c d : UInt8} {k : Nat}
    (hfront : front.length = 4 * k) :
    decodeInto (front ++ [a, b, c, d]) =
      if 2 < [d, c, b, a].count padding_char then
        .error "Invalid base64 encoded data - Found more than 2 padding signs"
      else (do
        let groups := k + 1 - if [d, c, b, a].count padding_char ≠ 0 then 1 else 0
        let (decoded, bytes) ← decodeGroups groups (front ++ [a, b, c, d])
        let last ← decodeLast ([d, c, b, a].count padding_char) bytes
        .ok (decoded ++ last)) := by
  have hlength : (front ++ [a, b, c, d]).length = 4 * (k + 1) := by
    rw [List.length_append, hfront]
    rfl
  have hmask : (front ++ [a, b, c, d]).length &&& 3 = 0 := by
    rw [hlength]
    exact (Nat.and_two_pow_sub_one_eq_mod _ 2).trans (Nat.mul_mod_right 4 _)
  have hcount : (front ++ [a, b, c, d]).length >>> 2 = k + 1 := by
    rw [hlength, Nat.shiftRight_eq_div_pow]
    exact Nat.mul_div_cancel_left (k + 1) (by decide)
  have hreverse : (front ++ [a, b, c, d]).reverse.take 4 = [d, c, b, a] := by
    rw [List.reverse_append]
    rfl
  rw [decodeInto, if_neg (by simp), if_neg (not_not.mpr hmask)]
  simp only [hreverse, hcount]

/-- A last group with padding is digits and the padding: where it stands is not looked
    at, but a padding character in front of a digit is a bad one. -/
theorem decodeLast_eq_ok {a b c d : UInt8} {padding : Nat} {last : List UInt8}
    (hpadding : padding = 1 ∨ padding = 2) :
    ([d, c, b, a].count padding_char = padding ∧ decodeLast padding [a, b, c, d] = .ok last) ↔
      ∃ vs : List Nat, (∀ v ∈ vs, v < 64) ∧ vs.length + padding = 4 ∧
        [a, b, c, d] = digits vs ++ List.replicate padding padding_char ∧
        last = ofBits (digitBits vs) := by
  rcases hpadding with rfl | rfl
  · constructor
    · rintro ⟨hcount, h⟩
      obtain ⟨v1, v2, v3, ⟨h1, h2, h3⟩, hdigits, rfl⟩ := group_three_eq_ok.mp h
      simp only [digits, List.map_cons, List.map_nil, List.cons.injEq, and_true] at hdigits
      obtain ⟨rfl, rfl, rfl⟩ := hdigits
      have hd : d = padding_char := by
        by_contra hd
        simp [digit_ne_padding h1, digit_ne_padding h2, digit_ne_padding h3, hd] at hcount
      subst hd
      exact ⟨[v1, v2, v3], by simp [h1, h2, h3], rfl, rfl, rfl⟩
    · rintro ⟨vs, hall, hlength, htext, rfl⟩
      obtain ⟨v1, v2, v3, rfl⟩ : ∃ v1 v2 v3, vs = [v1, v2, v3] := by
        match vs, hlength with
        | [v1, v2, v3], _ => exact ⟨v1, v2, v3, rfl⟩
      simp only [List.mem_cons, List.not_mem_nil, or_false, forall_eq_or_imp, forall_eq] at hall
      obtain ⟨h1, h2, h3⟩ := hall
      obtain ⟨rfl, rfl, rfl, rfl⟩ : a = digit v1 ∧ b = digit v2 ∧ c = digit v3 ∧ d = padding_char := by
        simpa [digits] using htext
      refine ⟨?_, group_three_eq_ok.mpr ⟨v1, v2, v3, ⟨h1, h2, h3⟩, rfl, rfl⟩⟩
      simp [digit_ne_padding h1, digit_ne_padding h2, digit_ne_padding h3]
  · constructor
    · rintro ⟨hcount, h⟩
      obtain ⟨v1, v2, ⟨h1, h2⟩, hdigits, rfl⟩ := group_two_eq_ok.mp h
      simp only [digits, List.map_cons, List.map_nil, List.cons.injEq, and_true] at hdigits
      obtain ⟨rfl, rfl⟩ := hdigits
      have hcd : c = padding_char ∧ d = padding_char := by
        simp only [List.count_cons, List.count_nil, beq_iff_eq, digit_ne_padding h1,
          digit_ne_padding h2, if_false] at hcount
        by_cases hc : c = padding_char <;> by_cases hd : d = padding_char <;>
          simp [hc, hd] at hcount ⊢
      obtain ⟨rfl, rfl⟩ := hcd
      exact ⟨[v1, v2], by simp [h1, h2], rfl, rfl, rfl⟩
    · rintro ⟨vs, hall, hlength, htext, rfl⟩
      obtain ⟨v1, v2, rfl⟩ : ∃ v1 v2, vs = [v1, v2] := by
        match vs, hlength with
        | [v1, v2], _ => exact ⟨v1, v2, rfl⟩
      simp only [List.mem_cons, List.not_mem_nil, or_false, forall_eq_or_imp, forall_eq] at hall
      obtain ⟨h1, h2⟩ := hall
      obtain ⟨rfl, rfl, rfl, rfl⟩ :
          a = digit v1 ∧ b = digit v2 ∧ c = padding_char ∧ d = padding_char := by
        simpa [digits] using htext
      refine ⟨?_, group_two_eq_ok.mpr ⟨v1, v2, ⟨h1, h2⟩, rfl, rfl⟩⟩
      simp [digit_ne_padding h1, digit_ne_padding h2]

/-- What is decoded is spelled by its text. -/
theorem spells_of_decodeInto {text bytes : List UInt8} (h : decodeInto text = .ok bytes) :
    ∃ vs padding, Spells text vs padding ∧ bytes = ofBits (digitBits vs) := by
  by_cases hne : text = []
  · rw [decodeInto, if_pos hne] at h
    obtain rfl := Except.ok.inj h
    exact ⟨[], 0, ⟨by simp, by simpa [digits] using hne, Nat.zero_le 2, rfl⟩, rfl⟩
  · have hgroups : text.length % 4 = 0 := by
      by_contra hmod
      have hmask : text.length &&& 3 ≠ 0 := by
        intro hzero
        exact hmod ((Nat.and_two_pow_sub_one_eq_mod _ 2).symm.trans hzero)
      rw [decodeInto, if_neg hne, if_pos hmask] at h
      cases h
    obtain ⟨front, a, b, c, d, k, rfl, hfront⟩ := exists_last hne hgroups
    have htotal : (front ++ [a, b, c, d]).length = 4 * (k + 1) := by
      rw [List.length_append, hfront]
      rfl
    rw [decodeInto_last hfront] at h
    by_cases hmany : 2 < [d, c, b, a].count padding_char
    · rw [if_pos hmany] at h
      cases h
    · rw [if_neg hmany] at h
      obtain ⟨⟨decoded, rest⟩, hloop, h⟩ := of_bind_eq_ok h
      obtain ⟨last, hlast, h⟩ := of_bind_eq_ok h
      obtain rfl := Except.ok.inj h
      by_cases hnone : [d, c, b, a].count padding_char = 0
      · simp only [hnone, ne_eq, not_true_eq_false, if_false, Nat.sub_zero] at hloop hlast
        obtain ⟨vs, hvs, hall, htext, rfl⟩ := (decodeGroups_eq_ok (Nat.le_of_eq htotal.symm)).mp hloop
        have hrest : rest = [] := by
          have hlength := congrArg List.length htext
          rw [htotal, List.length_append, length_digits, hvs] at hlength
          exact List.length_eq_zero_iff.mp (Nat.add_eq_left.mp hlength.symm)
        subst hrest
        obtain rfl := Except.ok.inj hlast
        refine ⟨vs, 0, ⟨hall, htext, Nat.zero_le 2, ?_⟩, List.append_nil _⟩
        rw [hvs]
        exact Nat.mul_mod_right 4 _
      · simp only [ne_eq, hnone, not_false_eq_true, if_true, Nat.add_sub_cancel] at hloop
        have hlength : 4 * k ≤ (front ++ [a, b, c, d]).length := by
          rw [htotal]
          exact Nat.mul_le_mul_left 4 (Nat.le_succ k)
        obtain ⟨vs, hvs, hall, htext, rfl⟩ := (decodeGroups_eq_ok hlength).mp hloop
        obtain ⟨rfl, rfl⟩ : front = digits vs ∧ [a, b, c, d] = rest :=
          List.append_inj htext (by rw [length_digits, hvs, hfront])
        obtain ⟨ws, hsmall, hws, hgroup, rfl⟩ :=
          (decodeLast_eq_ok (by omega)).mp ⟨rfl, hlast⟩
        refine ⟨vs ++ ws, _, ⟨?_, ?_, Nat.le_of_not_lt hmany, ?_⟩, ?_⟩
        · intro v hv
          rcases List.mem_append.mp hv with hv | hv
          · exact hall v hv
          · exact hsmall v hv
        · rw [digits_append, List.append_assoc, ← hgroup]
        · rw [List.length_append, hvs, Nat.add_assoc, hws]
          omega
        · rw [digitBits_append, ofBits_groups (by rw [hvs]; exact Nat.mul_mod_right 4 k)]

/-- What is spelled is decoded. -/
theorem decodeInto_of_spells {text : List UInt8} {vs : List Nat} {padding : Nat}
    (h : Spells text vs padding) : decodeInto text = .ok (ofBits (digitBits vs)) := by
  obtain ⟨hall, rfl, hshort, hgroups⟩ := h
  by_cases hne : digits vs ++ List.replicate padding padding_char = []
  · obtain ⟨hvs, -⟩ := List.append_eq_nil_iff.mp hne
    obtain rfl := List.map_eq_nil_iff.mp hvs
    rw [decodeInto, if_pos hne]
    rfl
  · have hlength : (digits vs ++ List.replicate padding padding_char).length = vs.length + padding := by
      rw [List.length_append, length_digits, List.length_replicate]
    obtain ⟨front, a, b, c, d, k, hlast, hfront⟩ := exists_last hne (by rw [hlength, hgroups])
    have htotal : vs.length + padding = 4 * (k + 1) := by
      rw [← hlength, hlast, List.length_append, hfront]
      rfl
    -- the digits of the groups in front of the last, and those of the last
    have hsplit : vs = vs.take (4 * k) ++ vs.drop (4 * k) := (List.take_append_drop _ _).symm
    have htake : (vs.take (4 * k)).length = 4 * k := by
      rw [List.length_take]
      omega
    have hdrop : (vs.drop (4 * k)).length + padding = 4 := by
      rw [List.length_drop]
      omega
    generalize vs.take (4 * k) = us at hsplit htake
    generalize vs.drop (4 * k) = ws at hsplit hdrop
    subst hsplit
    have hus : ∀ v ∈ us, v < 64 := fun v hv => hall v (List.mem_append_left ws hv)
    have hws : ∀ v ∈ ws, v < 64 := fun v hv => hall v (List.mem_append_right us hv)
    rw [digits_append, List.append_assoc] at hlast ⊢
    obtain ⟨rfl, hgroup⟩ := List.append_inj hlast (by rw [length_digits, htake, hfront])
    rw [hgroup, decodeInto_last hfront]
    by_cases hnone : padding = 0
    · subst hnone
      rw [List.replicate_zero, List.append_nil] at hgroup
      have hcount : [d, c, b, a].count padding_char = 0 := by
        rw [List.count_eq_zero]
        intro hmem
        have hdigit : padding_char ∈ digits ws := by
          rw [hgroup]
          simp only [List.mem_cons, List.not_mem_nil, or_false] at hmem ⊢
          tauto
        obtain ⟨v, hv, heq⟩ := List.mem_map.mp hdigit
        exact digit_ne_padding (hws v hv) heq
      have hloop : decodeGroups (k + 1) (digits us ++ [a, b, c, d]) =
          .ok (ofBits (digitBits (us ++ ws)), []) := by
        have hlong : 4 * (k + 1) ≤ (digits us ++ [a, b, c, d]).length := by
          rw [List.length_append, hfront]
          exact Nat.le_refl _
        refine (decodeGroups_eq_ok hlong).mpr ⟨us ++ ws, ?_, hall, ?_, rfl⟩
        · rw [List.length_append]
          omega
        · rw [digits_append, List.append_nil, hgroup]
      simp only [hcount, Nat.not_lt_zero, if_false, ne_eq, not_true_eq_false, Nat.sub_zero, hloop,
        ok_bind, decodeLast, List.append_nil]
    · have hsome : padding = 1 ∨ padding = 2 := by
        omega
      obtain ⟨hcount, hlast'⟩ := (decodeLast_eq_ok hsome).mpr ⟨ws, hws, hdrop, hgroup.symm, rfl⟩
      have hloop : decodeGroups k (digits us ++ [a, b, c, d]) =
          .ok (ofBits (digitBits us), [a, b, c, d]) := by
        have hlong : 4 * k ≤ (digits us ++ [a, b, c, d]).length := by
          rw [List.length_append, hfront]
          exact Nat.le_add_right _ _
        exact (decodeGroups_eq_ok hlong).mpr ⟨us, htake, hus, rfl, rfl⟩
      rw [hcount, if_neg (Nat.not_lt.mpr hshort)]
      simp only [ne_eq, hnone, not_false_eq_true, if_true, Nat.add_sub_cancel, hloop, ok_bind, hlast']
      rw [digitBits_append, ofBits_groups (by rw [htake]; exact Nat.mul_mod_right 4 k)]

/-- **What is accepted.**  A text is decoded if and only if it is digits with padding
    that fills the last group, and to the complete bytes of the digits' bits. -/
theorem decodeInto_eq_ok {text bytes : List UInt8} :
    decodeInto text = .ok bytes ↔
      ∃ vs padding, Spells text vs padding ∧ bytes = ofBits (digitBits vs) := by
  constructor
  · exact spells_of_decodeInto
  · rintro ⟨vs, padding, hspells, rfl⟩
    exact decodeInto_of_spells hspells

/-! ### What is encoded -/

theorem encode_table_0_eq (t : UInt8) : encode_table_0 t = digit (t.toNat / 4) := by
  rw [encode_table_0, Nat.shiftRight_eq_div_pow]

theorem encode_table_1_eq {v n : Nat} (h : v % 64 = n) : encode_table_1 v = digit n := by
  rw [encode_table_1, ← h]
  exact congrArg digit (Nat.and_two_pow_sub_one_eq_mod v 6)

/-- The index of the second digit of a group, of which the second byte may be missing. -/
theorem second_index (t1 t2 : UInt8) :
    ((t1.toNat &&& 0x03) <<< 4 ||| t2.toNat >>> 4 &&& 0x0F) % 64 =
      t1.toNat % 4 * 16 + t2.toNat / 16 := by
  have h1 := t1.toNat_lt
  have h2 := t2.toNat_lt
  have hlow : t1.toNat &&& 0x03 = t1.toNat % 4 := Nat.and_two_pow_sub_one_eq_mod _ 2
  have hhigh : t2.toNat >>> 4 &&& 0x0F = t2.toNat / 16 % 16 :=
    (congrArg (· &&& 0x0F) (Nat.shiftRight_eq_div_pow _ 4)).trans
      (Nat.and_two_pow_sub_one_eq_mod _ 4)
  rw [hlow, hhigh, or_shifted (n := 4) (by omega)]
  omega

theorem third_index (t2 t3 : UInt8) :
    ((t2.toNat &&& 0x0F) <<< 2 ||| t3.toNat >>> 6 &&& 0x03) % 64 =
      t2.toNat % 16 * 4 + t3.toNat / 64 := by
  have h2 := t2.toNat_lt
  have h3 := t3.toNat_lt
  have hlow : t2.toNat &&& 0x0F = t2.toNat % 16 := Nat.and_two_pow_sub_one_eq_mod _ 4
  have hhigh : t3.toNat >>> 6 &&& 0x03 = t3.toNat / 64 % 4 :=
    (congrArg (· &&& 0x03) (Nat.shiftRight_eq_div_pow _ 6)).trans
      (Nat.and_two_pow_sub_one_eq_mod _ 2)
  rw [hlow, hhigh, or_shifted (n := 2) (by omega)]
  omega

/-- Three bytes are four digits. -/
theorem digitBits_of_bytes (t1 t2 t3 : UInt8) :
    digitBits [t1.toNat / 4, t1.toNat % 4 * 16 + t2.toNat / 16,
      t2.toNat % 16 * 4 + t3.toNat / 64, t3.toNat % 64] = toBits [t1, t2, t3] := by
  have h1 := t1.toNat_lt
  have h2 := t2.toNat_lt
  have h3 := t3.toNat_lt
  rw [digitBits_four (by omega) (by omega) (by omega)]
  have hbyte0 : t1.toNat / 4 * 4 + (t1.toNat % 4 * 16 + t2.toNat / 16) / 16 = t1.toNat := by
    omega
  have hbyte1 : (t1.toNat % 4 * 16 + t2.toNat / 16) % 16 * 16 +
      (t2.toNat % 16 * 4 + t3.toNat / 64) / 4 = t2.toNat := by
    omega
  have hbyte2 : (t2.toNat % 16 * 4 + t3.toNat / 64) % 4 * 64 + t3.toNat % 64 = t3.toNat := by
    omega
  rw [hbyte0, hbyte1, hbyte2]
  simp [toBits]

/-- What is encoded is spelled by digits whose bits are its own and zeros. -/
theorem encodeInto_spells (bytes : List UInt8) :
    ∃ vs padding zeros, Spells (encodeInto bytes) vs padding ∧
      digitBits vs = toBits bytes ++ List.replicate zeros false ∧ zeros < 8 := by
  fun_induction encodeInto bytes with
  | case1 t1 t2 t3 bytes ih =>
    obtain ⟨vs, padding, zeros, ⟨hall, htext, hshort, hgroups⟩, hbits, hzeros⟩ := ih
    have h1 := t1.toNat_lt
    have h2 := t2.toNat_lt
    have h3 := t3.toNat_lt
    refine ⟨[t1.toNat / 4, t1.toNat % 4 * 16 + t2.toNat / 16,
      t2.toNat % 16 * 4 + t3.toNat / 64, t3.toNat % 64] ++ vs, padding, zeros,
      ⟨?_, ?_, hshort, ?_⟩, ?_, hzeros⟩
    · intro v hv
      rcases List.mem_append.mp hv with hv | hv
      · simp only [List.mem_cons, List.not_mem_nil, or_false] at hv
        rcases hv with rfl | rfl | rfl | rfl <;> omega
      · exact hall v hv
    · rw [encode_table_0_eq, encode_table_1_eq (second_index t1 t2),
        encode_table_1_eq (third_index t2 t3), encode_table_1_eq rfl, htext]
      rfl
    · rw [List.length_append]
      simp only [List.length_cons, List.length_nil]
      omega
    · rw [digitBits_append, hbits, digitBits_of_bytes, ← List.append_assoc, ← toBits_append]
      rfl
  | case2 t1 t2 =>
    have h1 := t1.toNat_lt
    have h2 := t2.toNat_lt
    have hthird := third_index t2 0
    rw [show ((0 : UInt8).toNat >>> 6 &&& 0x03) = 0 from rfl, Nat.or_zero] at hthird
    refine ⟨[t1.toNat / 4, t1.toNat % 4 * 16 + t2.toNat / 16,
      t2.toNat % 16 * 4 + (0 : UInt8).toNat / 64], 1, 2, ⟨?_, ?_, by decide, by simp⟩, ?_, by decide⟩
    · intro v hv
      simp only [List.mem_cons, List.not_mem_nil, or_false] at hv
      rcases hv with rfl | rfl | rfl
      · omega
      · omega
      · change t2.toNat % 16 * 4 + 0 < 64
        omega
    · rw [encode_table_0_eq, encode_table_1_eq (second_index t1 t2), encode_table_1_eq hthird]
      rfl
    · have hgroup := digitBits_of_bytes t1 t2 0
      have hsplit : digitBits [t1.toNat / 4, t1.toNat % 4 * 16 + t2.toNat / 16,
          t2.toNat % 16 * 4 + (0 : UInt8).toNat / 64] ++ List.replicate 6 false =
          toBits [t1, t2] ++ List.replicate 2 false ++ List.replicate 6 false := by
        rw [List.append_assoc]
        exact hgroup
      exact List.append_cancel_right hsplit
  | case3 t1 =>
    have h1 := t1.toNat_lt
    have hsecond := second_index t1 0
    rw [show ((0 : UInt8).toNat >>> 4 &&& 0x0F) = 0 from rfl, Nat.or_zero] at hsecond
    refine ⟨[t1.toNat / 4, t1.toNat % 4 * 16 + (0 : UInt8).toNat / 16], 2, 4,
      ⟨?_, ?_, by decide, by simp⟩, ?_, by decide⟩
    · intro v hv
      simp only [List.mem_cons, List.not_mem_nil, or_false] at hv
      rcases hv with rfl | rfl
      · omega
      · change t1.toNat % 4 * 16 + 0 < 64
        omega
    · rw [encode_table_0_eq, encode_table_1_eq hsecond]
      rfl
    · have hgroup := digitBits_of_bytes t1 0 0
      have hsplit : digitBits [t1.toNat / 4, t1.toNat % 4 * 16 + (0 : UInt8).toNat / 16] ++
          List.replicate 12 false =
          toBits [t1] ++ List.replicate 4 false ++ List.replicate 12 false := by
        rw [List.append_assoc]
        exact hgroup
      exact List.append_cancel_right hsplit
  | case4 => exact ⟨[], 0, 0, ⟨by simp, rfl, by decide, rfl⟩, rfl, by decide⟩

/-! ### There and back -/

/-- The complete bytes of a stream, and the bits left over. -/
theorem toBits_ofBits_append (bits : List Bool) :
    toBits (ofBits bits) ++ bits.drop (8 * (ofBits bits).length) = bits ∧
      (ofBits bits).length = bits.length / 8 := by
  fun_induction ofBits bits with
  | case1 b0 b1 b2 b3 b4 b5 b6 b7 bits ih =>
    obtain ⟨hbits, hlength⟩ := ih
    have hlt : natOfBits [b0, b1, b2, b3, b4, b5, b6, b7] < 2 ^ 8 := natOfBits_lt _
    have hword := bitsOfNat_natOfBits [b0, b1, b2, b3, b4, b5, b6, b7]
    constructor
    · rw [toBits_cons, UInt8.toNat_ofNat', Nat.mod_eq_of_lt hlt, List.length_cons, Nat.mul_succ,
        Nat.add_comm, ← List.drop_drop, List.append_assoc]
      exact (congrArg (· ++ _) hword).trans (congrArg ([b0, b1, b2, b3, b4, b5, b6, b7] ++ ·) hbits)
    · simp only [List.length_cons]
      omega
  | case2 bits hshort =>
    have hlength : bits.length < 8 := by
      by_contra hlong
      rcases bits with _ | ⟨b0, _ | ⟨b1, _ | ⟨b2, _ | ⟨b3, _ | ⟨b4, _ | ⟨b5, _ | ⟨b6, _ | ⟨b7, rest⟩⟩⟩⟩⟩⟩⟩⟩
      iterate 8
        · simp at hlong
      exact hshort b0 b1 b2 b3 b4 b5 b6 b7 rest rfl
    exact ⟨rfl, (Nat.div_eq_of_lt hlength).symm⟩

theorem digitBits_injective {vs ws : List Nat} (hvs : ∀ v ∈ vs, v < 64) (hws : ∀ w ∈ ws, w < 64)
    (hlength : vs.length = ws.length) (h : digitBits vs = digitBits ws) : vs = ws := by
  induction vs generalizing ws with
  | nil => exact (List.length_eq_zero_iff.mp hlength.symm).symm
  | cons v vs ih =>
    cases ws with
    | nil => cases hlength
    | cons w ws =>
      obtain ⟨rfl, hrest⟩ := bitsOfNat_cancel (n := 6) (hvs v List.mem_cons_self)
        (hws w List.mem_cons_self) h
      rw [ih (fun u hu => hvs u (List.mem_cons_of_mem v hu))
        (fun u hu => hws u (List.mem_cons_of_mem v hu)) (Nat.succ.inj hlength) hrest]

/-- The bits of the digits of a text. -/
def textBits (text : List UInt8) : List Bool := digitBits (text.filterMap value?)

theorem textBits_of_spells {text : List UInt8} {vs : List Nat} {padding : Nat}
    (h : Spells text vs padding) : textBits text = digitBits vs := by
  have hdigits : (digits vs).filterMap value? = vs := by
    have hall := h.small
    clear h
    induction vs with
    | nil => rfl
    | cons v vs ih =>
      rw [digits, List.map_cons, List.filterMap_cons, value?_digit v (hall v List.mem_cons_self)]
      exact congrArg (v :: ·) (ih fun u hu => hall u (List.mem_cons_of_mem v hu))
  have hpadding : (List.replicate padding padding_char).filterMap value? = [] := by
    rw [List.filterMap_eq_nil_iff]
    intro c hc
    rw [List.eq_of_mem_replicate hc, value?_padding_char]
  rw [textBits, h.text, List.filterMap_append, hdigits, hpadding, List.append_nil]

/-- What is encoded is decoded as it was. -/
theorem decodeInto_encodeInto (bytes : List UInt8) : decodeInto (encodeInto bytes) = .ok bytes := by
  obtain ⟨vs, padding, zeros, hspells, hbits, hzeros⟩ := encodeInto_spells bytes
  rw [decodeInto_of_spells hspells, Except.ok.injEq]
  obtain ⟨hround, hlength⟩ := toBits_ofBits_append (digitBits vs)
  have hsize : (ofBits (digitBits vs)).length = bytes.length := by
    rw [hlength, hbits, List.length_append, length_toBits, List.length_replicate]
    omega
  have hsplit := hround.trans hbits
  exact toBits_injective (List.append_inj hsplit (by rw [length_toBits, length_toBits, hsize])).1

/-- **There and back.**  What is encoded is decoded as it was.  The texts that are
    decoded to the same bytes have one length, and that of the encoder is the one
    whose bits behind the bytes are zero. -/
theorem encodeInto_canonical :
    (∀ bytes, decodeInto (encodeInto bytes) = .ok bytes) ∧
    ∀ text bytes, decodeInto text = .ok bytes →
      text.length = (encodeInto bytes).length ∧
        (encodeInto bytes = text ↔ ∀ b ∈ (textBits text).drop (8 * bytes.length), b = false) := by
  refine ⟨decodeInto_encodeInto, ?_⟩
  intro text bytes h
  obtain ⟨vs, padding, hspells, rfl⟩ := spells_of_decodeInto h
  obtain ⟨hround, hlength⟩ := toBits_ofBits_append (digitBits vs)
  obtain ⟨ws, padding', zeros, hspells', hbits, hzeros⟩ :=
    encodeInto_spells (ofBits (digitBits vs))
  have htext := congrArg List.length hspells.text
  have htext' := congrArg List.length hspells'.text
  rw [List.length_append, length_digits, List.length_replicate] at htext htext'
  have hbitsLength := congrArg List.length hbits
  rw [length_digitBits, List.length_append, length_toBits, List.length_replicate, hlength,
    length_digitBits] at hbitsLength
  have hgroups := hspells.groups
  have hgroups' := hspells'.groups
  have hshort := hspells.short
  have hshort' := hspells'.short
  have hpadding : vs.length = ws.length ∧ padding = padding' := by
    have hcases : padding = 0 ∨ padding = 1 ∨ padding = 2 := by
      omega
    have hcases' : padding' = 0 ∨ padding' = 1 ∨ padding' = 2 := by
      omega
    rcases hcases with rfl | rfl | rfl <;> rcases hcases' with rfl | rfl | rfl <;> omega
  obtain ⟨hcount, rfl⟩ := hpadding
  refine ⟨by rw [htext, htext', hcount], ?_⟩
  rw [textBits_of_spells hspells]
  constructor
  · intro heq
    have hsame : digitBits ws = digitBits vs := by
      rw [← textBits_of_spells hspells', heq, textBits_of_spells hspells]
    have hleft : (digitBits ws).drop (8 * (ofBits (digitBits vs)).length) =
        List.replicate zeros false := by
      rw [hbits]
      exact List.drop_left' (length_toBits _)
    rw [hsame] at hleft
    rw [hleft]
    intro b hb
    exact List.eq_of_mem_replicate hb
  · intro hzero
    have hleft : (digitBits vs).drop (8 * (ofBits (digitBits vs)).length) =
        List.replicate zeros false := by
      rw [List.eq_replicate_iff]
      refine ⟨?_, hzero⟩
      rw [List.length_drop, length_digitBits, hlength, length_digitBits]
      omega
    have hsame : digitBits ws = digitBits vs := by
      rw [hbits, ← hleft, hround]
    obtain rfl := digitBits_injective hspells'.small hspells.small hcount.symm hsame
    rw [hspells.text, hspells'.text]

theorem encodeInto_canonical_letter :
    (∀ bytes, decodeInto (encodeInto bytes) = .ok bytes) ∧
      decodeInto [81, 81, 61, 61] = .ok [65] ∧
      [81, 81, 61, 61].length = (encodeInto [65]).length ∧
      (encodeInto [65] = [81, 81, 61, 61] ↔
        ∀ b ∈ (textBits [81, 81, 61, 61]).drop (8 * [(65 : UInt8)].length), b = false) := by
  have hdecoded : decodeInto [81, 81, 61, 61] = .ok [65] := by
    decide
  exact ⟨encodeInto_canonical.1, hdecoded, encodeInto_canonical.2 _ _ hdecoded⟩

/-- Of three texts of one byte, the first is the encoder's. -/
example : [['Q', 'Q', '=', '='], ['Q', 'R', '=', '='], ['Q', 'f', '=', '=']].map
    (fun text => decodeInto (text.map fun c => UInt8.ofNat c.toNat)) =
      [.ok [65], .ok [65], .ok [65]] := by decide

end MediaExchange.Base64
