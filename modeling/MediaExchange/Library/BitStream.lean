/-
  MediaExchange/Library/BitStream.lean
  ====================================
  **Big-endian bit streams.**

  A stream of bits is a list of them, the most significant bit of a word first.
  Words of any width are written to it and read from it (`bitsOfNat`, `readBits`),
  and a stream whose length is a multiple of eight is a sequence of bytes
  (`toBits`, `ofBits`).

  A reader is a function from a stream to what it has read and the rest, or an
  error.  What a reader accepts is characterized by the one equation
  `read bits = ok (a, rest) ↔ bits = (what is written for a) ++ rest`; these
  compose along `bind`, so that a reader of a record is inverse to its writer as
  soon as its fields are.
-/
import Mathlib.Data.List.Basic
import Mathlib.Tactic.Ring

namespace MediaExchange.BitStream

/-! ### Words -/

/-- The bits of a number, in `n` bits. -/
def bitsOfNat : Nat → Nat → List Bool
  | 0, _ => []
  | n + 1, v => decide (v / 2 ^ n % 2 = 1) :: bitsOfNat n (v % 2 ^ n)

def natOfBits : List Bool → Nat
  | [] => 0
  | b :: bits => b.toNat * 2 ^ bits.length + natOfBits bits

@[simp] theorem length_bitsOfNat (n v : Nat) : (bitsOfNat n v).length = n := by
  induction n generalizing v with
  | zero => rfl
  | succ n ih => rw [bitsOfNat, List.length_cons, ih]

theorem natOfBits_lt (bits : List Bool) : natOfBits bits < 2 ^ bits.length := by
  induction bits with
  | nil => exact Nat.one_pos
  | cons b bits ih =>
    rw [natOfBits, List.length_cons, Nat.pow_succ]
    cases b with
    | false => simp only [Bool.toNat_false]; omega
    | true => simp only [Bool.toNat_true]; omega

theorem toNat_decide_mod_two (v : Nat) : (decide (v % 2 = 1)).toNat = v % 2 := by
  rcases Nat.mod_two_eq_zero_or_one v with h | h <;> simp [h]

/-- Reading a number back from its bits. -/
theorem natOfBits_bitsOfNat {n v : Nat} (h : v < 2 ^ n) : natOfBits (bitsOfNat n v) = v := by
  induction n generalizing v with
  | zero =>
    obtain rfl : v = 0 := by simpa using h
    rfl
  | succ n ih =>
    have hpos : 0 < 2 ^ n := Nat.two_pow_pos n
    have hhigh : v / 2 ^ n % 2 = v / 2 ^ n := by
      apply Nat.mod_eq_of_lt
      rw [Nat.div_lt_iff_lt_mul hpos, Nat.mul_comm, ← Nat.pow_succ]
      exact h
    rw [bitsOfNat, natOfBits, length_bitsOfNat, ih (Nat.mod_lt v hpos), toNat_decide_mod_two, hhigh,
      Nat.mul_comm]
    exact Nat.div_add_mod v (2 ^ n)

theorem bitsOfNat_natOfBits (bits : List Bool) :
    bitsOfNat bits.length (natOfBits bits) = bits := by
  induction bits with
  | nil => rfl
  | cons b bits ih =>
    have hlt := natOfBits_lt bits
    have hpos : 0 < 2 ^ bits.length := Nat.two_pow_pos _
    have hhigh : natOfBits (b :: bits) / 2 ^ bits.length = b.toNat := by
      rw [natOfBits, Nat.mul_comm, Nat.mul_add_div hpos, Nat.div_eq_of_lt hlt, Nat.add_zero]
    have hlow : natOfBits (b :: bits) % 2 ^ bits.length = natOfBits bits := by
      rw [natOfBits, Nat.mul_comm, Nat.mul_add_mod, Nat.mod_eq_of_lt hlt]
    rw [List.length_cons, bitsOfNat, hhigh, hlow, ih]
    cases b <;> rfl

/-- The high and the low bits of a number. -/
theorem bitsOfNat_add (m n v : Nat) :
    bitsOfNat (m + n) v = bitsOfNat m (v / 2 ^ n) ++ bitsOfNat n (v % 2 ^ n) := by
  induction m generalizing v with
  | zero =>
    rw [Nat.zero_add]
    cases n with
    | zero => rfl
    | succ n =>
      have hhigh : v % 2 ^ (n + 1) / 2 ^ n % 2 = v / 2 ^ n % 2 := by
        rw [Nat.pow_succ, Nat.mod_mul_right_div_self, Nat.mod_mod]
      have hlow : v % 2 ^ (n + 1) % 2 ^ n = v % 2 ^ n :=
        Nat.mod_mod_of_dvd v (Nat.pow_dvd_pow 2 (Nat.le_succ n))
      rw [bitsOfNat, bitsOfNat, bitsOfNat, List.nil_append, hhigh, hlow]
  | succ m ih =>
    have hdiv : v / 2 ^ (m + n) = v / 2 ^ n / 2 ^ m := by
      rw [Nat.div_div_eq_div_mul, Nat.pow_add, Nat.mul_comm]
    have hhigh : v % 2 ^ (m + n) / 2 ^ n = v / 2 ^ n % 2 ^ m := by
      rw [Nat.pow_add, Nat.mul_comm, Nat.mod_mul_right_div_self]
    have hlow : v % 2 ^ (m + n) % 2 ^ n = v % 2 ^ n :=
      Nat.mod_mod_of_dvd v (Nat.pow_dvd_pow 2 (Nat.le_add_left n m))
    rw [Nat.succ_add, bitsOfNat, bitsOfNat, ih, hdiv, hhigh, hlow, List.cons_append]

theorem natOfBits_append (high low : List Bool) :
    natOfBits (high ++ low) = natOfBits high * 2 ^ low.length + natOfBits low := by
  induction high with
  | nil => rw [List.nil_append, natOfBits, Nat.zero_mul, Nat.zero_add]
  | cons b high ih =>
    rw [List.cons_append, natOfBits, natOfBits, ih, List.length_append, Nat.pow_add]
    ring

/-- Two words in one. -/
theorem bitsOfNat_append {n b : Nat} (m a : Nat) (hb : b < 2 ^ n) :
    bitsOfNat m a ++ bitsOfNat n b = bitsOfNat (m + n) (a * 2 ^ n + b) := by
  have hpos : 0 < 2 ^ n := Nat.two_pow_pos n
  have hhigh : (a * 2 ^ n + b) / 2 ^ n = a := by
    rw [Nat.mul_comm, Nat.mul_add_div hpos, Nat.div_eq_of_lt hb, Nat.add_zero]
  have hlow : (a * 2 ^ n + b) % 2 ^ n = b := by
    rw [Nat.mul_comm, Nat.mul_add_mod, Nat.mod_eq_of_lt hb]
  rw [bitsOfNat_add, hhigh, hlow]

theorem bitsOfNat_cancel {n v w : Nat} {first second : List Bool} (hv : v < 2 ^ n)
    (hw : w < 2 ^ n) (h : bitsOfNat n v ++ first = bitsOfNat n w ++ second) :
    v = w ∧ first = second := by
  obtain ⟨hword, hrest⟩ := List.append_inj h (by simp)
  rw [← natOfBits_bitsOfNat hv, hword, natOfBits_bitsOfNat hw]
  exact ⟨rfl, hrest⟩

/-- A stream that is long enough begins with a word. -/
theorem exists_word {n : Nat} {bits : List Bool} (h : n ≤ bits.length) :
    ∃ v rest, v < 2 ^ n ∧ bits = bitsOfNat n v ++ rest := by
  have hword : (bits.take n).length = n := List.length_take_of_le h
  refine ⟨natOfBits (bits.take n), bits.drop n, ?_, ?_⟩
  · have hlt := natOfBits_lt (bits.take n)
    rwa [hword] at hlt
  · have hround := bitsOfNat_natOfBits (bits.take n)
    rw [hword] at hround
    rw [hround, List.take_append_drop]

theorem or_shifted {high low n : Nat} (h : low < 2 ^ n) :
    high <<< n ||| low = high * 2 ^ n + low := by
  rw [← Nat.shiftLeft_add_eq_or_of_lt h, Nat.shiftLeft_eq]

theorem lower_bits (v n : Nat) : v &&& (1 <<< n - 1) = v % 2 ^ n := by
  rw [Nat.shiftLeft_eq, Nat.one_mul, Nat.and_two_pow_sub_one_eq_mod]

/-! ### Reading words -/

/-- The next `n` bits, if there are as many. -/
def splitBits : Nat → List Bool → Option (List Bool × List Bool)
  | 0, bits => some ([], bits)
  | _ + 1, [] => none
  | n + 1, b :: bits => (splitBits n bits).map fun (word, rest) => (b :: word, rest)

theorem splitBits_eq_some {n : Nat} {bits word rest : List Bool} :
    splitBits n bits = some (word, rest) ↔ bits = word ++ rest ∧ word.length = n := by
  induction n generalizing bits word with
  | zero =>
    rw [splitBits, Option.some.injEq, Prod.mk.injEq]
    constructor
    · rintro ⟨rfl, rfl⟩
      exact ⟨rfl, rfl⟩
    · rintro ⟨rfl, hword⟩
      obtain rfl := List.length_eq_zero_iff.mp hword
      exact ⟨rfl, rfl⟩
  | succ n ih =>
    cases bits with
    | nil =>
      rw [splitBits]
      constructor
      · intro h
        cases h
      · rintro ⟨h, hword⟩
        obtain ⟨rfl, -⟩ := List.append_eq_nil_iff.mp h.symm
        cases hword
    | cons b bits =>
      rw [splitBits, Option.map_eq_some_iff]
      constructor
      · rintro ⟨⟨tail, rest'⟩, h, heq⟩
        obtain ⟨rfl, rfl⟩ := Prod.mk.inj heq
        obtain ⟨rfl, hlength⟩ := ih.mp h
        exact ⟨rfl, by rw [List.length_cons, hlength]⟩
      · rintro ⟨h, hword⟩
        cases word with
        | nil => cases hword
        | cons c tail =>
          obtain ⟨rfl, rfl⟩ := List.cons.inj h
          exact ⟨(tail, rest), ih.mpr ⟨rfl, Nat.succ.inj hword⟩, rfl⟩

/-- Read a word of `n` bits. -/
def readBits (n : Nat) (bits : List Bool) : Option (Nat × List Bool) :=
  (splitBits n bits).map fun (word, rest) => (natOfBits word, rest)

theorem readBits_eq_some {n v : Nat} {bits rest : List Bool} :
    readBits n bits = some (v, rest) ↔ bits = bitsOfNat n v ++ rest ∧ v < 2 ^ n := by
  rw [readBits, Option.map_eq_some_iff]
  constructor
  · rintro ⟨⟨word, rest'⟩, h, heq⟩
    obtain ⟨rfl, rfl⟩ := splitBits_eq_some.mp h
    obtain ⟨rfl, rfl⟩ := Prod.mk.inj heq
    rw [bitsOfNat_natOfBits]
    exact ⟨rfl, natOfBits_lt word⟩
  · rintro ⟨rfl, hlt⟩
    refine ⟨(bitsOfNat n v, rest), splitBits_eq_some.mpr ⟨rfl, length_bitsOfNat n v⟩, ?_⟩
    change (natOfBits (bitsOfNat n v), rest) = (v, rest)
    rw [natOfBits_bitsOfNat hlt]

/-! ### Bytes -/

def toBits (bytes : List UInt8) : List Bool := bytes.flatMap fun byte => bitsOfNat 8 byte.toNat

/-- The bytes of a stream; what is left of an incomplete byte is not one. -/
def ofBits : List Bool → List UInt8
  | b0 :: b1 :: b2 :: b3 :: b4 :: b5 :: b6 :: b7 :: bits =>
      UInt8.ofNat (natOfBits [b0, b1, b2, b3, b4, b5, b6, b7]) :: ofBits bits
  | _ => []

theorem toBits_cons (byte : UInt8) (bytes : List UInt8) :
    toBits (byte :: bytes) = bitsOfNat 8 byte.toNat ++ toBits bytes := rfl

theorem toBits_append (first second : List UInt8) :
    toBits (first ++ second) = toBits first ++ toBits second :=
  List.flatMap_append

@[simp] theorem length_toBits (bytes : List UInt8) : (toBits bytes).length = 8 * bytes.length := by
  induction bytes with
  | nil => rfl
  | cons byte bytes ih =>
    rw [toBits_cons, List.length_append, length_bitsOfNat, ih, List.length_cons]
    ring

/-- A byte in front of a stream. -/
theorem ofBits_append {word : List Bool} (h : word.length = 8) (bits : List Bool) :
    ofBits (word ++ bits) = UInt8.ofNat (natOfBits word) :: ofBits bits :=
  match word, h with
  | [_, _, _, _, _, _, _, _], _ => rfl

theorem ofBits_toBits (bytes : List UInt8) : ofBits (toBits bytes) = bytes := by
  induction bytes with
  | nil => rfl
  | cons byte bytes ih =>
    rw [toBits_cons, ofBits_append (length_bitsOfNat 8 _), ih, natOfBits_bitsOfNat byte.toNat_lt,
      UInt8.ofNat_toNat]

/-- An incomplete byte is none. -/
theorem eq_nil_of_short {bits : List Bool} (h : bits.length % 8 = 0)
    (hshort : ∀ b0 b1 b2 b3 b4 b5 b6 b7 rest,
      bits = b0 :: b1 :: b2 :: b3 :: b4 :: b5 :: b6 :: b7 :: rest → False) : bits = [] := by
  match bits, hshort with
  | [], _ => rfl
  | [_], _ | [_, _], _ | [_, _, _], _ | [_, _, _, _], _ | [_, _, _, _, _], _
  | [_, _, _, _, _, _], _ | [_, _, _, _, _, _, _], _ => cases h
  | b0 :: b1 :: b2 :: b3 :: b4 :: b5 :: b6 :: b7 :: rest, hshort =>
    exact (hshort b0 b1 b2 b3 b4 b5 b6 b7 rest rfl).elim

theorem toBits_ofBits {bits : List Bool} (h : bits.length % 8 = 0) : toBits (ofBits bits) = bits := by
  fun_induction ofBits bits with
  | case1 b0 b1 b2 b3 b4 b5 b6 b7 bits ih =>
    have hbits : bits.length % 8 = 0 := by
      simp only [List.length_cons] at h
      omega
    have hlt : natOfBits [b0, b1, b2, b3, b4, b5, b6, b7] < 2 ^ 8 := natOfBits_lt _
    have hword := bitsOfNat_natOfBits [b0, b1, b2, b3, b4, b5, b6, b7]
    rw [toBits_cons, ih hbits, UInt8.toNat_ofNat', Nat.mod_eq_of_lt hlt]
    exact congrArg (· ++ bits) hword
  | case2 bits hshort =>
    obtain rfl := eq_nil_of_short h hshort
    rfl

theorem length_ofBits {bits : List Bool} (h : bits.length % 8 = 0) :
    8 * (ofBits bits).length = bits.length := by
  rw [← length_toBits, toBits_ofBits h]

theorem toBits_injective {first second : List UInt8} (h : toBits first = toBits second) :
    first = second := by
  rw [← ofBits_toBits first, h, ofBits_toBits]

/-- Whole bytes in front of whole bytes. -/
theorem ofBits_append_ofBits {first second : List Bool} (hfirst : first.length % 8 = 0)
    (hsecond : second.length % 8 = 0) : ofBits (first ++ second) = ofBits first ++ ofBits second := by
  apply toBits_injective
  have hlength : (first ++ second).length % 8 = 0 := by
    rw [List.length_append]
    omega
  rw [toBits_append, toBits_ofBits hfirst, toBits_ofBits hsecond, toBits_ofBits hlength]

/-! ### Readers -/

/-- What is read from the front of a stream, with the rest of it. -/
abbrev Reader (ε α : Type) := StateT (List Bool) (Except ε) α

section Readers

variable {ε α β : Type} {bits rest : List Bool}

theorem ok_bind (a : α) (f : α → Except ε β) : (Except.ok a >>= f) = f a := rfl

theorem of_bind_eq_ok {x : Except ε α} {f : α → Except ε β} {b : β} (h : (x >>= f) = .ok b) :
    ∃ a, x = .ok a ∧ f a = .ok b := by
  cases x with
  | error e => cases h
  | ok a => exact ⟨a, rfl, h⟩

theorem bind_eq_ok {x : Reader ε α} {f : α → Reader ε β} {b : β} :
    (x >>= f) bits = .ok (b, rest) ↔
      ∃ a middle, x bits = .ok (a, middle) ∧ f a middle = .ok (b, rest) := by
  constructor
  · intro h
    change (x bits >>= fun (a, middle) => f a middle) = .ok (b, rest) at h
    obtain ⟨read, hx, hf⟩ := of_bind_eq_ok h
    exact ⟨read.1, read.2, hx, hf⟩
  · rintro ⟨a, middle, hx, hf⟩
    change (x bits >>= fun (a, middle) => f a middle) = .ok (b, rest)
    rw [hx]
    exact hf

theorem pure_eq_ok {a b : α} :
    (pure a : Reader ε α) bits = .ok (b, rest) ↔ a = b ∧ bits = rest := by
  constructor
  · intro h
    obtain ⟨rfl, rfl⟩ := Prod.mk.inj (Except.ok.inj h)
    exact ⟨rfl, rfl⟩
  · rintro ⟨rfl, rfl⟩
    rfl

/-- Read a word of `n` bits. -/
def read (n : Nat) (eof : ε) : Reader ε Nat := fun bits =>
  match readBits n bits with
  | none => .error eof
  | some read => .ok read

theorem read_eq_ok {n v : Nat} {eof : ε} :
    read n eof bits = .ok (v, rest) ↔ bits = bitsOfNat n v ++ rest ∧ v < 2 ^ n := by
  rw [← readBits_eq_some, read]
  cases readBits n bits with
  | none =>
    constructor
    · intro h
      cases h
    · intro h
      cases h
  | some read => rw [Except.ok.injEq, Option.some.injEq]

def readBit (eof : ε) : Reader ε Bool
  | [] => .error eof
  | b :: bits => .ok (b, bits)

theorem readBit_eq_ok {b : Bool} {eof : ε} :
    readBit eof bits = .ok (b, rest) ↔ bits = b :: rest := by
  cases bits with
  | nil =>
    constructor
    · intro h
      cases h
    · intro h
      cases h
  | cons c bits =>
    rw [readBit, Except.ok.injEq, Prod.mk.injEq, List.cons.injEq]

/-- A reader that is called a number of times. -/
def readMany (x : Reader ε α) : Nat → Reader ε (List α)
  | 0 => pure []
  | n + 1 => do
      let a ← x
      let as ← readMany x n
      pure (a :: as)

/-- If a reader accepts exactly what is written for its values, then so does one
    that calls it. -/
theorem readMany_eq_ok {x : Reader ε α} {encode : α → List Bool} {wellFormed : α → Prop}
    (hx : ∀ bits a rest, x bits = .ok (a, rest) ↔ bits = encode a ++ rest ∧ wellFormed a)
    {n : Nat} {as : List α} :
    readMany x n bits = .ok (as, rest) ↔
      bits = as.flatMap encode ++ rest ∧ as.length = n ∧ ∀ a ∈ as, wellFormed a := by
  induction n generalizing bits as with
  | zero =>
    rw [readMany, pure_eq_ok]
    constructor
    · rintro ⟨rfl, rfl⟩
      exact ⟨rfl, rfl, fun a ha => by cases ha⟩
    · rintro ⟨rfl, hlength, -⟩
      obtain rfl := List.length_eq_zero_iff.mp hlength
      exact ⟨rfl, rfl⟩
  | succ n ih =>
    simp only [readMany, bind_eq_ok, pure_eq_ok, hx]
    constructor
    · rintro ⟨a, middle, ⟨rfl, ha⟩, tail, end', htail, rfl, rfl⟩
      obtain ⟨rfl, hlength, htailWell⟩ := ih.mp htail
      refine ⟨by rw [List.flatMap_cons, List.append_assoc], by rw [List.length_cons, hlength], ?_⟩
      intro c hc
      rcases List.mem_cons.mp hc with rfl | hc
      · exact ha
      · exact htailWell c hc
    · rintro ⟨rfl, hlength, hwell⟩
      cases as with
      | nil => cases hlength
      | cons a tail =>
        refine ⟨a, tail.flatMap encode ++ rest, ⟨?_, hwell a List.mem_cons_self⟩, tail, rest, ?_, rfl,
          rfl⟩
        · rw [List.flatMap_cons, List.append_assoc]
        · exact ih.mpr ⟨rfl, Nat.succ.inj hlength,
            fun c hc => hwell c (List.mem_cons_of_mem a hc)⟩

/-- Go on if a condition holds. -/
def ensure (condition : Prop) [Decidable condition] (wrong : ε) : Reader ε Unit := fun bits =>
  if condition then .ok ((), bits) else .error wrong

theorem ensure_eq_ok {condition : Prop} [Decidable condition] {wrong : ε} {u : Unit} :
    ensure condition wrong bits = .ok (u, rest) ↔ condition ∧ bits = rest := by
  rw [ensure]
  split
  · next h => rw [Except.ok.injEq, Prod.mk.injEq, and_iff_right h, and_iff_right rfl]
  · next h =>
    constructor
    · intro hok
      cases hok
    · intro hok
      exact absurd hok.1 h

/-- Skip to the next byte: the bits before it must have the given value. -/
def skipToByte (value : Bool) (wrong : ε) : Reader ε Unit
  | [] => .ok ((), [])
  | b :: bits =>
      if (b :: bits).length % 8 = 0 then .ok ((), b :: bits)
      else if b = value then skipToByte value wrong bits
      else .error wrong

theorem skipToByte_eq_ok {value : Bool} {wrong : ε} {u : Unit} :
    skipToByte value wrong bits = .ok (u, rest) ↔
      bits = List.replicate (bits.length % 8) value ++ rest := by
  induction bits with
  | nil => simp [skipToByte, eq_comm]
  | cons b bits ih =>
    rw [skipToByte]
    split
    · next haligned =>
      rw [haligned, Except.ok.injEq, Prod.mk.injEq, and_iff_right rfl]
      rfl
    · next hunaligned =>
      have hlength : (b :: bits).length % 8 = bits.length % 8 + 1 := by
        rw [List.length_cons] at hunaligned ⊢
        omega
      rw [hlength, List.replicate_succ, List.cons_append, List.cons.injEq]
      split
      · next hb => rw [ih, and_iff_right hb]
      · next hb =>
        constructor
        · intro h
          cases h
        · intro h
          exact absurd h.1 hb

/-- A reader of bytes that ends where a byte does. -/
def onBytes (x : Reader ε α) (bytes : List UInt8) : Except ε (α × List UInt8) :=
  (x (toBits bytes)).map fun (a, bits) => (a, ofBits bits)

/-- What a reader accepts of bits, it accepts of the bytes that are made of them. -/
theorem onBytes_eq_ok {x : Reader ε α} {Writes : α → List Bool → Prop}
    (hwhole : ∀ a word, Writes a word → word.length % 8 = 0)
    (hx : ∀ bits a rest, bits.length % 8 = 0 →
      (x bits = .ok (a, rest) ↔ ∃ word, Writes a word ∧ bits = word ++ rest))
    {bytes left : List UInt8} {a : α} :
    onBytes x bytes = .ok (a, left) ↔ ∃ word, Writes a word ∧ bytes = ofBits word ++ left := by
  have hbytes : (toBits bytes).length % 8 = 0 := by
    rw [length_toBits]
    exact Nat.mul_mod_right 8 _
  constructor
  · intro h
    rw [onBytes] at h
    cases hread : x (toBits bytes) with
    | error e =>
      rw [hread] at h
      cases h
    | ok read =>
      obtain ⟨a', bits⟩ := read
      rw [hread] at h
      obtain ⟨rfl, rfl⟩ := Prod.mk.inj (Except.ok.inj h)
      obtain ⟨word, hword, hsplit⟩ := (hx _ _ _ hbytes).mp hread
      have hbits : bits.length % 8 = 0 := by
        have htotal := congrArg List.length hsplit
        have hmod := hwhole _ _ hword
        rw [List.length_append] at htotal
        omega
      refine ⟨word, hword, ?_⟩
      rw [← ofBits_append_ofBits (hwhole _ _ hword) hbits, ← hsplit, ofBits_toBits]
  · rintro ⟨word, hword, rfl⟩
    have hsplit : toBits (ofBits word ++ left) = word ++ toBits left := by
      rw [toBits_append, toBits_ofBits (hwhole a word hword)]
    rw [onBytes, (hx _ a (toBits left) hbytes).mpr ⟨word, hword, hsplit⟩]
    change Except.ok (a, ofBits (toBits left)) = _
    rw [ofBits_toBits]

end Readers

/-! ### Writers -/

/-- Write a word of `n` bits, if it fits. -/
def write {ε : Type} (n : Nat) (excess : ε) (v : Nat) (bits : List Bool) : Except ε (List Bool) :=
  if v < 2 ^ n then .ok (bits ++ bitsOfNat n v) else .error excess

theorem write_eq_ok {ε : Type} {n v : Nat} {excess : ε} {bits : List Bool} (h : v < 2 ^ n) :
    write n excess v bits = .ok (bits ++ bitsOfNat n v) := if_pos h

/-- Write words of `n` bits. -/
def writeMany {ε : Type} (n : Nat) (excess : ε) : List Nat → List Bool → Except ε (List Bool)
  | [], bits => .ok bits
  | v :: vs, bits => write n excess v bits >>= writeMany n excess vs

theorem writeMany_eq_ok {ε : Type} {n : Nat} {excess : ε} {vs : List Nat} {bits : List Bool}
    (h : ∀ v ∈ vs, v < 2 ^ n) :
    writeMany n excess vs bits = .ok (bits ++ vs.flatMap (bitsOfNat n)) := by
  induction vs generalizing bits with
  | nil => rw [writeMany, List.flatMap_nil, List.append_nil]
  | cons v vs ih =>
    rw [writeMany, write_eq_ok (h v List.mem_cons_self)]
    change writeMany n excess vs (bits ++ bitsOfNat n v) = _
    rw [ih fun w hw => h w (List.mem_cons_of_mem v hw), List.flatMap_cons, List.append_assoc]

/-! ### Alignment -/

/-- A word, with the bits up to the next byte. -/
def aligned (value : Bool) (word : List Bool) : List Bool :=
  word ++ List.replicate ((8 - word.length % 8) % 8) value

theorem length_aligned (value : Bool) (word : List Bool) : (aligned value word).length % 8 = 0 := by
  rw [aligned, List.length_append, List.length_replicate]
  omega

/-- What is skipped behind a word is what aligns it. -/
theorem skip_aligned {value : Bool} {word bits rest : List Bool} (h : bits.length % 8 = 0) :
    (∃ unaligned, bits = word ++ unaligned ∧
        unaligned = List.replicate (unaligned.length % 8) value ++ rest) ↔
      bits = aligned value word ++ rest := by
  constructor
  · rintro ⟨unaligned, rfl, hskip⟩
    have hlength : (8 - word.length % 8) % 8 = unaligned.length % 8 := by
      rw [List.length_append] at h
      omega
    rw [aligned, hlength, List.append_assoc, ← hskip]
  · rintro rfl
    refine ⟨List.replicate ((8 - word.length % 8) % 8) value ++ rest, ?_, ?_⟩
    · rw [aligned, List.append_assoc]
    · have haligned := length_aligned value word
      have hlength : (List.replicate ((8 - word.length % 8) % 8) value ++ rest).length % 8 =
          (8 - word.length % 8) % 8 := by
        rw [List.length_append] at h
        rw [List.length_append, List.length_replicate]
        omega
      rw [hlength]

end MediaExchange.BitStream
