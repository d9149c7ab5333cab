/-
  MediaExchange/Library/MachineArithmetic.lean
  ============================================
  **Computations in machine integers.**

  A computation ends with a value, throws an error, or is stopped by a division by
  zero.  Its operations wrap around; on the way it keeps whether every one of them
  had the result it has among the integers.  It is `Faultless` if that is so and
  nothing was divided by zero.

  Both the result and the faultlessness of a sequence of computations come from
  those of its parts, and for each operation there is one rule that says when it is
  faultless.
-/
import Mathlib.Data.Int.GCD
import Mathlib.Data.Int.ModEq

namespace MediaExchange.MachineArithmetic

/-- Why a computation has no value. -/
inductive Stop (ε : Type*) where
  | divisionByZero
  | thrown (error : ε)
deriving DecidableEq

structure Computation (ε α : Type*) where
  result : Except (Stop ε) α
  /-- Every operation had the result it has among the integers. -/
  inRange : Bool

namespace Computation

universe u v

variable {ε : Type u} {α β : Type v}

def bind (x : Computation ε α) (f : α → Computation ε β) : Computation ε β :=
  match x.result with
  | .error stop => ⟨.error stop, x.inRange⟩
  | .ok a => ⟨(f a).result, x.inRange && (f a).inRange⟩

instance : Monad (Computation ε) where
  pure a := ⟨.ok a, true⟩
  bind := bind

def throw (error : ε) : Computation ε α := ⟨.error (.thrown error), true⟩

/-- What may throw, but does no arithmetic. -/
def ofExcept : Except ε α → Computation ε α
  | .error error => throw error
  | .ok a => ⟨.ok a, true⟩

/-- An operation with the value the machine gives it. -/
def operation (value : α) (inRange : Bool) : Computation ε α := ⟨.ok value, inRange⟩

/-- The computation neither divides by zero nor leaves the range of a type. -/
def Faultless (x : Computation ε α) : Prop :=
  x.inRange = true ∧ x.result ≠ .error .divisionByZero

/-! ### Sequences -/

@[simp] theorem result_pure (a : α) : (pure a : Computation ε α).result = .ok a := rfl

@[simp] theorem result_throw (error : ε) :
    (throw error : Computation ε α).result = .error (.thrown error) := rfl

@[simp] theorem result_operation (a : α) (inRange : Bool) :
    (operation a inRange : Computation ε α).result = .ok a := rfl

theorem result_ofExcept_eq_ok {x : Except ε α} {a : α} :
    (ofExcept x).result = .ok a ↔ x = .ok a := by
  cases x with
  | error error => exact iff_of_false nofun nofun
  | ok b => simp [ofExcept]

theorem result_bind_eq_ok {x : Computation ε α} {f : α → Computation ε β} {b : β} :
    (x >>= f).result = .ok b ↔ ∃ a, x.result = .ok a ∧ (f a).result = .ok b := by
  change (bind x f).result = _ ↔ _
  unfold bind
  cases hx : x.result with
  | error stop => exact iff_of_false nofun fun ⟨_, ha, _⟩ => nomatch ha
  | ok a =>
    constructor
    · intro h
      exact ⟨a, rfl, h⟩
    · rintro ⟨a', ha', h⟩
      cases ha'
      exact h

theorem result_bind_of_ok {x : Computation ε α} {f : α → Computation ε β} {a : α}
    (hx : x.result = .ok a) : (x >>= f).result = (f a).result := by
  change (bind x f).result = _
  unfold bind
  rw [hx]

/-- Nothing is divided by zero in a sequence if neither part does. -/
theorem result_bind_ne_divisionByZero {x : Computation ε α} {f : α → Computation ε β} :
    (x >>= f).result ≠ .error .divisionByZero ↔ x.result ≠ .error .divisionByZero ∧
      ∀ a, x.result = .ok a → (f a).result ≠ .error .divisionByZero := by
  change (bind x f).result ≠ _ ↔ _
  unfold bind
  cases hx : x.result with
  | error stop =>
    constructor
    · intro h
      exact ⟨fun hstop => h (by rw [Except.error.injEq] at hstop ⊢; exact hstop), nofun⟩
    · rintro ⟨h, -⟩ hstop
      exact h (by rw [Except.error.injEq] at hstop ⊢; exact hstop)
  | ok a =>
    simp only [ne_eq, reduceCtorEq, not_false_eq_true, true_and, Except.ok.injEq, forall_eq']

theorem result_ofExcept_ne_divisionByZero (x : Except ε α) :
    (ofExcept x).result ≠ .error .divisionByZero := by
  cases x with
  | error error => exact nofun
  | ok a => exact nofun

@[simp] theorem faultless_pure (a : α) : (pure a : Computation ε α).Faultless :=
  ⟨rfl, nofun⟩

@[simp] theorem faultless_throw (error : ε) : (throw error : Computation ε α).Faultless :=
  ⟨rfl, nofun⟩

@[simp] theorem faultless_ofExcept (x : Except ε α) : (ofExcept x).Faultless := by
  cases x with
  | error error => exact faultless_throw error
  | ok a => exact ⟨rfl, nofun⟩

@[simp] theorem faultless_operation (a : α) (inRange : Bool) :
    (operation a inRange : Computation ε α).Faultless ↔ inRange = true :=
  ⟨And.left, fun h => ⟨h, nofun⟩⟩

/-- The rule for a sequence: the second part starts from the value of the first. -/
theorem faultless_bind {x : Computation ε α} {f : α → Computation ε β} :
    (x >>= f).Faultless ↔ x.Faultless ∧ ∀ a, x.result = .ok a → (f a).Faultless := by
  have hrange : (x >>= f).inRange = true ↔
      x.inRange = true ∧ ∀ a, x.result = .ok a → (f a).inRange = true := by
    change (bind x f).inRange = true ↔ _
    unfold bind
    cases hx : x.result with
    | error stop => exact ⟨fun h => ⟨h, nofun⟩, And.left⟩
    | ok a => simp only [Bool.and_eq_true, Except.ok.injEq, forall_eq']
  unfold Faultless
  rw [hrange, result_bind_ne_divisionByZero]
  constructor
  · rintro ⟨⟨hx, hf⟩, hx', hf'⟩
    exact ⟨⟨hx, hx'⟩, fun a ha => ⟨hf a ha, hf' a ha⟩⟩
  · rintro ⟨⟨hx, hx'⟩, hf⟩
    exact ⟨⟨hx, fun a ha => (hf a ha).1⟩, hx', fun a ha => (hf a ha).2⟩

/-- The rule for a first part whose value is known. -/
theorem faultless_bind_of_ok {x : Computation ε α} {f : α → Computation ε β} {a : α}
    (hx : x.result = .ok a) : (x >>= f).Faultless ↔ x.Faultless ∧ (f a).Faultless := by
  rw [faultless_bind, hx]
  simp only [Except.ok.injEq, forall_eq']

/-! ### Against the plain function -/

/-- Leaving out what it keeps, the computation has the values of a plain function. -/
def Computes (x : Computation ε α) (y : Except ε α) : Prop :=
  ∀ a, x.result = .ok a ↔ y = .ok a

theorem computes_pure (a : α) : (pure a : Computation ε α).Computes (.ok a) := fun b => by
  rw [result_pure, Except.ok.injEq, Except.ok.injEq]

theorem computes_throw (error error' : ε) :
    (throw error : Computation ε α).Computes (.error error') :=
  fun _ => iff_of_false nofun nofun

theorem computes_ofExcept (x : Except ε α) : (ofExcept x).Computes x :=
  fun _ => result_ofExcept_eq_ok

theorem computes_of_result {x : Computation ε α} {a : α} (hx : x.result = .ok a) :
    x.Computes (.ok a) := fun b => by
  rw [hx, Except.ok.injEq, Except.ok.injEq]

theorem Computes.bind {x : Computation ε α} {y : Except ε α} {f : α → Computation ε β}
    {g : α → Except ε β} (hx : x.Computes y) (hf : ∀ a, (f a).Computes (g a)) :
    (x >>= f).Computes (y >>= g) := by
  intro b
  have hy : y >>= g = .ok b ↔ ∃ a, y = .ok a ∧ g a = .ok b := by
    cases y with
    | error error => exact iff_of_false nofun fun ⟨_, h, _⟩ => nomatch h
    | ok a => exact ⟨fun h => ⟨a, rfl, h⟩, fun ⟨_, ha, h⟩ => by cases ha; exact h⟩
  rw [result_bind_eq_ok, hy]
  simp only [hx _, hf _ _]

theorem Computes.map {x : Except ε α} {f : α → Computation ε β} {h : α → β}
    (hf : ∀ a, (f a).result = .ok (h a)) : (ofExcept x >>= f).Computes (h <$> x) := by
  have hmap : h <$> x = x >>= fun a => .ok (h a) := by
    cases x <;> rfl
  rw [hmap]
  exact (computes_ofExcept x).bind fun a => computes_of_result (hf a)

/-- A first part whose value is known. -/
theorem Computes.after {x : Computation ε α} {f : α → Computation ε β} {a : α} {y : Except ε β}
    (hx : x.result = .ok a) (hf : (f a).Computes y) : (x >>= f).Computes y := by
  intro b
  rw [← hf b, result_bind_eq_ok, hx]
  simp only [Except.ok.injEq, exists_eq_left']

theorem Computes.ite {p : Prop} [Decidable p] {x x' : Computation ε α} {y y' : Except ε α}
    (hx : x.Computes y) (hx' : x'.Computes y') :
    (if p then x else x').Computes (if p then y else y') := by
  split
  · exact hx
  · exact hx'

/-! ### Operations -/

/-- The result of an operation in 64 unsigned bits is no other than its integer result. -/
def InUInt64 (i : ℤ) : Prop := 0 ≤ i ∧ i < 2 ^ 64

def InInt64 (i : ℤ) : Prop := -2 ^ 63 ≤ i ∧ i < 2 ^ 63

def InUInt32 (i : ℤ) : Prop := 0 ≤ i ∧ i < 2 ^ 32

instance : DecidablePred InUInt64 := fun _ => inferInstanceAs (Decidable (_ ∧ _))

instance : DecidablePred InInt64 := fun _ => inferInstanceAs (Decidable (_ ∧ _))

instance : DecidablePred InUInt32 := fun _ => inferInstanceAs (Decidable (_ ∧ _))

def add (a b : UInt64) : Computation ε UInt64 :=
  operation (a + b) (InUInt64 (a.toNat + b.toNat))

def subtract (a b : UInt64) : Computation ε UInt64 :=
  operation (a - b) (InUInt64 (a.toNat - b.toNat))

def multiply (a b : UInt64) : Computation ε UInt64 :=
  operation (a * b) (InUInt64 (a.toNat * b.toNat))

/-- A product with a signed factor, which is converted first. -/
def scale (a : UInt64) (b : Int64) : Computation ε UInt64 :=
  operation (a * b.toUInt64) (InUInt64 (a.toNat * b.toInt))

def divide (a b : UInt64) : Computation ε UInt64 :=
  if b = 0 then ⟨.error .divisionByZero, true⟩ else operation (a / b) true

def multiplyInt64 (a b : Int64) : Computation ε Int64 :=
  operation (a * b) (InInt64 (a.toInt * b.toInt))

def divideInt64 (a b : Int64) : Computation ε Int64 :=
  if b = 0 then ⟨.error .divisionByZero, true⟩
  else operation (a / b) (InInt64 (a.toInt.tdiv b.toInt))

/-- The greatest common divisor, by way of the absolute values, which have to be there. -/
def gcdInt64 (a b : Int64) : Computation ε Int64 :=
  operation (Int64.ofInt (Int.gcd a.toInt b.toInt)) (InInt64 a.toInt.natAbs ∧ InInt64 b.toInt.natAbs)

def multiplyUInt32 (a b : UInt32) : Computation ε UInt32 :=
  operation (a * b) (InUInt32 (a.toNat * b.toNat))

def remainderUInt32 (a b : UInt32) : Computation ε UInt32 :=
  if b = 0 then ⟨.error .divisionByZero, true⟩ else operation (a % b) true

variable {a b c : UInt64} {i j k : Int64}

@[simp] theorem faultless_add :
    (add a b : Computation ε UInt64).Faultless ↔ InUInt64 (a.toNat + b.toNat) := by
  simp [add]

@[simp] theorem faultless_subtract :
    (subtract a b : Computation ε UInt64).Faultless ↔ InUInt64 (a.toNat - b.toNat) := by
  simp [subtract]

@[simp] theorem faultless_multiply :
    (multiply a b : Computation ε UInt64).Faultless ↔ InUInt64 (a.toNat * b.toNat) := by
  simp [multiply]

@[simp] theorem faultless_scale :
    (scale a i : Computation ε UInt64).Faultless ↔ InUInt64 (a.toNat * i.toInt) := by
  simp [scale]

@[simp] theorem faultless_divide : (divide a b : Computation ε UInt64).Faultless ↔ b ≠ 0 := by
  unfold divide
  split
  · next hb => exact iff_of_false (fun h => h.2 rfl) (not_not.mpr hb)
  · next hb => exact iff_of_true ((faultless_operation _ _).mpr rfl) hb

@[simp] theorem faultless_multiplyInt64 :
    (multiplyInt64 i j : Computation ε Int64).Faultless ↔ InInt64 (i.toInt * j.toInt) := by
  simp [multiplyInt64]

@[simp] theorem faultless_divideInt64 : (divideInt64 i j : Computation ε Int64).Faultless ↔
    j ≠ 0 ∧ InInt64 (i.toInt.tdiv j.toInt) := by
  unfold divideInt64
  split
  · next hj => exact iff_of_false (fun h => h.2 rfl) fun h => h.1 hj
  · next hj => simp [hj]

@[simp] theorem faultless_gcdInt64 : (gcdInt64 i j : Computation ε Int64).Faultless ↔
    InInt64 i.toInt.natAbs ∧ InInt64 j.toInt.natAbs := by
  simp [gcdInt64]

@[simp] theorem faultless_multiplyUInt32 {a b : UInt32} :
    (multiplyUInt32 a b : Computation ε UInt32).Faultless ↔ InUInt32 (a.toNat * b.toNat) := by
  simp [multiplyUInt32]

@[simp] theorem result_add : (add a b : Computation ε UInt64).result = .ok (a + b) := rfl

@[simp] theorem result_subtract :
    (subtract a b : Computation ε UInt64).result = .ok (a - b) := rfl

@[simp] theorem result_multiply :
    (multiply a b : Computation ε UInt64).result = .ok (a * b) := rfl

@[simp] theorem result_scale :
    (scale a i : Computation ε UInt64).result = .ok (a * i.toUInt64) := rfl

@[simp] theorem result_multiplyInt64 :
    (multiplyInt64 i j : Computation ε Int64).result = .ok (i * j) := rfl

@[simp] theorem result_gcdInt64 : (gcdInt64 i j : Computation ε Int64).result =
    .ok (Int64.ofInt (Int.gcd i.toInt j.toInt)) := rfl

@[simp] theorem result_multiplyUInt32 {a b : UInt32} :
    (multiplyUInt32 a b : Computation ε UInt32).result = .ok (a * b) := rfl

theorem result_divide_eq_ok :
    (divide a b : Computation ε UInt64).result = .ok c ↔ b ≠ 0 ∧ c = a / b := by
  unfold divide
  split
  · next hb => exact iff_of_false nofun fun h => h.1 hb
  · next hb =>
    rw [result_operation, Except.ok.injEq, eq_comm]
    exact ⟨fun h => ⟨hb, h⟩, And.right⟩

theorem result_divide_ne_divisionByZero :
    (divide a b : Computation ε UInt64).result ≠ .error .divisionByZero ↔ b ≠ 0 := by
  unfold divide
  split
  · next hb => exact iff_of_false (fun h => h rfl) (not_not.mpr hb)
  · next hb => exact iff_of_true nofun hb

theorem result_divideInt64_eq_ok :
    (divideInt64 i j : Computation ε Int64).result = .ok k ↔ j ≠ 0 ∧ k = i / j := by
  unfold divideInt64
  split
  · next hj => exact iff_of_false nofun fun h => h.1 hj
  · next hj =>
    rw [result_operation, Except.ok.injEq, eq_comm]
    exact ⟨fun h => ⟨hj, h⟩, And.right⟩

theorem result_remainderUInt32_eq_ok {a b c : UInt32} :
    (remainderUInt32 a b : Computation ε UInt32).result = .ok c ↔ b ≠ 0 ∧ c = a % b := by
  unfold remainderUInt32
  split
  · next hb => exact iff_of_false nofun fun h => h.1 hb
  · next hb =>
    rw [result_operation, Except.ok.injEq, eq_comm]
    exact ⟨fun h => ⟨hb, h⟩, And.right⟩

/-- A signed number that is converted, modulo the word. -/
theorem toNat_toUInt64 (i : Int64) : (i.toUInt64.toNat : ℤ) = i.toInt % 2 ^ 64 := by
  have hlt := i.toUInt64.toNat_lt
  have hcond : i.toInt = if 2 * i.toUInt64.toNat < 2 ^ 64 then (i.toUInt64.toNat : ℤ)
      else i.toUInt64.toNat - 2 ^ 64 := by
    have h := BitVec.toInt_eq_toNat_cond i.toBitVec
    exact_mod_cast h
  rw [hcond]
  split <;> omega

/-- A product with a converted factor, modulo the word. -/
theorem toNat_mul_toUInt64 (a : UInt64) (i : Int64) :
    ((a * i.toUInt64).toNat : ℤ) = (a.toNat * i.toInt) % 2 ^ 64 := by
  have h64 : ((2 ^ 64 : ℕ) : ℤ) = 2 ^ 64 := rfl
  rw [UInt64.toNat_mul, Int.natCast_mod, Int.natCast_mul, toNat_toUInt64 i, h64]
  exact Int.ModEq.mul_left _ (Int.mod_modEq _ _)

end Computation

end MediaExchange.MachineArithmetic
