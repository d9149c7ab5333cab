/-
  MediaExchange/Library/NearestQuotient.lean
  ==========================================
  **Quotients rounded to the nearest integer.**

  A quotient is rounded by adding half of the divisor, itself rounded down, before
  the division.  Going from a coarse grid to a fine one and back this way loses
  nothing, and going from the fine grid to the coarse one and back moves a point
  by at most half of the coarse step and half of the fine one.
-/
import Mathlib.Algebra.Order.Ring.Abs
import Mathlib.Tactic.Linarith
import Mathlib.Tactic.Ring

namespace MediaExchange.Library

/-- The quotient of `a` by `b`, to the nearest integer and halves upwards. -/
def nearest (a b : Int) : Int := (a + b / 2) / b

theorem nearest_eq_iff {a b q : Int} (hb : 0 < b) :
    nearest a b = q ↔ b * q ≤ a + b / 2 ∧ a + b / 2 < b * q + b := by
  unfold nearest
  constructor
  · intro h
    have hmod := Int.mul_ediv_add_emod (a + b / 2) b
    have hnonneg := Int.emod_nonneg (a + b / 2) hb.ne'
    have hlt := Int.emod_lt_of_pos (a + b / 2) hb
    rw [h] at hmod
    omega
  · intro h
    have hrest : (a + b / 2 - b * q) / b = 0 :=
      Int.ediv_eq_zero_of_lt (by omega) (by omega)
    have hsplit : a + b / 2 = a + b / 2 - b * q + b * q := by omega
    rw [hsplit, Int.add_mul_ediv_left _ _ hb.ne', hrest]
    omega

theorem nearest_bounds (a : Int) {b : Int} (hb : 0 < b) :
    b * nearest a b ≤ a + b / 2 ∧ a + b / 2 < b * nearest a b + b :=
  (nearest_eq_iff hb).mp rfl

theorem nearest_mono {a a' b : Int} (hb : 0 < b) (h : a ≤ a') : nearest a b ≤ nearest a' b :=
  Int.ediv_le_ediv hb (by omega)

theorem nearest_nonneg {a b : Int} (ha : 0 ≤ a) (hb : 0 < b) : 0 ≤ nearest a b :=
  Int.ediv_nonneg (by omega) hb.le

/-- Rounding moves the numerator by at most half of the divisor. -/
theorem two_mul_abs_nearest_sub_le (a : Int) {b : Int} (hb : 0 < b) :
    2 * |b * nearest a b - a| ≤ b := by
  have h := nearest_bounds a hb
  rcases abs_cases (b * nearest a b - a) with ⟨heq, -⟩ | ⟨heq, -⟩ <;> rw [heq] <;> omega

/-- From multiples of `b` to multiples of a finer `a` and back. -/
theorem nearest_mul_nearest {a b : Int} (ha : 0 < a) (hab : a ≤ b) (i : Int) :
    nearest (nearest (i * b) a * a) b = i := by
  have hb : 0 < b := by omega
  have h := nearest_bounds (i * b) ha
  have hi : i * b = b * i := mul_comm i b
  have hback : nearest (i * b) a * a = a * nearest (i * b) a := mul_comm _ a
  rw [nearest_eq_iff hb, hback]
  rcases hab.lt_or_eq with hlt | heq
  · omega
  · -- on one grid nothing is rounded
    subst heq
    have hexact : nearest (i * a) a = i := (nearest_eq_iff ha).mpr (by omega)
    rw [hexact]
    omega

/-- From multiples of `a` to multiples of `b` and back. -/
theorem two_mul_abs_sub_nearest_le {a b : Int} (ha : 0 < a) (hb : 0 < b) (t : Int) :
    2 * (a * |t - nearest (nearest (t * a) b * b) a|) ≤ a + b := by
  have hto := two_mul_abs_nearest_sub_le (t * a) hb
  have hfrom := two_mul_abs_nearest_sub_le (nearest (t * a) b * b) ha
  set i := nearest (t * a) b with hi
  set t' := nearest (i * b) a with ht'
  have hsum : a * (t - t') = (i * b - a * t') - (b * i - t * a) := by ring
  have habs : a * |t - t'| = |a * (t - t')| := by rw [abs_mul, abs_of_pos ha]
  have htri := abs_sub (i * b - a * t') (b * i - t * a)
  have hswap : |i * b - a * t'| = |a * t' - i * b| := abs_sub_comm _ _
  rw [habs, hsum]
  omega

end MediaExchange.Library
