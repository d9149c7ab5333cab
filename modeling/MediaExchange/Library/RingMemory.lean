/-
  MediaExchange/Library/RingMemory.lean
  =====================================
  **Memory that remembers the latest positions of a log.**

  An unbounded log gives a value to some of the positions of a sequence.  It is
  kept in a memory through a placement `cell` that is reused: positions less than
  `n` apart have different cells (`Separates`), positions further apart may share
  one.  As long as nothing is stored beyond a bound `top`, the memory still holds
  the logged value of every position that is less than `n` below `top`
  (`Remembers`).

  `HoldsLatest` says what is found further down, too: in each cell the last position
  that was stored there.

  The placement of a ring is the remainder (`separates_emod`); a memory that
  holds several rings is covered as well, since a store to a cell outside the
  placement changes nothing (`Remembers.store_other`).
-/
import Mathlib.Logic.Function.Basic
import Mathlib.Data.Int.ModEq

namespace MediaExchange.RingMemory

variable {κ β : Type*}

/-- Positions less than `n` apart have different cells. -/
def Separates (n : Nat) (cell : Int → κ) : Prop :=
  ∀ p q, cell p = cell q → p < q + n → q < p + n → p = q

theorem separates_emod (n : Nat) (a : Int) : Separates n fun p => (p + a) % (n : Int) := by
  intro p q hcell hpq hqp
  have hdvd : (n : Int) ∣ (q + a) - (p + a) := Int.ModEq.dvd hcell
  rw [Int.add_sub_add_right] at hdvd
  have hzero : q - p = 0 := by
    apply Int.eq_zero_of_abs_lt_dvd hdvd
    rw [abs_lt]
    omega
  omega

/-- A placement that tells apart what a separating one tells apart separates too. -/
theorem Separates.of_injOn {κ' : Type*} {n : Nat} {cell : Int → κ} {cell' : Int → κ'}
    (h : Separates n cell) (hinj : ∀ p q, cell' p = cell' q → cell p = cell q) :
    Separates n cell' := by
  intro p q hcell hpq hqp
  exact h p q (hinj p q hcell) hpq hqp

/-- The log ends at `top`, and the memory holds what it says about the positions
    less than `n` below. -/
structure Remembers (n : Nat) (cell : Int → κ) (memory : κ → β) (log : Int → Option β)
    (top : Int) : Prop where
  le_top : ∀ p v, log p = some v → p ≤ top
  holds : ∀ p v, log p = some v → top < p + n → memory (cell p) = v

section Remembers

variable {n : Nat} {cell : Int → κ} {memory : κ → β} {log : Int → Option β} {top : Int}

theorem remembers_empty : Remembers n cell memory (fun _ => none) top := by
  constructor
  · intro p v h
    cases h
  · intro p v h
    cases h

theorem Remembers.raise (h : Remembers n cell memory log top) {top' : Int} (hle : top ≤ top') :
    Remembers n cell memory log top' := by
  constructor
  · intro p v hp
    exact Int.le_trans (h.le_top p v hp) hle
  · intro p v hp hlive
    exact h.holds p v hp (by omega)

/-- Storing a position of the last `n` below the bound overwrites only positions
    that need not be remembered any more. -/
theorem Remembers.store [DecidableEq κ] (h : Remembers n cell memory log top)
    (hcell : Separates n cell) {p : Int} (hle : p ≤ top) (hlive : top < p + n) (v : β) :
    Remembers n cell (Function.update memory (cell p) v) (Function.update log p (some v)) top := by
  constructor
  · intro q u hq
    by_cases hqp : q = p
    · rw [hqp]
      exact hle
    · rw [Function.update_of_ne hqp] at hq
      exact h.le_top q u hq
  · intro q u hq hqlive
    by_cases hqp : q = p
    · subst hqp
      rw [Function.update_self] at hq
      rw [Function.update_self]
      exact Option.some.inj hq
    · rw [Function.update_of_ne hqp] at hq
      have hqle := h.le_top q u hq
      have hne : cell q ≠ cell p := by
        intro heq
        exact hqp (hcell q p heq (by omega) (by omega))
      rw [Function.update_of_ne hne]
      exact h.holds q u hq hqlive

theorem Remembers.store_other [DecidableEq κ] (h : Remembers n cell memory log top) {a : κ}
    (ha : ∀ p, cell p ≠ a) (v : β) : Remembers n cell (Function.update memory a v) log top := by
  constructor
  · exact h.le_top
  · intro p u hp hlive
    rw [Function.update_of_ne (ha p)]
    exact h.holds p u hp hlive

end Remembers

/-! ### What was stored last -/

/-- Each cell holds the last of the positions that the log has in it. -/
def HoldsLatest (cell : Int → κ) (memory : κ → β) (log : Int → Option β) : Prop :=
  ∀ p v, log p = some v → (∀ q, p < q → cell q = cell p → log q = none) → memory (cell p) = v

section HoldsLatest

variable {n : Nat} {cell : Int → κ} {memory memory' : κ → β} {log log' : Int → Option β} {top : Int}

theorem holdsLatest_empty : HoldsLatest cell memory fun _ => none := by
  intro p v h
  cases h

/-- A block of positions behind all that are logged may be stored at once. -/
theorem HoldsLatest.append (h : HoldsLatest cell memory log) {block : Int → Prop}
    (hbehind : ∀ q, block q → ∀ p v, log p = some v → p < q)
    (hblock : ∀ q, block q → log' q = some (memory' (cell q)))
    (hlog : ∀ q, ¬ block q → log' q = log q)
    (hkept : ∀ p, (∀ q, block q → cell q ≠ cell p) → memory' (cell p) = memory (cell p)) :
    HoldsLatest cell memory' log' := by
  intro p v hp hlast
  by_cases hmem : block p
  · rw [hblock p hmem] at hp
    exact Option.some.inj hp
  · rw [hlog p hmem] at hp
    have hnone : ∀ q, p < q → cell q = cell p → ¬ block q := by
      intro q hlt hcell hq
      have hlogged := hlast q hlt hcell
      rw [hblock q hq] at hlogged
      cases hlogged
    rw [hkept p fun q hq hcell => hnone q (hbehind q hq p v hp) hcell hq]
    apply h p v hp
    intro q hlt hcell
    rw [← hlog q (hnone q hlt hcell)]
    exact hlast q hlt hcell

/-- What is less than `n` below the bound is last in its cell. -/
theorem HoldsLatest.remembers (h : HoldsLatest cell memory log) (hcell : Separates n cell)
    (htop : ∀ p v, log p = some v → p ≤ top) : Remembers n cell memory log top := by
  refine ⟨htop, fun p v hp hlive => h p v hp fun q hlt hsame => ?_⟩
  cases hq : log q with
  | none => rfl
  | some u =>
    have hle := htop q u hq
    have heq := hcell q p hsame (by omega) (by omega)
    omega

end HoldsLatest

/-- A block of `n` words of `w` cells, word by word. -/
theorem map_range_mul (w n : Nat) (f : Nat → β) :
    (List.range (w * n)).map f =
      (List.range n).flatMap fun k => (List.range w).map fun b => f (w * k + b) := by
  induction n with
  | zero => rfl
  | succ n ih =>
    rw [Nat.mul_succ, List.range_add, List.map_append, ih, List.range_succ, List.flatMap_append]
    simp [Function.comp_def]

end MediaExchange.RingMemory
