/-
  MediaExchange/Library/Words.lean
  ================================
  **Lists as rows of words.**

  A list is read as words of one size, of which `word` is the `k`-th.  A list is its
  words in a row (`row_word`), a row of words has them for its words
  (`word_row`), and rows of rows are one long row (`row_row`), so
  that a table of words can be written row by row and read column by column.
-/
import Mathlib.Data.List.Basic
import Mathlib.Data.List.Flatten
import Mathlib.Tactic.Ring

namespace MediaExchange.Words

variable {β : Type*}

/-- The `k`-th word of `size` cells. -/
def word (size : Nat) (cells : List β) (k : Nat) : List β := (cells.drop (k * size)).take size

/-- Words in a row, up to the `n`-th. -/
def row (words : Nat → List β) (n : Nat) : List β := (List.range n).flatMap words

@[simp] theorem row_zero (words : Nat → List β) : row words 0 = [] := by
  simp [row]

@[simp] theorem row_succ (words : Nat → List β) (n : Nat) :
    row words (n + 1) = row words n ++ words n := by
  simp [row, List.range_succ]

theorem length_word {size : Nat} {cells : List β} {k : Nat} (h : (k + 1) * size ≤ cells.length) :
    (word size cells k).length = size := by
  rw [Nat.add_mul, Nat.one_mul] at h
  simp only [word, List.length_take, List.length_drop]
  omega

theorem length_row {size : Nat} {words : Nat → List β} {n : Nat}
    (h : ∀ k < n, (words k).length = size) : (row words n).length = n * size := by
  induction n with
  | zero => simp
  | succ n ih =>
    rw [row_succ, List.length_append, ih fun k hk => h k (Nat.lt_succ_of_lt hk),
      h n (Nat.lt_succ_self n)]
    ring

/-- The words of a list up to the `n`-th are what it begins with. -/
theorem row_word_eq_take {size : Nat} {cells : List β} {n : Nat} (h : n * size ≤ cells.length) :
    row (word size cells) n = cells.take (n * size) := by
  induction n with
  | zero => simp
  | succ n ih =>
    have hle : n * size ≤ (n + 1) * size := Nat.mul_le_mul_right size (Nat.le_succ n)
    rw [row_succ, ih (hle.trans h), word, Nat.add_mul, Nat.one_mul, List.take_add]

/-- A list is its words in a row. -/
theorem row_word {size : Nat} {cells : List β} {n : Nat} (h : cells.length = n * size) :
    row (word size cells) n = cells := by
  rw [row_word_eq_take h.ge, ← h, List.take_length]

/-- The words of a row. -/
theorem word_row {size : Nat} {words : Nat → List β} {n k : Nat}
    (h : ∀ k < n, (words k).length = size) (hk : k < n) : word size (row words n) k = words k := by
  induction n with
  | zero => cases hk
  | succ n ih =>
    have hlength : (row words n).length = n * size :=
      length_row fun k hk => h k (Nat.lt_succ_of_lt hk)
    rw [word, row_succ]
    rcases Nat.lt_succ_iff_lt_or_eq.mp hk with hlt | rfl
    · have hle : (k + 1) * size ≤ n * size := Nat.mul_le_mul_right size hlt
      rw [Nat.add_mul, Nat.one_mul] at hle
      rw [List.drop_append_of_le_length (by omega), List.take_append_of_le_length
        (by rw [List.length_drop]; omega)]
      exact ih (fun k hk => h k (Nat.lt_succ_of_lt hk)) hlt
    · rw [← hlength, List.drop_left, List.take_of_length_le (h k hk).le]

theorem row_add (words : Nat → List β) (n m : Nat) :
    row words (n + m) = row words n ++ row (fun k => words (n + k)) m := by
  induction m with
  | zero => simp
  | succ m ih => rw [← Nat.add_assoc, row_succ, row_succ, ih, List.append_assoc]

/-- Rows of rows are one long row. -/
theorem row_row (words : Nat → List β) (rows columns : Nat) :
    row (fun i => row (fun j => words (i * columns + j)) columns) rows =
      row words (rows * columns) := by
  induction rows with
  | zero => simp
  | succ rows ih => rw [row_succ, ih, Nat.add_mul, Nat.one_mul, row_add]

end MediaExchange.Words
