/-
  MediaExchange/Library/RingWindow.lean
  =====================================
  **Windows on a ring of `n` slots.**

  Position `i` of an unbounded sequence lives in slot `i % n`.  Two positions
  less than `n` apart never share a slot (`eq_of_mod_eq_of_lt_add`).  A window of
  consecutive positions that starts in slot `start` is laid out in at most two
  contiguous pieces: one that runs up to the end of the ring and one that starts
  over at slot `0`.  `windowSlot` is that layout, read off the two pieces, and
  `windowSlot_eq` says that it is the layout by remainders.
-/
import Mathlib.Data.Nat.ModEq

namespace MediaExchange.RingWindow

/-! ### Slots of positions -/

/-- Positions of one slot that are less than a lap apart are equal. -/
theorem eq_of_mod_eq_of_lt_add {i j n : Nat} (hmod : i % n = j % n) (hle : i ≤ j)
    (hlt : j < i + n) : i = j := by
  have hdvd : n ∣ j - i := (Nat.modEq_iff_dvd' hle).mp hmod
  have hzero : j - i = 0 := Nat.eq_zero_of_dvd_of_lt hdvd (by omega)
  omega

/-! ### Windows in two pieces -/

/-- The length of the first piece of a window of `count` positions whose first
    position is in slot `start`. -/
def firstPiece (n start count : Nat) : Nat := min count (n - start)

/-- The slot of the `k`-th position of a window, read off the two pieces. -/
def windowSlot (n start count k : Nat) : Nat :=
  if k < firstPiece n start count then start + k else k - firstPiece n start count

theorem windowSlot_eq {n a count k : Nat} (hn : 0 < n) (hcount : count ≤ n) (hk : k < count) :
    windowSlot n (a % n) count k = (a + k) % n := by
  have hstart : a % n < n := Nat.mod_lt a hn
  rw [← Nat.mod_add_mod a n k]
  generalize a % n = start at hstart ⊢
  unfold windowSlot firstPiece
  by_cases hfirst : k < min count (n - start)
  · rw [if_pos hfirst, Nat.mod_eq_of_lt (by omega)]
  · have hwrap : n ≤ start + k := by omega
    rw [if_neg hfirst, Nat.mod_eq_sub_mod hwrap, Nat.mod_eq_of_lt (by omega)]
    omega

/-- Two windows of the same slots, neither empty nor the whole ring, start in the
    same slot. -/
theorem start_eq_of_window_eq {n s t count : Nat} (hs : s < n) (ht : t < n) (hpos : 0 < count)
    (hlt : count < n)
    (h : ∀ slot < n, (∃ k < count, slot = (s + k) % n) ↔ ∃ k < count, slot = (t + k) % n) :
    s = t := by
  -- `t` is the slot of position `d` counted from `s`
  obtain ⟨d, hd, rfl⟩ : ∃ d < n, (s + d) % n = t := by
    refine ⟨(t + n - s) % n, Nat.mod_lt _ (by omega), ?_⟩
    rw [Nat.add_mod_mod, Nat.add_sub_cancel' (by omega), Nat.add_mod_right, Nat.mod_eq_of_lt ht]
  have hunique : ∀ {k j : Nat}, k ≤ j → j < n → (s + k) % n = (s + j) % n → k = j := by
    intro k j hkj hj hmod
    have heq := eq_of_mod_eq_of_lt_add hmod (by omega) (by omega)
    omega
  rcases Nat.lt_or_ge d count with hdc | hdc
  · rcases Nat.eq_zero_or_pos d with rfl | hdpos
    · rw [Nat.add_zero, Nat.mod_eq_of_lt hs]
    · -- the slot behind the first window belongs to the second
      obtain ⟨k, hk, hmod⟩ := (h ((s + count) % n) (Nat.mod_lt _ (by omega))).mpr
        ⟨count - d, by omega, by rw [Nat.mod_add_mod]; congr 1; omega⟩
      have heq := hunique hk.le hlt hmod.symm
      omega
  · -- the slot in which the second window starts does not belong to the first
    obtain ⟨k, hk, hmod⟩ := (h ((s + d) % n) ht).mpr ⟨0, hpos, by rw [Nat.add_zero, Nat.mod_mod]⟩
    have heq := hunique (by omega) hd hmod.symm
    omega

/-! ### Windows of words -/

/-- A byte of `n` words of `w` bytes each, of which the first is word `s`. -/
theorem mem_words_iff {w s n a : Nat} :
    (w * s ≤ a ∧ a < w * s + w * n) ↔ ∃ k < n, ∃ b < w, a = w * (s + k) + b := by
  constructor
  · rintro ⟨hle, hlt⟩
    obtain ⟨d, rfl⟩ := Nat.exists_eq_add_of_le hle
    have hd : d < w * n := Nat.lt_of_add_lt_add_left hlt
    have hw : 0 < w := Nat.pos_of_mul_pos_right (Nat.zero_lt_of_lt hd)
    refine ⟨d / w, Nat.div_lt_of_lt_mul hd, d % w, Nat.mod_lt d hw, ?_⟩
    rw [Nat.mul_add, Nat.add_assoc, Nat.div_add_mod]
  · rintro ⟨k, hk, b, hb, rfl⟩
    have hmul : w * (k + 1) ≤ w * n := Nat.mul_le_mul_left w hk
    rw [Nat.mul_succ] at hmul
    rw [Nat.mul_add]
    omega

/-- A byte of the two pieces of a window is a byte of one of the window's words. -/
theorem mem_pieces_iff {w n c start count a : Nat} (hstart : start < n) (hcount : count ≤ n) :
    ((w * (n * c + start) ≤ a ∧ a < w * (n * c + start) + w * firstPiece n start count) ∨
        (w * (n * c) ≤ a ∧ a < w * (n * c) + w * (count - firstPiece n start count))) ↔
      ∃ k < count, ∃ b < w, a = w * (n * c + (start + k) % n) + b := by
  have hslot : ∀ k < count, (start + k) % n = windowSlot n start count k := by
    intro k hk
    have hwindow := windowSlot_eq (Nat.zero_lt_of_lt hstart) hcount (a := start) hk
    rw [Nat.mod_eq_of_lt hstart] at hwindow
    exact hwindow.symm
  have hfirst : firstPiece n start count ≤ count := Nat.min_le_left _ _
  rw [mem_words_iff, mem_words_iff]
  constructor
  · rintro (⟨k, hk, b, hb, rfl⟩ | ⟨k, hk, b, hb, rfl⟩)
    · refine ⟨k, by omega, b, hb, ?_⟩
      rw [hslot k (by omega), windowSlot, if_pos hk, Nat.add_assoc]
    · refine ⟨firstPiece n start count + k, by omega, b, hb, ?_⟩
      rw [hslot _ (by omega), windowSlot, if_neg (by omega), Nat.add_sub_cancel_left]
  · rintro ⟨k, hk, b, hb, rfl⟩
    rw [hslot k hk, windowSlot]
    by_cases hpiece : k < firstPiece n start count
    · rw [if_pos hpiece]
      exact Or.inl ⟨k, hpiece, b, hb, by rw [Nat.add_assoc]⟩
    · rw [if_neg hpiece]
      exact Or.inr ⟨k - firstPiece n start count, by omega, b, hb, rfl⟩

end MediaExchange.RingWindow
