/-
  MediaExchange/Library/Tiling.lean
  =================================
  **Consecutive ranges.**

  A list of half-open ranges *tiles* `[a, b)` if it starts at `a`, every range is
  non-empty and begins where the one before it ends, and the last one ends at
  `b`.  The ranges of a tiling are disjoint and make up exactly `[a, b)`, and a
  strictly monotone function takes a tiling to a tiling.
-/
import Mathlib.Order.Lattice
import Mathlib.Data.List.Basic

namespace MediaExchange.Tiling

variable {α β : Type*} [LinearOrder α] [LinearOrder β]

def Tiles (a b : α) : List (α × α) → Prop
  | [] => a = b
  | range :: ranges => range.1 = a ∧ range.1 < range.2 ∧ Tiles range.2 b ranges

instance decidableTiles (a b : α) : (ranges : List (α × α)) → Decidable (Tiles a b ranges)
  | [] => inferInstanceAs (Decidable (a = b))
  | range :: ranges =>
      have : Decidable (Tiles range.2 b ranges) := decidableTiles range.2 b ranges
      inferInstanceAs (Decidable (_ ∧ _ ∧ _))

variable {a b x : α} {ranges : List (α × α)}

theorem Tiles.le (h : Tiles a b ranges) : a ≤ b := by
  induction ranges generalizing a with
  | nil => exact le_of_eq h
  | cons range ranges ih =>
    obtain ⟨rfl, hlt, hrest⟩ := h
    exact le_trans (le_of_lt hlt) (ih hrest)

theorem Tiles.bounds (h : Tiles a b ranges) {range : α × α} (hmem : range ∈ ranges) :
    a ≤ range.1 ∧ range.1 < range.2 ∧ range.2 ≤ b := by
  induction ranges generalizing a with
  | nil => cases hmem
  | cons first ranges ih =>
    obtain ⟨rfl, hlt, hrest⟩ := h
    rcases List.mem_cons.mp hmem with rfl | hmem
    · exact ⟨le_refl _, hlt, hrest.le⟩
    · obtain ⟨hfrom, hne, hto⟩ := ih hrest hmem
      exact ⟨le_trans (le_of_lt hlt) hfrom, hne, hto⟩

/-- The ranges make up `[a, b)`. -/
theorem Tiles.mem_iff (h : Tiles a b ranges) :
    (∃ range ∈ ranges, range.1 ≤ x ∧ x < range.2) ↔ a ≤ x ∧ x < b := by
  constructor
  · rintro ⟨range, hmem, hfrom, hto⟩
    obtain ⟨hstart, -, hstop⟩ := h.bounds hmem
    exact ⟨le_trans hstart hfrom, lt_of_lt_of_le hto hstop⟩
  · rintro ⟨hfrom, hto⟩
    induction ranges generalizing a with
    | nil =>
      obtain rfl : a = b := h
      exact absurd hto (not_lt_of_ge hfrom)
    | cons first ranges ih =>
      obtain ⟨rfl, -, hrest⟩ := h
      rcases lt_or_ge x first.2 with hx | hx
      · exact ⟨first, List.mem_cons_self, hfrom, hx⟩
      · obtain ⟨range, hmem, hrange⟩ := ih hrest hx
        exact ⟨range, List.mem_cons_of_mem _ hmem, hrange⟩

/-- Each range lies before the ones after it. -/
theorem Tiles.pairwise (h : Tiles a b ranges) :
    ranges.Pairwise fun range later => range.2 ≤ later.1 := by
  induction ranges generalizing a with
  | nil => exact List.Pairwise.nil
  | cons first ranges ih =>
    obtain ⟨-, -, hrest⟩ := h
    exact List.Pairwise.cons (fun later hmem => (hrest.bounds hmem).1) (ih hrest)

theorem Tiles.append {c : α} {later : List (α × α)} (h : Tiles a b ranges) (hlater : Tiles b c later) :
    Tiles a c (ranges ++ later) := by
  induction ranges generalizing a with
  | nil =>
    obtain rfl : a = b := h
    exact hlater
  | cons first ranges ih =>
    obtain ⟨rfl, hlt, hrest⟩ := h
    exact ⟨rfl, hlt, ih hrest⟩

theorem Tiles.map {f : α → β} (hf : StrictMono f) (h : Tiles a b ranges) :
    Tiles (f a) (f b) (ranges.map (Prod.map f f)) := by
  induction ranges generalizing a with
  | nil =>
    obtain rfl : a = b := h
    rfl
  | cons first ranges ih =>
    obtain ⟨rfl, hlt, hrest⟩ := h
    exact ⟨rfl, hf hlt, ih hrest⟩

end MediaExchange.Tiling
