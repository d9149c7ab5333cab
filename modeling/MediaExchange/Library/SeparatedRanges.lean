/-
  MediaExchange/Library/SeparatedRanges.lean
  ==========================================
  **Ranges one behind the other, with gaps.**

  A list of half-open ranges of naturals is *separated* if each ends before the later
  ones begin.  It covers as many numbers as its ranges are long together
  (`card_covered`), so the size of what it leaves out can be computed from the
  lengths (`card_missing`).
-/
import Mathlib.Order.Interval.Finset.Nat

namespace MediaExchange.SeparatedRanges

def Separated (ranges : List (Nat × Nat)) : Prop :=
  ranges.Pairwise fun range later => range.2 ≤ later.1

def covered : List (Nat × Nat) → Finset Nat
  | [] => ∅
  | range :: ranges => Finset.Ico range.1 range.2 ∪ covered ranges

def total : List (Nat × Nat) → Nat
  | [] => 0
  | range :: ranges => range.2 - range.1 + total ranges

variable {ranges later : List (Nat × Nat)}

theorem mem_covered {x : Nat} : x ∈ covered ranges ↔ ∃ range ∈ ranges, range.1 ≤ x ∧ x < range.2 := by
  induction ranges with
  | nil => simp [covered]
  | cons range ranges ih => simp [covered, ih]

theorem total_append : total (ranges ++ later) = total ranges + total later := by
  induction ranges with
  | nil => simp [total]
  | cons range ranges ih => simp [total, ih, Nat.add_assoc]

theorem Separated.append (h : Separated ranges) (hlater : Separated later)
    (hbetween : ∀ range ∈ ranges, ∀ other ∈ later, range.2 ≤ other.1) :
    Separated (ranges ++ later) :=
  List.pairwise_append.mpr ⟨h, hlater, hbetween⟩

/-- Nothing is covered twice. -/
theorem card_covered (h : Separated ranges) : (covered ranges).card = total ranges := by
  induction ranges with
  | nil => rfl
  | cons range ranges ih =>
    obtain ⟨hlater, hrest⟩ := List.pairwise_cons.mp h
    have hdisjoint : Disjoint (Finset.Ico range.1 range.2) (covered ranges) := by
      rw [Finset.disjoint_left]
      intro x hx hcovered
      obtain ⟨other, hother, hfrom, -⟩ := mem_covered.mp hcovered
      have hend := hlater other hother
      rw [Finset.mem_Ico] at hx
      omega
    rw [covered, Finset.card_union_of_disjoint hdisjoint, ih hrest, Nat.card_Ico, total]

theorem covered_subset {a b : Nat} (h : ∀ range ∈ ranges, a ≤ range.1 ∧ range.2 ≤ b) :
    covered ranges ⊆ Finset.Ico a b := by
  intro x hx
  obtain ⟨range, hmem, hfrom, hto⟩ := mem_covered.mp hx
  obtain ⟨hstart, hstop⟩ := h range hmem
  rw [Finset.mem_Ico]
  exact ⟨Nat.le_trans hstart hfrom, Nat.lt_of_lt_of_le hto hstop⟩

/-- What is left out of a range is its length less that of the ranges in it. -/
theorem card_missing {a b missing : Nat} (h : Separated ranges)
    (hwithin : ∀ range ∈ ranges, a ≤ range.1 ∧ range.2 ≤ b) (hlength : a + total ranges + missing = b) :
    (Finset.Ico a b \ covered ranges).card = missing := by
  rw [Finset.card_sdiff_of_subset (covered_subset hwithin), card_covered h, Nat.card_Ico]
  omega

end MediaExchange.SeparatedRanges
