/-
  MediaExchange/Library/StraightLine.lean
  =======================================
  **Straight-line programs that may fail.**

  A program is a list of statements; a statement takes an input (the time it is
  executed at, a value read from outside) and the state, and yields the next state
  or fails.  Others may take their turns between two statements, so what is known of
  a program that is half done is a statement about the rest of it: `Finishes P fs s`
  says that whenever the statements `fs`, started in `s`, do not fail, they end in a
  state with `P`.  Executing one statement keeps it, and it is proved of a whole
  program statement by statement, with an invariant for each loop.
-/
import Mathlib.Data.List.Range

namespace MediaExchange.StraightLine

variable {σ χ : Type*} {P Q : σ → Prop}

/-- However its inputs turn out, the program ends with `P` or fails. -/
def Finishes (P : σ → Prop) : List (χ → σ → Option σ) → σ → Prop
  | [], s => P s
  | f :: fs, s => ∀ x t, f x s = some t → Finishes P fs t

@[simp] theorem finishes_nil {s : σ} : Finishes P ([] : List (χ → σ → Option σ)) s ↔ P s :=
  Iff.rfl

theorem finishes_cons {f : χ → σ → Option σ} {fs : List (χ → σ → Option σ)} {s : σ} :
    Finishes P (f :: fs) s ↔ ∀ x t, f x s = some t → Finishes P fs t :=
  Iff.rfl

theorem Finishes.mono (hPQ : ∀ s, P s → Q s) {fs : List (χ → σ → Option σ)} {s : σ}
    (h : Finishes P fs s) : Finishes Q fs s := by
  induction fs generalizing s with
  | nil => exact hPQ s h
  | cons f fs ih => exact fun x t ht => ih (h x t ht)

theorem finishes_append {fs gs : List (χ → σ → Option σ)} {s : σ} :
    Finishes P (fs ++ gs) s ↔ Finishes (Finishes P gs) fs s := by
  induction fs generalizing s with
  | nil => rfl
  | cons f fs ih => simp only [List.cons_append, finishes_cons, ih]

/-- The rule for a counting loop: an invariant that every pass moves on by one. -/
theorem finishes_loop {I : Nat → σ → Prop} {body : Nat → List (χ → σ → Option σ)}
    (hbody : ∀ i s, I i s → Finishes (I (i + 1)) (body i) s) (n : Nat) {s : σ} (h : I 0 s) :
    Finishes (I n) ((List.range n).flatMap body) s := by
  induction n with
  | zero => exact h
  | succ n ih =>
    rw [List.range_succ, List.flatMap_append, List.flatMap_singleton, finishes_append]
    exact ih.mono (hbody n)

/-- An execution that comes to the end has what all of them have. -/
theorem Finishes.of_foldlM {fs : List (χ → σ → Option σ)} {s t : σ} {x : χ}
    (h : Finishes P fs s) (ht : fs.foldlM (fun s f => f x s) s = some t) : P t := by
  induction fs generalizing s with
  | nil =>
    obtain rfl := Option.some.inj ht
    exact h
  | cons f fs ih =>
    obtain ⟨u, hu, ht⟩ := Option.bind_eq_some_iff.mp ht
    exact ih (h x u hu) ht

/-- Statements that never fail come to the end. -/
theorem exists_foldlM {fs : List (χ → σ → Option σ)} (hfs : ∀ f ∈ fs, ∀ x s, ∃ t, f x s = some t)
    (x : χ) (s : σ) : ∃ t, fs.foldlM (fun s f => f x s) s = some t := by
  induction fs generalizing s with
  | nil => exact ⟨s, rfl⟩
  | cons f fs ih =>
    obtain ⟨u, hu⟩ := hfs f List.mem_cons_self x s
    obtain ⟨t, ht⟩ := ih (fun g hg => hfs g (List.mem_cons_of_mem f hg)) u
    exact ⟨t, Option.bind_eq_some_iff.mpr ⟨u, hu, ht⟩⟩

end MediaExchange.StraightLine
