/-
  MediaExchange/Library/LabelledRun.lean
  ======================================
  **Runs of a labelled step function.**

  A system is a partial step function `step : σ → ℓ → Option σ`: the label says
  which action is taken (and carries its inputs), `none` says that the action is
  not possible in the state.  A *run* is a list of labels.  Nothing here knows
  what the states are; the models of this project instantiate `σ` and `ℓ` with
  a flow and the calls made on it, or with the program counters of a writer and
  a reader and the next memory access of one of them.

  Two ways of talking about a run are used throughout:

    * `Throughout step P s as` — `P` holds in every state the run passes;
    * `Along step Q s as`      — every step the run takes is taken from a state
      and with a label that satisfy `Q`.

  The induction over runs is done here once: an invariant that every step keeps
  holds at the end (`invariant_of_run`) and all along (`throughout_of_along`),
  and a property whose violation is caused by exactly the steps outside `Q`
  holds throughout a run iff all its steps are in `Q` (`throughout_iff_along`).
  That a system cannot avoid a state for more than a number of steps is
  `Inevitable`; a rank that every step lowers shows it.
-/
import Mathlib.Data.List.Basic

namespace MediaExchange.LabelledRun

variable {σ ℓ : Type*} {step : σ → ℓ → Option σ}

/-! ### Runs -/

/-- Take the steps of a list of labels one after the other. -/
def run (step : σ → ℓ → Option σ) : σ → List ℓ → Option σ
  | s, [] => some s
  | s, a :: as => (step s a).bind fun t => run step t as

@[simp] theorem run_nil (s : σ) : run step s [] = some s := rfl

@[simp] theorem run_cons (s : σ) (a : ℓ) (as : List ℓ) :
    run step s (a :: as) = (step s a).bind fun t => run step t as := rfl

theorem run_cons_eq_some {s u : σ} {a : ℓ} {as : List ℓ} :
    run step s (a :: as) = some u ↔ ∃ t, step s a = some t ∧ run step t as = some u := by
  rw [run_cons, Option.bind_eq_some_iff]

theorem run_append (s : σ) (as bs : List ℓ) :
    run step s (as ++ bs) = (run step s as).bind fun t => run step t bs := by
  induction as generalizing s with
  | nil => rfl
  | cons a as ih => simp only [List.cons_append, run_cons, Option.bind_assoc, ih]

/-! ### Properties of the states and of the steps of a run -/

/-- `P` holds in every state the run passes, the first and the last included. -/
def Throughout (step : σ → ℓ → Option σ) (P : σ → Prop) : σ → List ℓ → Prop
  | s, [] => P s
  | s, a :: as => P s ∧ ∀ t, step s a = some t → Throughout step P t as

/-- Every step the run takes starts in a state and with a label related by `Q`. -/
def Along (step : σ → ℓ → Option σ) (Q : σ → ℓ → Prop) : σ → List ℓ → Prop
  | _, [] => True
  | s, a :: as => ∀ t, step s a = some t → Q s a ∧ Along step Q t as

/-- The condition on a run can be checked by running it. -/
instance decidableAlong {Q : σ → ℓ → Prop} [∀ s a, Decidable (Q s a)] :
    (s : σ) → (as : List ℓ) → Decidable (Along step Q s as)
  | _, [] => isTrue trivial
  | s, a :: as =>
      match h : step s a with
      | none => isTrue fun t ht => by rw [h] at ht; cases ht
      | some t =>
          have : Decidable (Along step Q t as) := decidableAlong t as
          decidable_of_iff (Q s a ∧ Along step Q t as)
            ⟨fun hq u hu => by obtain rfl := Option.some.inj (h.symm.trans hu); exact hq,
              fun hq => hq t h⟩

theorem Throughout.head {P : σ → Prop} {s : σ} {as : List ℓ}
    (h : Throughout step P s as) : P s := by
  cases as with
  | nil => exact h
  | cons a as => exact h.1

/-- What holds throughout a run holds in the state any prefix of it leads to. -/
theorem Throughout.of_prefix {P : σ → Prop} {s t : σ} {as bs : List ℓ}
    (h : Throughout step P s (as ++ bs)) (hrun : run step s as = some t) : P t := by
  induction as generalizing s with
  | nil =>
    obtain rfl : s = t := Option.some.inj hrun
    exact h.head
  | cons a as ih =>
    obtain ⟨u, hstep, hrest⟩ := run_cons_eq_some.mp hrun
    exact ih (h.2 u hstep) hrest

theorem Throughout.last {P : σ → Prop} {s t : σ} {as : List ℓ}
    (h : Throughout step P s as) (hrun : run step s as = some t) : P t := by
  have hnil : Throughout step P s (as ++ []) := by simpa using h
  exact hnil.of_prefix hrun

theorem Throughout.mono {P P' : σ → Prop} (hP : ∀ s, P s → P' s) {s : σ} {as : List ℓ}
    (h : Throughout step P s as) : Throughout step P' s as := by
  induction as generalizing s with
  | nil => exact hP s h
  | cons a as ih => exact ⟨hP s h.1, fun t ht => ih (h.2 t ht)⟩

theorem Along.and {Q R : σ → ℓ → Prop} {s : σ} {as : List ℓ} (hQ : Along step Q s as)
    (hR : Along step R s as) : Along step (fun s a => Q s a ∧ R s a) s as := by
  induction as generalizing s with
  | nil => trivial
  | cons a as ih => exact fun t ht => ⟨⟨(hQ t ht).1, (hR t ht).1⟩, ih (hQ t ht).2 (hR t ht).2⟩

/-- A condition on the steps of a whole run holds of the steps of its prefixes. -/
theorem Along.of_append {Q : σ → ℓ → Prop} {s : σ} {as bs : List ℓ}
    (h : Along step Q s (as ++ bs)) : Along step Q s as := by
  induction as generalizing s with
  | nil => trivial
  | cons a as ih => exact fun t ht => ⟨(h t ht).1, ih (h t ht).2⟩

theorem Along.drop {Q : σ → ℓ → Prop} {s t : σ} {as bs : List ℓ}
    (h : Along step Q s (as ++ bs)) (hrun : run step s as = some t) : Along step Q t bs := by
  induction as generalizing s with
  | nil =>
    obtain rfl : s = t := Option.some.inj hrun
    exact h
  | cons a as ih =>
    obtain ⟨u, hstep, hrest⟩ := run_cons_eq_some.mp hrun
    exact ih (h u hstep).2 hrest

theorem along_of_forall {Q : σ → ℓ → Prop} (hQ : ∀ s a, Q s a) (s : σ) (as : List ℓ) :
    Along step Q s as := by
  induction as generalizing s with
  | nil => trivial
  | cons a as ih => exact fun t _ => ⟨hQ s a, ih t⟩

/-- What every label of a run satisfies holds of its steps. -/
theorem along_of_labels {Q : σ → ℓ → Prop} (s : σ) {as : List ℓ}
    (hQ : ∀ a ∈ as, ∀ s, Q s a) : Along step Q s as := by
  induction as generalizing s with
  | nil => trivial
  | cons a as ih =>
    exact fun t _ => ⟨hQ a List.mem_cons_self s,
      ih t fun b hb => hQ b (List.mem_cons_of_mem a hb)⟩

/-! ### The induction over runs -/

/-- An invariant kept by the steps in `Q` holds in every state of a run whose
    steps are all in `Q`. -/
theorem throughout_of_along {I : σ → Prop} {Q : σ → ℓ → Prop}
    (hstep : ∀ s a t, I s → Q s a → step s a = some t → I t)
    {s : σ} (hinit : I s) {as : List ℓ} (halong : Along step Q s as) :
    Throughout step I s as := by
  induction as generalizing s with
  | nil => exact hinit
  | cons a as ih =>
    refine ⟨hinit, fun t ht => ?_⟩
    obtain ⟨hq, hrest⟩ := halong t ht
    exact ih (hstep s a t hinit hq ht) hrest

/-- A property of the steps in `Q` that an invariant kept by them explains holds of
    all steps of a run whose steps are in `Q`. -/
theorem along_of_invariant {I : σ → Prop} {Q R : σ → ℓ → Prop}
    (hstep : ∀ s a t, I s → Q s a → step s a = some t → I t)
    (hR : ∀ s a t, I s → Q s a → step s a = some t → R s a)
    {s : σ} (hinit : I s) {as : List ℓ} (halong : Along step Q s as) :
    Along step R s as := by
  induction as generalizing s with
  | nil => trivial
  | cons a as ih =>
    intro t ht
    obtain ⟨hq, hrest⟩ := halong t ht
    exact ⟨hR s a t hinit hq ht, ih (hstep s a t hinit hq ht) hrest⟩

/-- An invariant that every step keeps holds in every state of every run. -/
theorem throughout_of_step {I : σ → Prop}
    (hstep : ∀ s a t, I s → step s a = some t → I t) {s : σ} (hinit : I s) (as : List ℓ) :
    Throughout step I s as := by
  have hall : Along step (fun _ _ => True) s as := along_of_forall (fun _ _ => trivial) s as
  apply throughout_of_along _ hinit hall
  intro s a t hI _ ht
  exact hstep s a t hI ht

/-- An invariant that every step keeps holds at the end of every run. -/
theorem invariant_of_run {I : σ → Prop}
    (hstep : ∀ s a t, I s → step s a = some t → I t) {s t : σ} (hinit : I s) {as : List ℓ}
    (hrun : run step s as = some t) : I t :=
  (throughout_of_step hstep hinit as).last hrun

/-- **Exact conditions on runs.**  Let `J` be an invariant that implies `P`, kept
    by the steps in `Q`.  If every step outside `Q` taken from a `J`-state ends
    in a state without `P`, then `P` holds throughout a run exactly when all the
    run's steps are in `Q`. -/
theorem throughout_iff_along {J P : σ → Prop} {Q : σ → ℓ → Prop}
    (hJP : ∀ s, J s → P s)
    (hkeep : ∀ s a t, J s → Q s a → step s a = some t → J t)
    (hbreak : ∀ s a t, J s → ¬ Q s a → step s a = some t → ¬ P t)
    {s : σ} (hinit : J s) (as : List ℓ) :
    Throughout step P s as ↔ Along step Q s as := by
  constructor
  · intro h
    induction as generalizing s with
    | nil => trivial
    | cons a as ih =>
      intro t ht
      have hPt : P t := (h.2 t ht).head
      have hq : Q s a := by
        by_contra hq
        exact hbreak s a t hinit hq ht hPt
      exact ⟨hq, ih (hkeep s a t hinit hq ht) (h.2 t ht)⟩
  · intro h
    exact (throughout_of_along hkeep hinit h).mono hJP

/-- The same among the runs of which every step is in `U`. -/
theorem throughout_iff_along_of_usage {J P : σ → Prop} {U Q : σ → ℓ → Prop}
    (hJP : ∀ s, J s → P s)
    (hkeep : ∀ s a t, J s → U s a → Q s a → step s a = some t → J t)
    (hbreak : ∀ s a t, J s → U s a → ¬ Q s a → step s a = some t → ¬ P t)
    {s : σ} (hinit : J s) {as : List ℓ} (husage : Along step U s as) :
    Throughout step P s as ↔ Along step Q s as := by
  constructor
  · intro h
    induction as generalizing s with
    | nil => trivial
    | cons a as ih =>
      intro t ht
      obtain ⟨hu, hrest⟩ := husage t ht
      have hq : Q s a := by
        by_contra hq
        exact hbreak s a t hinit hu hq ht (h.2 t ht).head
      exact ⟨hq, ih (hkeep s a t hinit hu hq ht) hrest (h.2 t ht)⟩
  · intro h
    have hboth := husage.and h
    refine (throughout_of_along ?_ hinit hboth).mono hJP
    intro s a t hJ huq ht
    exact hkeep s a t hJ huq.1 huq.2 ht

/-! ### What cannot be avoided -/

/-- After at most `n` steps `goal` has been reached, whichever steps are taken. -/
def Inevitable (step : σ → ℓ → Option σ) (goal : σ → Prop) : Nat → σ → Prop
  | 0, s => goal s
  | n + 1, s =>
      goal s ∨ (∃ a t, step s a = some t) ∧ ∀ a t, step s a = some t → Inevitable step goal n t

/-- Short of the goal some step is possible, and every step lowers the rank. -/
theorem inevitable_of_rank {I goal : σ → Prop} {rank : σ → Nat}
    (hlive : ∀ s, I s → ¬ goal s → ∃ a t, step s a = some t)
    (hstep : ∀ s a t, I s → ¬ goal s → step s a = some t → I t ∧ rank t < rank s)
    {n : Nat} {s : σ} (hI : I s) (hrank : rank s ≤ n) : Inevitable step goal n s := by
  induction n generalizing s with
  | zero =>
    by_contra hgoal
    obtain ⟨a, t, ht⟩ := hlive s hI hgoal
    have hlt := (hstep s a t hI hgoal ht).2
    omega
  | succ n ih =>
    by_cases hgoal : goal s
    · exact Or.inl hgoal
    · refine Or.inr ⟨hlive s hI hgoal, ?_⟩
      intro a t ht
      obtain ⟨hIt, hlt⟩ := hstep s a t hI hgoal ht
      exact ih hIt (by omega)

/-- An invariant without the goal puts it off for ever. -/
theorem not_inevitable {I goal : σ → Prop} (hgoal : ∀ s, I s → ¬ goal s)
    (hstep : ∀ s a t, I s → step s a = some t → I t) (n : Nat) {s : σ} (hI : I s) :
    ¬ Inevitable step goal n s := by
  induction n generalizing s with
  | zero => exact hgoal s hI
  | succ n ih =>
    rintro (hs | ⟨⟨a, t, ht⟩, hall⟩)
    · exact hgoal s hI hs
    · exact ih (hstep s a t hI ht) (hall a t ht)

end MediaExchange.LabelledRun
