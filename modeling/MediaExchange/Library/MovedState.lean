/-
  MediaExchange/Library/MovedState.lean
  =====================================
  **Assigning to a variable what is computed from its moved content.**

  The statement `x = f(move(x))` takes the content out of `x`, computes with it,
  and puts the result back.  If the computation throws, the assignment is not
  reached, and `x` keeps the shape of its content without the content: it has been
  moved from.

  The computations are sequences of calls that may fail.  Which ones do is a
  parameter, so that it can be said which failures a step is exposed to.
-/
import Mathlib.Data.List.Basic

namespace MediaExchange.MovedState

variable {σ ε κ : Type*}

/-! ### Calls that may fail -/

/-- Make calls one after the other, up to the first that fails. -/
def attempt (fails : κ → Option ε) : List κ → Except ε Unit
  | [] => .ok ()
  | call :: calls =>
      match fails call with
      | some e => .error e
      | none => attempt fails calls

variable {fails : κ → Option ε}

theorem attempt_eq_ok {calls : List κ} :
    attempt fails calls = .ok () ↔ ∀ call ∈ calls, fails call = none := by
  induction calls with
  | nil => simp [attempt]
  | cons call calls ih =>
    rw [attempt]
    cases hcall : fails call with
    | some e => simp [hcall]
    | none => simp [hcall, ih]

/-- A computation that makes calls and then succeeds. -/
def Makes (fails : κ → Option ε) (calls : List κ) (result : Except ε σ) : Prop :=
  ∃ next, result = (attempt fails calls).map fun _ => next

theorem makes_ok (next : σ) : Makes fails [] (.ok next : Except ε σ) := ⟨next, rfl⟩

theorem attempt_append (calls calls' : List κ) :
    attempt fails (calls ++ calls') = (attempt fails calls).bind fun _ => attempt fails calls' := by
  induction calls with
  | nil => rfl
  | cons call calls ih =>
    rw [List.cons_append, attempt, attempt]
    cases fails call with
    | some e => rfl
    | none => exact ih

/-- Calls that are made before the others. -/
theorem Makes.after {calls calls' : List κ} {result : Except ε σ} (h : Makes fails calls' result) :
    Makes fails (calls ++ calls') ((attempt fails calls).bind fun _ => result) := by
  obtain ⟨next, rfl⟩ := h
  refine ⟨next, ?_⟩
  rw [attempt_append]
  cases attempt fails calls <;> rfl

theorem Makes.eq_ok_iff {calls : List κ} {result : Except ε σ} (h : Makes fails calls result) :
    (∃ next, result = .ok next) ↔ ∀ call ∈ calls, fails call = none := by
  obtain ⟨next, rfl⟩ := h
  rw [← attempt_eq_ok]
  cases attempt fails calls with
  | ok _ => exact ⟨fun _ => rfl, fun _ => ⟨next, rfl⟩⟩
  | error e =>
    constructor
    · rintro ⟨_, h⟩
      cases h
    · intro h
      cases h

/-! ### Moving out of a variable -/

/-- A variable that owns its content, or has been moved from. -/
structure Cell (σ : Type*) where
  content : σ
  owned : Bool
deriving DecidableEq, Repr

/-- `x = f(move(x))`. -/
def Cell.assign (f : σ → Except ε σ) (cell : Cell σ) : Except ε Unit × Cell σ :=
  match f cell.content with
  | .ok next => (.ok (), { content := next, owned := true })
  | .error e => (.error e, { content := cell.content, owned := false })

/-- A step that throws leaves the variable as it was. -/
def Keeps (step : Cell σ → Except ε Unit × Cell σ) (cell : Cell σ) : Prop :=
  ∀ e, (step cell).1 = .error e → (step cell).2 = cell

/-- An assignment from moved content keeps the content exactly when it succeeds. -/
theorem keeps_assign_iff {f : σ → Except ε σ} {cell : Cell σ} (howned : cell.owned = true) :
    Keeps (Cell.assign f) cell ↔ ∃ next, f cell.content = .ok next := by
  rw [Keeps, Cell.assign]
  cases hf : f cell.content with
  | ok next =>
    refine ⟨fun _ => ⟨next, rfl⟩, ?_⟩
    intro _ e h
    cases h
  | error e =>
    constructor
    swap
    · rintro ⟨next, h⟩
      cases h
    intro hkeeps
    have hcell := congrArg Cell.owned (hkeeps e rfl)
    rw [howned] at hcell
    cases hcell

/-- Of a computation that makes calls: exactly when none of them fails. -/
theorem keeps_assign_iff_calls {f : σ → Except ε σ} {cell : Cell σ} {calls : List κ}
    (howned : cell.owned = true) (hcalls : Makes fails calls (f cell.content)) :
    Keeps (Cell.assign f) cell ↔ ∀ call ∈ calls, fails call = none :=
  (keeps_assign_iff howned).trans hcalls.eq_ok_iff

end MediaExchange.MovedState
