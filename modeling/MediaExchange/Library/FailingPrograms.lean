/-
  MediaExchange/Library/FailingPrograms.lean
  ==========================================
  **Programs whose attempts may fail.**

  A program changes a state and may throw.  It throws of itself, or because an attempt
  of it fails, which is decided outside: the faults say of one attempt after the other
  whether it fails, and where they end, no more do.  A cleanup runs when a program
  throws (`onError`) or however it ends (`onExit`).

  `Ends m s n result E` says all there is to say of `m`, started in `s`: if its `n`
  attempts succeed, it ends with `result`, or throws if there is none; if one of them
  fails, it throws; and where it throws, the state has `E`.  The rules follow the
  program.
-/
import Mathlib.Data.List.Basic

namespace MediaExchange.FailingPrograms

universe u v w

/-- The faults and the state before; how it ends, the faults and the state after. -/
def Program (σ : Type u) (ε : Type v) (α : Type w) := List Bool → σ → Except ε α × List Bool × σ

/-- The first `n` attempts succeed. -/
def Survives (n : ℕ) (faults : List Bool) : Prop := true ∉ faults.take n

instance (n : ℕ) (faults : List Bool) : Decidable (Survives n faults) :=
  inferInstanceAs (Decidable (¬ _))

namespace Program

variable {σ : Type u} {ε : Type v} {α β : Type w}

def bind (m : Program σ ε α) (f : α → Program σ ε β) : Program σ ε β := fun faults s =>
  match m faults s with
  | (.error e, rest, t) => (.error e, rest, t)
  | (.ok a, rest, t) => f a rest t

instance : Monad (Program σ ε) where
  pure a := fun faults s => (.ok a, faults, s)
  bind := bind

def throw (e : ε) : Program σ ε α := fun faults s => (.error e, faults, s)

def get : Program σ ε σ := fun faults s => (.ok s, faults, s)

def modify (f : σ → σ) : Program σ ε PUnit := fun faults s => (.ok ⟨⟩, faults, f s)

/-- A call of the system that fails if the next fault says so. -/
def attempt (e : ε) : Program σ ε PUnit := fun faults s =>
  match faults with
  | [] => (.ok ⟨⟩, [], s)
  | true :: rest => (.error e, rest, s)
  | false :: rest => (.ok ⟨⟩, rest, s)

/-- `try { … } catch (...) { cleanup; throw; }` -/
def onError (cleanup : σ → σ) (m : Program σ ε α) : Program σ ε α := fun faults s =>
  match m faults s with
  | (.error e, rest, t) => (.error e, rest, cleanup t)
  | (.ok a, rest, t) => (.ok a, rest, t)

/-- A cleanup that is deferred to the end of `m`. -/
def onExit (cleanup : σ → σ) (m : Program σ ε α) : Program σ ε α := fun faults s =>
  match m faults s with
  | (r, rest, t) => (r, rest, cleanup t)

end Program

/-! ### Surviving -/

@[simp] theorem survives_zero (faults : List Bool) : Survives 0 faults := by
  simp [Survives]

theorem survives_add {n k : ℕ} {faults : List Bool} :
    Survives (n + k) faults ↔ Survives n faults ∧ Survives k (faults.drop n) := by
  rw [Survives, List.take_add, List.mem_append, not_or]
  rfl

/-! ### How a program ends -/

variable {σ : Type u} {ε : Type v} {α β : Type w}

def Ends (m : Program σ ε α) (s : σ) (n : ℕ) (result : Option (α × σ)) (E : σ → Prop) : Prop :=
  ∀ faults,
    match m faults s with
    | (.ok a, rest, t) => Survives n faults ∧ result = some (a, t) ∧ rest = faults.drop n
    | (.error _, _, t) => (Survives n faults → result = none) ∧ E t

section Rules

variable {m : Program σ ε α} {f : α → Program σ ε β} {s t : σ} {n k : ℕ} {a : α} {e : ε}
  {result : Option (α × σ)} {result' : Option (β × σ)} {E E' : σ → Prop} {cleanup : σ → σ}

/-- The run in which no attempt fails. -/
theorem Ends.run_ok (h : Ends m s n (some (a, t)) E) {faults : List Bool}
    (hfaults : Survives n faults) : m faults s = (.ok a, faults.drop n, t) := by
  have hrun := h faults
  split at hrun
  · next b rest u heq =>
    obtain ⟨-, hresult, rfl⟩ := hrun
    cases hresult
    exact heq
  · next e rest u heq => exact absurd (hrun.1 hfaults) (Option.some_ne_none _)

/-- A run in which an attempt fails, or that has no result. -/
theorem Ends.run_error (h : Ends m s n result E) {faults : List Bool}
    (hfaults : Survives n faults → result = none) :
    ∃ e rest t, m faults s = (.error e, rest, t) ∧ E t := by
  have hrun := h faults
  split at hrun
  · next b rest u heq =>
    rw [hfaults hrun.1] at hrun
    cases hrun.2.1
  · next e rest u heq => exact ⟨e, rest, u, heq, hrun.2⟩

theorem bind_of_ok {faults rest : List Bool} (h : m faults s = (.ok a, rest, t)) :
    (m >>= f) faults s = f a rest t := by
  change Program.bind m f faults s = _
  rw [Program.bind, h]

theorem bind_of_error {faults rest : List Bool} (h : m faults s = (.error e, rest, t)) :
    (m >>= f) faults s = (.error e, rest, t) := by
  change Program.bind m f faults s = _
  rw [Program.bind, h]

theorem Ends.pure (a : α) (s : σ) : Ends (pure a : Program σ ε α) s 0 (some (a, s)) E :=
  fun faults => ⟨survives_zero faults, rfl, rfl⟩

theorem Ends.throw (hE : E s) : Ends (Program.throw e : Program σ ε α) s n none E :=
  fun _ => ⟨fun _ => rfl, hE⟩

/-- Attempts do not count where there is no result. -/
theorem Ends.of_none (h : Ends m s n none E) : Ends m s k none E := by
  intro faults
  have hfaults := h faults
  split at hfaults
  · cases hfaults.2.1
  · exact ⟨fun _ => rfl, hfaults.2⟩

theorem Ends.of_eq (h : Ends m s n result E) (hn : n = k) : Ends m s k result E := hn ▸ h

theorem Ends.get : Ends (Program.get : Program σ ε σ) s 0 (some (s, s)) E :=
  fun faults => ⟨survives_zero faults, rfl, rfl⟩

theorem Ends.modify (g : σ → σ) :
    Ends (Program.modify g : Program σ ε PUnit) s 0 (some (⟨⟩, g s)) E :=
  fun faults => ⟨survives_zero faults, rfl, rfl⟩

theorem Ends.attempt (hE : E s) :
    Ends (Program.attempt e : Program σ ε PUnit) s 1 (some (⟨⟩, s)) E := by
  intro faults
  match faults with
  | [] => exact ⟨by simp [Survives], rfl, rfl⟩
  | true :: rest => exact ⟨fun h => absurd h (by simp [Survives]), hE⟩
  | false :: rest => exact ⟨by simp [Survives], rfl, rfl⟩

/-- Behind a part with a result, the faults that it has not used up are left. -/
theorem Ends.bind (hm : Ends m s n (some (a, t)) E) (hf : Ends (f a) t k result' E) :
    Ends (m >>= f) s (n + k) result' E := by
  intro faults
  have hfaults := hm faults
  change match Program.bind m f faults s with
    | (.ok b, rest, u) => _
    | (.error _, _, u) => _
  unfold Program.bind
  split at hfaults
  · next a' rest t' hrun =>
    rw [hrun]
    obtain ⟨hsurvives, hresult, rfl⟩ := hfaults
    cases hresult
    have hrest := hf (faults.drop n)
    dsimp only
    split at hrest
    · next b rest' u hrun' =>
      obtain ⟨hsurvives', hresult', rfl⟩ := hrest
      exact ⟨survives_add.mpr ⟨hsurvives, hsurvives'⟩, hresult', List.drop_drop⟩
    · next e rest' u hrun' =>
      exact ⟨fun h => hrest.1 (survives_add.mp h).2, hrest.2⟩
  · next e rest t' hrun =>
    rw [hrun]
    refine ⟨fun h => ?_, hfaults.2⟩
    exact absurd (hfaults.1 (survives_add.mp h).1) (Option.some_ne_none _)

/-- Behind a part without a result, nothing comes. -/
theorem Ends.bind_none (hm : Ends m s n none E) : Ends (m >>= f) s k none E := by
  intro faults
  have hfaults := hm faults
  change match Program.bind m f faults s with
    | (.ok b, rest, u) => _
    | (.error _, _, u) => _
  unfold Program.bind
  split at hfaults
  · next a' rest t' hrun => cases hfaults.2.1
  · next e rest t' hrun =>
    rw [hrun]
    exact ⟨fun _ => rfl, hfaults.2⟩

theorem Ends.onError (hm : Ends m s n result E) (hcleanup : ∀ t, E t → E' (cleanup t)) :
    Ends (m.onError cleanup) s n result E' := by
  intro faults
  have hfaults := hm faults
  unfold Program.onError
  split at hfaults
  · next a rest t hrun =>
    rw [hrun]
    exact hfaults
  · next e rest t hrun =>
    rw [hrun]
    exact ⟨hfaults.1, hcleanup t hfaults.2⟩

theorem Ends.onExit (hm : Ends m s n result E) (hcleanup : ∀ t, E t → E' (cleanup t)) :
    Ends (m.onExit cleanup) s n (result.map fun r => (r.1, cleanup r.2)) E' := by
  intro faults
  have hfaults := hm faults
  unfold Program.onExit
  split at hfaults
  · next a rest t hrun =>
    rw [hrun]
    obtain ⟨hsurvives, rfl, rfl⟩ := hfaults
    exact ⟨hsurvives, rfl, rfl⟩
  · next e rest t hrun =>
    rw [hrun]
    exact ⟨fun h => by rw [hfaults.1 h]; rfl, hcleanup t hfaults.2⟩

end Rules

end MediaExchange.FailingPrograms
