/-
  MediaExchange/Library/FileLocks.lean
  ====================================
  **Open file descriptions and advisory whole-file locks.**

  The kernel's side of `open`, `flock` and `close`, for any type `φ` of files
  and any type `ω` of owners.  An owner names one open file description: which
  file it refers to and which lock it has on it.  Two descriptions of one file
  may both have a shared lock; an exclusive lock excludes every other lock on
  the file, whoever opened it.  A `FileTable` carries this as a field, so a
  table with two conflicting locks cannot be built.

  `tryLock` is the second half of a non-blocking `flock`: it grants the lock if
  no other description conflicts with it, and refuses otherwise.  The first half,
  which drops the lock the description had, is `unlock`: a conversion is not
  atomic, and one that is refused leaves its owner without a lock.
-/
import Mathlib.Logic.Function.Basic
import Mathlib.Data.List.Basic

namespace MediaExchange.FileLocks

/-! ### Lock modes -/

inductive LockMode where
  | shared
  | exclusive
  deriving DecidableEq, Repr

namespace LockMode

def conflicts : LockMode → LockMode → Bool
  | .shared, .shared => false
  | _, _ => true

theorem conflicts_comm (m n : LockMode) : m.conflicts n = n.conflicts m := by
  cases m <;> cases n <;> rfl

@[simp] theorem exclusive_conflicts (n : LockMode) : exclusive.conflicts n = true := by
  cases n <;> rfl

theorem eq_exclusive_of_conflicts_shared {n : LockMode} (h : shared.conflicts n = true) :
    n = exclusive := by
  cases n with
  | shared => cases h
  | exclusive => rfl

end LockMode

/-! ### The table -/

/-- An open file description: the file and the lock held through it. -/
structure Description (φ : Type*) where
  file : φ
  lock : Option LockMode
  deriving DecidableEq

/-- The open file descriptions of a system.  Finitely many are open, and no two
    of them have conflicting locks on one file. -/
structure FileTable (ω φ : Type*) where
  get : ω → Option (Description φ)
  owners : List ω
  mem_owners : ∀ o, get o ≠ none → o ∈ owners
  compatible : ∀ o p f m n, o ≠ p → get o = some ⟨f, some m⟩ → get p = some ⟨f, some n⟩ →
    m.conflicts n = false

namespace FileTable

variable {ω φ : Type*}

def empty : FileTable ω φ where
  get _ := none
  owners := []
  mem_owners _ h := absurd rfl h
  compatible _ _ _ _ _ _ h := by cases h

/-- The owner has a lock on the file. -/
def Holds (T : FileTable ω φ) (o : ω) (f : φ) : Prop :=
  ∃ m, T.get o = some ⟨f, some m⟩

instance decidableHolds [DecidableEq φ] (T : FileTable ω φ) (o : ω) (f : φ) :
    Decidable (T.Holds o f) :=
  decidable_of_iff (T.get o = some ⟨f, some .shared⟩ ∨ T.get o = some ⟨f, some .exclusive⟩)
    ⟨fun h => h.elim (fun h => ⟨_, h⟩) fun h => ⟨_, h⟩, fun ⟨m, h⟩ => by
      cases m with
      | shared => exact Or.inl h
      | exclusive => exact Or.inr h⟩

/-- An exclusive lock is the only lock on its file. -/
theorem eq_of_exclusive (T : FileTable ω φ) {o p : ω} {f : φ} {n : LockMode}
    (ho : T.get o = some ⟨f, some .exclusive⟩) (hp : T.get p = some ⟨f, some n⟩) : p = o := by
  by_contra hne
  have hfree := T.compatible o p f .exclusive n (Ne.symm hne) ho hp
  simp at hfree

variable [DecidableEq ω]

/-- Replace one owner's description by one whose lock no other owner opposes. -/
def put (T : FileTable ω φ) (o : ω) (d : Option (Description φ))
    (hfree : ∀ f m p n, d = some ⟨f, some m⟩ → p ≠ o → T.get p = some ⟨f, some n⟩ →
      m.conflicts n = false) : FileTable ω φ where
  get := Function.update T.get o d
  owners := o :: T.owners
  mem_owners p hp := by
    by_cases h : p = o
    · exact List.mem_cons.mpr (Or.inl h)
    · rw [Function.update_of_ne h] at hp
      exact List.mem_cons_of_mem o (T.mem_owners p hp)
  compatible p q f m n hne hp hq := by
    by_cases hpo : p = o
    · subst hpo
      rw [Function.update_self] at hp
      rw [Function.update_of_ne (Ne.symm hne)] at hq
      exact hfree f m q n hp (Ne.symm hne) hq
    · rw [Function.update_of_ne hpo] at hp
      by_cases hqo : q = o
      · subst hqo
        rw [Function.update_self] at hq
        rw [LockMode.conflicts_comm]
        exact hfree f n p m hq hpo hp
      · rw [Function.update_of_ne hqo] at hq
        exact T.compatible p q f m n hne hp hq

@[simp] theorem get_put (T : FileTable ω φ) (o : ω) (d : Option (Description φ)) (hfree) :
    (T.put o d hfree).get = Function.update T.get o d := rfl

/-! ### System calls -/

/-- `open`: a new description, without a lock. -/
def openFile (T : FileTable ω φ) (o : ω) (f : φ) : FileTable ω φ :=
  T.put o (some ⟨f, none⟩) (by simp)

/-- `close`: the description goes, and its lock with it. -/
def close (T : FileTable ω φ) (o : ω) : FileTable ω φ :=
  T.put o none (by simp)

/-- `flock` with `LOCK_UN`, and the first half of a conversion. -/
def unlock (T : FileTable ω φ) (o : ω) : FileTable ω φ :=
  T.put o ((T.get o).map fun d => { d with lock := none }) (by
    rintro f m p n hd
    cases h : T.get o <;> simp [h] at hd)

/-- The description goes from one owner to another, its lock included. -/
def move (T : FileTable ω φ) (o p : ω) : FileTable ω φ :=
  (T.close o).put p (T.get o) (by
    rintro f m q n hd hqp hq
    by_cases hqo : q = o
    · subst hqo
      simp [close] at hq
    · have hq' : T.get q = some ⟨f, some n⟩ := by simpa [close, hqo] using hq
      exact T.compatible o q f m n (Ne.symm hqo) hd hq')

@[simp] theorem get_openFile (T : FileTable ω φ) (o : ω) (f : φ) :
    (T.openFile o f).get = Function.update T.get o (some ⟨f, none⟩) := rfl

@[simp] theorem get_close (T : FileTable ω φ) (o : ω) :
    (T.close o).get = Function.update T.get o none := rfl

@[simp] theorem get_unlock (T : FileTable ω φ) (o : ω) :
    (T.unlock o).get =
      Function.update T.get o ((T.get o).map fun d => { d with lock := none }) := rfl

@[simp] theorem get_move (T : FileTable ω φ) (o p : ω) :
    (T.move o p).get = Function.update (Function.update T.get o none) p (T.get o) := rfl

/-! ### Trying a lock -/

variable [DecidableEq φ]

/-- Another owner has a lock on the file that conflicts with the mode. -/
def contended (T : FileTable ω φ) (o : ω) (f : φ) (m : LockMode) : Bool :=
  T.owners.any fun p => decide (p ≠ o) &&
    match T.get p with
    | some ⟨g, some n⟩ => decide (g = f) && m.conflicts n
    | _ => false

theorem contended_iff (T : FileTable ω φ) (o : ω) (f : φ) (m : LockMode) :
    T.contended o f m = true ↔
      ∃ p n, p ≠ o ∧ T.get p = some ⟨f, some n⟩ ∧ m.conflicts n = true := by
  constructor
  · intro h
    obtain ⟨p, -, hp⟩ := List.any_eq_true.mp h
    rw [Bool.and_eq_true, decide_eq_true_iff] at hp
    obtain ⟨hpo, hp⟩ := hp
    split at hp
    · rename_i g n hget
      rw [Bool.and_eq_true, decide_eq_true_iff] at hp
      obtain ⟨rfl, hn⟩ := hp
      exact ⟨p, n, hpo, hget, hn⟩
    · cases hp
  · rintro ⟨p, n, hpo, hget, hn⟩
    have hmem : p ∈ T.owners := T.mem_owners p (by simp [hget])
    exact List.any_eq_true.mpr ⟨p, hmem, by simp [hpo, hget, hn]⟩

/-- The non-blocking lock request, for a description that has no lock. -/
def tryLock (T : FileTable ω φ) (o : ω) (m : LockMode) : Option (FileTable ω φ) :=
  match T.get o with
  | none => none
  | some d =>
      if hfree : T.contended o d.file m = false then
        some (T.put o (some ⟨d.file, some m⟩) (by
          rintro f m' p n hd hpo hp
          simp only [Option.some.injEq, Description.mk.injEq] at hd
          obtain ⟨rfl, rfl⟩ := hd
          by_contra hn
          have hcon := (T.contended_iff o d.file m).mpr
            ⟨p, n, hpo, hp, by simpa using hn⟩
          rw [hfree] at hcon
          cases hcon))
      else none

/-- What a granted request says: nobody else has a lock that conflicts, and the
    requester now has the lock. -/
theorem of_tryLock_eq_some {T T' : FileTable ω φ} {o : ω} {m : LockMode}
    (h : T.tryLock o m = some T') :
    ∃ d, T.get o = some d ∧
      (∀ p n, p ≠ o → T.get p = some ⟨d.file, some n⟩ → m.conflicts n = false) ∧
      T'.get = Function.update T.get o (some ⟨d.file, some m⟩) := by
  unfold tryLock at h
  split at h
  · cases h
  · rename_i d hget
    split at h
    · rename_i hfree
      obtain rfl := Option.some.inj h
      refine ⟨d, hget, fun p n hpo hp => ?_, rfl⟩
      by_contra hn
      have hcon := (T.contended_iff o d.file m).mpr ⟨p, n, hpo, hp, by simpa using hn⟩
      rw [hfree] at hcon
      cases hcon
    · cases h

/-- An exclusive lock is granted only if nobody else has a lock on the file. -/
theorem of_tryLock_exclusive {T T' : FileTable ω φ} {o : ω}
    (h : T.tryLock o .exclusive = some T') :
    ∃ d, T.get o = some d ∧ (∀ p n, p ≠ o → T.get p ≠ some ⟨d.file, some n⟩) ∧
      T'.get = Function.update T.get o (some ⟨d.file, some .exclusive⟩) := by
  obtain ⟨d, hget, hfree, hget'⟩ := of_tryLock_eq_some h
  refine ⟨d, hget, fun p n hpo hp => ?_, hget'⟩
  have hn := hfree p n hpo hp
  simp at hn

/-- A granted request leaves the other descriptions alone. -/
theorem get_of_tryLock {T T' : FileTable ω φ} {o p : ω} {m : LockMode}
    (h : T.tryLock o m = some T') (hpo : p ≠ o) : T'.get p = T.get p := by
  obtain ⟨d, -, -, hget'⟩ := of_tryLock_eq_some h
  rw [hget', Function.update_of_ne hpo]

/-- A request is refused exactly when another owner has a lock that conflicts. -/
theorem tryLock_eq_none_iff {T : FileTable ω φ} {o : ω} {d : Description φ} {m : LockMode}
    (hget : T.get o = some d) :
    T.tryLock o m = none ↔
      ∃ p n, p ≠ o ∧ T.get p = some ⟨d.file, some n⟩ ∧ m.conflicts n = true := by
  rw [← contended_iff]
  simp [tryLock, hget]

end FileTable

end MediaExchange.FileLocks
