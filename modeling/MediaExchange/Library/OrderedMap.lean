/-
  MediaExchange/Library/OrderedMap.lean
  =====================================
  **Maps that are walked in the order of their keys.**

  A finite map as the list of its entries, in ascending order of the keys.  The
  operations are the ones of an ordered associative container: looking a key up,
  inserting one that is not there, changing values in place, erasing entries, and
  the searches that walk the entries in order.  Each is characterized by what it
  does to a lookup, so that no proof has to go back to the entries.
-/
import Mathlib.Order.Lattice
import Mathlib.Data.List.Basic

namespace MediaExchange

structure OrderedMap (κ α : Type*) [LinearOrder κ] where
  entries : List (κ × α)
  sorted : entries.Pairwise fun a b => a.1 < b.1

namespace OrderedMap

variable {κ α : Type*} [LinearOrder κ]

/-! ### The entries -/

/-- The value of the first entry with the key. -/
def lookup (key : κ) : List (κ × α) → Option α
  | [] => none
  | (k, a) :: entries => if k = key then some a else lookup key entries

/-- Put an entry in its place, unless its key is taken. -/
def insertEntry (key : κ) (value : α) : List (κ × α) → List (κ × α)
  | [] => [(key, value)]
  | (k, a) :: entries =>
      if key < k then (key, value) :: (k, a) :: entries
      else if key = k then (k, a) :: entries
      else (k, a) :: insertEntry key value entries

theorem fst_insertEntry {key : κ} {value : α} {entries : List (κ × α)} {e : κ × α}
    (h : e ∈ insertEntry key value entries) : e.1 = key ∨ e ∈ entries := by
  induction entries with
  | nil =>
    left
    rw [List.mem_singleton.mp h]
  | cons head entries ih =>
    obtain ⟨k, a⟩ := head
    rw [insertEntry] at h
    split at h
    · rcases List.mem_cons.mp h with rfl | h
      · exact Or.inl rfl
      · exact Or.inr h
    · split at h
      · exact Or.inr h
      · rcases List.mem_cons.mp h with rfl | h
        · exact Or.inr List.mem_cons_self
        · exact (ih h).imp_right (List.mem_cons_of_mem _)

theorem sorted_insertEntry (key : κ) (value : α) {entries : List (κ × α)}
    (h : entries.Pairwise fun a b => a.1 < b.1) :
    (insertEntry key value entries).Pairwise fun a b => a.1 < b.1 := by
  induction entries with
  | nil => exact List.pairwise_singleton _ _
  | cons head entries ih =>
    obtain ⟨k, a⟩ := head
    obtain ⟨hhead, htail⟩ := List.pairwise_cons.mp h
    rw [insertEntry]
    split
    · next hlt =>
      refine List.pairwise_cons.mpr ⟨?_, h⟩
      intro e he
      rcases List.mem_cons.mp he with rfl | he
      · exact hlt
      · exact lt_trans hlt (hhead e he)
    · next hle =>
      split
      · exact h
      · next hne =>
        refine List.pairwise_cons.mpr ⟨?_, ih htail⟩
        intro e he
        rcases fst_insertEntry he with heq | he
        · rw [heq]
          exact lt_of_le_of_ne (not_lt.mp hle) (Ne.symm hne)
        · exact hhead e he

theorem lookup_eq_none {key : κ} {entries : List (κ × α)} (h : ∀ e ∈ entries, e.1 ≠ key) :
    lookup key entries = none := by
  induction entries with
  | nil => rfl
  | cons head entries ih =>
    rw [lookup, if_neg (h head List.mem_cons_self)]
    exact ih fun e he => h e (List.mem_cons_of_mem _ he)

theorem lookup_insertEntry (key : κ) (value : α) {entries : List (κ × α)}
    (h : entries.Pairwise fun a b => a.1 < b.1) (j : κ) :
    lookup j (insertEntry key value entries) =
      if j = key then some ((lookup key entries).getD value) else lookup j entries := by
  induction entries with
  | nil =>
    rw [insertEntry]
    by_cases hj : j = key
    · simp [hj, lookup]
    · simp [lookup, hj, Ne.symm hj]
  | cons head entries ih =>
    obtain ⟨k, a⟩ := head
    obtain ⟨hhead, htail⟩ := List.pairwise_cons.mp h
    rw [insertEntry]
    split
    · next hlt =>
      have hnone : lookup key ((k, a) :: entries) = none := by
        apply lookup_eq_none
        intro e he
        rcases List.mem_cons.mp he with rfl | he
        · exact ne_of_gt hlt
        · exact ne_of_gt (lt_trans hlt (hhead e he))
      rw [hnone, lookup]
      by_cases hj : j = key
      · simp [hj]
      · rw [if_neg (Ne.symm hj), if_neg hj]
    · split
      · next heq =>
        subst heq
        by_cases hj : j = key
        · subst hj
          simp [lookup]
        · rw [if_neg hj]
      · next hne =>
        rw [lookup, lookup, lookup, if_neg (Ne.symm hne), ih htail]
        by_cases hk : k = j
        · have hj : j ≠ key := fun hj => hne (hj.symm.trans hk.symm)
          rw [if_pos hk, if_neg hj, if_pos hk]
        · rw [if_neg hk, if_neg hk]

theorem lookup_eq_some {key : κ} {value : α} {entries : List (κ × α)}
    (h : entries.Pairwise fun a b => a.1 < b.1) :
    lookup key entries = some value ↔ (key, value) ∈ entries := by
  induction entries with
  | nil => simp [lookup]
  | cons head entries ih =>
    obtain ⟨k, a⟩ := head
    obtain ⟨hhead, htail⟩ := List.pairwise_cons.mp h
    rw [lookup, List.mem_cons]
    by_cases hk : k = key
    · subst hk
      have habsent : (k, value) ∉ entries := fun he => lt_irrefl k (hhead _ he)
      simp [habsent, eq_comm]
    · rw [if_neg hk, ih htail, Prod.mk.injEq]
      simp [Ne.symm hk]

/-! ### The operations -/

variable {β : Type*}

def empty : OrderedMap κ α where
  entries := []
  sorted := List.Pairwise.nil

def get? (m : OrderedMap κ α) (key : κ) : Option α := lookup key m.entries

def isEmpty (m : OrderedMap κ α) : Bool := m.entries.isEmpty

/-- Insert an entry; nothing happens if the key is taken. -/
def emplace (m : OrderedMap κ α) (key : κ) (value : α) : OrderedMap κ α where
  entries := insertEntry key value m.entries
  sorted := sorted_insertEntry key value m.sorted

def map (m : OrderedMap κ α) (f : κ → α → β) : OrderedMap κ β where
  entries := m.entries.map fun e => (e.1, f e.1 e.2)
  sorted := List.pairwise_map.mpr m.sorted

def modify (m : OrderedMap κ α) (key : κ) (f : α → α) : OrderedMap κ α :=
  m.map fun k a => if k = key then f a else a

def eraseIf (m : OrderedMap κ α) (p : κ → α → Bool) : OrderedMap κ α where
  entries := m.entries.filter fun e => !p e.1 e.2
  sorted := m.sorted.filter _

/-- The first key whose entry satisfies `p`. -/
def findKey? (m : OrderedMap κ α) (p : κ → α → Bool) : Option κ :=
  (m.entries.find? fun e => p e.1 e.2).map Prod.fst

def any (m : OrderedMap κ α) (p : κ → α → Bool) : Bool := m.entries.any fun e => p e.1 e.2

variable (m : OrderedMap κ α)

theorem get?_eq_some {key : κ} {value : α} : m.get? key = some value ↔ (key, value) ∈ m.entries :=
  lookup_eq_some m.sorted

theorem get?_emplace (key : κ) (value : α) (j : κ) :
    (m.emplace key value).get? j =
      if j = key then some ((m.get? key).getD value) else m.get? j :=
  lookup_insertEntry key value m.sorted j

@[simp] theorem get?_map (f : κ → α → β) (key : κ) : (m.map f).get? key = (m.get? key).map (f key) := by
  unfold get? map
  dsimp only
  induction m.entries with
  | nil => rfl
  | cons head entries ih =>
    rw [List.map_cons, lookup, lookup]
    by_cases hk : head.1 = key
    · rw [if_pos hk, if_pos hk, hk]
      rfl
    · rw [if_neg hk, if_neg hk, ih]

theorem get?_modify (key : κ) (f : α → α) (j : κ) :
    (m.modify key f).get? j = (m.get? j).map fun a => if j = key then f a else a :=
  get?_map m _ j

theorem get?_eraseIf (p : κ → α → Bool) (key : κ) :
    (m.eraseIf p).get? key = (m.get? key).filter fun a => !p key a := by
  apply Option.ext
  intro a
  rw [get?_eq_some, Option.filter_eq_some_iff, get?_eq_some, eraseIf, List.mem_filter]

theorem get?_erase (key j : κ) :
    (m.eraseIf fun k _ => decide (k = key)).get? j = if j = key then none else m.get? j := by
  rw [get?_eraseIf]
  by_cases hj : j = key
  · simp [hj]
  · cases hget : m.get? j <;> simp [hj]

theorem map_insertEntry (f : κ → α → β) (key : κ) (value : α) (entries : List (κ × α)) :
    (insertEntry key value entries).map (fun e => (e.1, f e.1 e.2)) =
      insertEntry key (f key value) (entries.map fun e => (e.1, f e.1 e.2)) := by
  induction entries with
  | nil => rfl
  | cons head entries ih =>
    obtain ⟨k, a⟩ := head
    rw [List.map_cons, insertEntry, insertEntry]
    split
    · simp
    · split
      · simp
      · simp [ih]

/-- Changing the values does not depend on when an entry came. -/
theorem map_emplace (f : κ → α → β) (key : κ) (value : α) :
    (m.emplace key value).map f = (m.map f).emplace key (f key value) := by
  simp only [map, emplace, map_insertEntry]

theorem map_eraseIf_key (f : κ → α → β) (p : κ → Bool) :
    (m.eraseIf fun k _ => p k).map f = (m.map f).eraseIf fun k _ => p k := by
  simp only [map, eraseIf, List.filter_map]
  rfl

theorem any_eq_true {p : κ → α → Bool} :
    m.any p = true ↔ ∃ key a, m.get? key = some a ∧ p key a = true := by
  simp only [any, List.any_eq_true, get?_eq_some, Prod.exists]

theorem findKey?_eq_some {p : κ → α → Bool} {key : κ} (h : m.findKey? p = some key) :
    ∃ a, m.get? key = some a ∧ p key a = true := by
  rw [findKey?, Option.map_eq_some_iff] at h
  obtain ⟨⟨k, a⟩, hfind, rfl⟩ := h
  refine ⟨a, ?_, by simpa using List.find?_some hfind⟩
  rw [get?_eq_some]
  exact List.mem_of_find?_eq_some hfind

/-- What is said of all entries can be checked by walking them. -/
instance decidableAll {P : κ → α → Prop} [∀ k a, Decidable (P k a)] :
    Decidable (∀ key a, m.get? key = some a → P key a) :=
  decidable_of_iff (∀ e ∈ m.entries, P e.1 e.2)
    ⟨fun h key a hget => h (key, a) ((m.get?_eq_some).mp hget),
      fun h e he => h e.1 e.2 ((m.get?_eq_some).mpr he)⟩

end OrderedMap

end MediaExchange
