/-
  MediaExchange/DomainWatcher.lean
  ================================
  **The watcher's map and the kernel's table** (`DomainWatcher.cpp`, on Linux).

  The watcher keeps a multimap from watch descriptors to the writers registered for
  the file behind them; `inotify` keeps a table of its own, from descriptors to
  inodes.  A path leads to one inode at a time, an inode that was unlinked lives on
  while somebody has it open, and with an inode its watch goes too (`inotify(7)`).

  A flow's access file is known by the flow's id.  Inodes are numbered as they are
  created; the kernel may hand out any descriptor that is not in use.  `registrations`
  is history: the calls of `addFlow` that returned and are not undone.

  `bookkeeping_iff_along` says which calls and which changes to the files let the
  two tables and the history part.
-/
import MediaExchange.Library.LabelledRun
import Mathlib.Data.List.Perm.Basic
import Mathlib.Logic.Function.Basic

namespace MediaExchange.DomainWatcher

open MediaExchange.LabelledRun

variable {ω φ : Type*} [DecidableEq ω] [DecidableEq φ]

/-! ### The watcher -/

/-- `DomainWatcherRecord`, as far as records are compared. -/
structure Record (ω φ : Type*) where
  id : φ
  fw : ω
  deriving DecidableEq

structure State (ω φ : Type*) where
  watches : List (Nat × Record ω φ)
  kernel : List (Nat × Nat)
  paths : φ → Option Nat
  unlinked : List Nat
  nextInode : Nat
  threw : Bool
  registrations : List (Record ω φ)

def State.initial : State ω φ :=
  { watches := [], kernel := [], paths := fun _ => none, unlinked := [], nextInode := 0
    threw := false, registrations := [] }

/-- `granted`: the kernel allows the watch; `fresh`: the descriptor it would give a new
    one; `opened`: the flow's data file can be mapped. -/
inductive Action (ω φ : Type*) where
  | addFlow (writer : ω) (id : φ) (granted : Bool) (fresh : Nat) (opened : Bool)
  | removeFlow (writer : ω) (id : φ)
  | create (id : φ)
  | unlink (id : φ)
  | free (inode : Nat)

/-- `std::multimap::emplace`: behind the entries with the same key. -/
def emplace (wd : Nat) (record : Record ω φ) (watches : List (Nat × Record ω φ)) :
    List (Nat × Record ω φ) :=
  watches.takeWhile (fun e => e.1 ≤ wd) ++ (wd, record) :: watches.dropWhile fun e => e.1 ≤ wd

/-- `count`: the entries under the descriptor of the first one with this id. -/
def count (watches : List (Nat × Record ω φ)) (id : φ) : Nat :=
  match watches.find? fun e => e.2.id = id with
  | none => 0
  | some it => watches.countP fun e => e.1 = it.1

def size (watches : List (Nat × Record ω φ)) : Nat := watches.length

/-- `inotify_add_watch`: an inode has one descriptor. -/
def inotifyAddWatch (kernel : List (Nat × Nat)) (inode fresh : Nat) :
    Option (List (Nat × Nat) × Nat) :=
  match kernel.find? fun w => w.2 = inode with
  | some w => some (kernel, w.1)
  | none => if ∀ w ∈ kernel, w.1 ≠ fresh then some ((fresh, inode) :: kernel, fresh) else none

/-- `inotify_rm_watch`; for a descriptor the kernel does not know it only fails. -/
def inotifyRmWatch (kernel : List (Nat × Nat)) (wd : Nat) : List (Nat × Nat) :=
  kernel.filter fun w => w.1 ≠ wd

/-! ### Steps -/

/-- The end of `addFlow`: the flow's data is mapped and the record goes into the map. -/
def State.mapped (s : State ω φ) (wd : Nat) (record : Record ω φ) (opened : Bool) : State ω φ :=
  if opened then
    { s with
      watches := emplace wd record s.watches
      threw := false
      registrations := record :: s.registrations }
  else { s with threw := true }

def addFlow (s : State ω φ) (writer : ω) (id : φ) (granted : Bool) (fresh : Nat) (opened : Bool) :
    Option (State ω φ) :=
  match s.watches.find? fun e => e.2 = ⟨id, writer⟩ with
  | some e => some (s.mapped e.1 ⟨id, writer⟩ opened)
  | none =>
      match if granted then s.paths id else none with
      | none => some { s with threw := true }
      | some inode =>
          match inotifyAddWatch s.kernel inode fresh with
          | none => none
          | some (kernel, wd) => some ({ s with kernel }.mapped wd ⟨id, writer⟩ opened)

def removeFlow (s : State ω φ) (writer : ω) (id : φ) : State ω φ :=
  match s.watches.find? fun e => e.2 = ⟨id, writer⟩ with
  | none => { s with threw := false }
  | some it =>
      let watches := s.watches.eraseP fun e => e.2 = ⟨id, writer⟩
      { s with
        watches := watches
        kernel := if ∃ e ∈ watches, e.1 = it.1 then s.kernel else inotifyRmWatch s.kernel it.1
        threw := false
        registrations := s.registrations.erase ⟨id, writer⟩ }

def step (s : State ω φ) : Action ω φ → Option (State ω φ)
  | .addFlow writer id granted fresh opened => addFlow s writer id granted fresh opened
  | .removeFlow writer id => some (removeFlow s writer id)
  | .create id =>
      match s.paths id with
      | some _ => none
      | none =>
          some { s with
            paths := Function.update s.paths id (some s.nextInode)
            nextInode := s.nextInode + 1
            threw := false }
  | .unlink id =>
      match s.paths id with
      | none => none
      | some inode =>
          some { s with
            paths := Function.update s.paths id none
            unlinked := inode :: s.unlinked
            threw := false }
  | .free inode =>
      if inode ∈ s.unlinked then
        some { s with kernel := s.kernel.filter fun w => w.2 ≠ inode, threw := false }
      else none

/-! ### What is to hold, and when it does -/

/-- The counts are those of the registrations, and the kernel watches what the map
    has as keys. -/
structure Bookkeeping (s : State ω φ) : Prop where
  count_eq : ∀ id, count s.watches id = s.registrations.countP fun r => r.id = id
  size_eq : size s.watches = s.registrations.length
  keys : ∀ wd, (∃ w ∈ s.kernel, w.1 = wd) ↔ ∃ e ∈ s.watches, e.1 = wd

/-- A call that throws changes neither table. -/
def FailedUnchanged (s : State ω φ) (a : Action ω φ) : Prop :=
  ∀ t, step s a = some t → t.threw = true →
    t.watches = s.watches ∧ t.kernel = s.kernel ∧ t.registrations = s.registrations

/-- A writer not registered yet is added to a flow whose registrations, if there are
    any, are for the inode behind its path, and the call does not fail after it has
    made a watch; and no inode is freed that is watched. -/
def InStep (s : State ω φ) : Action ω φ → Prop
  | .addFlow writer id granted _ opened =>
      (∀ e ∈ s.watches, e.2 ≠ ⟨id, writer⟩) → granted = true →
        ∀ inode, s.paths id = some inode →
          if opened then ∀ e ∈ s.watches, e.2.id = id → (e.1, inode) ∈ s.kernel
          else ∃ w ∈ s.kernel, w.2 = inode
  | .free inode => ∀ w ∈ s.kernel, w.2 ≠ inode
  | _ => True

/-! ### The multimap -/

omit [DecidableEq ω] [DecidableEq φ] in
theorem emplace_perm (wd : Nat) (record : Record ω φ) (watches : List (Nat × Record ω φ)) :
    (emplace wd record watches).Perm ((wd, record) :: watches) := by
  unfold emplace
  refine List.perm_middle.trans ?_
  rw [List.takeWhile_append_dropWhile]

omit [DecidableEq ω] [DecidableEq φ] in
@[simp] theorem mem_emplace {wd : Nat} {record : Record ω φ} {watches : List (Nat × Record ω φ)}
    {e : Nat × Record ω φ} : e ∈ emplace wd record watches ↔ e = (wd, record) ∨ e ∈ watches := by
  rw [(emplace_perm wd record watches).mem_iff, List.mem_cons]

omit [DecidableEq ω] in
/-- Where descriptors and ids determine each other, `count` counts the id. -/
theorem count_eq_countP {watches : List (Nat × Record ω φ)} {id : φ}
    (h : ∀ e ∈ watches, ∀ e' ∈ watches, e'.2.id = id → (e.1 = e'.1 ↔ e.2.id = id)) :
    count watches id = watches.countP fun e => e.2.id = id := by
  unfold count
  cases hfind : watches.find? fun e => e.2.id = id with
  | none =>
    rw [List.find?_eq_none] at hfind
    exact (List.countP_eq_zero.mpr hfind).symm
  | some it =>
    have hmem := List.mem_of_find?_eq_some hfind
    have hid : it.2.id = id := by simpa using List.find?_some hfind
    apply List.countP_congr
    intro e he
    simpa using h e he it hmem hid

omit [DecidableEq ω] in
/-- Two descriptors for one id: `count` misses one of the registrations. -/
theorem count_lt_countP {watches : List (Nat × Record ω φ)} {id : φ}
    (hkey : ∀ e ∈ watches, ∀ e' ∈ watches, e.1 = e'.1 → e.2.id = e'.2.id)
    {e e' : Nat × Record ω φ} (he : e ∈ watches) (he' : e' ∈ watches) (hid : e.2.id = id)
    (hid' : e'.2.id = id) (hne : e.1 ≠ e'.1) :
    count watches id < watches.countP fun e => e.2.id = id := by
  unfold count
  cases hfind : watches.find? fun e => e.2.id = id with
  | none =>
    rw [List.find?_eq_none] at hfind
    exact absurd (by simpa using hid) (hfind e he)
  | some it =>
    have hmem := List.mem_of_find?_eq_some hfind
    have hidit : it.2.id = id := by simpa using List.find?_some hfind
    -- one of the two is not under the descriptor of the first entry
    obtain ⟨other, hother, hotherid, hotherne⟩ :
        ∃ other ∈ watches, other.2.id = id ∧ other.1 ≠ it.1 := by
      by_cases heq : e.1 = it.1
      · exact ⟨e', he', hid', fun h => hne (heq.trans h.symm)⟩
      · exact ⟨e, he, hid, heq⟩
    obtain ⟨l₁, l₂, rfl⟩ := List.append_of_mem hother
    have hle : ∀ l : List (Nat × Record ω φ), (∀ x ∈ l, x ∈ l₁ ++ other :: l₂) →
        (l.countP fun x => x.1 = it.1) ≤ l.countP fun x => x.2.id = id := by
      intro l hl
      apply List.countP_mono_left
      intro x hx hxkey
      have hsame := hkey x (hl x hx) it hmem (by simpa using hxkey)
      simpa using hsame.trans hidit
    have h₁ := hle l₁ fun x hx => List.mem_append_left _ hx
    have h₂ := hle l₂ fun x hx => List.mem_append_right _ (List.mem_cons_of_mem _ hx)
    simp only [List.countP_append, List.countP_cons, hotherid, hotherne, decide_true, decide_false,
      if_true, Bool.false_eq_true, if_false]
    omega

/-! ### The invariant -/

/-- `size` and `keys` as they are to be, one descriptor for each id and one id for each
    descriptor, and paths that lead to inodes of their own. -/
structure Invariant (s : State ω φ) : Prop where
  perm : (s.watches.map Prod.snd).Perm s.registrations
  keys : ∀ wd, (∃ w ∈ s.kernel, w.1 = wd) ↔ ∃ e ∈ s.watches, e.1 = wd
  oneId : ∀ e ∈ s.watches, ∀ e' ∈ s.watches, e.1 = e'.1 ↔ e.2.id = e'.2.id
  oneInode : ∀ w ∈ s.kernel, ∀ w' ∈ s.kernel, w.1 = w'.1 ↔ w.2 = w'.2
  path : ∀ e ∈ s.watches, ∀ id inode, s.paths id = some inode → (e.1, inode) ∈ s.kernel →
    e.2.id = id
  numbered : (∀ w ∈ s.kernel, w.2 < s.nextInode) ∧
    ∀ id inode, s.paths id = some inode → inode < s.nextInode
  ownPath : ∀ id id' inode, s.paths id = some inode → s.paths id' = some inode → id = id'

omit [DecidableEq ω] [DecidableEq φ] in
theorem invariant_initial : Invariant (State.initial : State ω φ) where
  perm := .nil
  keys _ := by simp [State.initial]
  oneId _ h := nomatch h
  oneInode _ h := nomatch h
  path _ h := nomatch h
  numbered := by simp [State.initial]
  ownPath _ _ _ h := by cases h

section Facts

variable {s t : State ω φ}

omit [DecidableEq ω] in
theorem Invariant.countP_registrations (h : Invariant s) (id : φ) :
    (s.registrations.countP fun r => r.id = id) = s.watches.countP fun e => e.2.id = id := by
  rw [← h.perm.countP_eq, List.countP_map]
  rfl

omit [DecidableEq ω] in
theorem Invariant.bookkeeping (h : Invariant s) : Bookkeeping s where
  count_eq id := by
    rw [h.countP_registrations id]
    apply count_eq_countP
    intro e he e' he' hid
    rw [h.oneId e he e' he', hid]
  size_eq := by
    unfold size
    rw [← h.perm.length_eq, List.length_map]
  keys := h.keys

/-! ### The kernel's table -/

theorem inotifyAddWatch_cases {kernel kernel' : List (Nat × Nat)} {inode fresh wd : Nat}
    (h : inotifyAddWatch kernel inode fresh = some (kernel', wd)) :
    ((wd, inode) ∈ kernel ∧ kernel' = kernel) ∨
      ((∀ w ∈ kernel, w.2 ≠ inode) ∧ (∀ w ∈ kernel, w.1 ≠ wd) ∧
        kernel' = (wd, inode) :: kernel) := by
  unfold inotifyAddWatch at h
  cases hfind : kernel.find? fun w => w.2 = inode with
  | some w =>
    rw [hfind] at h
    obtain ⟨rfl, rfl⟩ := Prod.mk.inj (Option.some.inj h)
    have hinode : w.2 = inode := by simpa using List.find?_some hfind
    exact .inl ⟨hinode ▸ List.mem_of_find?_eq_some hfind, rfl⟩
  | none =>
    rw [hfind] at h
    obtain ⟨hfresh, heq⟩ := Option.ite_none_right_eq_some.mp h
    obtain ⟨rfl, rfl⟩ := Prod.mk.inj (Option.some.inj heq)
    rw [List.find?_eq_none] at hfind
    exact .inr ⟨fun w hw => by simpa using hfind w hw, hfresh, rfl⟩

/-- All that `addFlow` can do. -/
inductive Added (s : State ω φ) (writer : ω) (id : φ) (granted opened : Bool) :
    State ω φ → Prop where
  | again (wd : Nat) (hmem : (wd, ⟨id, writer⟩) ∈ s.watches) :
      Added s writer id granted opened (s.mapped wd ⟨id, writer⟩ opened)
  | refused (hnew : ∀ e ∈ s.watches, e.2 ≠ ⟨id, writer⟩)
      (h : granted = false ∨ s.paths id = none) :
      Added s writer id granted opened { s with threw := true }
  | shared (hnew : ∀ e ∈ s.watches, e.2 ≠ ⟨id, writer⟩) (hgranted : granted = true)
      (inode wd : Nat) (hpath : s.paths id = some inode) (hwd : (wd, inode) ∈ s.kernel) :
      Added s writer id granted opened (s.mapped wd ⟨id, writer⟩ opened)
  | watched (hnew : ∀ e ∈ s.watches, e.2 ≠ ⟨id, writer⟩) (hgranted : granted = true)
      (inode wd : Nat) (hpath : s.paths id = some inode) (hinode : ∀ w ∈ s.kernel, w.2 ≠ inode)
      (hwd : ∀ w ∈ s.kernel, w.1 ≠ wd) :
      Added s writer id granted opened
        ({ s with kernel := (wd, inode) :: s.kernel }.mapped wd ⟨id, writer⟩ opened)

theorem added_of_addFlow {writer : ω} {id : φ} {granted opened : Bool} {fresh : Nat}
    (h : addFlow s writer id granted fresh opened = some t) :
    Added s writer id granted opened t := by
  unfold addFlow at h
  cases hfind : s.watches.find? fun e => e.2 = ⟨id, writer⟩ with
  | some e =>
    rw [hfind] at h
    obtain rfl := Option.some.inj h
    have hrecord : e.2 = ⟨id, writer⟩ := by simpa using List.find?_some hfind
    exact .again e.1 (hrecord ▸ List.mem_of_find?_eq_some hfind)
  | none =>
    rw [hfind] at h
    have hnew : ∀ e ∈ s.watches, e.2 ≠ ⟨id, writer⟩ := by
      rw [List.find?_eq_none] at hfind
      exact fun e he => by simpa using hfind e he
    cases hpath : (if granted then s.paths id else none) with
    | none =>
      simp only [hpath] at h
      obtain rfl := Option.some.inj h
      refine .refused hnew ?_
      cases granted with
      | false => exact .inl rfl
      | true => exact .inr (by simpa using hpath)
    | some inode =>
      simp only [hpath] at h
      obtain ⟨hgranted, hpath⟩ := Option.ite_none_right_eq_some.mp hpath
      cases hadd : inotifyAddWatch s.kernel inode fresh with
      | none =>
        rw [hadd] at h
        cases h
      | some added =>
        obtain ⟨kernel, wd⟩ := added
        rw [hadd] at h
        obtain rfl := Option.some.inj h
        rcases inotifyAddWatch_cases hadd with ⟨hwd, rfl⟩ | ⟨hinode, hwd, rfl⟩
        · exact .shared hnew hgranted inode wd hpath hwd
        · exact .watched hnew hgranted inode wd hpath hinode hwd

/-! ### `addFlow` -/

omit [DecidableEq ω] [DecidableEq φ] in
theorem Invariant.throw (h : Invariant s) (threw : Bool) : Invariant { s with threw } :=
  ⟨h.perm, h.keys, h.oneId, h.oneInode, h.path, h.numbered, h.ownPath⟩

omit [DecidableEq ω] [DecidableEq φ] in
/-- A registration under a descriptor that the kernel and the other registrations of
    its id know. -/
theorem Invariant.register (h : Invariant s) {wd : Nat} {record : Record ω φ}
    (hwd : ∃ e ∈ s.watches, e.1 = wd)
    (hid : ∀ e ∈ s.watches, e.1 = wd ↔ e.2.id = record.id) :
    Invariant (s.mapped wd record true) := by
  obtain ⟨known, hknown, hknownwd⟩ := hwd
  have hknownid := (hid known hknown).mp hknownwd
  constructor
  · exact ((emplace_perm wd record s.watches).map _).trans (h.perm.cons record)
  · intro wd'
    rw [State.mapped, if_pos rfl]
    simp only [mem_emplace]
    constructor
    · intro hkernel
      obtain ⟨e, he, hewd⟩ := (h.keys wd').mp hkernel
      exact ⟨e, .inr he, hewd⟩
    · rintro ⟨e, rfl | he, hewd⟩
      · exact (h.keys wd').mpr ⟨known, hknown, hknownwd.trans hewd⟩
      · exact (h.keys wd').mpr ⟨e, he, hewd⟩
  · rw [State.mapped, if_pos rfl]
    simp only [mem_emplace]
    rintro e (rfl | he) e' (rfl | he')
    · exact iff_of_true rfl rfl
    · rw [eq_comm, hid e' he', eq_comm]
    · exact hid e he
    · exact h.oneId e he e' he'
  · exact h.oneInode
  · rw [State.mapped, if_pos rfl]
    simp only [mem_emplace]
    rintro e (rfl | he) id inode hpath hkernel
    · rw [← hknownid]
      exact h.path known hknown id inode hpath (hknownwd ▸ hkernel)
    · exact h.path e he id inode hpath hkernel
  · exact h.numbered
  · exact h.ownPath

omit [DecidableEq ω] [DecidableEq φ] in
/-- A descriptor that the kernel does not know is no key. -/
theorem Invariant.key_ne (h : Invariant s) {wd : Nat} (hwd : ∀ w ∈ s.kernel, w.1 ≠ wd) :
    ∀ e ∈ s.watches, e.1 ≠ wd := by
  intro e he hewd
  obtain ⟨w, hw, hwwd⟩ := (h.keys wd).mpr ⟨e, he, hewd⟩
  exact hwd w hw hwwd

omit [DecidableEq ω] [DecidableEq φ] in
/-- The first registration of an id, under a new descriptor. -/
theorem Invariant.registerFirst (h : Invariant s) {wd inode : Nat} {record : Record ω φ}
    (hpath : s.paths record.id = some inode) (hinode : ∀ w ∈ s.kernel, w.2 ≠ inode)
    (hwd : ∀ w ∈ s.kernel, w.1 ≠ wd) (hid : ∀ e ∈ s.watches, e.2.id ≠ record.id) :
    Invariant ({ s with kernel := (wd, inode) :: s.kernel }.mapped wd record true) := by
  have hnokey := h.key_ne hwd
  constructor
  · exact ((emplace_perm wd record s.watches).map _).trans (h.perm.cons record)
  · intro wd'
    rw [State.mapped, if_pos rfl]
    simp only [mem_emplace, List.mem_cons]
    have hold := h.keys wd'
    constructor
    · rintro ⟨w, rfl | hw, hwwd⟩
      · exact ⟨(wd, record), .inl rfl, hwwd⟩
      · obtain ⟨e, he, hewd⟩ := hold.mp ⟨w, hw, hwwd⟩
        exact ⟨e, .inr he, hewd⟩
    · rintro ⟨e, rfl | he, hewd⟩
      · exact ⟨(wd, inode), .inl rfl, hewd⟩
      · obtain ⟨w, hw, hwwd⟩ := hold.mpr ⟨e, he, hewd⟩
        exact ⟨w, .inr hw, hwwd⟩
  · rw [State.mapped, if_pos rfl]
    simp only [mem_emplace]
    rintro e (rfl | he) e' (rfl | he')
    · exact iff_of_true rfl rfl
    · exact iff_of_false (Ne.symm (hnokey e' he')) (Ne.symm (hid e' he'))
    · exact iff_of_false (hnokey e he) (hid e he)
    · exact h.oneId e he e' he'
  · rw [State.mapped, if_pos rfl]
    simp only [List.mem_cons]
    rintro w (rfl | hw) w' (rfl | hw')
    · exact iff_of_true rfl rfl
    · exact iff_of_false (Ne.symm (hwd w' hw')) (Ne.symm (hinode w' hw'))
    · exact iff_of_false (hwd w hw) (hinode w hw)
    · exact h.oneInode w hw w' hw'
  · rw [State.mapped, if_pos rfl]
    simp only [mem_emplace, List.mem_cons]
    rintro e (rfl | he) id inode' hpath' (heq | hkernel)
    · obtain ⟨-, rfl⟩ := Prod.mk.inj heq
      exact h.ownPath _ _ _ hpath hpath'
    · exact absurd rfl (hwd _ hkernel)
    · exact absurd (Prod.mk.inj heq).1 (hnokey e he)
    · exact h.path e he id inode' hpath' hkernel
  · rw [State.mapped, if_pos rfl]
    simp only [List.mem_cons]
    refine ⟨?_, h.numbered.2⟩
    rintro w (rfl | hw)
    · exact h.numbered.2 _ _ hpath
    · exact h.numbered.1 w hw
  · exact h.ownPath

omit [DecidableEq ω] [DecidableEq φ] in
theorem invariant_addFlow (h : Invariant s) {writer : ω} {id : φ} {granted opened : Bool}
    {fresh : Nat} (hin : InStep s (.addFlow writer id granted fresh opened))
    (hadded : Added s writer id granted opened t) : Invariant t := by
  cases opened with
  | false =>
    cases hadded with
    | again wd hmem => exact h.throw true
    | refused hnew hnot => exact h.throw true
    | shared hnew hgranted inode wd hpath hwd => exact h.throw true
    | watched hnew hgranted inode wd hpath hinode hwd =>
      obtain ⟨w, hw, heq⟩ := hin hnew hgranted inode hpath
      exact absurd heq (hinode w hw)
  | true =>
    cases hadded with
    | again wd hmem => exact h.register ⟨_, hmem, rfl⟩ fun e he => h.oneId e he _ hmem
    | refused hnew hnot => exact h.throw true
    | shared hnew hgranted inode wd hpath hwd =>
      obtain ⟨known, hknown, hknownwd⟩ := (h.keys wd).mp ⟨_, hwd, rfl⟩
      refine h.register ⟨known, hknown, hknownwd⟩ fun e he => ⟨fun hewd => ?_, fun heid => ?_⟩
      · exact h.path e he id inode hpath (hewd ▸ hwd)
      · have hsame := hin hnew hgranted inode hpath e he heid
        exact (h.oneInode _ hsame _ hwd).mpr rfl
    | watched hnew hgranted inode wd hpath hinode hwd =>
      apply h.registerFirst hpath hinode hwd
      intro e he heid
      exact hinode _ (hin hnew hgranted inode hpath e he heid) rfl

omit [DecidableEq ω] [DecidableEq φ] in
theorem failedUnchanged_addFlow {writer : ω} {id : φ} {granted opened : Bool} {fresh : Nat}
    (hin : InStep s (.addFlow writer id granted fresh opened))
    (hadded : Added s writer id granted opened t) (hthrew : t.threw = true) :
    t.watches = s.watches ∧ t.kernel = s.kernel ∧ t.registrations = s.registrations := by
  cases opened with
  | false =>
    cases hadded with
    | again wd hmem => exact ⟨rfl, rfl, rfl⟩
    | refused hnew hnot => exact ⟨rfl, rfl, rfl⟩
    | shared hnew hgranted inode wd hpath hwd => exact ⟨rfl, rfl, rfl⟩
    | watched hnew hgranted inode wd hpath hinode hwd =>
      obtain ⟨w, hw, heq⟩ := hin hnew hgranted inode hpath
      exact absurd heq (hinode w hw)
  | true =>
    cases hadded with
    | refused hnew hnot => exact ⟨rfl, rfl, rfl⟩
    | _ => cases hthrew

omit [DecidableEq ω] in
/-- A registration under a second descriptor of its id is not counted. -/
theorem Invariant.not_bookkeeping_second (h : Invariant s) {writer : ω} {id : φ}
    {e : Nat × Record ω φ} (he : e ∈ s.watches) (heid : e.2.id = id) {wd : Nat}
    {kernel : List (Nat × Nat)} (hne : e.1 ≠ wd)
    (hsame : ∀ x ∈ s.watches, x.1 = wd → x.2.id = id) :
    ¬ Bookkeeping ({ s with kernel }.mapped wd ⟨id, writer⟩ true) := by
  intro hbook
  have hids : ∀ x ∈ emplace wd ⟨id, writer⟩ s.watches, ∀ y ∈ emplace wd ⟨id, writer⟩ s.watches,
      x.1 = y.1 → x.2.id = y.2.id := by
    simp only [mem_emplace]
    rintro x (rfl | hx) y (rfl | hy) hxy
    · rfl
    · exact (hsame y hy hxy.symm).symm
    · exact hsame x hx hxy
    · exact (h.oneId x hx y hy).mp hxy
  have hlt := @count_lt_countP ω φ _ (emplace wd ⟨id, writer⟩ s.watches) id hids e
    (wd, ⟨id, writer⟩) (mem_emplace.mpr (.inr he)) (mem_emplace.mpr (.inl rfl)) heid rfl hne
  have hperm : ((emplace wd ⟨id, writer⟩ s.watches).map Prod.snd).Perm
      (⟨id, writer⟩ :: s.registrations) :=
    ((emplace_perm wd ⟨id, writer⟩ s.watches).map Prod.snd).trans (h.perm.cons _)
  have heq := hbook.count_eq id
  rw [State.mapped, if_pos rfl] at heq
  change count (emplace wd ⟨id, writer⟩ s.watches) id = _ at heq
  rw [heq, ← hperm.countP_eq, List.countP_map] at hlt
  exact Nat.lt_irrefl _ hlt

omit [DecidableEq ω] in
/-- A new watch without a registration, or a second descriptor for an id. -/
theorem not_bookkeeping_addFlow (h : Invariant s) {writer : ω} {id : φ} {granted opened : Bool}
    {fresh : Nat} (hin : ¬ InStep s (.addFlow writer id granted fresh opened))
    (hadded : Added s writer id granted opened t) : ¬ Bookkeeping t := by
  intro hbook
  simp only [InStep, not_forall] at hin
  obtain ⟨hnew, hgranted, inode, hpath, hin⟩ := hin
  cases opened with
  | false =>
    replace hin : ∀ w ∈ s.kernel, w.2 ≠ inode := fun w hw heq => hin ⟨w, hw, heq⟩
    cases hadded with
    | again wd hmem => exact hnew _ hmem rfl
    | refused hnew hnot => rcases hnot with hnot | hnot <;> simp_all
    | shared hnew' hgranted' inode' wd hpath' hwd =>
      obtain rfl := Option.some.inj (hpath.symm.trans hpath')
      exact hin _ hwd rfl
    | watched hnew' hgranted' inode' wd hpath' hinode hwd =>
      obtain ⟨e, he, hewd⟩ := (hbook.keys wd).mp ⟨_, List.mem_cons_self, rfl⟩
      exact h.key_ne hwd e he hewd
  | true =>
    replace hin : ∃ e ∈ s.watches, e.2.id = id ∧ (e.1, inode) ∉ s.kernel := by
      simpa only [if_true, not_forall, exists_prop] using hin
    obtain ⟨e, he, heid, hother⟩ := hin
    cases hadded with
    | again wd hmem => exact hnew _ hmem rfl
    | refused hnew hnot => rcases hnot with hnot | hnot <;> simp_all
    | shared hnew' hgranted' inode' wd hpath' hwd =>
      obtain rfl := Option.some.inj (hpath.symm.trans hpath')
      refine h.not_bookkeeping_second he heid (fun hewd => hother (hewd ▸ hwd))
        (fun x hx hxwd => ?_) hbook
      exact h.path x hx id inode hpath (hxwd ▸ hwd)
    | watched hnew' hgranted' inode' wd hpath' hinode hwd =>
      have hnokey := h.key_ne hwd
      exact h.not_bookkeeping_second he heid (hnokey e he)
        (fun x hx hxwd => absurd hxwd (hnokey x hx)) hbook

/-! ### `removeFlow` -/

theorem perm_of_find {watches : List (Nat × Record ω φ)} {record : Record ω φ}
    {it : Nat × Record ω φ} (h : (watches.find? fun e => e.2 = record) = some it) :
    watches.Perm (it :: watches.eraseP fun e => e.2 = record) := by
  induction watches with
  | nil => cases h
  | cons e watches ih =>
    by_cases he : e.2 = record
    · rw [List.find?_cons_of_pos (by simpa using he)] at h
      obtain rfl := Option.some.inj h
      rw [List.eraseP_cons_of_pos (by simpa using he)]
    · rw [List.find?_cons_of_neg (by simpa using he)] at h
      rw [List.eraseP_cons_of_neg (by simpa using he)]
      exact ((ih h).cons e).trans (.swap it e _)

theorem invariant_removeFlow (h : Invariant s) (writer : ω) (id : φ) :
    Invariant (removeFlow s writer id) := by
  unfold removeFlow
  cases hfind : s.watches.find? fun e => e.2 = ⟨id, writer⟩ with
  | none => exact h.throw false
  | some it =>
    have hperm := perm_of_find hfind
    have hrecord : it.2 = ⟨id, writer⟩ := by simpa using List.find?_some hfind
    set watches := s.watches.eraseP fun e => e.2 = ⟨id, writer⟩ with hwatches
    have hsub : ∀ e ∈ watches, e ∈ s.watches := fun e he => List.mem_of_mem_eraseP he
    -- what is left of the kernel's table
    have hkernel : ∀ w, w ∈ (if ∃ e ∈ watches, e.1 = it.1 then s.kernel
        else inotifyRmWatch s.kernel it.1) ↔
          w ∈ s.kernel ∧ (w.1 = it.1 → ∃ e ∈ watches, e.1 = it.1) := by
      intro w
      split
      · rename_i hmore
        exact ⟨fun hw => ⟨hw, fun _ => hmore⟩, fun hw => hw.1⟩
      · rename_i hlast
        simp only [inotifyRmWatch, List.mem_filter, decide_eq_true_eq]
        exact and_congr_right fun _ => ⟨fun hne heq => absurd heq hne, fun hmore heq =>
          hlast (hmore heq)⟩
    constructor
    · refine List.perm_cons (⟨id, writer⟩ : Record ω φ) |>.mp ?_
      have hmem : (⟨id, writer⟩ : Record ω φ) ∈ s.registrations := by
        rw [← h.perm.mem_iff, ← hrecord]
        exact List.mem_map_of_mem (List.mem_of_find?_eq_some hfind)
      refine List.Perm.trans ?_ (h.perm.trans (List.perm_cons_erase hmem))
      rw [← hrecord]
      exact (hperm.map Prod.snd).symm
    · intro wd
      simp only [hkernel]
      constructor
      · rintro ⟨w, ⟨hw, hmore⟩, hwwd⟩
        obtain ⟨e, he, hewd⟩ := (h.keys wd).mp ⟨w, hw, hwwd⟩
        rcases List.mem_cons.mp (hperm.mem_iff.mp he) with rfl | he
        · obtain ⟨e', he', hsame⟩ := hmore (hwwd.trans hewd.symm)
          exact ⟨e', he', hsame.trans hewd⟩
        · exact ⟨e, he, hewd⟩
      · rintro ⟨e, he, hewd⟩
        obtain ⟨w, hw, hwwd⟩ := (h.keys wd).mpr ⟨e, hsub e he, hewd⟩
        exact ⟨w, ⟨hw, fun hsame => ⟨e, he, hewd.trans (hwwd.symm.trans hsame)⟩⟩, hwwd⟩
    · intro e he e' he'
      exact h.oneId e (hsub e he) e' (hsub e' he')
    · intro w hw w' hw'
      exact h.oneInode w ((hkernel w).mp hw).1 w' ((hkernel w').mp hw').1
    · exact fun e he id inode hpath hmem =>
        h.path e (hsub e he) id inode hpath ((hkernel _).mp hmem).1
    · exact ⟨fun w hw => h.numbered.1 w ((hkernel w).mp hw).1, h.numbered.2⟩
    · exact h.ownPath

theorem threw_removeFlow (writer : ω) (id : φ) : (removeFlow s writer id).threw = false := by
  unfold removeFlow
  split <;> rfl

/-! ### Files -/

theorem update_eq_some {paths : φ → Option Nat} {id id' : φ} {new inode : Nat}
    (h : Function.update paths id (some new) id' = some inode) :
    (id' = id ∧ inode = new) ∨ (id' ≠ id ∧ paths id' = some inode) := by
  by_cases hid : id' = id
  · subst hid
    rw [Function.update_self] at h
    exact .inl ⟨rfl, (Option.some.inj h).symm⟩
  · rw [Function.update_of_ne hid] at h
    exact .inr ⟨hid, h⟩

omit [DecidableEq ω] in
theorem invariant_create (h : Invariant s) (id : φ) :
    Invariant { s with
      paths := Function.update s.paths id (some s.nextInode), nextInode := s.nextInode + 1
      threw := false } where
  perm := h.perm
  keys := h.keys
  oneId := h.oneId
  oneInode := h.oneInode
  path e he id' inode hpath hmem := by
    rcases update_eq_some hpath with ⟨-, rfl⟩ | ⟨-, hold⟩
    · exact absurd (h.numbered.1 _ hmem) (Nat.lt_irrefl _)
    · exact h.path e he id' inode hold hmem
  numbered := by
    refine ⟨fun w hw => Nat.lt_succ_of_lt (h.numbered.1 w hw), fun id' inode hpath => ?_⟩
    rcases update_eq_some hpath with ⟨-, rfl⟩ | ⟨-, hold⟩
    · exact Nat.lt_succ_self _
    · exact Nat.lt_succ_of_lt (h.numbered.2 id' inode hold)
  ownPath id₁ id₂ inode h₁ h₂ := by
    rcases update_eq_some h₁ with ⟨rfl, hnew⟩ | ⟨-, hold₁⟩
    · rcases update_eq_some h₂ with ⟨rfl, -⟩ | ⟨-, hold₂⟩
      · rfl
      · exact absurd (h.numbered.2 _ _ hold₂) (by omega)
    · rcases update_eq_some h₂ with ⟨rfl, hnew⟩ | ⟨-, hold₂⟩
      · exact absurd (h.numbered.2 _ _ hold₁) (by omega)
      · exact h.ownPath id₁ id₂ inode hold₁ hold₂

omit [DecidableEq ω] in
theorem invariant_unlink (h : Invariant s) (id : φ) (unlinked : List Nat) :
    Invariant { s with paths := Function.update s.paths id none, unlinked, threw := false } := by
  have hold : ∀ id' inode, Function.update s.paths id none id' = some inode →
      s.paths id' = some inode := by
    intro id' inode hpath
    by_cases hid : id' = id
    · subst hid
      rw [Function.update_self] at hpath
      cases hpath
    · rwa [Function.update_of_ne hid] at hpath
  exact {
    perm := h.perm, keys := h.keys, oneId := h.oneId, oneInode := h.oneInode
    path := fun e he id' inode hpath => h.path e he id' inode (hold id' inode hpath)
    numbered := ⟨h.numbered.1, fun id' inode hpath => h.numbered.2 id' inode (hold id' inode hpath)⟩
    ownPath := fun id₁ id₂ inode h₁ h₂ =>
      h.ownPath id₁ id₂ inode (hold id₁ inode h₁) (hold id₂ inode h₂) }

/-! ### Runs -/

theorem invariant_step {a : Action ω φ} (h : Invariant s) (hin : InStep s a)
    (hstep : step s a = some t) : Invariant t := by
  cases a with
  | addFlow writer id granted fresh opened => exact invariant_addFlow h hin (added_of_addFlow hstep)
  | removeFlow writer id =>
    obtain rfl := Option.some.inj hstep
    exact invariant_removeFlow h writer id
  | create id =>
    simp only [step] at hstep
    split at hstep
    · cases hstep
    · obtain rfl := Option.some.inj hstep
      exact invariant_create h id
  | unlink id =>
    simp only [step] at hstep
    split at hstep
    · cases hstep
    · obtain rfl := Option.some.inj hstep
      exact invariant_unlink h id _
  | free inode =>
    obtain ⟨-, heq⟩ := Option.ite_none_right_eq_some.mp hstep
    obtain rfl := Option.some.inj heq
    have hkernel : s.kernel.filter (fun w => w.2 ≠ inode) = s.kernel :=
      List.filter_eq_self.mpr fun w hw => by simpa using hin w hw
    rw [hkernel]
    exact h.throw false

theorem failedUnchanged_step {a : Action ω φ} (hin : InStep s a) : FailedUnchanged s a := by
  intro t hstep hthrew
  cases a with
  | addFlow writer id granted fresh opened =>
    exact failedUnchanged_addFlow hin (added_of_addFlow hstep) hthrew
  | removeFlow writer id =>
    obtain rfl := Option.some.inj hstep
    rw [threw_removeFlow] at hthrew
    cases hthrew
  | create id =>
    simp only [step] at hstep
    split at hstep
    · cases hstep
    · obtain rfl := Option.some.inj hstep
      cases hthrew
  | unlink id =>
    simp only [step] at hstep
    split at hstep
    · cases hstep
    · obtain rfl := Option.some.inj hstep
      cases hthrew
  | free inode =>
    obtain ⟨-, heq⟩ := Option.ite_none_right_eq_some.mp hstep
    obtain rfl := Option.some.inj heq
    cases hthrew

theorem not_bookkeeping_step {a : Action ω φ} (h : Invariant s) (hin : ¬ InStep s a)
    (hstep : step s a = some t) : ¬ Bookkeeping t := by
  cases a with
  | addFlow writer id granted fresh opened =>
    exact not_bookkeeping_addFlow h hin (added_of_addFlow hstep)
  | free inode =>
    obtain ⟨-, heq⟩ := Option.ite_none_right_eq_some.mp hstep
    obtain rfl := Option.some.inj heq
    simp only [InStep, not_forall, not_not] at hin
    obtain ⟨w, hw, hwinode⟩ := hin
    intro hbook
    -- the key is left without its watch
    obtain ⟨w', hw', hwwd⟩ := (hbook.keys w.1).mpr ((h.keys w.1).mp ⟨w, hw, rfl⟩)
    rw [List.mem_filter] at hw'
    have hsame := (h.oneInode w' hw'.1 w hw).mp hwwd
    exact absurd (hsame.trans hwinode) (by simpa using hw'.2)
  | _ => exact absurd trivial hin

end Facts

/-- The flow's data cannot be mapped after its access file was watched. -/
def failedAdd : List (Action Nat Unit) := [.create (), .addFlow 1 () true 1 false]

/-- The flow is created again while the access file of the old one is still open. -/
def recreatedFlow : List (Action Nat Unit) :=
  [.create (), .addFlow 1 () true 1 true, .unlink (), .create (), .addFlow 2 () true 2 true]

end MediaExchange.DomainWatcher
