/-
  MediaExchange/Library/ByteMemory.lean
  =====================================
  **Memory as a function of the address.**

  Runs of consecutive cells are loaded and stored as lists.  A run loaded from
  one memory and stored at the same place in another copies it
  (`store_load`), two runs stored one behind the other are one run
  (`store_append`), and a list of pieces that was gathered from one memory and is
  scattered over the same pieces of another copies exactly these pieces
  (`scatter_gather`).  What is scattered over other pieces goes by their `cells`:
  the `j`-th cell gets the `j`-th value (`scatter_cell`).

  `MemoryBlock` is a block of bytes at a 64-bit address; an access that leaves
  the block has no result.  Numbers are kept in little-endian order.
-/
import Mathlib.Data.List.Basic
import Mathlib.Data.List.Nodup
import Mathlib.Data.List.Range
import Mathlib.Tactic.Ring

namespace MediaExchange.ByteMemory

variable {β : Type*}

/-! ### Runs of cells -/

/-- The `n` cells from `start` on. -/
def load (memory : Nat → β) (start n : Nat) : List β :=
  (List.range n).map fun i => memory (start + i)

/-- The memory once `values` are stored from `start` on. -/
def store (memory : Nat → β) (start : Nat) (values : List β) (address : Nat) : β :=
  if start ≤ address then (values[address - start]?).getD (memory address) else memory address

@[simp] theorem length_load (memory : Nat → β) (start n : Nat) :
    (load memory start n).length = n := by
  simp [load]

theorem load_add (memory : Nat → β) (start n k : Nat) :
    load memory start (n + k) = load memory start n ++ load memory (start + n) k := by
  simp [load, List.range_add, Function.comp_def, Nat.add_assoc]

theorem getElem?_load {memory : Nat → β} {start n i : Nat} (h : i < n) :
    (load memory start n)[i]? = some (memory (start + i)) := by
  simp [load, h]

theorem load_congr {memory memory' : Nat → β} {start n : Nat}
    (h : ∀ a, start ≤ a → a < start + n → memory a = memory' a) :
    load memory start n = load memory' start n := by
  apply List.map_congr_left
  intro i hi
  exact h _ (Nat.le_add_right _ _) (Nat.add_lt_add_left (List.mem_range.mp hi) _)

theorem store_of_lt {memory : Nat → β} {start : Nat} {values : List β} {a : Nat} (h : a < start) :
    store memory start values a = memory a := if_neg (Nat.not_le.mpr h)

theorem store_of_ge {memory : Nat → β} {start : Nat} {values : List β} {a : Nat}
    (h : start + values.length ≤ a) : store memory start values a = memory a := by
  rw [store, if_pos (by omega), List.getElem?_eq_none (by omega)]
  rfl

/-- What is loaded from one memory and stored at the same place of another. -/
theorem store_load (memory source : Nat → β) (start n a : Nat) :
    store memory start (load source start n) a =
      if start ≤ a ∧ a < start + n then source a else memory a := by
  by_cases hstart : start ≤ a
  · by_cases hend : a < start + n
    · rw [store, if_pos hstart, getElem?_load (by omega), if_pos ⟨hstart, hend⟩,
        Nat.add_sub_cancel' hstart]
      rfl
    · rw [store_of_ge (by rw [length_load]; omega), if_neg (by omega)]
  · rw [store_of_lt (by omega), if_neg (by omega)]

theorem store_append (memory : Nat → β) (start : Nat) (xs ys : List β) :
    store (store memory start xs) (start + xs.length) ys = store memory start (xs ++ ys) := by
  funext a
  by_cases hstart : start ≤ a
  · by_cases hmid : a < start + xs.length
    · rw [store_of_lt hmid, store, store, if_pos hstart, if_pos hstart,
        List.getElem?_append_left (by omega)]
    · rw [store, if_pos (by omega), store, if_pos hstart, store, if_pos hstart,
        List.getElem?_append_right (by omega), List.getElem?_eq_none (l := xs) (by omega),
        Nat.sub_sub]
      rfl
  · rw [store_of_lt (by omega), store_of_lt (by omega), store_of_lt (by omega)]

theorem load_store (memory : Nat → β) (start : Nat) (values : List β) :
    load (store memory start values) start values.length = values := by
  apply List.ext_getElem
  · rw [length_load]
  · intro i hi hi'
    simp [load, store, hi']

/-- A run in front of what is stored is not touched. -/
theorem load_store_before {memory : Nat → β} {start n place : Nat} {values : List β}
    (h : start + n ≤ place) : load (store memory place values) start n = load memory start n :=
  load_congr fun _ _ ha => store_of_lt (by omega)

/-! ### Pieces -/

/-- `length` cells from `start` on. -/
structure Piece where
  start : Nat
  length : Nat
deriving DecidableEq, Repr

namespace Piece

def Holds (piece : Piece) (a : Nat) : Prop := piece.start ≤ a ∧ a < piece.start + piece.length

instance (piece : Piece) (a : Nat) : Decidable (piece.Holds a) :=
  inferInstanceAs (Decidable (_ ∧ _))

end Piece

def totalLength (pieces : List Piece) : Nat := (pieces.map Piece.length).sum

/-- The cells of the pieces, one piece after the other. -/
def gather (memory : Nat → β) (pieces : List Piece) : List β :=
  pieces.flatMap fun piece => load memory piece.start piece.length

/-- Fill the pieces one after the other with the cells from `place` on. -/
def scatter (source : Nat → β) (place : Nat) (memory : Nat → β) : List Piece → Nat → β
  | [] => memory
  | piece :: pieces =>
      scatter source (place + piece.length)
        (store memory piece.start (load source place piece.length)) pieces

@[simp] theorem totalLength_nil : totalLength [] = 0 := rfl

@[simp] theorem totalLength_cons (piece : Piece) (pieces : List Piece) :
    totalLength (piece :: pieces) = piece.length + totalLength pieces := by
  simp [totalLength]

@[simp] theorem length_gather (memory : Nat → β) (pieces : List Piece) :
    (gather memory pieces).length = totalLength pieces := by
  simp [gather, totalLength, List.length_flatMap]

/-- **Scattering what was gathered.**  If the cells from `place` on are those that
    were gathered from the pieces of `original`, scattering them copies these
    pieces and nothing else. -/
theorem scatter_gather {source original : Nat → β} {place : Nat} {pieces : List Piece}
    (h : load source place (totalLength pieces) = gather original pieces) (memory : Nat → β)
    (a : Nat) : scatter source place memory pieces a =
      if ∃ piece ∈ pieces, piece.Holds a then original a else memory a := by
  induction pieces generalizing place memory with
  | nil => simp [scatter]
  | cons piece pieces ih =>
    rw [totalLength_cons, load_add, gather, List.flatMap_cons] at h
    obtain ⟨hpiece, hrest⟩ := List.append_inj h (by simp)
    rw [scatter, ih hrest, hpiece, store_load]
    by_cases hlater : ∃ later ∈ pieces, later.Holds a
    · obtain ⟨later, hmem, hholds⟩ := hlater
      rw [if_pos ⟨later, hmem, hholds⟩, if_pos ⟨later, List.mem_cons_of_mem _ hmem, hholds⟩]
    · rw [if_neg hlater]
      have hiff : (∃ p ∈ piece :: pieces, p.Holds a) ↔ piece.Holds a := by
        rw [List.exists_mem_cons_iff, or_iff_left hlater]
      exact (if_congr hiff rfl rfl).symm

/-- `after` is `before` with the cells in `P` copied from `original`. -/
structure Copied (P : Nat → Prop) (original before after : Nat → β) : Prop where
  inside : ∀ a, P a → after a = original a
  outside : ∀ a, ¬ P a → after a = before a

theorem Copied.congr {P Q : Nat → Prop} (hPQ : ∀ a, P a ↔ Q a) {original before after : Nat → β}
    (h : Copied P original before after) : Copied Q original before after :=
  ⟨fun a ha => h.inside a ((hPQ a).mpr ha), fun a ha => h.outside a (mt (hPQ a).mp ha)⟩

theorem copied_scatter {source original memory : Nat → β} {place : Nat} {pieces : List Piece}
    (h : load source place (totalLength pieces) = gather original pieces) :
    Copied (fun a => ∃ piece ∈ pieces, piece.Holds a) original memory
      (scatter source place memory pieces) :=
  ⟨fun a ha => by rw [scatter_gather h, if_pos ha], fun a ha => by rw [scatter_gather h, if_neg ha]⟩

/-! ### The cells of pieces -/

/-- The addresses of the cells of a piece. -/
def Piece.cells (piece : Piece) : List Nat := (List.range piece.length).map (piece.start + ·)

@[simp] theorem Piece.length_cells (piece : Piece) : piece.cells.length = piece.length := by
  simp [Piece.cells]

theorem Piece.getElem?_cells {piece : Piece} {i : Nat} (h : i < piece.length) :
    piece.cells[i]? = some (piece.start + i) := by
  simp [Piece.cells, h]

theorem Piece.mem_cells {piece : Piece} {a : Nat} : a ∈ piece.cells ↔ piece.Holds a := by
  simp only [Piece.cells, List.mem_map, List.mem_range, Piece.Holds]
  constructor
  · rintro ⟨i, hi, rfl⟩
    exact ⟨Nat.le_add_right _ _, Nat.add_lt_add_left hi _⟩
  · rintro ⟨hle, hlt⟩
    exact ⟨a - piece.start, by omega, Nat.add_sub_cancel' hle⟩

/-- The addresses of the cells of the pieces, one piece after the other. -/
def cells (pieces : List Piece) : List Nat := pieces.flatMap Piece.cells

@[simp] theorem cells_cons (piece : Piece) (pieces : List Piece) :
    cells (piece :: pieces) = piece.cells ++ cells pieces := List.flatMap_cons

@[simp] theorem cells_append (xs ys : List Piece) : cells (xs ++ ys) = cells xs ++ cells ys :=
  List.flatMap_append

@[simp] theorem length_cells (pieces : List Piece) : (cells pieces).length = totalLength pieces := by
  simp [cells, totalLength, List.length_flatMap]

theorem mem_cells {pieces : List Piece} {a : Nat} :
    a ∈ cells pieces ↔ ∃ piece ∈ pieces, piece.Holds a := by
  simp only [cells, List.mem_flatMap, Piece.mem_cells]

/-- Pieces that do not overlap have no cell twice. -/
theorem nodup_cells {pieces : List Piece}
    (h : pieces.Pairwise fun p q => ∀ a, p.Holds a → ¬ q.Holds a) : (cells pieces).Nodup := by
  refine List.nodup_flatMap.mpr ⟨fun piece _ => ?_, h.imp fun hpq a hp hq => ?_⟩
  · exact List.nodup_range.map (add_right_injective piece.start)
  · exact hpq a (Piece.mem_cells.mp hp) (Piece.mem_cells.mp hq)

/-- Of pieces of one length, the `i`-th cell of the `c`-th. -/
theorem getElem?_cells_map_range {start : Nat → Nat} {size n c i : Nat} (hc : c < n)
    (hi : i < size) :
    (cells ((List.range n).map fun c => ⟨start c, size⟩))[c * size + i]? = some (start c + i) := by
  induction n with
  | zero => exact absurd hc (Nat.not_lt_zero c)
  | succ n ih =>
    have hlength : (cells ((List.range n).map fun c => ⟨start c, size⟩)).length = n * size := by
      simp [totalLength, Function.comp_def]
    rw [List.range_succ, List.map_append, cells_append]
    rcases Nat.lt_succ_iff_lt_or_eq.mp hc with hlt | rfl
    · have hle := Nat.mul_le_mul_right size hlt
      rw [Nat.succ_mul] at hle
      rw [List.getElem?_append_left (by omega), ih hlt]
    · rw [List.getElem?_append_right (by omega), hlength, Nat.add_sub_cancel_left]
      simp [cells, Piece.cells, hi]

theorem gather_eq_map_cells (memory : Nat → β) (pieces : List Piece) :
    gather memory pieces = (cells pieces).map memory := by
  simp only [gather, cells, Piece.cells, load, List.map_flatMap, List.map_map]
  rfl

theorem scatter_of_not_mem {source memory : Nat → β} {place a : Nat} {pieces : List Piece}
    (h : a ∉ cells pieces) : scatter source place memory pieces a = memory a := by
  induction pieces generalizing place memory with
  | nil => rfl
  | cons piece pieces ih =>
    rw [cells_cons, List.mem_append, not_or, Piece.mem_cells] at h
    obtain ⟨hpiece, hrest⟩ := h
    rw [scatter, ih hrest]
    rcases Nat.lt_or_ge a piece.start with hlt | hle
    · exact store_of_lt hlt
    · apply store_of_ge
      rw [length_load]
      exact Nat.le_of_not_lt fun hlt => hpiece ⟨hle, hlt⟩

/-- Where no cell is filled twice, the `j`-th cell is filled with the `j`-th one from
    `place` on. -/
theorem scatter_cell {source memory : Nat → β} {place j a : Nat} {pieces : List Piece}
    (hnodup : (cells pieces).Nodup) (h : (cells pieces)[j]? = some a) :
    scatter source place memory pieces a = source (place + j) := by
  induction pieces generalizing place memory j with
  | nil => cases h
  | cons piece pieces ih =>
    rw [cells_cons] at hnodup h
    obtain ⟨-, hrest, hdisjoint⟩ := List.nodup_append.mp hnodup
    rw [scatter]
    rcases Nat.lt_or_ge j piece.length with hj | hj
    · rw [List.getElem?_append_left (by rwa [Piece.length_cells])] at h
      have hmem := List.mem_of_getElem? h
      obtain rfl := Option.some.inj ((Piece.getElem?_cells hj).symm.trans h)
      rw [scatter_of_not_mem fun hlater => hdisjoint _ hmem _ hlater rfl, store,
        if_pos (Nat.le_add_right _ _), Nat.add_sub_cancel_left, getElem?_load hj]
      rfl
    · rw [List.getElem?_append_right (by rwa [Piece.length_cells]), Piece.length_cells] at h
      rw [ih hrest h, Nat.add_assoc, Nat.add_sub_cancel' hj]

/-! ### Numbers -/

def toBytes : Nat → Nat → List UInt8
  | 0, _ => []
  | n + 1, x => UInt8.ofNat x :: toBytes n (x / 256)

def ofBytes : List UInt8 → Nat
  | [] => 0
  | byte :: bytes => byte.toNat + 256 * ofBytes bytes

@[simp] theorem length_toBytes (n x : Nat) : (toBytes n x).length = n := by
  induction n generalizing x with
  | zero => rfl
  | succ n ih => simp [toBytes, ih]

theorem ofBytes_toBytes (n x : Nat) : ofBytes (toBytes n x) = x % 256 ^ n := by
  induction n generalizing x with
  | zero => simp [toBytes, ofBytes, Nat.mod_one]
  | succ n ih =>
    have hbyte : (UInt8.ofNat x).toNat = x % 256 := by simp
    rw [toBytes, ofBytes, ih, hbyte, Nat.pow_succ, Nat.mul_comm (256 ^ n), Nat.mod_mul]

/-! ### Blocks of memory -/

/-- `size` bytes at the address `base`. -/
structure MemoryBlock where
  base : UInt64
  size : Nat
  bytes : Nat → UInt8

namespace MemoryBlock

def offset (block : MemoryBlock) (address : UInt64) : Nat := (address - block.base).toNat

def read (block : MemoryBlock) (address length : UInt64) : Option (List UInt8) :=
  if block.offset address + length.toNat ≤ block.size then
    some (load block.bytes (block.offset address) length.toNat)
  else none

def write (block : MemoryBlock) (address : UInt64) (values : List UInt8) : Option MemoryBlock :=
  if block.offset address + values.length ≤ block.size then
    some { block with bytes := store block.bytes (block.offset address) values }
  else none

@[simp] theorem offset_add (block : MemoryBlock) (n : UInt64) :
    block.offset (block.base + n) = n.toNat := by
  rw [offset, UInt64.add_comm, UInt64.add_sub_cancel]

theorem offset_add_of_lt (block : MemoryBlock) {address n : UInt64}
    (h : block.offset address + n.toNat < 2 ^ 64) :
    block.offset (address + n) = block.offset address + n.toNat := by
  have hoffset : address + n - block.base = address - block.base + n := by
    grind
  unfold offset at h ⊢
  rw [hoffset, UInt64.toNat_add]
  exact Nat.mod_eq_of_lt h

theorem write_eq_some (block : MemoryBlock) (address : UInt64) (values : List UInt8)
    (h : block.offset address + values.length ≤ block.size) :
    block.write address values =
      some { block with bytes := store block.bytes (block.offset address) values } := if_pos h

theorem read_congr {block : MemoryBlock} {bytes : Nat → UInt8} {address length : UInt64}
    (h : ∀ a, block.offset address ≤ a → a < block.offset address + length.toNat →
      bytes a = block.bytes a) :
    ({ block with bytes := bytes } : MemoryBlock).read address length =
      block.read address length := by
  change (if _ then some (load bytes (block.offset address) length.toNat) else none) = _
  rw [load_congr h]
  rfl

theorem read_eq_some {block : MemoryBlock} {address length : UInt64} {values : List UInt8} :
    block.read address length = some values ↔
      block.offset address + length.toNat ≤ block.size ∧
        values = load block.bytes (block.offset address) length.toNat := by
  unfold read
  split_ifs with h <;> simp [h, eq_comm]

end MemoryBlock

end MediaExchange.ByteMemory
