/-
  MediaExchange/SlotGeometry.lean
  ===============================
  **The geometry in the slot headers.**

  `createOrOpenDiscreteFlow` writes version, header size, payload size and number of
  slices into the header of every slot.  Readers rely on them, and so does whoever
  opens the flow later.  `openGrain` changes the index only; `commit` compares the
  index of the record it is given and then copies the record into the slot, with
  whatever else is in it.

  Main result: `geometry_kept_iff`, which says in which runs every slot keeps the
  geometry that it was created with.
-/
import MediaExchange.DiscreteWriterRuns

namespace MediaExchange.SlotGeometry

open MediaExchange.LabelledRun
open MediaExchange.DiscreteWriterRuns (WriterSystem WriterCall step step_openGrain step_commit
  step_cancel)

variable {ι : Type*} [DecidableEq ι]

/-- A header that says what a slot of the flow was created with, and no more slices
    than there are. -/
structure HasGeometry (geometry : DiscreteGeometry) (info : GrainInfo) : Prop where
  version : info.version = 1
  size : info.size = 4096
  grainSize : info.grainSize = geometry.grainSize
  totalSlices : info.totalSlices = geometry.totalSlices
  validSlices : info.validSlices ≤ info.totalSlices

/-- All slots of the ring have their geometry. -/
def KeepsGeometry (geometry : DiscreteGeometry) (s : WriterSystem ι) : Prop :=
  ∀ slot < s.flow.grainCount.toNat, HasGeometry geometry (s.flow.grains slot)

/-- A commit of a record without the geometry fails and leaves the shared flow as it
    was. -/
def OthersRejected (geometry : DiscreteGeometry) (s : WriterSystem ι) : ι × WriterCall → Prop
  | (w, .commit info now) =>
      ¬ HasGeometry geometry info →
        ((s.writers w).commit s.flow info now).1 ≠ .statusOk ∧
          ((s.writers w).commit s.flow info now).2.2 = s.flow
  | _ => True

/-- A record of the grain that is open, which is all that a commit looks at, has the
    geometry. -/
def CommitsGeometry (geometry : DiscreteGeometry) (s : WriterSystem ι) : ι × WriterCall → Prop
  | (w, .commit info _) =>
      info.index = (s.writers w).currentIndex → HasGeometry geometry info
  | _ => True

variable {geometry : DiscreteGeometry}

theorem hasGeometry_withIndex {info : GrainInfo} (h : HasGeometry geometry info)
    (index : UInt64) : HasGeometry geometry { info with index := index } :=
  ⟨h.version, h.size, h.grainSize, h.totalSlices, h.validSlices⟩

omit [DecidableEq ι] in
theorem keepsGeometry_init (now : UInt64) :
    KeepsGeometry geometry (.init (.create geometry now) : WriterSystem ι) := by
  intro slot _
  refine ⟨rfl, rfl, rfl, rfl, ?_⟩
  exact UInt16.le_iff_toNat_le.mpr (Nat.zero_le _)

/-! ### What the stores do to the slots -/

section Stores

variable (flow : DiscreteFlowData)

theorem offset_lt (index : UInt64) :
    flow.offset index < flow.grainCount.toNat := by
  rw [DiscreteFlowData.offset_eq]
  exact Nat.mod_lt _ flow.grainCount_pos

/-- Opening a grain relabels one slot. -/
theorem grains_storeGrainIndex (index : UInt64) (slot : Nat) :
    (flow.storeGrainIndex index).grains slot = flow.grains slot ∨
      (flow.storeGrainIndex index).grains slot = { flow.grains slot with index := index } := by
  by_cases hslot : slot = flow.offset index
  · right
    rw [hslot]
    exact Function.update_self ..
  · left
    exact Function.update_of_ne hslot ..

theorem grains_afterCommit_self (index now : UInt64) (info : GrainInfo) :
    (flow.afterCommit index info now).grains (flow.offset index) = info :=
  Function.update_self ..

theorem grains_afterCommit_of_ne {index now : UInt64} {info : GrainInfo} {slot : Nat}
    (h : slot ≠ flow.offset index) :
    (flow.afterCommit index info now).grains slot = flow.grains slot :=
  Function.update_of_ne h ..

end Stores

/-! ### What the calls do to the geometry -/

theorem keepsGeometry_step {s t : WriterSystem ι} {call : ι × WriterCall}
    (hs : KeepsGeometry geometry s) (hcall : CommitsGeometry geometry s call)
    (h : step s call = some t) : KeepsGeometry geometry t := by
  intro slot hslot
  rw [DiscreteWriterRuns.step_grainCount h] at hslot
  have hkept := hs slot hslot
  rcases call with ⟨w, index | ⟨info, now⟩ | _⟩
  · obtain ⟨hflow, -, -⟩ := step_openGrain h
    rw [hflow]
    rcases grains_storeGrainIndex s.flow index slot with hsame | hlabelled
    · rw [hsame]
      exact hkept
    · rw [hlabelled]
      exact hasGeometry_withIndex hkept index
  · rcases step_commit h with ⟨-, rfl⟩ | ⟨hindex, hflow, -, -⟩
    · exact hkept
    · rw [hflow]
      by_cases hself : slot = s.flow.offset info.index
      · rw [hself, grains_afterCommit_self]
        exact hcall hindex
      · rw [grains_afterCommit_of_ne s.flow hself]
        exact hkept
  · rw [(step_cancel h).1]
    exact hkept

/-- The record of an accepted commit is in its slot, with whatever it says. -/
theorem not_keepsGeometry_step {s t : WriterSystem ι} {call : ι × WriterCall}
    (hcall : ¬ CommitsGeometry geometry s call) (h : step s call = some t) :
    ¬ KeepsGeometry geometry t := by
  intro ht
  rcases call with ⟨w, index | ⟨info, now⟩ | _⟩
  · exact hcall trivial
  · simp only [CommitsGeometry, Classical.not_imp] at hcall
    obtain ⟨hindex, hother⟩ := hcall
    rcases step_commit h with ⟨hne, -⟩ | ⟨-, hflow, -, -⟩
    · exact hne hindex
    · have hlt : s.flow.offset info.index < t.flow.grainCount.toNat := by
        rw [DiscreteWriterRuns.step_grainCount h]
        exact offset_lt s.flow info.index
      have hslot := ht _ hlt
      rw [hflow, grains_afterCommit_self] at hslot
      exact hother hslot
  · exact hcall trivial

omit [DecidableEq ι] in
/-- A commit is turned down for its index and for nothing else. -/
theorem othersRejected_iff (s : WriterSystem ι) (call : ι × WriterCall) :
    OthersRejected geometry s call ↔ CommitsGeometry geometry s call := by
  rcases call with ⟨w, index | ⟨info, now⟩ | _⟩
  · exact Iff.rfl
  · simp only [OthersRejected, CommitsGeometry]
    constructor
    · intro hrejected hindex
      by_contra hother
      obtain ⟨hstatus, -⟩ := hrejected hother
      rw [PosixDiscreteFlowWriter.commit_accepted hindex] at hstatus
      exact hstatus rfl
    · intro haccepted hother
      have hindex : info.index ≠ (s.writers w).currentIndex := fun heq => hother (haccepted heq)
      rw [PosixDiscreteFlowWriter.commit_rejected hindex]
      exact ⟨by simp, rfl⟩
  · exact Iff.rfl

/-! ### The result -/

omit [DecidableEq ι] in
/-- What a reader is handed while the geometry is kept: a payload of the flow's size
    and no more slices than there are. -/
theorem hasGeometry_of_read {s : WriterSystem ι} (hs : KeepsGeometry geometry s)
    {flowValid : Bool} {index : UInt64} {minValidSlices : UInt16} {info : GrainInfo}
    (hread : s.flow.getGrain flowValid index minValidSlices = .ok info) :
    HasGeometry geometry info := by
  obtain ⟨-, -, rfl⟩ := DiscreteFlowData.getGrainImpl_eq_ok.mp
    (DiscreteFlowData.getGrain_eq_ok.mp hread)
  exact hs _ (offset_lt s.flow index)

/-- **When the geometry is kept.**  In a run of any number of writers on a new flow
    every slot keeps the geometry it was created with, and records without it are
    turned down, exactly when every record that is committed for the grain that is
    open has the geometry. -/
theorem geometry_kept_iff (geometry : DiscreteGeometry) (now : UInt64)
    (calls : List (ι × WriterCall)) :
    (Throughout step (KeepsGeometry geometry) (.init (.create geometry now)) calls ∧
        Along step (OthersRejected geometry) (.init (.create geometry now)) calls) ↔
      Along step (CommitsGeometry geometry) (.init (.create geometry now)) calls := by
  have hslots : Throughout step (KeepsGeometry geometry) (.init (.create geometry now)) calls ↔
      Along step (CommitsGeometry geometry) (.init (.create geometry now)) calls := by
    apply throughout_iff_along (fun _ hs => hs) _ _ (keepsGeometry_init now)
    · intro s call t hs hcall h
      exact keepsGeometry_step hs hcall h
    · intro s call t _ hcall h
      exact not_keepsGeometry_step hcall h
  have hrejected : OthersRejected geometry = (CommitsGeometry geometry :
      WriterSystem ι → ι × WriterCall → Prop) := by
    funext s call
    exact propext (othersRejected_iff s call)
  rw [hslots, hrejected, and_self]

/-- A ring of two grains of 16 bytes and one slice.  The writer opens grain 0 and
    commits a record of 4096 bytes and nine slices, twelve of them valid. -/
def foreignRecordRun : List (Unit × WriterCall) :=
  [((), .openGrain 0),
    ((), .commit { version := 2, size := 64, index := 0, flags := 0, grainSize := 4096,
                   totalSlices := 9, validSlices := 12 } 1)]

/-- The record is taken as it is, and the reader hands it out. -/
theorem foreign_record_taken :
    ∃ s, run step (.init (.create ⟨2, 16, 1, by decide⟩ 0)) foreignRecordRun = some s ∧
      (s.flow.grains 0).version = 2 ∧ (s.flow.grains 0).size = 64 ∧
      (s.flow.grains 0).grainSize = 4096 ∧ (s.flow.grains 0).totalSlices = 9 ∧
      (s.flow.grains 0).validSlices = 12 ∧
      s.flow.getGrain true 0 MXL_GRAIN_VALID_SLICES_ALL = .ok (s.flow.grains 0) ∧
      ¬ KeepsGeometry ⟨2, 16, 1, by decide⟩ s := by
  refine ⟨_, rfl, rfl, rfl, rfl, rfl, rfl, rfl, ?_⟩
  intro hkept
  have hversion := (hkept 0 (by decide)).version
  exact absurd hversion (by decide)

end MediaExchange.SlotGeometry
