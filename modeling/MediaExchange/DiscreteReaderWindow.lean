/-
  MediaExchange/DiscreteReaderWindow.lean
  =======================================
  **Which grain a discrete reader is handed.**

  The reader answers a request for grain `i` out of slot `i % grainCount` as soon
  as `i` is in the window that ends at the head; it does not compare the index
  stamped in the slot's header with the one it was asked for.  The stamp, in
  turn, follows the writer's calls: opening a grain stamps its slot at once,
  before anything of it is committed.

  The runs here are those of one writer whose indices never decrease, with the
  reader looking on between any two calls.  `reads_requested_iff` states exactly
  in which of them every grain handed out is the requested one.
-/
import MediaExchange.DiscreteWriterRuns

namespace MediaExchange.DiscreteReaderWindow

open MediaExchange.LabelledRun MediaExchange.DiscreteWriterRuns

/-! ### Runs with nondecreasing indices -/

/-- The indices stamped into the ring so far, latest first. -/
def stamped : History Unit → List UInt64
  | [] => []
  | (_, .openGrain index) :: history => index :: stamped history
  | (_, .commit info _) :: history => info.index :: stamped history
  | (_, .cancel) :: history => stamped history

/-- The next grain is not opened behind an index the writer has already used. -/
def Nondecreasing (s : WriterSystem Unit) : Unit × WriterCall → Prop
  | (_, .openGrain index) => ∀ j ∈ stamped s.history, j.toNat ≤ index.toNat
  | _ => True

instance (s : WriterSystem Unit) (call : Unit × WriterCall) : Decidable (Nondecreasing s call) :=
  match call with
  -- not the instance that goes through all of `UInt64`
  | (_, .openGrain index) =>
      List.decidableBAll (fun j : UInt64 => j.toNat ≤ index.toNat) (stamped s.history)
  | (_, .commit _ _) | (_, .cancel) => isTrue trivial

def orderedStep (s : WriterSystem Unit) (call : Unit × WriterCall) : Option (WriterSystem Unit) :=
  if Nondecreasing s call then step s call else none

theorem orderedStep_eq_some {s t : WriterSystem Unit} {call : Unit × WriterCall} :
    orderedStep s call = some t ↔ Nondecreasing s call ∧ step s call = some t := by
  unfold orderedStep
  split
  · next h => simp [h]
  · next h => simp [h]

/-! ### What the slots are labelled with -/

/-- The index the latest stamp left in the slot of `index`, `0` in a new flow. -/
def label (s : WriterSystem Unit) (index : UInt64) : UInt64 :=
  ((stamped s.history).find? fun j => s.flow.offset j = s.flow.offset index).getD 0

/-- The reader is only ever handed the grain it asked for. -/
def ReadsRequested (s : WriterSystem Unit) : Prop :=
  ∀ (flowValid : Bool) (index : UInt64) (minValidSlices : UInt16) (info : GrainInfo),
    s.flow.getGrain flowValid index minValidSlices = .ok info → info.index = index

/-- The step neither stamps the slot of another grain that is still in the window,
    nor moves the head so that the window takes in a grain that was never opened. -/
def KeepsWindow (s : WriterSystem Unit) : Unit × WriterCall → Prop
  | (_, .openGrain index) =>
      ∀ i, s.flow.inRange i → s.flow.offset i = s.flow.offset index → i = index
  | (w, .commit info _) =>
      info.index = (s.writers w).currentIndex →
        ∀ i, i.toNat ≤ info.index.toNat → info.index.toNat < i.toNat + s.flow.grainCount.toNat →
          i ≠ info.index → i = 0 ∨ i ∈ stamped s.history
  | (_, .cancel) => True

structure SlotsInv (s : WriterSystem Unit) : Prop where
  sorted : (stamped s.history).Pairwise fun later earlier => earlier.toNat ≤ later.toNat
  current : (s.writers ()).currentIndex = MXL_UNDEFINED_INDEX ∨
    (stamped s.history).head? = some (s.writers ()).currentIndex
  labelled : ∀ i, (s.flow.grainInfo i).index = label s i
  window : ∀ i, s.flow.inRange i → (s.flow.grainInfo i).index = i

/-- Handing out only requested grains is a matter of the window alone: a reader
    that asks for no slices in particular is handed whatever is in range. -/
theorem readsRequested_iff {s : WriterSystem Unit} :
    ReadsRequested s ↔ ∀ i, s.flow.inRange i → (s.flow.grainInfo i).index = i := by
  constructor
  · intro h i hrange
    have hok := DiscreteFlowData.getGrainImpl_zero_of_inRange hrange
    exact h true i 0 _ (DiscreteFlowData.getGrain_eq_ok.mpr hok)
  · intro h flowValid i minValidSlices info hread
    have hok := DiscreteFlowData.getGrain_eq_ok.mp hread
    obtain ⟨hrange, -, rfl⟩ := DiscreteFlowData.getGrainImpl_eq_ok.mp hok
    exact h i hrange

theorem slotsInv_init (geometry : DiscreteGeometry) (now : UInt64) :
    SlotsInv (.init (.create geometry now)) := by
  constructor
  · exact List.Pairwise.nil
  · exact Or.inl rfl
  · intro i
    rfl
  · intro i hrange
    have hle : i.toNat ≤ 0 := (inRange_iff.mp hrange).1
    have hzero : i = 0 := UInt64.toNat_inj.mp (Nat.le_zero.mp hle)
    rw [hzero]
    rfl

/-- The latest stamp of a slot is the largest index stamped there. -/
theorem le_of_find?_eq_some {is : List UInt64} {p : UInt64 → Bool} {i j : UInt64}
    (hsorted : is.Pairwise fun later earlier => earlier.toNat ≤ later.toNat)
    (hfind : is.find? p = some j) (hmem : i ∈ is) (hp : p i = true) : i.toNat ≤ j.toNat := by
  induction is with
  | nil => cases hmem
  | cons k is ih =>
    rw [List.pairwise_cons] at hsorted
    by_cases hk : p k = true
    · rw [List.find?_cons_of_pos hk] at hfind
      obtain rfl : k = j := Option.some.inj hfind
      rcases List.mem_cons.mp hmem with rfl | hin
      · exact Nat.le_refl _
      · exact hsorted.1 i hin
    · rw [List.find?_cons_of_neg hk] at hfind
      rcases List.mem_cons.mp hmem with rfl | hin
      · exact absurd hp hk
      · exact ih hsorted.2 hfind hin

/-! ### The stamp of a slot after a step -/

/-- An open or an accepted commit puts its index in front of the stamps, relabels
    that index's slot and leaves the labels of all other slots. -/
theorem label_cons {s t : WriterSystem Unit} {index : UInt64}
    (hcount : t.flow.grainCount = s.flow.grainCount)
    (hstamped : stamped t.history = index :: stamped s.history) (i : UInt64) :
    label t i = if s.flow.offset index = s.flow.offset i then index else label s i := by
  unfold label
  rw [hstamped]
  simp only [DiscreteFlowData.offset_congr hcount]
  by_cases h : s.flow.offset index = s.flow.offset i
  · rw [if_pos h, List.find?_cons_of_pos (by simpa using h)]
    rfl
  · rw [if_neg h, List.find?_cons_of_neg (by simpa using h)]

theorem labelled_cons {s t : WriterSystem Unit} {index : UInt64}
    (hcount : t.flow.grainCount = s.flow.grainCount)
    (hstamped : stamped t.history = index :: stamped s.history)
    (hs : ∀ i, (s.flow.grainInfo i).index = label s i)
    (hgrain : ∀ i, (t.flow.grainInfo i).index =
      if s.flow.offset i = s.flow.offset index then index else (s.flow.grainInfo i).index)
    (i : UInt64) : (t.flow.grainInfo i).index = label t i := by
  rw [hgrain i, label_cons hcount hstamped, hs i]
  simp only [eq_comm]

theorem grainInfo_index_storeGrainIndex (flow : DiscreteFlowData) (index i : UInt64) :
    ((flow.storeGrainIndex index).grainInfo i).index =
      if flow.offset i = flow.offset index then index else (flow.grainInfo i).index := by
  rw [DiscreteFlowData.grainInfo_storeGrainIndex]
  split <;> rfl

theorem grainInfo_index_afterCommit (flow : DiscreteFlowData) (info : GrainInfo)
    (now i : UInt64) :
    ((flow.afterCommit info.index info now).grainInfo i).index =
      if flow.offset i = flow.offset info.index then info.index
      else (flow.grainInfo i).index := by
  rw [DiscreteFlowData.grainInfo_afterCommit]
  split <;> rfl

/-! ### Opening a grain -/

theorem slotsInv_openGrain {s t : WriterSystem Unit} {index : UInt64} (hs : SlotsInv s)
    (hkeep : KeepsWindow s ((), .openGrain index))
    (h : orderedStep s ((), .openGrain index) = some t) : SlotsInv t := by
  obtain ⟨horder, hstep⟩ := orderedStep_eq_some.mp h
  obtain ⟨hflow, hwriters, hhist⟩ := step_openGrain hstep
  have hstamped : stamped t.history = index :: stamped s.history := by rw [hhist]; rfl
  have hgrain : ∀ i, (t.flow.grainInfo i).index =
      if s.flow.offset i = s.flow.offset index then index else (s.flow.grainInfo i).index := by
    intro i
    rw [hflow]
    exact grainInfo_index_storeGrainIndex s.flow index i
  constructor
  · rw [hstamped]
    exact List.pairwise_cons.mpr ⟨horder, hs.sorted⟩
  · right
    rw [hstamped, hwriters]
    simp
  · exact labelled_cons (by rw [hflow]; rfl) hstamped hs.labelled hgrain
  · intro i hrange
    have hrange' : s.flow.inRange i := by rw [hflow] at hrange; exact hrange
    rw [hgrain i]
    split
    · next hslot => exact (hkeep i hrange' hslot).symm
    · exact hs.window i hrange'

/-- Opening a grain whose slot a grain of the window still occupies makes the
    reader hand out the new grain for the old one. -/
theorem not_readsRequested_openGrain {s t : WriterSystem Unit} {index : UInt64}
    (hbreak : ¬ KeepsWindow s ((), .openGrain index))
    (h : orderedStep s ((), .openGrain index) = some t) : ¬ ReadsRequested t := by
  intro hread
  obtain ⟨hflow, -, -⟩ := step_openGrain (orderedStep_eq_some.mp h).2
  apply hbreak
  intro i hrange hslot
  have hrange' : t.flow.inRange i := by rw [hflow]; exact hrange
  have hlabel := readsRequested_iff.mp hread i hrange'
  rw [hflow, grainInfo_index_storeGrainIndex, if_pos hslot] at hlabel
  exact hlabel.symm

/-! ### Committing a grain -/

/-- No stamped index is above the one being committed: it is the latest of a
    nondecreasing sequence, or the largest index there is. -/
theorem stamped_le_current {s : WriterSystem Unit} (hs : SlotsInv s) {j : UInt64}
    (hj : j ∈ stamped s.history) : j.toNat ≤ (s.writers ()).currentIndex.toNat := by
  rcases hs.current with hundef | hhead
  · rw [hundef]
    exact UInt64.le_iff_toNat_le.mp (le_MXL_UNDEFINED_INDEX j)
  · have hsorted := hs.sorted
    cases hst : stamped s.history with
    | nil => rw [hst] at hj; cases hj
    | cons k is =>
      rw [hst] at hj hhead hsorted
      obtain rfl : k = (s.writers ()).currentIndex := Option.some.inj hhead
      rcases List.mem_cons.mp hj with rfl | hin
      · exact Nat.le_refl _
      · exact (List.pairwise_cons.mp hsorted).1 j hin

/-- A stamped grain of the window that ends at the committed index still owns its
    slot: a later stamp there would be a whole lap ahead. -/
theorem label_eq_of_stamped {s : WriterSystem Unit} (hs : SlotsInv s) {i : UInt64}
    (hle : (s.writers ()).currentIndex.toNat < i.toNat + s.flow.grainCount.toNat)
    (hi : i = 0 ∨ i ∈ stamped s.history) : label s i = i := by
  unfold label
  cases hfind : (stamped s.history).find? fun j => s.flow.offset j = s.flow.offset i with
  | none =>
    rcases hi with rfl | hmem
    · rfl
    · have hno := List.find?_eq_none.mp hfind i hmem
      simp at hno
  | some j =>
    have hslot : s.flow.offset j = s.flow.offset i := by
      simpa using List.find?_some hfind
    have hij : i.toNat ≤ j.toNat := by
      rcases hi with rfl | hmem
      · exact Nat.zero_le _
      · exact le_of_find?_eq_some hs.sorted hfind hmem (by simp)
    have hjle := stamped_le_current hs (List.mem_of_find?_eq_some hfind)
    rw [DiscreteFlowData.offset_eq, DiscreteFlowData.offset_eq] at hslot
    have heq := RingWindow.eq_of_mod_eq_of_lt_add hslot.symm hij (Nat.lt_of_le_of_lt hjle hle)
    exact (UInt64.toNat_inj.mp heq).symm

theorem slotsInv_commit {s t : WriterSystem Unit} {info : GrainInfo} {now : UInt64}
    (hs : SlotsInv s) (hkeep : KeepsWindow s ((), .commit info now))
    (h : orderedStep s ((), .commit info now) = some t) : SlotsInv t := by
  rcases step_commit (orderedStep_eq_some.mp h).2 with ⟨_, rfl⟩ | ⟨hidx, hflow, hwriters, hhist⟩
  · exact hs
  · have hstamped : stamped t.history = info.index :: stamped s.history := by rw [hhist]; rfl
    have hcount : t.flow.grainCount = s.flow.grainCount := by rw [hflow]; rfl
    have hgrain : ∀ i, (t.flow.grainInfo i).index =
        if s.flow.offset i = s.flow.offset info.index then info.index
        else (s.flow.grainInfo i).index := by
      intro i
      rw [hflow]
      exact grainInfo_index_afterCommit s.flow info now i
    constructor
    · rw [hstamped, hidx]
      exact List.pairwise_cons.mpr ⟨fun j hj => stamped_le_current hs hj, hs.sorted⟩
    · rw [hstamped, hwriters, Function.update_self]
      unfold PosixDiscreteFlowWriter.afterCommit
      split
      · exact Or.inl rfl
      · exact Or.inr (congrArg some hidx)
    · exact labelled_cons hcount hstamped hs.labelled hgrain
    · intro i hrange
      have hhead : t.flow.headIndex = info.index := by rw [hflow]; rfl
      rw [inRange_iff, hhead, hcount] at hrange
      obtain ⟨hle, hlt⟩ := hrange
      rw [hgrain i]
      split
      · next hslot =>
        rw [DiscreteFlowData.offset_eq, DiscreteFlowData.offset_eq] at hslot
        exact (UInt64.toNat_inj.mp (RingWindow.eq_of_mod_eq_of_lt_add hslot hle hlt)).symm
      · next hslot =>
        have hne : i ≠ info.index := by
          intro heq
          exact hslot (by rw [heq])
        rw [hs.labelled i]
        exact label_eq_of_stamped hs (by rw [← hidx]; exact hlt) (hkeep hidx i hle hlt hne)

/-- Moving the head over a grain that was never opened lets the reader have the
    slot of that grain with whatever an earlier lap left in it. -/
theorem not_readsRequested_commit {s t : WriterSystem Unit} {info : GrainInfo} {now : UInt64}
    (hs : SlotsInv s) (hbreak : ¬ KeepsWindow s ((), .commit info now))
    (h : orderedStep s ((), .commit info now) = some t) : ¬ ReadsRequested t := by
  intro hread
  apply hbreak
  intro hidx i hle hlt hne
  rcases step_commit (orderedStep_eq_some.mp h).2 with ⟨hno, _⟩ | ⟨_, hflow, -, -⟩
  · exact absurd hidx hno
  · have hrange : t.flow.inRange i := by
      rw [inRange_iff, hflow]
      exact ⟨hle, hlt⟩
    have hlabel := readsRequested_iff.mp hread i hrange
    rw [hflow, grainInfo_index_afterCommit] at hlabel
    split at hlabel
    · exact absurd hlabel.symm hne
    · rw [hs.labelled i, label] at hlabel
      cases hfind : (stamped s.history).find? fun j => s.flow.offset j = s.flow.offset i with
      | none =>
        rw [hfind] at hlabel
        exact Or.inl hlabel.symm
      | some j =>
        rw [hfind] at hlabel
        obtain rfl : j = i := hlabel
        exact Or.inr (List.mem_of_find?_eq_some hfind)

/-! ### Runs -/

theorem slotsInv_step {s t : WriterSystem Unit} {call : Unit × WriterCall} (hs : SlotsInv s)
    (hkeep : KeepsWindow s call) (h : orderedStep s call = some t) : SlotsInv t := by
  rcases call with ⟨⟨⟩, index | ⟨info, now⟩ | _⟩
  · exact slotsInv_openGrain hs hkeep h
  · exact slotsInv_commit hs hkeep h
  · obtain ⟨hflow, hwriters, hhist⟩ := step_cancel (orderedStep_eq_some.mp h).2
    have hstamped : stamped t.history = stamped s.history := by rw [hhist]; rfl
    constructor
    · rw [hstamped]
      exact hs.sorted
    · left
      rw [hwriters]
      rfl
    · intro i
      rw [label, hstamped, hflow]
      exact hs.labelled i
    · rw [hflow]
      exact hs.window

theorem not_readsRequested_step {s t : WriterSystem Unit} {call : Unit × WriterCall}
    (hs : SlotsInv s) (hbreak : ¬ KeepsWindow s call) (h : orderedStep s call = some t) :
    ¬ ReadsRequested t := by
  rcases call with ⟨⟨⟩, index | ⟨info, now⟩ | _⟩
  · exact not_readsRequested_openGrain hbreak h
  · exact not_readsRequested_commit hs hbreak h
  · exact absurd trivial hbreak

/-- **Which runs hand out only requested grains.**  With one writer whose indices
    never decrease, every read of a run that succeeds returns the grain that was
    asked for exactly when the run never opens a grain in the slot of another one
    still in the window, and never moves the head over a grain that was not
    opened. -/
theorem reads_requested_iff (geometry : DiscreteGeometry) (now : UInt64)
    (calls : List (Unit × WriterCall)) :
    Throughout orderedStep ReadsRequested (.init (.create geometry now)) calls ↔
      Along orderedStep KeepsWindow (.init (.create geometry now)) calls := by
  apply throughout_iff_along _ _ _ (slotsInv_init geometry now)
  · intro s hs
    exact readsRequested_iff.mpr hs.window
  · intro s call t hs hkeep h
    exact slotsInv_step hs hkeep h
  · intro s call t hs hbreak h
    exact not_readsRequested_step hs hbreak h

/-- Two slots, grains 0 and 1 complete, grain 2 just opened. -/
def reopenedSlotRun : List (Unit × WriterCall) :=
  let record (index : UInt64) : GrainInfo :=
    { version := 1, size := 4096, index := index, flags := 0, grainSize := 16, totalSlices := 1,
      validSlices := 1 }
  [((), .openGrain 0), ((), .commit (record 0) 1), ((), .openGrain 1), ((), .commit (record 1) 2),
    ((), .openGrain 2)]

/-- Grain 0 is still in the window, and the reader that asks for it is handed a
    record of grain 2, of which nothing has been written yet. -/
theorem reader_handed_another_grain :
    ∃ s, run orderedStep (.init (.create ⟨2, 16, 1, by decide⟩ 0)) reopenedSlotRun = some s ∧
      ∃ info, s.flow.getGrain true 0 1 = .ok info ∧ info.index = 2 ∧ ¬ ReadsRequested s := by
  obtain ⟨s, hrun⟩ : ∃ s, run orderedStep (.init (.create ⟨2, 16, 1, by decide⟩ 0))
      reopenedSlotRun = some s := ⟨_, rfl⟩
  have hinfo : s.flow.getGrain true 0 1 = .ok
      { version := 1, size := 4096, index := 2, flags := 0, grainSize := 16, totalSlices := 1,
        validSlices := 1 } := by
    obtain rfl := Option.some.inj hrun
    rfl
  refine ⟨s, hrun, _, hinfo, rfl, ?_⟩
  intro hread
  exact absurd (hread true 0 1 _ hinfo) (by decide)

end MediaExchange.DiscreteReaderWindow
