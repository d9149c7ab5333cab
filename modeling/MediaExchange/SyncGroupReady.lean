/-
  MediaExchange/SyncGroupReady.lean
  =================================
  **What a successful wait of a synchronization group guarantees.**

  `waitForDataAt` skips a reader whose flow has its head at the expected index
  already.  For a discrete flow that says nothing about the slices of the grain:
  the wait it skips is the one that would have looked at them.

  Readers the walk has got past are not looked at again, so that the guarantee
  also needs the flows not to take back what they had.
-/
import MediaExchange.FlowSynchronizationGroup

namespace MediaExchange.SyncGroupReady

open MediaExchange.LabelledRun MediaExchange.FlowSynchronizationGroup

variable {δ κ : Type*}

/-! ### What is guaranteed -/

/-- The flow has got to the index of `originTime`, and the grain there, if it is one
    and still in the ring, is invalid or has the slices to wait for. -/
def Available (rate : FlowReader δ κ → MxlRational) (flows : Flows δ κ) (originTime : Timepoint)
    (reader : FlowReader δ κ) (minValidSlices : UInt16) : Prop :=
  timestampToIndex (rate reader) originTime ≤ flows.headIndex reader ∧
    match reader with
    | .discrete r =>
        (flows.discrete r).inRange (timestampToIndex (rate reader) originTime) →
          hasSlices ((flows.discrete r).grainInfo (timestampToIndex (rate reader) originTime))
            minValidSlices = true
    | .continuous _ => True

instance (rate : FlowReader δ κ → MxlRational) (flows : Flows δ κ) (originTime : Timepoint)
    (reader : FlowReader δ κ) (minValidSlices : UInt16) :
    Decidable (Available rate flows originTime reader minValidSlices) := by
  unfold Available
  split <;> infer_instance

/-- A wait that has just returned `MXL_STATUS_OK` finds all readers of the group
    available. -/
def GroupReady (rate : FlowReader δ κ → MxlRational) (s : GroupSystem δ κ) : Prop :=
  s.returned = some .statusOk →
    ∀ entry ∈ s.call.entries, Available rate s.flows s.originTime entry.reader entry.minValidSlices

def doneWith : Call δ κ → List (ListEntry δ κ)
  | .iterating passed _ => passed
  | .waiting passed _ _ => passed
  | _ => []

/-- A reader that is skipped because its flow has got there has all it waits for. -/
def SkipsReady (rate : FlowReader δ κ → MxlRational) (s : GroupSystem δ κ) : Call δ κ → Prop
  | .iterating _ (current :: _) =>
      timestampToIndex (rate current.reader) s.originTime ≤ s.flows.headIndex current.reader →
        Available rate s.flows s.originTime current.reader current.minValidSlices
  | _ => True

/-- The flows keep what the readers the walk is done with have found. -/
def KeepsFound (rate : FlowReader δ κ → MxlRational) (s : GroupSystem δ κ)
    (flows : Flows δ κ) : Prop :=
  ∀ entry ∈ doneWith s.call,
    Available rate s.flows s.originTime entry.reader entry.minValidSlices →
      Available rate flows s.originTime entry.reader entry.minValidSlices

def KeepsReady (rate : FlowReader δ κ → MxlRational) (s : GroupSystem δ κ) :
    GroupAction δ κ → Prop
  | .examine => SkipsReady rate s s.call
  | .evolve flows => KeepsFound rate s flows
  | _ => True

instance (rate : FlowReader δ κ → MxlRational) (s : GroupSystem δ κ) (call : Call δ κ) :
    Decidable (SkipsReady rate s call) := by
  unfold SkipsReady
  split <;> infer_instance

instance (rate : FlowReader δ κ → MxlRational) (s : GroupSystem δ κ) (a : GroupAction δ κ) :
    Decidable (KeepsReady rate s a) :=
  match a with
  | .examine => inferInstanceAs (Decidable (SkipsReady rate s s.call))
  | .evolve flows => inferInstanceAs (Decidable (∀ entry ∈ doneWith s.call,
      Available rate s.flows s.originTime entry.reader entry.minValidSlices →
        Available rate flows s.originTime entry.reader entry.minValidSlices))
  | .addDiscreteReader _ _ | .addContinuousReader _ | .removeReader _ | .waitForDataAt _
  | .attempt _ _ _ => isTrue trivial

/-! ### The invariant -/

structure WalkInv (rate : FlowReader δ κ → MxlRational) (s : GroupSystem δ κ) : Prop where
  rates : ∀ entry ∈ s.call.entries, entry.grainRate = rate entry.reader
  found : ∀ entry ∈ doneWith s.call,
    Available rate s.flows s.originTime entry.reader entry.minValidSlices
  ready : GroupReady rate s

variable {rate : FlowReader δ κ → MxlRational} {s t : GroupSystem δ κ}

/-- A wait that is successful has looked at the head and at the slices. -/
theorem available_of_waitResult {flows : Flows δ κ} {originTime : Timepoint}
    {current : ListEntry δ κ} (hrate : current.grainRate = rate current.reader)
    (h : waitResult flows originTime current = .statusOk) :
    Available rate flows originTime current.reader current.minValidSlices := by
  obtain ⟨reader, minValidSlices, grainRate, maximum⟩ := current
  dsimp only at hrate
  subst hrate
  cases reader with
  | discrete r =>
    simp only [waitResult, expectedIndex] at h
    split at h
    · next info hgrain =>
      obtain ⟨hrange, hslices, -⟩ := DiscreteFlowData.getGrainImpl_eq_ok.mp hgrain
      exact ⟨hrange.2, fun _ => hslices⟩
    · next status hgrain =>
      subst h
      exact absurd hgrain (DiscreteFlowData.getGrainImpl_ne_error_ok)
  | continuous r =>
    simp only [waitResult, expectedIndex] at h
    split at h
    · next slices hsamples =>
      obtain ⟨hhead, -⟩ := ContinuousFlowData.getSamplesImpl_eq_ok.mp hsamples
      exact ⟨UInt64.le_iff_toNat_le.mpr hhead, trivial⟩
    · next status hsamples =>
      subst h
      exact absurd hsamples (ContinuousFlowData.getSamplesImpl_ne_error_ok)

/-- A step that does not return leaves only the walk to look at. -/
theorem walkInv_of_not_returned (hrates : ∀ entry ∈ t.call.entries,
      entry.grainRate = rate entry.reader)
    (hfound : ∀ entry ∈ doneWith t.call,
      Available rate t.flows t.originTime entry.reader entry.minValidSlices)
    (hreturned : t.returned ≠ some .statusOk) : WalkInv rate t :=
  ⟨hrates, hfound, fun h => absurd h hreturned⟩

/-- So does one that leaves the walk without a reader it is done with. -/
theorem walkInv_of_doneWith_nil (hrates : ∀ entry ∈ t.call.entries,
      entry.grainRate = rate entry.reader) (hdone : doneWith t.call = [])
    (hreturned : t.returned ≠ some .statusOk) : WalkInv rate t := by
  apply walkInv_of_not_returned hrates _ hreturned
  rw [hdone]
  exact List.forall_mem_nil _

/-- The walk is done with what it was done with before and, unless it starts anew, with
    the reader that was waited for. -/
theorem mem_doneWith_afterWait {originTime currentTaiTime : Timepoint}
    {passed readers : List (ListEntry δ κ)} {current entry : ListEntry δ κ}
    (h : entry ∈ doneWith (afterWait originTime currentTaiTime passed current readers)) :
    entry ∈ passed ∨ ∃ maximum, entry = { current with maxObservedSourceDelay := maximum } := by
  by_cases hrelinks : Relinks originTime currentTaiTime passed current
  · obtain ⟨maximum, hafter⟩ := afterWait_of_relinks readers hrelinks
    rw [hafter] at h
    cases readers with
    | nil => cases h
    | cons next readers => cases h
  · obtain ⟨maximum, hafter⟩ := afterWait_of_not_relinks readers hrelinks
    rw [hafter] at h
    rcases List.mem_append.mp h with hpassed | hcurrent
    · exact Or.inl hpassed
    · exact Or.inr ⟨maximum, List.mem_singleton.mp hcurrent⟩

theorem walkInv_afterWait {passed readers : List (ListEntry δ κ)} {current : ListEntry δ κ}
    {currentTaiTime : Timepoint} {raiser : Option (FlowReader δ κ)} (hs : WalkInv rate s)
    (hcall : s.call = .waiting passed current readers)
    (hok : waitResult s.flows s.originTime current = .statusOk) :
    WalkInv rate { s with
      call := afterWait s.originTime currentTaiTime passed current readers
      returned := none
      raiser := raiser } := by
  have hrates := hs.rates
  have hfound := hs.found
  rw [hcall] at hrates hfound
  have hrate := hrates current (by simp [Call.entries])
  have hcurrent := available_of_waitResult hrate hok
  apply walkInv_of_not_returned
  · intro entry hentry
    rcases mem_entries_afterWait hentry with hold | ⟨maximum, rfl⟩
    · apply hrates
      rcases List.mem_append.mp hold with hpassed | hreaders
      · exact List.mem_append_left _ hpassed
      · exact List.mem_append_right _ (List.mem_cons_of_mem _ hreaders)
    · exact hrate
  · intro entry hentry
    rcases mem_doneWith_afterWait hentry with hpassed | ⟨maximum, rfl⟩
    · exact hfound entry hpassed
    · exact hcurrent
  · simp

section Steps

variable [DecidableEq δ] [DecidableEq κ]

theorem walkInv_examine (hs : WalkInv rate s) (hskip : SkipsReady rate s s.call)
    (h : step rate s .examine = some t) : WalkInv rate t := by
  have hrates := hs.rates
  have hfound := hs.found
  cases stepped_of_step h with
  | finished passed hcall =>
    rw [hcall] at hrates hfound
    constructor
    · intro entry hentry
      exact hrates entry (by simpa [Call.entries] using hentry)
    · intro entry hentry
      cases hentry
    · intro _ entry hentry
      exact hfound entry hentry
  | examined passed readers current hcall =>
    rw [hcall] at hrates hfound hskip
    have hrate := hrates current (by simp [Call.entries])
    split
    · apply walkInv_of_not_returned
      · exact hrates
      · exact hfound
      · simp
    · next hhead =>
      -- skipped: the head is at the expected index
      rw [expectedIndex, hrate] at hhead
      have hcurrent := hskip (UInt64.not_lt.mp hhead)
      apply walkInv_of_not_returned
      · intro entry hentry
        exact hrates entry (by simpa [Call.entries] using hentry)
      · intro entry hentry
        rcases List.mem_append.mp hentry with hentry | hentry
        · exact hfound entry hentry
        · obtain rfl := List.mem_singleton.mp hentry
          exact hcurrent
      · simp

theorem walkInv_attempt {currentTaiTime : Timepoint} {expired flowValid : Bool}
    (hs : WalkInv rate s)
    (h : step rate s (.attempt currentTaiTime expired flowValid) = some t) : WalkInv rate t := by
  have hrates := hs.rates
  cases stepped_of_step h with
  | found _ _ _ passed readers current hcall hok => exact walkInv_afterWait hs hcall hok
  | timedOut _ _ passed readers current hcall hearly =>
    rw [hcall] at hrates
    apply walkInv_of_doneWith_nil
    · exact hrates
    · rfl
    · cases flowValid <;> simp
  | retries _ _ passed readers current hcall hearly =>
    apply walkInv_of_not_returned
    · exact hs.rates
    · exact hs.found
    · simp
  | failed _ _ _ passed readers current hcall hok hearly =>
    rw [hcall] at hrates
    apply walkInv_of_doneWith_nil
    · exact hrates
    · rfl
    · intro hreturned
      exact hok (Option.some.inj hreturned)

theorem walkInv_step {a : GroupAction δ κ} (hs : WalkInv rate s) (hkeep : KeepsReady rate s a)
    (h : step rate s a = some t) : WalkInv rate t := by
  have hrates := hs.rates
  cases stepped_of_step h with
  | addDiscreteReader r minValidSlices readers hcall =>
    rw [hcall] at hrates
    apply walkInv_of_doneWith_nil
    · apply forall_mem_addEntry _ _ hrates
      · rfl
      · intro current hcurrent
        exact hcurrent
    · rfl
    · simp
  | addContinuousReader r readers hcall =>
    rw [hcall] at hrates
    apply walkInv_of_doneWith_nil
    · apply forall_mem_addEntry _ _ hrates
      · rfl
      · intro current hcurrent
        exact hcurrent
    · rfl
    · simp
  | removeReader reader readers hcall =>
    rw [hcall] at hrates
    apply walkInv_of_doneWith_nil
    · intro entry hentry
      exact hrates entry (List.mem_of_mem_eraseP hentry)
    · rfl
    · simp
  | waitForDataAt originTime readers hcall =>
    rw [hcall] at hrates
    apply walkInv_of_doneWith_nil
    · exact hrates
    · rfl
    · simp
  | finished | examined => exact walkInv_examine hs hkeep h
  | found | timedOut | retries | failed => exact walkInv_attempt hs h
  | evolve flows =>
    apply walkInv_of_not_returned
    · exact hrates
    · intro entry hentry
      exact hkeep entry hentry (hs.found entry hentry)
    · simp

omit [DecidableEq δ] [DecidableEq κ] in
theorem walkInv_init (flows : Flows δ κ) : WalkInv rate (.init flows) := by
  constructor
  · intro entry hentry
    cases hentry
  · intro entry hentry
    cases hentry
  · intro h
    cases h

end Steps

/-- One flow with a grain of two slices a second; of grain 5, `validSlices` have been
    committed. -/
def oneFlow (validSlices : UInt16) : Flows (Fin 1) Empty where
  discrete _ :=
    (DiscreteFlowData.create ⟨2, 16, 2, Nat.two_pos⟩ 0).afterCommit 5
      { version := 1, size := 4096, index := 5, flags := 0, grainSize := 16, totalSlices := 2,
        validSlices := validSlices } 1
  continuous := Empty.elim

def waitForAll : List (GroupAction (Fin 1) Empty) :=
  [.addDiscreteReader 0 MXL_GRAIN_VALID_SLICES_ALL, .waitForDataAt 5000000000, .examine, .examine]

end MediaExchange.SyncGroupReady
