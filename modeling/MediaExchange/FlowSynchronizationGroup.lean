/-
  MediaExchange/FlowSynchronizationGroup.lean
  ===========================================
  **Synchronization groups** (`FlowSynchronizationGroup.hpp/.cpp`).

  A group is a singly linked list of readers.  `waitForDataAt` walks over it with
  an iterator, waits for the flows that are behind, and relinks the list when it
  finds a flow that is slower than the first one.

  The walk is modelled step by step, with the flows free to change in between.
  The list is kept in two parts, what is in front of the iterator and what comes
  from it on.  A reader is discrete or continuous by construction, which is what
  the `variant` tag of a list entry says.
-/
import MediaExchange.Library.LabelledRun
import MediaExchange.DiscreteFlow
import MediaExchange.ContinuousFlow
import MediaExchange.IndexConversion

namespace MediaExchange

/-! ### Readers and flows -/

inductive FlowReader (δ κ : Type*) where
  | discrete (r : δ)
  | continuous (r : κ)
deriving DecidableEq, Repr

/-- The flows the readers are bound to, as they are at one moment. -/
structure Flows (δ κ : Type*) where
  discrete : δ → DiscreteFlowData
  continuous : κ → ContinuousFlowData

variable {δ κ : Type*}

def Flows.headIndex (flows : Flows δ κ) : FlowReader δ κ → UInt64
  | .discrete r => (flows.discrete r).headIndex
  | .continuous r => (flows.continuous r).headIndex

/-- `FlowSynchronizationGroup::ListEntry`. -/
structure ListEntry (δ κ : Type*) where
  reader : FlowReader δ κ
  minValidSlices : UInt16
  grainRate : MxlRational
  maxObservedSourceDelay : Int64
deriving DecidableEq, Repr

namespace FlowSynchronizationGroup

section Members

variable [DecidableEq δ] [DecidableEq κ]

/-- The loop of `addReader`: `update` what is there already, or append `entry`. -/
def addEntry (entry : ListEntry δ κ) (update : ListEntry δ κ → ListEntry δ κ) :
    List (ListEntry δ κ) → List (ListEntry δ κ)
  | [] => [entry]
  | current :: readers =>
      if current.reader = entry.reader then update current :: readers
      else current :: addEntry entry update readers

def addDiscreteReader (rate : FlowReader δ κ → MxlRational) (r : δ) (minValidSlices : UInt16) :
    List (ListEntry δ κ) → List (ListEntry δ κ) :=
  addEntry
    { reader := .discrete r, minValidSlices := minValidSlices, grainRate := rate (.discrete r),
      maxObservedSourceDelay := 0 }
    fun current => { current with minValidSlices := minValidSlices }

def addContinuousReader (rate : FlowReader δ κ → MxlRational) (r : κ) :
    List (ListEntry δ κ) → List (ListEntry δ κ) :=
  addEntry
    { reader := .continuous r, minValidSlices := 0, grainRate := rate (.continuous r),
      maxObservedSourceDelay := 0 }
    id

def removeReader (reader : FlowReader δ κ) (readers : List (ListEntry δ κ)) :
    List (ListEntry δ κ) :=
  readers.eraseP fun current => current.reader = reader

/-- What holds of the entries of a list and is kept by an update still holds of them
    after `addReader`. -/
theorem forall_mem_addEntry {P : ListEntry δ κ → Prop} {entry : ListEntry δ κ}
    {update : ListEntry δ κ → ListEntry δ κ} (hentry : P entry)
    (hupdate : ∀ current, P current → P (update current)) {readers : List (ListEntry δ κ)}
    (h : ∀ current ∈ readers, P current) : ∀ current ∈ addEntry entry update readers, P current := by
  induction readers with
  | nil =>
    intro current hcurrent
    rw [addEntry, List.mem_singleton] at hcurrent
    rw [hcurrent]
    exact hentry
  | cons head readers ih =>
    rw [List.forall_mem_cons] at h
    rw [addEntry]
    split
    · exact List.forall_mem_cons.mpr ⟨hupdate head h.1, h.2⟩
    · exact List.forall_mem_cons.mpr ⟨h.1, ih h.2⟩

end Members

/-! ### Waiting for one reader -/

/-- `timestampToIndex(current->grainRate, originTime)`. -/
def expectedIndex (originTime : Timepoint) (current : ListEntry δ κ) : UInt64 :=
  timestampToIndex current.grainRate originTime

/-- One look at the flow in `waitForGrain` or `waitForSamples`. -/
def waitResult (flows : Flows δ κ) (originTime : Timepoint) (current : ListEntry δ κ) :
    MxlStatus :=
  match current.reader with
  | .discrete r =>
      match (flows.discrete r).getGrainImpl (expectedIndex originTime current)
        current.minValidSlices with
      | .ok _ => .statusOk
      | .error status => status
  | .continuous r =>
      match (flows.continuous r).getSamplesImpl (expectedIndex originTime current) 0 with
      | .ok _ => .statusOk
      | .error status => status

/-- The source delay at `currentTaiTime`, if it exceeds the entry's maximum. -/
def newMaximum (originTime currentTaiTime : Timepoint) (current : ListEntry δ κ) : Option Int64 :=
  let expectedArrivalTime := indexToTimestamp current.grainRate (expectedIndex originTime current)
  if currentTaiTime > expectedArrivalTime then
    let sourceDelay := currentTaiTime - expectedArrivalTime
    if sourceDelay > current.maxObservedSourceDelay then some sourceDelay else none
  else none

/-- `_readers.begin()`, when the iterator is behind `current`. -/
def first (passed : List (ListEntry δ κ)) (current : ListEntry δ κ) : ListEntry δ κ :=
  passed.head?.getD current

/-! ### The walk -/

/-- Where a call is: between two readers, waiting for `current`, or beyond what the
    language defines. -/
inductive Call (δ κ : Type*) where
  | idle (readers : List (ListEntry δ κ))
  | iterating (passed readers : List (ListEntry δ κ))
  | waiting (passed : List (ListEntry δ κ)) (current : ListEntry δ κ)
      (readers : List (ListEntry δ κ))
  | undefinedBehaviour
deriving DecidableEq, Repr

def Call.entries : Call δ κ → List (ListEntry δ κ)
  | .idle readers => readers
  | .iterating passed readers => passed ++ readers
  | .waiting passed current readers => passed ++ current :: readers
  | .undefinedBehaviour => []

/-- `splice_after(before_begin(), _readers, current)`, which moves the element behind
    `current` to the front.  The iterator points to that element and goes on from
    the front; where there is no such element the call is undefined. -/
def spliceAfter (passed : List (ListEntry δ κ)) (current : ListEntry δ κ) :
    List (ListEntry δ κ) → Call δ κ
  | [] => .undefinedBehaviour
  | next :: readers => .iterating [] (next :: (passed ++ current :: readers))

def afterWait (originTime currentTaiTime : Timepoint) (passed : List (ListEntry δ κ))
    (current : ListEntry δ κ) (readers : List (ListEntry δ κ)) : Call δ κ :=
  match newMaximum originTime currentTaiTime current with
  | none => .iterating (passed ++ [current]) readers
  | some sourceDelay =>
      let current := { current with maxObservedSourceDelay := sourceDelay }
      if current.maxObservedSourceDelay > (first passed current).maxObservedSourceDelay then
        spliceAfter passed current readers
      else .iterating (passed ++ [current]) readers

/-- The wait ends in the branch that relinks the list. -/
def Relinks (originTime currentTaiTime : Timepoint) (passed : List (ListEntry δ κ))
    (current : ListEntry δ κ) : Prop :=
  ∃ sourceDelay, newMaximum originTime currentTaiTime current = some sourceDelay ∧
    sourceDelay > (first passed { current with
      maxObservedSourceDelay := sourceDelay }).maxObservedSourceDelay

/-- The wait has found a delay above all that the group has observed. -/
def Raises (originTime currentTaiTime : Timepoint) (passed : List (ListEntry δ κ))
    (current : ListEntry δ κ) (readers : List (ListEntry δ κ)) : Prop :=
  ∃ sourceDelay, newMaximum originTime currentTaiTime current = some sourceDelay ∧
    ∀ entry ∈ passed ++ current :: readers, entry.maxObservedSourceDelay < sourceDelay

instance (originTime currentTaiTime : Timepoint) (passed : List (ListEntry δ κ))
    (current : ListEntry δ κ) (readers : List (ListEntry δ κ)) :
    Decidable (Raises originTime currentTaiTime passed current readers) :=
  match h : newMaximum originTime currentTaiTime current with
  | none => isFalse fun ⟨_, hsome, _⟩ => by rw [h] at hsome; cases hsome
  | some sourceDelay =>
      decidable_of_iff (∀ entry ∈ passed ++ current :: readers,
          entry.maxObservedSourceDelay < sourceDelay)
        ⟨fun hall => ⟨sourceDelay, h, hall⟩,
          fun ⟨_, hsome, hall⟩ => by obtain rfl := Option.some.inj (h.symm.trans hsome); exact hall⟩

section AfterWait

variable {originTime currentTaiTime : Timepoint} {passed readers : List (ListEntry δ κ)}
  {current : ListEntry δ κ}

theorem afterWait_of_not_relinks (readers : List (ListEntry δ κ))
    (h : ¬ Relinks originTime currentTaiTime passed current) :
    ∃ maximum, afterWait originTime currentTaiTime passed current readers =
      .iterating
        (passed ++ [{ current with maxObservedSourceDelay := maximum }]) readers := by
  unfold afterWait
  cases hmaximum : newMaximum originTime currentTaiTime current with
  | none => exact ⟨current.maxObservedSourceDelay, rfl⟩
  | some sourceDelay =>
    refine ⟨sourceDelay, ?_⟩
    apply if_neg
    intro hgt
    exact h ⟨sourceDelay, hmaximum, hgt⟩

theorem afterWait_of_relinks (readers : List (ListEntry δ κ))
    (h : Relinks originTime currentTaiTime passed current) :
    ∃ maximum, afterWait originTime currentTaiTime passed current readers =
      spliceAfter passed { current with maxObservedSourceDelay := maximum } readers := by
  obtain ⟨sourceDelay, hmaximum, hgt⟩ := h
  refine ⟨sourceDelay, ?_⟩
  unfold afterWait
  rw [hmaximum]
  exact if_pos hgt

/-- Whatever it does to their order, a successful wait leaves the entries of the list
    as they are, but for the maximum of `current`. -/
theorem mem_entries_afterWait {entry : ListEntry δ κ}
    (h : entry ∈ (afterWait originTime currentTaiTime passed current readers).entries) :
    entry ∈ passed ++ readers ∨
      ∃ maximum, entry = { current with maxObservedSourceDelay := maximum } := by
  by_cases hrelinks : Relinks originTime currentTaiTime passed current
  · obtain ⟨maximum, hafter⟩ := afterWait_of_relinks readers hrelinks
    rw [hafter] at h
    cases readers with
    | nil => cases h
    | cons next readers =>
      simp only [spliceAfter, Call.entries, List.nil_append, List.mem_cons, List.mem_append] at h
      rcases h with rfl | hpassed | hcurrent | hreaders
      · exact Or.inl (by simp)
      · exact Or.inl (by simp [hpassed])
      · exact Or.inr ⟨maximum, hcurrent⟩
      · exact Or.inl (by simp [hreaders])
  · obtain ⟨maximum, hafter⟩ := afterWait_of_not_relinks readers hrelinks
    rw [hafter] at h
    simp only [Call.entries, List.append_assoc, List.mem_append, List.mem_singleton] at h
    rcases h with hpassed | hcurrent | hreaders
    · exact Or.inl (by simp [hpassed])
    · exact Or.inr ⟨maximum, hcurrent⟩
    · exact Or.inl (by simp [hreaders])

/-- A reader that raises the maximum is the first one already, or the list is
    relinked. -/
theorem passed_eq_nil_of_raises (h : ¬ Relinks originTime currentTaiTime passed current)
    (hraises : Raises originTime currentTaiTime passed current readers) : passed = [] := by
  obtain ⟨sourceDelay, hmaximum, hall⟩ := hraises
  cases passed with
  | nil => rfl
  | cons entry passed =>
    exfalso
    apply h
    exact ⟨sourceDelay, hmaximum, hall entry (by simp)⟩

end AfterWait

/-! ### The system -/

structure GroupSystem (δ κ : Type*) where
  flows : Flows δ κ
  /-- The time the current or latest `waitForDataAt` was called with. -/
  originTime : Timepoint
  call : Call δ κ
  /-- What the last step returned from `waitForDataAt`, if it did. -/
  returned : Option MxlStatus
  /-- The readers looked at by the current or latest `waitForDataAt`. -/
  examined : List (FlowReader δ κ)
  /-- Which readers were added and have not been removed since. -/
  members : FlowReader δ κ → Bool
  /-- The member that last raised the maximum of the group. -/
  raiser : Option (FlowReader δ κ)

inductive GroupAction (δ κ : Type*) where
  | addDiscreteReader (r : δ) (minValidSlices : UInt16)
  | addContinuousReader (r : κ)
  | removeReader (reader : FlowReader δ κ)
  | waitForDataAt (originTime : Timepoint)
  | examine
  /-- One look at the flow, at a given time, with the deadline reached or not. -/
  | attempt (currentTaiTime : Timepoint) (expired flowValid : Bool)
  | evolve (flows : Flows δ κ)

variable [DecidableEq δ] [DecidableEq κ]

def GroupSystem.init (flows : Flows δ κ) : GroupSystem δ κ where
  flows := flows
  originTime := 0
  call := .idle []
  returned := none
  examined := []
  members _ := false
  raiser := none

def step (rate : FlowReader δ κ → MxlRational) (s : GroupSystem δ κ) :
    GroupAction δ κ → Option (GroupSystem δ κ)
  | .addDiscreteReader r minValidSlices =>
      match s.call with
      | .idle readers =>
          some { s with call := .idle (addDiscreteReader rate r minValidSlices readers)
                        returned := none
                        members := Function.update s.members (.discrete r) true }
      | _ => none
  | .addContinuousReader r =>
      match s.call with
      | .idle readers =>
          some { s with call := .idle (addContinuousReader rate r readers)
                        returned := none
                        members := Function.update s.members (.continuous r) true }
      | _ => none
  | .removeReader reader =>
      match s.call with
      | .idle readers =>
          some { s with call := .idle (removeReader reader readers)
                        returned := none
                        members := Function.update s.members reader false
                        raiser := if s.raiser = some reader then none else s.raiser }
      | _ => none
  | .waitForDataAt originTime =>
      match s.call with
      | .idle readers =>
          some { s with originTime := originTime
                        call := .iterating [] readers
                        returned := none
                        examined := [] }
      | _ => none
  | .examine =>
      match s.call with
      | .iterating passed [] =>
          some { s with call := .idle passed, returned := some .statusOk }
      | .iterating passed (current :: readers) =>
          some { s with
            call :=
              if expectedIndex s.originTime current > s.flows.headIndex current.reader then
                .waiting passed current readers
              else .iterating (passed ++ [current]) readers
            returned := none
            examined := current.reader :: s.examined }
      | _ => none
  | .attempt currentTaiTime expired flowValid =>
      match s.call with
      | .waiting passed current readers =>
          match waitResult s.flows s.originTime current with
          | .statusOk =>
              some { s with
                call := afterWait s.originTime currentTaiTime passed current readers
                returned := none
                raiser :=
                  if Raises s.originTime currentTaiTime passed current readers then
                    some current.reader
                  else s.raiser }
          | .errOutOfRangeTooEarly =>
              if expired then
                some { s with
                  call := .idle (passed ++ current :: readers)
                  returned := some (if flowValid then .errOutOfRangeTooEarly else .errFlowInvalid) }
              else some { s with returned := none }
          | status =>
              some { s with call := .idle (passed ++ current :: readers), returned := some status }
      | _ => none
  | .evolve flows => some { s with flows := flows, returned := none }

/-- What a step can be. -/
inductive Stepped (rate : FlowReader δ κ → MxlRational) (s : GroupSystem δ κ) :
    GroupAction δ κ → GroupSystem δ κ → Prop where
  | addDiscreteReader (r : δ) (minValidSlices : UInt16) (readers : List (ListEntry δ κ))
      (hcall : s.call = .idle readers) :
      Stepped rate s (.addDiscreteReader r minValidSlices)
        { s with call := .idle (FlowSynchronizationGroup.addDiscreteReader rate r minValidSlices readers)
                 returned := none
                 members := Function.update s.members (.discrete r) true }
  | addContinuousReader (r : κ) (readers : List (ListEntry δ κ))
      (hcall : s.call = .idle readers) :
      Stepped rate s (.addContinuousReader r)
        { s with call := .idle (FlowSynchronizationGroup.addContinuousReader rate r readers)
                 returned := none
                 members := Function.update s.members (.continuous r) true }
  | removeReader (reader : FlowReader δ κ) (readers : List (ListEntry δ κ))
      (hcall : s.call = .idle readers) :
      Stepped rate s (.removeReader reader)
        { s with call := .idle (FlowSynchronizationGroup.removeReader reader readers)
                 returned := none
                 members := Function.update s.members reader false
                 raiser := if s.raiser = some reader then none else s.raiser }
  | waitForDataAt (originTime : Timepoint) (readers : List (ListEntry δ κ))
      (hcall : s.call = .idle readers) :
      Stepped rate s (.waitForDataAt originTime)
        { s with originTime := originTime
                 call := .iterating [] readers
                 returned := none
                 examined := [] }
  | finished (passed : List (ListEntry δ κ)) (hcall : s.call = .iterating passed []) :
      Stepped rate s .examine { s with call := .idle passed, returned := some .statusOk }
  | examined (passed readers : List (ListEntry δ κ)) (current : ListEntry δ κ)
      (hcall : s.call = .iterating passed (current :: readers)) :
      Stepped rate s .examine
        { s with call :=
                   if expectedIndex s.originTime current > s.flows.headIndex current.reader then
                     .waiting passed current readers
                   else .iterating (passed ++ [current]) readers
                 returned := none
                 examined := current.reader :: s.examined }
  | found (currentTaiTime : Timepoint) (expired flowValid : Bool)
      (passed readers : List (ListEntry δ κ)) (current : ListEntry δ κ)
      (hcall : s.call = .waiting passed current readers)
      (hok : waitResult s.flows s.originTime current = .statusOk) :
      Stepped rate s (.attempt currentTaiTime expired flowValid)
        { s with call := afterWait s.originTime currentTaiTime passed current readers
                 returned := none
                 raiser :=
                   if Raises s.originTime currentTaiTime passed current readers then
                     some current.reader
                   else s.raiser }
  | timedOut (currentTaiTime : Timepoint) (flowValid : Bool)
      (passed readers : List (ListEntry δ κ)) (current : ListEntry δ κ)
      (hcall : s.call = .waiting passed current readers)
      (hearly : waitResult s.flows s.originTime current = .errOutOfRangeTooEarly) :
      Stepped rate s (.attempt currentTaiTime true flowValid)
        { s with
          call := .idle (passed ++ current :: readers)
          returned := some (if flowValid then .errOutOfRangeTooEarly else .errFlowInvalid) }
  | retries (currentTaiTime : Timepoint) (flowValid : Bool)
      (passed readers : List (ListEntry δ κ)) (current : ListEntry δ κ)
      (hcall : s.call = .waiting passed current readers)
      (hearly : waitResult s.flows s.originTime current = .errOutOfRangeTooEarly) :
      Stepped rate s (.attempt currentTaiTime false flowValid) { s with returned := none }
  | failed (currentTaiTime : Timepoint) (expired flowValid : Bool)
      (passed readers : List (ListEntry δ κ)) (current : ListEntry δ κ)
      (hcall : s.call = .waiting passed current readers)
      (hok : waitResult s.flows s.originTime current ≠ .statusOk)
      (hearly : waitResult s.flows s.originTime current ≠ .errOutOfRangeTooEarly) :
      Stepped rate s (.attempt currentTaiTime expired flowValid)
        { s with
          call := .idle (passed ++ current :: readers)
          returned := some (waitResult s.flows s.originTime current) }
  | evolve (flows : Flows δ κ) :
      Stepped rate s (.evolve flows) { s with flows := flows, returned := none }

theorem stepped_of_step {rate : FlowReader δ κ → MxlRational} {s t : GroupSystem δ κ}
    {a : GroupAction δ κ} (h : step rate s a = some t) : Stepped rate s a t := by
  cases a with
  | addDiscreteReader r minValidSlices =>
    simp only [step] at h
    split at h
    · next readers hcall =>
      obtain rfl := Option.some.inj h
      exact .addDiscreteReader r minValidSlices readers hcall
    · cases h
  | addContinuousReader r =>
    simp only [step] at h
    split at h
    · next readers hcall =>
      obtain rfl := Option.some.inj h
      exact .addContinuousReader r readers hcall
    · cases h
  | removeReader reader =>
    simp only [step] at h
    split at h
    · next readers hcall =>
      obtain rfl := Option.some.inj h
      exact .removeReader reader readers hcall
    · cases h
  | waitForDataAt originTime =>
    simp only [step] at h
    split at h
    · next readers hcall =>
      obtain rfl := Option.some.inj h
      exact .waitForDataAt originTime readers hcall
    · cases h
  | examine =>
    simp only [step] at h
    split at h
    · next passed hcall =>
      obtain rfl := Option.some.inj h
      exact .finished passed hcall
    · next passed current readers hcall =>
      obtain rfl := Option.some.inj h
      exact .examined passed readers current hcall
    · cases h
  | attempt currentTaiTime expired flowValid =>
    simp only [step] at h
    split at h
    · next passed current readers hcall =>
      split at h
      · next hok =>
        obtain rfl := Option.some.inj h
        exact .found currentTaiTime expired flowValid passed readers current hcall hok
      · next hearly =>
        cases expired with
        | true =>
          obtain rfl := Option.some.inj h
          exact .timedOut currentTaiTime flowValid passed readers current hcall hearly
        | false =>
          obtain rfl := Option.some.inj h
          exact .retries currentTaiTime flowValid passed readers current hcall hearly
      · next hok hearly =>
        obtain rfl := Option.some.inj h
        exact .failed currentTaiTime expired flowValid passed readers current hcall hok hearly
    · cases h
  | evolve flows =>
    obtain rfl := Option.some.inj h
    exact .evolve flows

end FlowSynchronizationGroup

end MediaExchange
