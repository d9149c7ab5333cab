/-
  MediaExchange/FinishedProgress.lean
  ===================================
  **When `makeProgress` says that there is nothing left to do**
  (`RCInitiator.cpp`).

  Callers take a `false` of `makeProgress` for the permission to reuse their
  buffers.  The answer comes from the counters of the endpoints, so that what
  matters is that no write is without its place in a counter (`Covered`).  Three
  things break that: a flushing endpoint is taken for done as soon as the queue of
  completions is found empty, whatever its counter says; an endpoint that waits
  to be connected again is shut down together with the counter of the connection
  before; and a transfer that throws leaves the writes uncounted that it has posted.

  In a run without these (`Settled`) a `false` means that every write has been
  completed and no endpoint is connecting, and no endpoint gives up flushing
  early, except on an error event (`finished_of_settled`).
-/
import MediaExchange.InitiatorProgress

namespace MediaExchange.FinishedProgress

open MediaExchange.LabelledRun MediaExchange.InitiatorProgress

/-! ### Counters and writes -/

/-- The writes an endpoint knows to be without a completion. -/
def held (endpoint : RCInitiatorEndpoint) : Nat :=
  match endpoint.state with
  | .idle _ | .connecting | .connected => endpoint.pending.toNat
  | .flushing pending => pending.toNat
  | .done => 0

def flushing (endpoint : RCInitiatorEndpoint) : Option UInt64 :=
  match endpoint.state with
  | .flushing pending => some pending
  | _ => none

/-- The endpoint is not connected, or not yet. -/
def waiting (endpoint : RCInitiatorEndpoint) : Bool :=
  match endpoint.state with
  | .idle _ | .connecting => true
  | _ => false

def heldAt (targets : OrderedMap Token InitiatorTarget) (id : Token) : Nat :=
  match targets.get? id with
  | none => 0
  | some target => held target.endpoint

/-- The writes of a token whose completion has not been handed to the endpoint. -/
def undelivered (s : System) (id : Token) : Nat :=
  s.inFlight id + s.cq.countP fun completion => completion.token = id

/-- Every write without a completion is in the counter of its endpoint. -/
def Covered (targets : OrderedMap Token InitiatorTarget) (writes : Token → Nat) : Prop :=
  ∀ id, writes id ≤ heldAt targets id

/-! ### The property and the condition -/

/-- Nothing is left to do. -/
def Finished (s : System) : Prop :=
  ∀ id, undelivered s id = 0 ∧
    ∀ target, s.initiator.targets.get? id = some target → target.endpoint.state ≠ .connecting

def busy : Phase → Bool
  | .ready _ => false
  | _ => true

/-- A call that returns `false` leaves nothing to do, and an endpoint goes from
    flushing to done when its counter is at zero, or on an error event. -/
structure Reliable (s : System) (a : Action) : Prop where
  finished : ∀ t, s.step a = some t → busy s.phase = true →
    t.phase = .ready (some false) → Finished t
  flushed : ∀ t, s.step a = some t → ∀ id target target' pending,
    s.initiator.targets.get? id = some target → flushing target.endpoint = some pending →
    t.initiator.targets.get? id = some target' → target'.endpoint.state = .done →
    pending = 0 ∨ ∃ caller eq, s.phase = .pollEQ caller ∧ s.eq = (id, .error) :: eq

/-- The writes that a transfer leaves on the fabric are counted. -/
def CountsWrites (target : InitiatorTarget) : PostOutcome → Prop
  | .posted writes =>
      target.endpoint.isConnected = true → target.endpoint.pending.toNat + writes.toNat < 2 ^ 64
  | .thrown writes => target.endpoint.isConnected = true → writes = 0

instance (target : InitiatorTarget) (outcome : PostOutcome) :
    Decidable (CountsWrites target outcome) :=
  match outcome with
  | .posted writes =>
      inferInstanceAs (Decidable (target.endpoint.isConnected = true →
        target.endpoint.pending.toNat + writes.toNat < 2 ^ 64))
  | .thrown writes =>
      inferInstanceAs (Decidable (target.endpoint.isConnected = true → writes = 0))

/-- An endpoint that flushes has counted its completions. -/
def FlushedEmpty (s : System) : Prop :=
  ∀ id target, s.initiator.targets.get? id = some target →
    flushing target.endpoint ≠ none → flushing target.endpoint = some 0

/-- The queues as the call in progress may find them. -/
def SettledPoll (s : System) : Phase → Prop
  | .pollCQ _ => s.cq = [] → FlushedEmpty s
  | .blockOnCQ _ => s.cq = [] → FlushedEmpty s
  | .pollEQ _ =>
      ∀ event ∈ s.eq.head?, event.2 = .error →
        ∀ target ∈ s.initiator.targets.get? event.1,
          flushing target.endpoint ≠ none → undelivered s event.1 = 0
  | _ => True

/-- The steps that keep every write in a counter: the queue of completions is found
    empty only when no flushing endpoint waits for any; an error event reaches a
    flushing endpoint, and a shutdown one that waits to be connected, only when all
    its writes have been completed; a transfer counts what it posts. -/
def Settled (s : System) : Action → Prop
  | .removeTarget info =>
      ∀ id target, s.initiator.targets.get? id = some target →
        s.initiator.findTarget info = some id → waiting target.endpoint = true →
        undelivered s id = 0
  | .shutdown =>
      ∀ id target, s.initiator.targets.get? id = some target →
        waiting target.endpoint = true → undelivered s id = 0
  | .transfer outcome =>
      ∀ id target, s.initiator.targets.get? id = some target →
        s.initiator.reached outcome id = true → CountsWrites target (outcome id)
  | .transferGrainToTarget id outcome =>
      ∀ target ∈ s.initiator.targets.get? id, CountsWrites target outcome
  | .poll _ _ => SettledPoll s s.phase
  | _ => True

instance (s : System) : Decidable (FlushedEmpty s) := OrderedMap.decidableAll s.initiator.targets

instance (s : System) (phase : Phase) : Decidable (SettledPoll s phase) :=
  match phase with
  | .pollCQ _ => inferInstanceAs (Decidable (s.cq = [] → FlushedEmpty s))
  | .blockOnCQ _ => inferInstanceAs (Decidable (s.cq = [] → FlushedEmpty s))
  | .pollEQ _ =>
      inferInstanceAs (Decidable (∀ event ∈ s.eq.head?, event.2 = .error →
        ∀ target ∈ s.initiator.targets.get? event.1,
          flushing target.endpoint ≠ none → undelivered s event.1 = 0))
  | .ready _ => isTrue trivial
  | .activate _ => isTrue trivial
  | .undefined => isTrue trivial

instance (s : System) (a : Action) : Decidable (Settled s a) :=
  match a with
  | .removeTarget _ => OrderedMap.decidableAll s.initiator.targets
  | .shutdown => OrderedMap.decidableAll s.initiator.targets
  | .transfer _ => OrderedMap.decidableAll s.initiator.targets
  | .transferGrainToTarget id outcome =>
      inferInstanceAs (Decidable (∀ target ∈ s.initiator.targets.get? id,
        CountsWrites target outcome))
  | .poll _ _ => inferInstanceAs (Decidable (SettledPoll s s.phase))
  | .addTarget _ _ => isTrue trivial
  | .makeProgress _ => isTrue trivial
  | .complete _ => isTrue trivial
  | .deliver _ _ => isTrue trivial

/-! ### The counter of one endpoint -/

section Held

variable (endpoint : RCInitiatorEndpoint)

theorem held_activate (now : Nat) : held (endpoint.activate now) = held endpoint := by
  obtain ⟨state, pending⟩ := endpoint
  cases state with
  | idle idleSince =>
    rw [RCInitiatorEndpoint.activate]
    dsimp only
    split <;> rfl
  | connecting | connected | flushing _ | done => rfl

theorem held_shutdown (h : waiting endpoint = false) : held endpoint.shutdown = held endpoint := by
  obtain ⟨state, pending⟩ := endpoint
  cases state with
  | idle _ | connecting => cases h
  | connected | flushing _ | done => rfl

theorem held_terminate (h : flushing endpoint ≠ none → flushing endpoint = some 0) :
    held endpoint.terminate = held endpoint := by
  obtain ⟨state, pending⟩ := endpoint
  cases state with
  | flushing pending =>
    obtain rfl : pending = 0 := Option.some.inj (h (Option.some_ne_none pending))
    rfl
  | idle _ | connecting | connected | done => rfl

theorem held_consume {event : FabricEvent} {now : Nat}
    (h : event = .error → flushing endpoint = none) :
    held (endpoint.consume event now) = held endpoint := by
  obtain ⟨state, pending⟩ := endpoint
  cases state with
  | idle _ | done => rfl
  | connecting | connected => cases event <;> rfl
  | flushing pending =>
    cases event with
    | error => cases h rfl
    | connected | shutdown | other => rfl

theorem held_consumeCompletion (entry : CompletionEntry) (hpos : 0 < held endpoint) :
    held endpoint - 1 ≤ held (endpoint.consumeCompletion entry) := by
  obtain ⟨state, pending⟩ := endpoint
  cases entry with
  | error => exact Nat.sub_le _ _
  | data =>
    cases state with
    | idle _ | connecting | done => exact Nat.sub_le _ _
    | connected => exact (toNat_sub_one hpos).ge
    | flushing pending => exact (toNat_sub_one hpos).ge

theorem held_transfer {target : InitiatorTarget} {writes : UInt64}
    (h : CountsWrites target (.posted writes)) :
    held (target.endpoint.transfer writes) =
      held target.endpoint + target.writes (.posted writes) := by
  obtain ⟨info, state, pending⟩ := target
  cases state with
  | connected =>
    rw [held, RCInitiatorEndpoint.transfer, UInt64.toNat_add, Nat.mod_eq_of_lt (h rfl)]
    rfl
  | idle _ | connecting | flushing _ | done => rfl

/-- A transfer adds to the counter what it leaves on the fabric. -/
theorem held_transfer_outcome {target : InitiatorTarget} {outcome : PostOutcome}
    (h : CountsWrites target outcome) :
    held (target.transfer outcome).endpoint = held target.endpoint + target.writes outcome := by
  cases outcome with
  | posted writes => exact held_transfer h
  | thrown writes =>
    have hnone : target.writes (.thrown writes) = 0 := by
      rw [InitiatorTarget.writes]
      split
      · next hconnected => rw [h hconnected]; rfl
      · rfl
    rw [hnone]
    rfl

end Held

/-! ### The counters of all endpoints -/

section Covered

variable {targets targets' : OrderedMap Token InitiatorTarget} {writes writes' : Token → Nat}

theorem heldAt_of_get? {id : Token} {target : InitiatorTarget}
    (h : targets.get? id = some target) : heldAt targets id = held target.endpoint := by
  rw [heldAt, h]

theorem heldAt_of_absent {id : Token} (h : targets.get? id = none) : heldAt targets id = 0 := by
  rw [heldAt, h]

/-- Changes in place of the endpoints, and of what they have posted. -/
theorem covered_of_map {g : Token → InitiatorTarget → InitiatorTarget} (hs : Covered targets writes)
    (hget : ∀ id, targets'.get? id = (targets.get? id).map (g id))
    (habsent : ∀ id, targets.get? id = none → writes' id ≤ writes id)
    (hheld : ∀ id target, targets.get? id = some target → writes id ≤ held target.endpoint →
      writes' id ≤ held (g id target).endpoint) :
    Covered targets' writes' := by
  intro id
  have hid := hs id
  cases htarget : targets.get? id with
  | none =>
    rw [heldAt_of_absent htarget] at hid
    have hle := habsent id htarget
    omega
  | some target =>
    have htarget' : targets'.get? id = some (g id target) := by rw [hget, htarget]; rfl
    rw [heldAt_of_get? htarget] at hid
    rw [heldAt_of_get? htarget']
    exact hheld id target htarget hid

theorem covered_addTarget {initiator : RCInitiator} (hs : Covered initiator.targets writes)
    (id : Token) (info : TargetInfoId) : Covered (initiator.addTarget id info).targets writes := by
  intro j
  have hj := hs j
  rw [heldAt, RCInitiator.get?_addTarget]
  by_cases hid : j = id
  · subst hid
    rw [heldAt] at hj
    cases htarget : initiator.targets.get? j with
    | none =>
      rw [htarget] at hj
      simp only [if_true, Option.getD_none]
      exact hj.trans (Nat.zero_le _)
    | some target =>
      rw [htarget] at hj
      simpa using hj
  · rw [if_neg hid]
    exact hj

/-- An endpoint that is evicted has nothing in its counter. -/
theorem covered_evict {initiator : RCInitiator} (hs : Covered initiator.targets writes) :
    Covered initiator.evictDeadEndpoints.targets writes := by
  intro id
  have hid := hs id
  cases htarget : initiator.targets.get? id with
  | none =>
    rw [heldAt_of_absent htarget] at hid
    exact hid.trans (Nat.zero_le _)
  | some target =>
    rw [heldAt_of_get? htarget] at hid
    have hget := RCInitiator.get?_evictDeadEndpoints initiator id
    rw [htarget, Option.filter_some] at hget
    cases hevict : target.endpoint.canEvict with
    | false =>
      rw [hevict] at hget
      rw [heldAt_of_get? hget]
      exact hid
    | true =>
      have hdone : held target.endpoint = 0 := by
        obtain ⟨info, state, pending⟩ := target
        cases state with
        | done => rfl
        | idle _ | connecting | connected | flushing _ => cases hevict
      rw [hdone] at hid
      exact hid.trans (Nat.zero_le _)

theorem covered_forAll {initiator : RCInitiator} {f : RCInitiatorEndpoint → RCInitiatorEndpoint}
    (hs : Covered initiator.targets writes)
    (hheld : ∀ id target, initiator.targets.get? id = some target →
      writes id ≤ held target.endpoint → writes id ≤ held (f target.endpoint)) :
    Covered (initiator.forAll f).targets writes :=
  covered_of_map (g := fun _ => InitiatorTarget.onEndpoint f) hs
    (RCInitiator.get?_forAll initiator f) (fun _ _ => Nat.le_refl _) hheld

end Covered

/-! ### Steps -/

section Steps

variable {s t : System}

theorem undelivered_complete {completion : Completion}
    (hpos : 0 < s.inFlight completion.token) (id : Token) :
    undelivered { s with
      inFlight := Function.update s.inFlight completion.token (s.inFlight completion.token - 1)
      cq := s.cq ++ [completion] } id = undelivered s id := by
  rw [undelivered, undelivered]
  by_cases hid : id = completion.token
  · subst hid
    simp only [Function.update_self, List.countP_append, List.countP_singleton, decide_true,
      if_true]
    omega
  · simp [hid, Ne.symm hid]

theorem undelivered_deliver {completion : Completion} {cq : List Completion}
    (hcq : s.cq = completion :: cq) (id : Token) :
    undelivered s id =
      undelivered { s with cq := cq } id + if id = completion.token then 1 else 0 := by
  rw [undelivered, undelivered, hcq, List.countP_cons]
  by_cases hid : id = completion.token
  · simp [hid, Nat.add_assoc]
  · simp [hid, Ne.symm hid]

/-- The endpoint of a completion has it in its counter. -/
theorem covered_pollCQ {completion : Completion} {cq : List Completion}
    (hs : Covered s.initiator.targets (undelivered s)) (hcq : s.cq = completion :: cq) :
    Covered (s.initiator.pollCQ completion).targets (undelivered { s with cq := cq }) := by
  have hdeliver := undelivered_deliver hcq
  refine covered_of_map hs (s.initiator.get?_pollCQ completion) ?_ ?_
  · intro id _
    rw [hdeliver]
    exact Nat.le_add_right _ _
  · intro id target htarget hle
    rw [hdeliver] at hle
    by_cases hid : id = completion.token
    · simp only [hid, if_true] at hle ⊢
      have hpos : 0 < held target.endpoint := by omega
      have hheld := held_consumeCompletion target.endpoint completion.entry hpos
      change _ ≤ held (target.endpoint.consumeCompletion completion.entry)
      omega
    · simp only [hid, if_false] at hle ⊢
      exact hle

theorem covered_terminateAll (hs : Covered s.initiator.targets (undelivered s))
    (hempty : FlushedEmpty s) : Covered s.initiator.terminateAll.targets (undelivered s) := by
  refine covered_forAll hs ?_
  intro id target htarget hle
  rw [held_terminate target.endpoint (hempty id target htarget)]
  exact hle

theorem covered_pollEQ {id : Token} {event : FabricEvent} {now : Nat}
    (hs : Covered s.initiator.targets (undelivered s))
    (hevent : event = .error → ∀ target, s.initiator.targets.get? id = some target →
      flushing target.endpoint ≠ none → undelivered s id = 0) :
    Covered (s.initiator.pollEQ id event now).targets (undelivered s) := by
  refine covered_of_map hs (s.initiator.get?_pollEQ id event now) (fun _ _ => Nat.le_refl _) ?_
  intro j target htarget hle
  by_cases hj : j = id
  · subst hj
    simp only [if_true]
    by_cases hlost : event = .error ∧ flushing target.endpoint ≠ none
    · rw [hevent hlost.1 target htarget hlost.2]
      exact Nat.zero_le _
    · have hkept : event = .error → flushing target.endpoint = none := by
        intro herror
        by_contra hflushing
        exact hlost ⟨herror, hflushing⟩
      change _ ≤ held (target.endpoint.consume event now)
      rw [held_consume target.endpoint hkept]
      exact hle
  · simp only [hj, if_false]
    exact hle

theorem covered_poll {now : Nat} {expired : Bool}
    (hs : Covered s.initiator.targets (undelivered s)) (hsettled : Settled s (.poll now expired))
    (h : s.Polled now expired t) : Covered t.initiator.targets (undelivered t) := by
  cases h with
  | activated caller hphase =>
    refine covered_forAll hs ?_
    intro id target htarget hle
    rw [held_activate]
    exact hle
  | interrupted caller hphase => exact hs
  | flushed caller hphase hcq =>
    simp only [Settled, SettledPoll, hphase, hcq, forall_const] at hsettled
    exact covered_terminateAll hs hsettled
  | completed caller hphase completion cq hcq => exact covered_pollCQ hs hcq
  | evicted caller hphase heq => exact covered_evict hs
  | dispatched caller hphase id event eq heq =>
    refine covered_pollEQ hs ?_
    intro herror
    simp only [Settled, SettledPoll, hphase, heq] at hsettled
    exact hsettled (id, event) rfl herror
  | timedOut inLoop hphase hcq =>
    simp only [Settled, SettledPoll, hphase, hcq, forall_const] at hsettled
    exact covered_terminateAll hs hsettled
  | unblocked inLoop hphase completion cq hcq initiator hblock =>
    obtain ⟨-, rfl⟩ := RCInitiator.blockOnCQ_eq_some.mp hblock
    exact covered_pollCQ hs hcq
  | undefined inLoop hphase completion cq hcq hblock =>
    intro id
    have hid := hs id
    rw [undelivered_deliver hcq] at hid
    exact (Nat.le_add_right _ _).trans hid

/-- An endpoint that is shut down keeps its counter, or has nothing to complete. -/
theorem le_held_shutdown {writes : Nat} {endpoint : RCInitiatorEndpoint}
    (hle : writes ≤ held endpoint) (hwaiting : waiting endpoint = true → writes = 0) :
    writes ≤ held endpoint.shutdown := by
  cases hwait : waiting endpoint with
  | true =>
    rw [hwaiting hwait]
    exact Nat.zero_le _
  | false =>
    rw [held_shutdown endpoint hwait]
    exact hle

theorem covered_transfer {outcome : Token → PostOutcome}
    (hs : Covered s.initiator.targets (undelivered s)) (hsettled : Settled s (.transfer outcome)) :
    Covered (s.initiator.transfer outcome).targets
      (undelivered { s with inFlight := fun id => s.inFlight id + s.initiator.writes outcome id }) := by
  refine covered_of_map hs (s.initiator.get?_transfer outcome) ?_ ?_
  · intro id hnone
    simp only [undelivered, RCInitiator.writes, hnone, Nat.add_zero, Nat.le_refl]
  · intro id target htarget hle
    rw [undelivered] at hle ⊢
    simp only [RCInitiator.writes, htarget]
    by_cases hreached : s.initiator.reached outcome id = true
    · simp only [hreached, if_true]
      rw [held_transfer_outcome (hsettled id target htarget hreached)]
      omega
    · simp only [hreached, Bool.false_eq_true, if_false, Nat.add_zero]
      exact hle

theorem covered_transferGrainToTarget {id : Token} {outcome : PostOutcome}
    (hs : Covered s.initiator.targets (undelivered s))
    (hsettled : Settled s (.transferGrainToTarget id outcome)) :
    Covered (settle s.initiator (s.initiator.transferGrainToTarget id outcome)).targets
      (undelivered { s with
        inFlight := Function.update s.inFlight id
          (s.inFlight id + s.initiator.writesTo id outcome) }) := by
  refine covered_of_map hs (s.initiator.get?_transferGrainToTarget id outcome) ?_ ?_
  · intro j hnone
    by_cases hj : j = id
    · subst hj
      simp [undelivered, RCInitiator.writesTo, hnone]
    · simp [undelivered, hj]
  · intro j target htarget hle
    rw [undelivered] at hle ⊢
    by_cases hj : j = id
    · subst hj
      simp only [Function.update_self, RCInitiator.writesTo, htarget, if_true]
      rw [held_transfer_outcome (hsettled target htarget)]
      omega
    · simp only [hj, ne_eq, not_false_eq_true, Function.update_of_ne, if_false]
      exact hle

theorem covered_step {a : Action} (hs : Covered s.initiator.targets (undelivered s))
    (hsettled : Settled s a) (h : s.step a = some t) :
    Covered t.initiator.targets (undelivered t) := by
  cases a with
  | addTarget id info =>
    obtain ⟨-, rfl⟩ := System.call_eq_some h
    exact covered_addTarget hs id info
  | removeTarget info =>
    obtain ⟨-, rfl⟩ := System.call_eq_some h
    refine covered_of_map hs (s.initiator.get?_removeTarget info) (fun _ _ => Nat.le_refl _) ?_
    intro id target htarget hle
    by_cases hfind : s.initiator.findTarget info = some id
    · simp only [hfind, if_true]
      exact le_held_shutdown hle (hsettled id target htarget hfind)
    · simp only [hfind, if_false]
      exact hle
  | transfer outcome =>
    obtain ⟨-, rfl⟩ := System.call_eq_some h
    exact covered_transfer hs hsettled
  | transferGrainToTarget id outcome =>
    obtain ⟨-, rfl⟩ := System.call_eq_some h
    exact covered_transferGrainToTarget hs hsettled
  | shutdown =>
    obtain ⟨-, rfl⟩ := System.call_eq_some h
    refine covered_forAll hs ?_
    intro id target htarget hle
    exact le_held_shutdown hle (hsettled id target htarget)
  | makeProgress caller =>
    obtain ⟨-, rfl⟩ := System.makeProgress_eq_some h
    exact hs
  | poll now expired => exact covered_poll hs hsettled (System.polled_of_poll h)
  | complete completion =>
    obtain ⟨hpos, rfl⟩ := System.complete_eq_some h
    intro id
    rw [undelivered_complete hpos]
    exact hs id
  | deliver id event =>
    obtain rfl := Option.some.inj h
    exact hs

/-! ### Returning -/

/-- An initiator without pending work has completed what it counts. -/
theorem finished_of_no_work (hs : Covered s.initiator.targets (undelivered s))
    (hwork : s.initiator.hasPendingWork = false) : Finished s := by
  have hnone : ∀ id target, s.initiator.targets.get? id = some target →
      target.endpoint.hasPendingWork = false := by
    intro id target htarget
    rw [← Bool.not_eq_true]
    intro htrue
    have hany := (OrderedMap.any_eq_true s.initiator.targets
      (p := fun _ target => target.endpoint.hasPendingWork)).mpr ⟨id, target, htarget, htrue⟩
    rw [RCInitiator.hasPendingWork, hany] at hwork
    cases hwork
  intro id
  have hid := hs id
  cases htarget : s.initiator.targets.get? id with
  | none =>
    rw [heldAt_of_absent htarget] at hid
    exact ⟨Nat.le_zero.mp hid, fun target h => by cases h⟩
  | some target =>
    have hidle := hnone id target htarget
    rw [heldAt_of_get? htarget] at hid
    obtain ⟨info, state, pending⟩ := target
    cases state with
    | idle _ | connecting | flushing _ => cases hidle
    | done =>
      refine ⟨Nat.le_zero.mp hid, ?_⟩
      rintro target ⟨⟩
      exact EndpointState.noConfusion
    | connected =>
      have hzero : pending = 0 := by
        simpa [RCInitiatorEndpoint.hasPendingWork] using hidle
      rw [hzero] at hid
      refine ⟨Nat.le_zero.mp hid, ?_⟩
      rintro target ⟨⟩
      exact EndpointState.noConfusion

theorem ready_afterProgress {initiator : RCInitiator} {expired : Bool} {caller : Caller}
    (h : afterProgress initiator expired caller = .ready (some false)) :
    initiator.hasPendingWork = false := by
  cases caller with
  | direct => simpa [afterProgress] using h
  | short zero => cases zero <;> cases h
  | loop =>
    rw [afterProgress] at h
    split at h
    · cases h
    · simpa using h

theorem ready_afterBlock {initiator : RCInitiator} {inLoop : Bool}
    (h : afterBlock initiator inLoop = .ready (some false)) :
    initiator.hasPendingWork = false := by
  cases inLoop with
  | true => cases h
  | false => simpa [afterBlock] using h

/-- Only a call in progress returns, and what it returns is `hasPendingWork`. -/
theorem returned_false {a : Action} (h : s.step a = some t) (hbusy : busy s.phase = true)
    (hreturned : t.phase = .ready (some false)) : t.initiator.hasPendingWork = false := by
  have hcall : ∀ next, s.call next ≠ some t := by
    intro next hcall
    obtain ⟨⟨returned, hready⟩, -⟩ := System.call_eq_some hcall
    rw [hready] at hbusy
    cases hbusy
  cases a with
  | addTarget | removeTarget | transfer | transferGrainToTarget | shutdown => exact absurd h (hcall _)
  | makeProgress caller =>
    obtain ⟨-, rfl⟩ := System.makeProgress_eq_some h
    cases hreturned
  | complete completion =>
    obtain ⟨-, rfl⟩ := System.complete_eq_some h
    change s.phase = _ at hreturned
    rw [hreturned] at hbusy
    cases hbusy
  | deliver id event =>
    obtain rfl := Option.some.inj h
    change s.phase = _ at hreturned
    rw [hreturned] at hbusy
    cases hbusy
  | poll now expired =>
    cases System.polled_of_poll h with
    | activated | interrupted | flushed | undefined => cases hreturned
    | completed caller hphase | dispatched caller hphase =>
      change s.phase = _ at hreturned
      rw [hphase] at hreturned
      cases hreturned
    | evicted caller hphase heq => exact ready_afterProgress hreturned
    | timedOut inLoop hphase hcq => exact ready_afterBlock hreturned
    | unblocked inLoop hphase completion cq hcq initiator hblock =>
      exact ready_afterBlock hreturned

/-! ### Leaving the flushing state -/

/-- A transition that does not end the flushing of an endpoint. -/
def StaysFlushing (f : RCInitiatorEndpoint → RCInitiatorEndpoint) : Prop :=
  ∀ endpoint pending, flushing endpoint = some pending → (f endpoint).state ≠ .done

/-- The flushing endpoint with its counter. -/
theorem state_of_flushing {endpoint : RCInitiatorEndpoint} {pending : UInt64}
    (h : flushing endpoint = some pending) : endpoint.state = .flushing pending := by
  obtain ⟨state, counter⟩ := endpoint
  cases state with
  | flushing p =>
    obtain rfl := Option.some.inj h
    rfl
  | idle _ | connecting | connected | done => cases h

theorem staysFlushing_of_state {f : RCInitiatorEndpoint → RCInitiatorEndpoint}
    (h : ∀ pending counter, ∃ p, (f ⟨.flushing pending, counter⟩).state = .flushing p) :
    StaysFlushing f := by
  intro endpoint pending hflushing
  have hstate := state_of_flushing hflushing
  obtain ⟨state, counter⟩ := endpoint
  obtain rfl : state = .flushing pending := hstate
  obtain ⟨p, hp⟩ := h pending counter
  rw [hp]
  exact EndpointState.noConfusion

theorem staysFlushing_activate (now : Nat) :
    StaysFlushing fun endpoint => endpoint.activate now :=
  staysFlushing_of_state fun pending _ => ⟨pending, rfl⟩

theorem staysFlushing_shutdown : StaysFlushing RCInitiatorEndpoint.shutdown :=
  staysFlushing_of_state fun pending _ => ⟨pending, rfl⟩

theorem staysFlushing_consumeCompletion (entry : CompletionEntry) :
    StaysFlushing fun endpoint => endpoint.consumeCompletion entry := by
  apply staysFlushing_of_state
  intro pending counter
  cases entry with
  | data => exact ⟨pending - 1, rfl⟩
  | error => exact ⟨pending, rfl⟩

theorem staysFlushing_consume {event : FabricEvent} (now : Nat) (h : event ≠ .error) :
    StaysFlushing fun endpoint => endpoint.consume event now := by
  apply staysFlushing_of_state
  intro pending counter
  cases event with
  | error => exact absurd rfl h
  | connected | shutdown | other => exact ⟨pending, rfl⟩

/-- `terminate` ends the flushing; where the queue is found empty only with empty
    counters, it ends nothing early. -/
theorem flushed_terminateAll (hempty : FlushedEmpty s) {id : Token} {target : InitiatorTarget}
    {pending : UInt64} (htarget : s.initiator.targets.get? id = some target)
    (hflushing : flushing target.endpoint = some pending) : pending = 0 := by
  have hzero := hempty id target htarget (by rw [hflushing]; exact Option.some_ne_none pending)
  rw [hflushing] at hzero
  exact Option.some.inj hzero

theorem staysFlushing_id : StaysFlushing id :=
  staysFlushing_of_state fun pending _ => ⟨pending, rfl⟩

theorem staysFlushing_transfer (writes : UInt64) :
    StaysFlushing fun endpoint => endpoint.transfer writes :=
  staysFlushing_of_state fun pending _ => ⟨pending, rfl⟩

/-- A change in place of the endpoints that lets the flushing ones flush. -/
theorem not_done_of_map {targets targets' : OrderedMap Token InitiatorTarget}
    {g : Token → InitiatorTarget → InitiatorTarget} {id : Token} {target target' : InitiatorTarget}
    {pending : UInt64} (hget : targets'.get? id = (targets.get? id).map (g id))
    (hg : ∃ f, StaysFlushing f ∧ (g id target).endpoint = f target.endpoint)
    (htarget : targets.get? id = some target) (hflushing : flushing target.endpoint = some pending)
    (htarget' : targets'.get? id = some target') : target'.endpoint.state ≠ .done := by
  rw [htarget] at hget
  obtain rfl : g id target = target' := Option.some.inj (hget.symm.trans htarget')
  obtain ⟨f, hstays, hf⟩ := hg
  rw [hf]
  exact hstays target.endpoint pending hflushing

/-- A change of one endpoint. -/
theorem staysFlushing_ite {c : Prop} [Decidable c] {target : InitiatorTarget}
    {f : RCInitiatorEndpoint → RCInitiatorEndpoint} (hf : StaysFlushing f) :
    ∃ f', StaysFlushing f' ∧
      (if c then target.onEndpoint f else target).endpoint = f' target.endpoint := by
  by_cases hc : c
  · exact ⟨f, hf, by rw [if_pos hc]; rfl⟩
  · exact ⟨id, staysFlushing_id, by rw [if_neg hc]; rfl⟩

theorem staysFlushing_outcome (target : InitiatorTarget) (outcome : PostOutcome) :
    ∃ f, StaysFlushing f ∧ (target.transfer outcome).endpoint = f target.endpoint := by
  cases outcome with
  | posted writes => exact ⟨_, staysFlushing_transfer writes, rfl⟩
  | thrown writes => exact ⟨id, staysFlushing_id, rfl⟩

section Flushed

variable {id : Token} {target target' : InitiatorTarget} {pending : UInt64}

theorem flushed_poll {now : Nat} {expired : Bool} (hsettled : Settled s (.poll now expired))
    (h : s.Polled now expired t) (htarget : s.initiator.targets.get? id = some target)
    (hflushing : flushing target.endpoint = some pending)
    (htarget' : t.initiator.targets.get? id = some target')
    (hdone : target'.endpoint.state = .done) :
    pending = 0 ∨ ∃ caller eq, s.phase = .pollEQ caller ∧ s.eq = (id, .error) :: eq := by
  cases h with
  | activated caller hphase =>
    have hget := s.initiator.get?_forAll (fun endpoint => endpoint.activate now) id
    exact absurd hdone (not_done_of_map (g := fun _ => _) hget ⟨_, staysFlushing_activate now, rfl⟩
      htarget hflushing htarget')
  | interrupted caller hphase =>
    obtain rfl := Option.some.inj (htarget.symm.trans htarget')
    rw [state_of_flushing hflushing] at hdone
    cases hdone
  | flushed caller hphase hcq =>
    simp only [Settled, SettledPoll, hphase, hcq, forall_const] at hsettled
    exact Or.inl (flushed_terminateAll hsettled htarget hflushing)
  | timedOut inLoop hphase hcq =>
    simp only [Settled, SettledPoll, hphase, hcq, forall_const] at hsettled
    exact Or.inl (flushed_terminateAll hsettled htarget hflushing)
  | completed caller hphase completion cq hcq =>
    have hget := s.initiator.get?_pollCQ completion id
    exact absurd hdone (not_done_of_map (g := fun _ => _) hget
      (staysFlushing_ite (staysFlushing_consumeCompletion _)) htarget hflushing htarget')
  | unblocked inLoop hphase completion cq hcq initiator hblock =>
    obtain ⟨-, rfl⟩ := RCInitiator.blockOnCQ_eq_some.mp hblock
    have hget := s.initiator.get?_pollCQ completion id
    exact absurd hdone (not_done_of_map (g := fun _ => _) hget
      (staysFlushing_ite (staysFlushing_consumeCompletion _)) htarget hflushing htarget')
  | evicted caller hphase heq =>
    change s.initiator.evictDeadEndpoints.targets.get? id = some target' at htarget'
    rw [RCInitiator.get?_evictDeadEndpoints, Option.filter_eq_some_iff] at htarget'
    obtain rfl := Option.some.inj (htarget.symm.trans htarget'.1)
    rw [state_of_flushing hflushing] at hdone
    cases hdone
  | undefined inLoop hphase completion cq hcq hblock =>
    obtain rfl := Option.some.inj (htarget.symm.trans htarget')
    rw [state_of_flushing hflushing] at hdone
    cases hdone
  | dispatched caller hphase j event eq heq =>
    by_cases herror : event = .error ∧ j = id
    · obtain ⟨rfl, rfl⟩ := herror
      exact Or.inr ⟨caller, eq, hphase, heq⟩
    · have hget := s.initiator.get?_pollEQ j event now id
      refine absurd hdone (not_done_of_map (g := fun _ => _) hget ?_ htarget hflushing htarget')
      by_cases hid : id = j
      · have hevent : event ≠ .error := fun he => herror ⟨he, hid.symm⟩
        exact staysFlushing_ite (staysFlushing_consume now hevent)
      · exact ⟨_, staysFlushing_id, by rw [if_neg hid]; rfl⟩

theorem flushed_step {a : Action} (hsettled : Settled s a) (h : s.step a = some t)
    (htarget : s.initiator.targets.get? id = some target)
    (hflushing : flushing target.endpoint = some pending)
    (htarget' : t.initiator.targets.get? id = some target')
    (hdone : target'.endpoint.state = .done) :
    pending = 0 ∨ ∃ caller eq, s.phase = .pollEQ caller ∧ s.eq = (id, .error) :: eq := by
  have hsame : s.initiator = t.initiator → pending = 0 := by
    intro hinitiator
    rw [← hinitiator, htarget] at htarget'
    obtain rfl := Option.some.inj htarget'
    rw [state_of_flushing hflushing] at hdone
    cases hdone
  cases a with
  | addTarget j info =>
    obtain ⟨-, rfl⟩ := System.call_eq_some h
    have hget := s.initiator.get?_addTarget j info id
    change (s.initiator.addTarget j info).targets.get? id = _ at htarget'
    rw [htarget'] at hget
    refine Or.inl ?_
    by_cases hid : id = j
    · subst hid
      rw [if_pos rfl, htarget, Option.getD_some] at hget
      obtain rfl := Option.some.inj hget
      rw [state_of_flushing hflushing] at hdone
      cases hdone
    · rw [if_neg hid, htarget] at hget
      obtain rfl := Option.some.inj hget
      rw [state_of_flushing hflushing] at hdone
      cases hdone
  | removeTarget info =>
    obtain ⟨-, rfl⟩ := System.call_eq_some h
    have hget := s.initiator.get?_removeTarget info id
    exact absurd hdone (not_done_of_map (g := fun _ => _) hget
      (staysFlushing_ite staysFlushing_shutdown) htarget hflushing htarget')
  | transfer outcome =>
    obtain ⟨-, rfl⟩ := System.call_eq_some h
    have hget := s.initiator.get?_transfer outcome id
    refine absurd hdone (not_done_of_map (g := fun _ => _) hget ?_ htarget hflushing htarget')
    split
    · exact staysFlushing_outcome target (outcome id)
    · exact ⟨_, staysFlushing_id, rfl⟩
  | transferGrainToTarget j outcome =>
    obtain ⟨-, rfl⟩ := System.call_eq_some h
    have hget := s.initiator.get?_transferGrainToTarget j outcome id
    refine absurd hdone (not_done_of_map (g := fun _ => _) hget ?_ htarget hflushing htarget')
    split
    · exact staysFlushing_outcome target outcome
    · exact ⟨_, staysFlushing_id, rfl⟩
  | shutdown =>
    obtain ⟨-, rfl⟩ := System.call_eq_some h
    have hget := s.initiator.get?_forAll RCInitiatorEndpoint.shutdown id
    exact absurd hdone (not_done_of_map (g := fun _ => _) hget ⟨_, staysFlushing_shutdown, rfl⟩
      htarget hflushing htarget')
  | makeProgress caller =>
    obtain ⟨-, rfl⟩ := System.makeProgress_eq_some h
    exact Or.inl (hsame rfl)
  | poll now expired =>
    exact flushed_poll hsettled (System.polled_of_poll h) htarget hflushing htarget' hdone
  | complete completion =>
    obtain ⟨-, rfl⟩ := System.complete_eq_some h
    exact Or.inl (hsame rfl)
  | deliver j event =>
    obtain rfl := Option.some.inj h
    exact Or.inl (hsame rfl)

end Flushed

end Steps

/-! ### Runs -/

theorem covered_init : Covered System.init.initiator.targets (undelivered System.init) :=
  fun _ => Nat.le_refl 0

/-- In a run that keeps every write in a counter, `false` means that everything is
    done, and no endpoint gives up flushing. -/
theorem finished_of_settled (actions : List Action)
    (h : Along System.step Settled .init actions) :
    Along System.step Reliable .init actions := by
  refine along_of_invariant (I := fun s => Covered s.initiator.targets (undelivered s))
    (fun s a t hs hsettled hstep => covered_step hs hsettled hstep) ?_ covered_init h
  intro s a t hs hsettled hstep
  refine ⟨?_, ?_⟩
  · intro u hu hbusy hreturned
    exact finished_of_no_work (covered_step hs hsettled hu) (returned_false hu hbusy hreturned)
  · intro u hu id target target' pending htarget hflushing htarget' hdone
    exact flushed_step hsettled hu htarget hflushing htarget' hdone

/-- A target is added, connected, and gets a write, which the fabric completes. -/
def completedRun : List Action :=
  [.addTarget 1 7, .makeProgress .direct, .poll 5000000000 false, .poll 5000000000 false,
    .deliver 1 .connected, .poll 5000000000 false, .poll 5000000000 false,
    .transfer fun _ => .posted 1, .makeProgress .direct, .poll 5000000000 false,
    .complete ⟨1, .data⟩, .poll 5000000000 false, .poll 5000000000 false, .poll 5000000000 false]

theorem finished_of_completedRun :
    (∃ s, LabelledRun.run System.step .init completedRun = some s ∧ s.phase = .ready (some false)) ∧
      Along System.step Reliable .init completedRun :=
  ⟨⟨_, rfl, by decide⟩, finished_of_settled completedRun (by decide)⟩

/-- A target is removed while a write to it is under way. -/
def earlyFlushRun : List Action :=
  [.addTarget 1 7, .makeProgress .direct, .poll 5000000000 false, .poll 5000000000 false,
    .deliver 1 .connected, .poll 5000000000 false, .poll 5000000000 false,
    .transfer fun _ => .posted 1, .removeTarget 7, .makeProgress .direct,
    .poll 5000000000 false, .poll 5000000000 false]

/-- The queue of completions is found empty, the endpoint is done, and `makeProgress`
    returns `false`, with the write still under way. -/
theorem flushing_given_up :
    ¬ Along System.step Reliable .init (earlyFlushRun ++ [.poll 5000000000 false]) ∧
      ∃ s, LabelledRun.run System.step .init (earlyFlushRun ++ [.poll 5000000000 false]) = some s ∧
        s.phase = .ready (some false) ∧ s.inFlight 1 = 1 ∧ s.cq = [] := by
  constructor
  · intro h
    obtain ⟨s, hrun⟩ : ∃ s, LabelledRun.run System.step .init earlyFlushRun = some s := ⟨_, rfl⟩
    have hlast := h.drop hrun
    obtain rfl := Option.some.inj hrun
    have hfinished := (hlast _ rfl).1.finished _ rfl rfl (by decide)
    have hzero := (hfinished 1).1
    revert hzero
    decide
  · exact ⟨_, rfl, by decide, by decide, by decide⟩

end MediaExchange.FinishedProgress
