/-
  MediaExchange/InitiatorProgress.lean
  ====================================
  **An initiator, its fabric, and the calls made on it** (`RCInitiator.cpp`).

  The initiator keeps its endpoints by their ids, which are also the tokens of the
  writes they post.  The user adds and removes targets, transfers, and calls
  `makeProgress` or `makeProgressBlocking`; these walk through their phases, one
  entry of a queue at a time, so that the fabric can complete writes and deliver
  events in between.

  The fabric holds the writes that are posted (`inFlight`, by token), the queue of
  completions and the queue of events.  Its calls succeed here; what a failing one
  leaves behind is a matter of its own.
-/
import MediaExchange.Library.LabelledRun
import MediaExchange.Library.OrderedMap
import MediaExchange.RCInitiator

namespace MediaExchange

/-- An endpoint of the initiator's map, with the id of its `TargetInfo`. -/
structure InitiatorTarget where
  info : TargetInfoId
  endpoint : RCInitiatorEndpoint
deriving DecidableEq, Repr

namespace InitiatorTarget

def transfer (target : InitiatorTarget) : PostOutcome → InitiatorTarget
  | .posted writes => { target with endpoint := target.endpoint.transfer writes }
  | .thrown _ => target

/-- The number of writes that a transfer leaves on the fabric. -/
def writes (target : InitiatorTarget) (outcome : PostOutcome) : Nat :=
  if target.endpoint.isConnected then outcome.writes else 0

def throws (target : InitiatorTarget) : PostOutcome → Bool
  | .posted _ => false
  | .thrown _ => target.endpoint.isConnected

def onEndpoint (f : RCInitiatorEndpoint → RCInitiatorEndpoint) (target : InitiatorTarget) :
    InitiatorTarget :=
  { target with endpoint := f target.endpoint }

end InitiatorTarget

structure RCInitiator where
  targets : OrderedMap Token InitiatorTarget

namespace RCInitiator

/-- `addTarget`, of an endpoint that was created with the id `id`. -/
def addTarget (initiator : RCInitiator) (id : Token) (info : TargetInfoId) : RCInitiator :=
  { targets := initiator.targets.emplace id { info := info, endpoint := .init } }

/-- The endpoint that `removeTarget` looks up. -/
def findTarget (initiator : RCInitiator) (info : TargetInfoId) : Option Token :=
  initiator.targets.findKey? fun _ target => decide (target.info = info)

def removeTarget (initiator : RCInitiator) (info : TargetInfoId) :
    Except FabricsException RCInitiator :=
  match initiator.findTarget info with
  | some id =>
      .ok { targets := initiator.targets.modify id
              (InitiatorTarget.onEndpoint RCInitiatorEndpoint.shutdown) }
  | none => .error (.notFound ("Target with id " ++ toString info ++ " not found"))

/-- The endpoint a transfer to all targets throws at: the ones after it are not
    reached. -/
def throwsAt (initiator : RCInitiator) (outcome : Token → PostOutcome) : Option Token :=
  initiator.targets.findKey? fun id target => target.throws (outcome id)

def reached (initiator : RCInitiator) (outcome : Token → PostOutcome) (id : Token) : Bool :=
  match initiator.throwsAt outcome with
  | none => true
  | some last => decide (id ≤ last)

/-- `transferGrain` and `transferSamples`: the endpoints one after the other. -/
def transfer (initiator : RCInitiator) (outcome : Token → PostOutcome) : RCInitiator :=
  { targets := initiator.targets.map fun id target =>
      if initiator.reached outcome id then target.transfer (outcome id) else target }

/-- The writes that a transfer leaves on the fabric, by token. -/
def writes (initiator : RCInitiator) (outcome : Token → PostOutcome) (id : Token) : Nat :=
  match initiator.targets.get? id with
  | none => 0
  | some target => if initiator.reached outcome id then target.writes (outcome id) else 0

/-- `transferGrainToTarget`. -/
def transferGrainToTarget (initiator : RCInitiator) (id : Token) (outcome : PostOutcome) :
    Except FabricsException RCInitiator :=
  match initiator.targets.get? id with
  | none => .error (.notFound ("Target with id " ++ toString id ++ " not found"))
  | some _ => .ok { targets := initiator.targets.modify id fun target => target.transfer outcome }

/-- The writes that a transfer to one endpoint leaves on the fabric. -/
def writesTo (initiator : RCInitiator) (id : Token) (outcome : PostOutcome) : Nat :=
  match initiator.targets.get? id with
  | none => 0
  | some target => target.writes outcome

def hasPendingWork (initiator : RCInitiator) : Bool :=
  initiator.targets.any fun _ target => target.endpoint.hasPendingWork

def hasTarget (initiator : RCInitiator) : Bool := !initiator.targets.isEmpty

/-- A function called on every endpoint. -/
def forAll (initiator : RCInitiator) (f : RCInitiatorEndpoint → RCInitiatorEndpoint) :
    RCInitiator :=
  { targets := initiator.targets.map fun _ => InitiatorTarget.onEndpoint f }

def activateIdleEndpoints (initiator : RCInitiator) (now : Nat) : RCInitiator :=
  initiator.forAll fun endpoint => endpoint.activate now

/-- What `blockOnCQ` and `pollCQ` do when the completion queue is empty. -/
def terminateAll (initiator : RCInitiator) : RCInitiator :=
  initiator.forAll RCInitiatorEndpoint.terminate

def shutdown (initiator : RCInitiator) : RCInitiator :=
  initiator.forAll RCInitiatorEndpoint.shutdown

def evictDeadEndpoints (initiator : RCInitiator) : RCInitiator :=
  { targets := initiator.targets.eraseIf fun _ target => target.endpoint.canEvict }

/-- The endpoint of a completion or of an event consumes it. -/
def consume (initiator : RCInitiator) (id : Token)
    (f : RCInitiatorEndpoint → RCInitiatorEndpoint) : RCInitiator :=
  { targets := initiator.targets.modify id (InitiatorTarget.onEndpoint f) }

/-- The body of the loop of `pollCQ`: the completion of an endpoint that is not in
    the map is skipped. -/
def pollCQ (initiator : RCInitiator) (completion : Completion) : RCInitiator :=
  match initiator.targets.get? completion.token with
  | none => initiator
  | some _ =>
      initiator.consume completion.token fun endpoint =>
        endpoint.consumeCompletion completion.entry

/-- `blockOnCQ` on a completion.  Of an endpoint that is not in the map it logs a
    warning too, but goes on to call `consume` on what `find` has returned, the
    end of the map: the behaviour is undefined. -/
def blockOnCQ (initiator : RCInitiator) (completion : Completion) : Option RCInitiator :=
  match initiator.targets.get? completion.token with
  | none => none
  | some _ =>
      some (initiator.consume completion.token fun endpoint =>
        endpoint.consumeCompletion completion.entry)

/-- The body of the loop of `pollEQ`. -/
def pollEQ (initiator : RCInitiator) (id : Token) (event : FabricEvent) (now : Nat) :
    RCInitiator :=
  match initiator.targets.get? id with
  | none => initiator
  | some _ => initiator.consume id fun endpoint => endpoint.consume event now

end RCInitiator

/-! ### The system -/

namespace InitiatorProgress

/-- What happens when `makeProgress` is through: it was called by the user
    (`direct`), by `makeProgressBlocking` with a timeout below the interval of the
    event queue, which may be zero (`short`), or by the loop of
    `makeProgressBlocking` (`loop`). -/
inductive Caller where
  | direct
  | short (zero : Bool)
  | loop
deriving DecidableEq, Repr

inductive Phase where
  /-- No call is made; `returned` is what a call of one of the two has just
      returned, if it did. -/
  | ready (returned : Option Bool)
  | activate (caller : Caller)
  | pollCQ (caller : Caller)
  | pollEQ (caller : Caller)
  | blockOnCQ (inLoop : Bool)
  /-- An endpoint that is not in the map has been accessed. -/
  | undefined
deriving DecidableEq, Repr

structure System where
  initiator : RCInitiator
  /-- The writes without a completion, by token. -/
  inFlight : Token → Nat
  cq : List Completion
  eq : List (Token × FabricEvent)
  phase : Phase

def System.init : System where
  initiator := { targets := .empty }
  inFlight := fun _ => 0
  cq := []
  eq := []
  phase := .ready none

inductive Action where
  | addTarget (id : Token) (info : TargetInfoId)
  | removeTarget (info : TargetInfoId)
  | transfer (outcome : Token → PostOutcome)
  | transferGrainToTarget (id : Token) (outcome : PostOutcome)
  | shutdown
  | makeProgress (caller : Caller)
  /-- The call in progress goes on, or looks at its queue; `expired` says whether
      the deadline has passed. -/
  | poll (now : Nat) (expired : Bool)
  /-- The fabric completes a write. -/
  | complete (completion : Completion)
  /-- The fabric delivers an event. -/
  | deliver (id : Token) (event : FabricEvent)

/-- `makeProgress` has evicted the dead endpoints and is through. -/
def afterProgress (initiator : RCInitiator) (expired : Bool) : Caller → Phase
  | .direct => .ready (some initiator.hasPendingWork)
  -- `blockOnCQ` with a timeout of zero calls `makeProgress` once more.
  | .short true => .activate .direct
  | .short false => .blockOnCQ false
  | .loop =>
      if initiator.hasPendingWork && !expired then .blockOnCQ true
      else .ready (some initiator.hasPendingWork)

/-- `blockOnCQ` is through. -/
def afterBlock (initiator : RCInitiator) (inLoop : Bool) : Phase :=
  if inLoop then .activate .loop else .ready (some initiator.hasPendingWork)

/-- What is left if a call may have thrown. -/
def settle (initiator : RCInitiator) : Except FabricsException RCInitiator → RCInitiator
  | .ok next => next
  | .error _ => initiator

namespace System

/-- The call in progress takes its next step. -/
def poll (s : System) (now : Nat) (expired : Bool) : Option System :=
  match s.phase with
  | .ready _ => none
  | .undefined => none
  | .activate caller =>
      if s.initiator.hasTarget then
        some { s with initiator := s.initiator.activateIdleEndpoints now, phase := .pollCQ caller }
      else
        -- `Exception::interrupted`
        some { s with phase := .ready none }
  | .pollCQ caller =>
      match s.cq with
      | [] => some { s with initiator := s.initiator.terminateAll, phase := .pollEQ caller }
      | completion :: cq => some { s with initiator := s.initiator.pollCQ completion, cq := cq }
  | .pollEQ caller =>
      match s.eq with
      | [] =>
          let initiator := s.initiator.evictDeadEndpoints
          some { s with initiator := initiator, phase := afterProgress initiator expired caller }
      | (id, event) :: eq =>
          some { s with initiator := s.initiator.pollEQ id event now, eq := eq }
  | .blockOnCQ inLoop =>
      match s.cq with
      | [] =>
          let initiator := s.initiator.terminateAll
          some { s with initiator := initiator, phase := afterBlock initiator inLoop }
      | completion :: cq =>
          match s.initiator.blockOnCQ completion with
          | none => some { s with cq := cq, phase := .undefined }
          | some initiator =>
              some { s with initiator := initiator, cq := cq, phase := afterBlock initiator inLoop }

/-- A call of the user's, when none is in progress. -/
def call (s : System) (next : System) : Option System :=
  match s.phase with
  | .ready _ => some { next with phase := .ready none }
  | _ => none

def step (s : System) : Action → Option System
  | .addTarget id info => s.call { s with initiator := s.initiator.addTarget id info }
  | .removeTarget info =>
      s.call { s with initiator := settle s.initiator (s.initiator.removeTarget info) }
  | .transfer outcome =>
      s.call { s with
        initiator := s.initiator.transfer outcome
        inFlight := fun id => s.inFlight id + s.initiator.writes outcome id }
  | .transferGrainToTarget id outcome =>
      s.call { s with
        initiator := settle s.initiator (s.initiator.transferGrainToTarget id outcome)
        inFlight := Function.update s.inFlight id
          (s.inFlight id + s.initiator.writesTo id outcome) }
  | .shutdown => s.call { s with initiator := s.initiator.shutdown }
  | .makeProgress caller =>
      (s.call s).map fun s => { s with phase := .activate caller }
  | .poll now expired => s.poll now expired
  | .complete completion =>
      if 0 < s.inFlight completion.token then
        some { s with
          inFlight := Function.update s.inFlight completion.token
            (s.inFlight completion.token - 1)
          cq := s.cq ++ [completion] }
      else none
  | .deliver id event => some { s with eq := s.eq ++ [(id, event)] }

/-- What the next step of the call in progress can be. -/
inductive Polled (s : System) (now : Nat) (expired : Bool) : System → Prop where
  | activated (caller : Caller) (hphase : s.phase = .activate caller) :
      Polled s now expired
        { s with initiator := s.initiator.activateIdleEndpoints now, phase := .pollCQ caller }
  | interrupted (caller : Caller) (hphase : s.phase = .activate caller) :
      Polled s now expired { s with phase := .ready none }
  | flushed (caller : Caller) (hphase : s.phase = .pollCQ caller) (hcq : s.cq = []) :
      Polled s now expired
        { s with initiator := s.initiator.terminateAll, phase := .pollEQ caller }
  | completed (caller : Caller) (hphase : s.phase = .pollCQ caller) (completion : Completion)
      (cq : List Completion) (hcq : s.cq = completion :: cq) :
      Polled s now expired { s with initiator := s.initiator.pollCQ completion, cq := cq }
  | evicted (caller : Caller) (hphase : s.phase = .pollEQ caller) (heq : s.eq = []) :
      Polled s now expired
        { s with initiator := s.initiator.evictDeadEndpoints,
                 phase := afterProgress s.initiator.evictDeadEndpoints expired caller }
  | dispatched (caller : Caller) (hphase : s.phase = .pollEQ caller) (id : Token)
      (event : FabricEvent) (eq : List (Token × FabricEvent)) (heq : s.eq = (id, event) :: eq) :
      Polled s now expired { s with initiator := s.initiator.pollEQ id event now, eq := eq }
  | timedOut (inLoop : Bool) (hphase : s.phase = .blockOnCQ inLoop) (hcq : s.cq = []) :
      Polled s now expired
        { s with initiator := s.initiator.terminateAll,
                 phase := afterBlock s.initiator.terminateAll inLoop }
  | unblocked (inLoop : Bool) (hphase : s.phase = .blockOnCQ inLoop) (completion : Completion)
      (cq : List Completion) (hcq : s.cq = completion :: cq) (initiator : RCInitiator)
      (hblock : s.initiator.blockOnCQ completion = some initiator) :
      Polled s now expired
        { s with initiator := initiator, cq := cq, phase := afterBlock initiator inLoop }
  | undefined (inLoop : Bool) (hphase : s.phase = .blockOnCQ inLoop) (completion : Completion)
      (cq : List Completion) (hcq : s.cq = completion :: cq)
      (hblock : s.initiator.blockOnCQ completion = none) :
      Polled s now expired { s with cq := cq, phase := .undefined }

variable {s t : System}

theorem polled_of_poll {now : Nat} {expired : Bool} (h : s.poll now expired = some t) :
    Polled s now expired t := by
  rw [poll] at h
  split at h
  · cases h
  · cases h
  · next caller hphase =>
    split at h
    · obtain rfl := Option.some.inj h
      exact .activated caller hphase
    · obtain rfl := Option.some.inj h
      exact .interrupted caller hphase
  · next caller hphase =>
    split at h
    · next hcq =>
      obtain rfl := Option.some.inj h
      exact .flushed caller hphase hcq
    · next completion cq hcq =>
      obtain rfl := Option.some.inj h
      exact .completed caller hphase completion cq hcq
  · next caller hphase =>
    split at h
    · next heq =>
      obtain rfl := Option.some.inj h
      exact .evicted caller hphase heq
    · next id event eq heq =>
      obtain rfl := Option.some.inj h
      exact .dispatched caller hphase id event eq heq
  · next inLoop hphase =>
    split at h
    · next hcq =>
      obtain rfl := Option.some.inj h
      exact .timedOut inLoop hphase hcq
    · next completion cq hcq =>
      split at h
      · next hblock =>
        obtain rfl := Option.some.inj h
        exact .undefined inLoop hphase completion cq hcq hblock
      · next initiator hblock =>
        obtain rfl := Option.some.inj h
        exact .unblocked inLoop hphase completion cq hcq initiator hblock

theorem call_eq_some {next : System} (h : s.call next = some t) :
    (∃ returned, s.phase = .ready returned) ∧ t = { next with phase := .ready none } := by
  rw [call] at h
  split at h
  · next returned hphase => exact ⟨⟨returned, hphase⟩, (Option.some.inj h).symm⟩
  · cases h

theorem makeProgress_eq_some {caller : Caller} (h : s.step (.makeProgress caller) = some t) :
    (∃ returned, s.phase = .ready returned) ∧ t = { s with phase := .activate caller } := by
  rw [step, Option.map_eq_some_iff] at h
  obtain ⟨next, hcall, rfl⟩ := h
  obtain ⟨hready, rfl⟩ := call_eq_some hcall
  exact ⟨hready, rfl⟩

theorem complete_eq_some {completion : Completion} (h : s.step (.complete completion) = some t) :
    0 < s.inFlight completion.token ∧
      t = { s with
        inFlight := Function.update s.inFlight completion.token
          (s.inFlight completion.token - 1)
        cq := s.cq ++ [completion] } := by
  rw [step, Option.ite_none_right_eq_some] at h
  exact ⟨h.1, (Option.some.inj h.2).symm⟩

end System

end InitiatorProgress

/-! ### What the functions of the initiator do to an endpoint -/

namespace RCInitiator

variable (initiator : RCInitiator)

@[simp] theorem get?_forAll (f : RCInitiatorEndpoint → RCInitiatorEndpoint) (id : Token) :
    (initiator.forAll f).targets.get? id =
      (initiator.targets.get? id).map (InitiatorTarget.onEndpoint f) :=
  OrderedMap.get?_map initiator.targets _ id

theorem get?_consume (id : Token) (f : RCInitiatorEndpoint → RCInitiatorEndpoint) (j : Token) :
    (initiator.consume id f).targets.get? j =
      (initiator.targets.get? j).map fun target =>
        if j = id then target.onEndpoint f else target :=
  OrderedMap.get?_modify initiator.targets id _ j

theorem get?_pollCQ (completion : Completion) (j : Token) :
    (initiator.pollCQ completion).targets.get? j =
      (initiator.targets.get? j).map fun target =>
        if j = completion.token then
          target.onEndpoint fun endpoint => endpoint.consumeCompletion completion.entry
        else target := by
  rw [pollCQ]
  split
  · next hnone =>
    by_cases hj : j = completion.token
    · rw [hj, hnone]
      rfl
    · simp [hj]
  · exact get?_consume initiator _ _ j

theorem blockOnCQ_eq_some {initiator next : RCInitiator} {completion : Completion} :
    initiator.blockOnCQ completion = some next ↔
      (initiator.targets.get? completion.token).isSome = true ∧
        next = initiator.pollCQ completion := by
  rw [blockOnCQ, pollCQ]
  split
  · next hnone => simp [hnone]
  · next hsome => simp [hsome, eq_comm]

theorem get?_pollEQ (id : Token) (event : FabricEvent) (now : Nat) (j : Token) :
    (initiator.pollEQ id event now).targets.get? j =
      (initiator.targets.get? j).map fun target =>
        if j = id then target.onEndpoint fun endpoint => endpoint.consume event now
        else target := by
  rw [pollEQ]
  split
  · next hnone =>
    by_cases hj : j = id
    · rw [hj, hnone]
      rfl
    · simp [hj]
  · exact get?_consume initiator _ _ j

theorem get?_addTarget (id : Token) (info : TargetInfoId) (j : Token) :
    (initiator.addTarget id info).targets.get? j =
      if j = id then some ((initiator.targets.get? id).getD { info := info, endpoint := .init })
      else initiator.targets.get? j :=
  OrderedMap.get?_emplace initiator.targets id _ j

theorem get?_transfer (outcome : Token → PostOutcome) (j : Token) :
    (initiator.transfer outcome).targets.get? j =
      (initiator.targets.get? j).map fun target =>
        if initiator.reached outcome j then target.transfer (outcome j) else target :=
  OrderedMap.get?_map initiator.targets _ j

theorem get?_evictDeadEndpoints (j : Token) :
    initiator.evictDeadEndpoints.targets.get? j =
      (initiator.targets.get? j).filter fun target => !target.endpoint.canEvict :=
  OrderedMap.get?_eraseIf initiator.targets _ j

/-- `removeTarget` shuts the endpoint down that it finds, and no other. -/
theorem get?_removeTarget (info : TargetInfoId) (j : Token) :
    (InitiatorProgress.settle initiator (initiator.removeTarget info)).targets.get? j =
      (initiator.targets.get? j).map fun target =>
        if initiator.findTarget info = some j then target.onEndpoint RCInitiatorEndpoint.shutdown
        else target := by
  rw [removeTarget]
  split
  · next id hfind =>
    refine (OrderedMap.get?_modify initiator.targets id _ j).trans ?_
    simp [hfind, eq_comm]
  · next hfind => simp [hfind, InitiatorProgress.settle]

theorem get?_transferGrainToTarget (id : Token) (outcome : PostOutcome) (j : Token) :
    (InitiatorProgress.settle initiator
        (initiator.transferGrainToTarget id outcome)).targets.get? j =
      (initiator.targets.get? j).map fun target =>
        if j = id then target.transfer outcome else target := by
  rw [transferGrainToTarget]
  split
  · next hnone =>
    by_cases hj : j = id
    · rw [hj, InitiatorProgress.settle, hnone]
      rfl
    · simp [hj, InitiatorProgress.settle]
  · exact OrderedMap.get?_modify initiator.targets id _ j

end RCInitiator

end MediaExchange
