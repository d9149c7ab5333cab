/-
  MediaExchange/FailingSteps.lean
  ===============================
  **Steps of the state machines in which a call to the fabric fails**
  (`RCInitiator.cpp`, `RCTarget.cpp`).

  Every transition of an endpoint of the initiator and of the target is written as
  an assignment of what a visitor makes of the moved state.  The visitors take the
  state by value: when a call in them throws, the endpoint goes down with the
  visitor's argument, and the state that is left holds one that has been moved
  from.  Here the transitions are written with the calls they make, and which of
  these fail is a parameter; where none does, they are the transitions of
  `RCInitiatorEndpoint`.
-/
import MediaExchange.Library.MovedState
import MediaExchange.RCInitiator
import MediaExchange.RCTarget

namespace MediaExchange.FailingSteps

open MediaExchange.MovedState

/-- The calls to the fabric and to the ingress protocol that a transition makes. -/
inductive FabricCall where
  | bindEventQueue
  | bindCompletionQueue
  | connect
  | shutdown
  | createEndpoint
  | readEventQueue
  | openCompletionQueue
  | openEventQueue
  | accept
  | startProtocol
  | readEndpointQueues
  | createPassiveEndpoint
  | listen
  | readProtocol
deriving DecidableEq, Repr

/-- Which calls throw what. -/
abbrev Failures := FabricCall → Option FabricsException

/-! ### The endpoint of an initiator -/

/-- The variable `_state` of an `RCInitiatorEndpoint`, and the counter of its
    protocol. -/
structure FallibleEndpoint where
  state : Cell EndpointState
  pending : UInt64

section Initiator

variable (fails : Failures)

/-- `restart`. -/
def restart (now : Nat) : Except FabricsException EndpointState := do
  attempt fails [.createEndpoint]
  .ok (.idle now)

def activateState (now : Nat) : EndpointState → Except FabricsException EndpointState
  | .idle idleSince =>
      if now - idleSince < 5000000000 then .ok (.idle idleSince)
      else do
        attempt fails [.bindEventQueue, .bindCompletionQueue, .connect]
        .ok .connecting
  | state => .ok state

def shutdownState (pending : UInt64) : EndpointState → Except FabricsException EndpointState
  | .idle _ => .ok .done
  | .connecting => .ok .done
  | .connected => do
      -- The protocol has been reset before.
      attempt fails [.shutdown]
      .ok (.flushing pending)
  | state => .ok state

def consumeState (event : FabricEvent) (now : Nat) (pending : UInt64) :
    EndpointState → Except FabricsException EndpointState
  | .connecting =>
      match event with
      | .error => restart fails now
      | .connected => .ok .connected
      | .shutdown => restart fails now
      | .other => .ok .connecting
  | .connected =>
      match event with
      | .error => restart fails now
      | .shutdown => .ok (.flushing pending)
      | _ => .ok .connected
  | .flushing pending =>
      match event with
      | .error => .ok .done
      | _ => .ok (.flushing pending)
  | state => .ok state

/-- `consume(Completion)` calls nothing that throws. -/
def consumeCompletionState (entry : CompletionEntry) :
    EndpointState → Except FabricsException EndpointState
  | .flushing pending =>
      match entry with
      | .data => .ok (.flushing (pending - 1))
      | .error => .ok (.flushing pending)
  | state => .ok state

def activate (now : Nat) (endpoint : FallibleEndpoint) :
    Except FabricsException Unit × FallibleEndpoint :=
  let (result, state) := endpoint.state.assign (activateState fails now)
  (result, { endpoint with state := state })

def shutdown (endpoint : FallibleEndpoint) : Except FabricsException Unit × FallibleEndpoint :=
  let (result, state) := endpoint.state.assign (shutdownState fails endpoint.pending)
  (result, { state := state, pending :=
    match endpoint.state.content with
    | .connected => 0
    | _ => endpoint.pending })

def consume (event : FabricEvent) (now : Nat) (endpoint : FallibleEndpoint) :
    Except FabricsException Unit × FallibleEndpoint :=
  let (result, state) := endpoint.state.assign (consumeState fails event now endpoint.pending)
  (result, { state := state, pending :=
    match endpoint.state.content, event with
    | .connected, .shutdown => 0
    | _, _ => endpoint.pending })

def consumeCompletion (entry : CompletionEntry) (endpoint : FallibleEndpoint) :
    Except FabricsException Unit × FallibleEndpoint :=
  match entry with
  | .error => (.ok (), endpoint)
  | .data =>
      let (result, state) := endpoint.state.assign (consumeCompletionState .data)
      (result, { state := state, pending :=
        match endpoint.state.content with
        | .connected => endpoint.pending - 1
        | _ => endpoint.pending })

end Initiator

/-! ### The target -/

section Target

variable (fails : Failures)

/-- `makeListener`. -/
def makeListener : Except FabricsException RCTargetState := do
  attempt fails [.createPassiveEndpoint, .openEventQueue, .bindEventQueue, .listen]
  .ok .waitForConnectionRequest

/-- `readNext`, on what the reading of the queues returns if it does not throw. -/
def readNextState (event : Option TargetEvent) (completion : Option TargetCompletion) :
    RCTargetState → Except FabricsException RCTargetState
  | .waitForConnectionRequest => do
      attempt fails [.readEventQueue]
      if event = some .connReq then
        attempt fails [.createEndpoint, .openCompletionQueue, .bindCompletionQueue,
          .openEventQueue, .bindEventQueue, .accept]
        .ok .waitForConnection
      else .ok .waitForConnectionRequest
  | .waitForConnection => do
      attempt fails [.readEventQueue]
      if event = some .connected then
        attempt fails [.startProtocol]
        .ok .connected
      else .ok .waitForConnection
  | .connected => do
      attempt fails [.readEndpointQueues]
      if event = some .shutdown then makeListener fails
      else if completion = none then .ok .connected
      else
        attempt fails [.readProtocol]
        .ok .connected

end Target

/-! ### Without failures -/

section NoFailures

/-- No call fails. -/
def none : Failures := fun _ => .none

variable (endpoint : RCInitiatorEndpoint)

theorem activateState_none (now : Nat) :
    activateState none now endpoint.state = .ok (endpoint.activate now).state := by
  obtain ⟨state, pending⟩ := endpoint
  cases state with
  | idle idleSince =>
    rw [activateState, RCInitiatorEndpoint.activate]
    dsimp only
    split <;> rfl
  | connecting | connected | flushing _ | done => rfl

theorem shutdownState_none :
    shutdownState none endpoint.pending endpoint.state = .ok endpoint.shutdown.state := by
  obtain ⟨state, pending⟩ := endpoint
  cases state <;> rfl

theorem consumeState_none (event : FabricEvent) (now : Nat) :
    consumeState none event now endpoint.pending endpoint.state =
      .ok (endpoint.consume event now).state := by
  obtain ⟨state, pending⟩ := endpoint
  cases state with
  | idle _ | done => rfl
  | connecting | connected | flushing _ => cases event <;> rfl

theorem consumeCompletionState_none (entry : CompletionEntry) :
    consumeCompletionState entry endpoint.state = .ok (endpoint.consumeCompletion entry).state := by
  obtain ⟨state, pending⟩ := endpoint
  cases entry <;> cases state <;> rfl

/-- The state of a target after `readNext` is that of the target's own model. -/
theorem readNextState_none {σ ρ : Type} (protocol : IngressProtocol σ ρ) (s : RCTarget.System σ ρ)
    (event : Option TargetEvent) (completion : Option TargetCompletion) :
    readNextState none event completion s.state =
      .ok (match s.state with
        | .connected => (s.handle protocol completion event).state
        | _ => (s.handleEvent protocol event).state) := by
  obtain ⟨state, protocolState, eq, cq, pc, dequeued, handed, returned⟩ := s
  cases state with
  | waitForConnectionRequest =>
    unfold readNextState RCTarget.System.handleEvent
    dsimp only
    split <;> rfl
  | waitForConnection =>
    unfold readNextState RCTarget.System.handleEvent
    dsimp only
    split <;> rfl
  | connected =>
    unfold readNextState RCTarget.System.handle
    by_cases hshutdown : event = some .shutdown
    · simp only [hshutdown, if_true]
      rfl
    · simp only [hshutdown, if_false]
      cases completion <;> rfl

end NoFailures

/-! ### The calls of a step -/

def activateCalls (now : Nat) : EndpointState → List FabricCall
  | .idle idleSince =>
      if now - idleSince < 5000000000 then []
      else [.bindEventQueue, .bindCompletionQueue, .connect]
  | _ => []

def shutdownCalls : EndpointState → List FabricCall
  | .connected => [.shutdown]
  | _ => []

def consumeCalls (event : FabricEvent) : EndpointState → List FabricCall
  | .connecting =>
      match event with
      | .error | .shutdown => [.createEndpoint]
      | _ => []
  | .connected =>
      match event with
      | .error => [.createEndpoint]
      | _ => []
  | _ => []

def readNextCalls (event : Option TargetEvent) (completion : Option TargetCompletion) :
    RCTargetState → List FabricCall
  | .waitForConnectionRequest =>
      [.readEventQueue] ++
        if event = some .connReq then
          [.createEndpoint, .openCompletionQueue, .bindCompletionQueue, .openEventQueue,
            .bindEventQueue, .accept]
        else []
  | .waitForConnection =>
      [.readEventQueue] ++ if event = some .connected then [.startProtocol] else []
  | .connected =>
      [.readEndpointQueues] ++
        if event = some .shutdown then
          [.createPassiveEndpoint, .openEventQueue, .bindEventQueue, .listen]
        else if completion = .none then []
        else [.readProtocol]

section Calls

variable (fails : Failures)

theorem makes_activate (now : Nat) (state : EndpointState) :
    Makes fails (activateCalls now state) (activateState fails now state) := by
  cases state with
  | idle idleSince =>
    rw [activateCalls, activateState]
    split
    · exact makes_ok _
    · exact (makes_ok _).after
  | connecting | connected | flushing _ | done => exact makes_ok _

theorem makes_shutdown (pending : UInt64) (state : EndpointState) :
    Makes fails (shutdownCalls state) (shutdownState fails pending state) := by
  cases state with
  | connected => exact (makes_ok _).after
  | idle _ | connecting | flushing _ | done => exact makes_ok _

theorem makes_consume (event : FabricEvent) (now : Nat) (pending : UInt64) (state : EndpointState) :
    Makes fails (consumeCalls event state) (consumeState fails event now pending state) := by
  cases state with
  | idle _ | done => exact makes_ok _
  | connecting =>
    cases event with
    | error | shutdown => exact (makes_ok _).after
    | connected | other => exact makes_ok _
  | connected =>
    cases event with
    | error => exact (makes_ok _).after
    | connected | shutdown | other => exact makes_ok _
  | flushing _ => cases event <;> exact makes_ok _

theorem makes_readNext (event : Option TargetEvent) (completion : Option TargetCompletion)
    (state : RCTargetState) :
    Makes fails (readNextCalls event completion state)
      (readNextState fails event completion state) := by
  cases state with
  | waitForConnectionRequest =>
    refine Makes.after ?_
    split
    · exact (makes_ok _).after
    · exact makes_ok _
  | waitForConnection =>
    refine Makes.after ?_
    split
    · exact (makes_ok _).after
    · exact makes_ok _
  | connected =>
    refine Makes.after ?_
    split
    · exact (makes_ok _).after
    · split
      · exact makes_ok _
      · exact (makes_ok _).after

end Calls

/-! ### What a failure leaves behind -/

/-- An endpoint whose state owns its content. -/
def owning (state : EndpointState) (pending : UInt64) : FallibleEndpoint where
  state := { content := state, owned := true }
  pending := pending

/-- A step that throws leaves the state of the endpoint as it was. -/
def KeepsState (step : FallibleEndpoint → Except FabricsException Unit × FallibleEndpoint)
    (endpoint : FallibleEndpoint) : Prop :=
  ∀ exception, (step endpoint).1 = .error exception → (step endpoint).2.state = endpoint.state

/-- None of the calls fails. -/
def NoneFails (fails : Failures) (calls : List FabricCall) : Prop :=
  ∀ call ∈ calls, fails call = .none

theorem keepsState_consumeCompletion (entry : CompletionEntry) (state : EndpointState)
    (pending : UInt64) : KeepsState (consumeCompletion entry) (owning state pending) := by
  intro exception h
  cases entry with
  | error => rfl
  | data => cases state <;> cases h

/-- A step leaves the state of an endpoint or of a target as it was exactly when
    none of the calls it makes fails: whichever of them does, the state that is
    left has been moved from. -/
theorem keeps_iff_none_fails (fails : Failures) :
    (∀ (state : EndpointState) (pending : UInt64),
      (∀ now, KeepsState (activate fails now) (owning state pending) ↔
        NoneFails fails (activateCalls now state)) ∧
      (KeepsState (shutdown fails) (owning state pending) ↔
        NoneFails fails (shutdownCalls state)) ∧
      (∀ event now, KeepsState (consume fails event now) (owning state pending) ↔
        NoneFails fails (consumeCalls event state)) ∧
      ∀ entry, KeepsState (consumeCompletion entry) (owning state pending)) ∧
    (∀ (state : RCTargetState) (event : Option TargetEvent) (completion : Option TargetCompletion),
      Keeps (Cell.assign (readNextState fails event completion))
          { content := state, owned := true } ↔
        NoneFails fails (readNextCalls event completion state)) := by
  refine ⟨fun state pending => ⟨fun now => ?_, ?_, fun event now => ?_, fun entry => ?_⟩,
    fun state event completion => ?_⟩
  · have hcell : (Cell.mk state true).owned = true := rfl
    exact keeps_assign_iff_calls hcell (makes_activate fails now state)
  · have hcell : (Cell.mk state true).owned = true := rfl
    exact keeps_assign_iff_calls hcell (makes_shutdown fails pending state)
  · have hcell : (Cell.mk state true).owned = true := rfl
    exact keeps_assign_iff_calls hcell (makes_consume fails event now pending state)
  · exact keepsState_consumeCompletion entry state pending
  · exact keeps_assign_iff_calls rfl (makes_readNext fails event completion state)

/-- The fabric refuses to connect. -/
def connectFails : Failures
  | .connect => some (.invalidState "Failed to connect endpoint")
  | _ => .none

/-- The endpoint is idle, and no endpoint is left in it. -/
theorem connect_leaves_moved :
    (activate connectFails 5000000000 (owning (.idle 0) 0)).2.state =
        { content := .idle 0, owned := false } ∧
      ¬ KeepsState (activate connectFails 5000000000) (owning (.idle 0) 0) := by
  refine ⟨rfl, fun h => ?_⟩
  have howned := congrArg Cell.owned (h _ rfl)
  cases howned

end MediaExchange.FailingSteps
