/-
  MediaExchange/RCTarget.lean
  ===========================
  **A reliable-connection target** (`RCTarget.cpp`, `Endpoint.cpp`).

  The target listens for a connection request, accepts it on a new endpoint, waits
  for the connection to be established, and then hands the completions of its
  endpoint to the ingress protocol, until the initiator shuts the connection down
  and it listens again.  All of that happens in `readNext`, one event or
  completion at a time.

  While connected, `readNext` reads both queues of the endpoint.  It does so in
  three ways, one access after the other, so that entries can arrive in between:
  without blocking, the completion first; with a timeout below the interval of the
  event queue, the event first; and with a longer one in a loop that ends as soon
  as it has read anything.
-/
import MediaExchange.Library.LabelledRun
import MediaExchange.FabricRegions

namespace MediaExchange

/-- An event of the event queue of a target. -/
inductive TargetEvent where
  | connReq
  | connected
  | shutdown
  | error
deriving DecidableEq, Repr

/-- An entry of the completion queue of a target. -/
inductive TargetCompletion where
  | data (immData : Option UInt64)
  | error
deriving DecidableEq, Repr

def TargetCompletion.isDataEntry : TargetCompletion → Bool
  | .data _ => true
  | .error => false

/-- `RCTarget::State`. -/
inductive RCTargetState where
  | waitForConnectionRequest
  | waitForConnection
  | connected
deriving DecidableEq, Repr

/-- An ingress protocol, with its state `σ` and the results `ρ` it reads off the
    completions. -/
structure IngressProtocol (σ ρ : Type) where
  start : σ → σ
  read : σ → TargetCompletion → σ × Except FabricsException (Option ρ)

/-- How `readNext` is called. -/
inductive ReadMode where
  | nonBlocking
  /-- Blocking, with a timeout below `EQReadInterval`. -/
  | blockingBriefly
  | blocking
deriving DecidableEq, Repr

namespace RCTarget

inductive Pc where
  | idle
  /-- `readEventQueue`, when not connected. -/
  | eventQueue
  /-- `readQueues`. -/
  | completionFirst
  | eventSecond (completion : Option TargetCompletion)
  /-- `readQueuesBlocking` with a timeout below the interval. -/
  | eventFirst
  | completionSecond (event : Option TargetEvent)
  /-- The loop of `readQueuesBlocking`. -/
  | deadline
  | loopEvent
  | loopCompletion
  /-- The protocol has thrown, and the target has lost its endpoint. -/
  | broken
deriving DecidableEq, Repr

/-- A target with the queues of its endpoint, and what has become of the
    completions that were dequeued while it was connected. -/
structure System (σ ρ : Type) where
  state : RCTargetState
  protocol : σ
  eq : List TargetEvent
  cq : List TargetCompletion
  pc : Pc
  dequeued : List TargetCompletion
  /-- What was handed to the protocol, and what the protocol made of it. -/
  handed : List (TargetCompletion × Except FabricsException (Option ρ))
  /-- What the calls returned to the user, or threw. -/
  returned : List (Except FabricsException (Option ρ))

variable {σ ρ : Type}

def System.init (protocol : σ) : System σ ρ where
  state := .waitForConnectionRequest
  protocol := protocol
  eq := []
  cq := []
  pc := .idle
  dequeued := []
  handed := []
  returned := []

inductive Action where
  | readNext (mode : ReadMode)
  /-- The call in progress takes its next step; `expired` says whether the deadline
      has passed. -/
  | access (expired : Bool)
  /-- The fabric delivers an event or a completion. -/
  | deliver (event : TargetEvent)
  | complete (completion : TargetCompletion)

namespace System

/-- `readNext` without a connection, on what `readEventQueue` has returned. -/
def handleEvent (protocol : IngressProtocol σ ρ) (s : System σ ρ) (event : Option TargetEvent) :
    System σ ρ :=
  match s.state with
  | .waitForConnectionRequest =>
      -- The endpoint that accepts the request gets queues of its own.
      if event = some .connReq then
        { s with state := .waitForConnection, eq := [], cq := [], pc := .idle }
      else { s with pc := .idle }
  | .waitForConnection =>
      if event = some .connected then
        { s with state := .connected, protocol := protocol.start s.protocol, pc := .idle }
      else { s with pc := .idle }
  | .connected => { s with pc := .idle }

/-- An exception of the protocol leaves `readNext` with the endpoint in its hands. -/
def afterRead : Except FabricsException (Option ρ) → Pc
  | .ok _ => .idle
  | .error _ => .broken

/-- `readNext` while connected, on what the reading of both queues has returned. -/
def handle (protocol : IngressProtocol σ ρ) (s : System σ ρ)
    (completion : Option TargetCompletion) (event : Option TargetEvent) : System σ ρ :=
  if event = some .shutdown then
    -- `makeListener`: the endpoint goes, and with it its queues.
    { s with state := .waitForConnectionRequest, eq := [], cq := [], pc := .idle }
  else
    match completion with
    | none => { s with pc := .idle }
    | some completion =>
        let (next, result) := protocol.read s.protocol completion
        { s with
          protocol := next
          handed := s.handed ++ [(completion, result)]
          returned := s.returned ++ [result]
          pc := afterRead result }

/-- Take the first completion from the queue. -/
def dequeue (s : System σ ρ) : System σ ρ :=
  { s with cq := s.cq.tail, dequeued := s.dequeued ++ s.cq.head?.toList }

def access (protocol : IngressProtocol σ ρ) (s : System σ ρ) (expired : Bool) :
    Option (System σ ρ) :=
  let withoutEvent := { s with eq := s.eq.tail }
  match s.pc with
  | .idle | .broken => none
  | .eventQueue => some (withoutEvent.handleEvent protocol s.eq.head?)
  | .completionFirst => some { s.dequeue with pc := .eventSecond s.cq.head? }
  | .eventSecond completion => some (withoutEvent.handle protocol completion s.eq.head?)
  | .eventFirst => some { withoutEvent with pc := .completionSecond s.eq.head? }
  | .completionSecond event => some (s.dequeue.handle protocol s.cq.head? event)
  | .deadline =>
      if expired then some (s.handle protocol none none) else some { s with pc := .loopEvent }
  | .loopEvent =>
      match s.eq with
      | [] => some { s with pc := .loopCompletion }
      | event :: _ => some (withoutEvent.handle protocol none (some event))
  | .loopCompletion =>
      match s.cq with
      | [] => some { s with pc := .deadline }
      | completion :: _ => some (s.dequeue.handle protocol (some completion) none)

/-- Where `readNext` begins. -/
def startPc (mode : ReadMode) : RCTargetState → Pc
  | .waitForConnectionRequest => .eventQueue
  | .waitForConnection => .eventQueue
  | .connected =>
      match mode with
      | .nonBlocking => .completionFirst
      | .blockingBriefly => .eventFirst
      | .blocking => .deadline

def step (protocol : IngressProtocol σ ρ) (s : System σ ρ) : Action → Option (System σ ρ)
  | .readNext mode => if s.pc = .idle then some { s with pc := startPc mode s.state } else none
  | .access expired => s.access protocol expired
  | .deliver event => some { s with eq := s.eq ++ [event] }
  | .complete completion =>
      -- A passive endpoint has no completion queue.
      if s.state = .waitForConnectionRequest then none
      else some { s with cq := s.cq ++ [completion] }

end System

end RCTarget

end MediaExchange
