/-
  MediaExchange/RCInitiator.lean
  ==============================
  **The endpoint of a reliable-connection initiator** (`RCInitiator.cpp`).

  An `RCInitiatorEndpoint` is one connection to a target.  Its state is a variant
  that events of the event queue, the user's shutdown request and the passing of
  time move along; of its protocol only the counter of outstanding completions
  takes part in that.  Time is a nanosecond count of the steady clock.
-/
import MediaExchange.FabricRegions

namespace MediaExchange

/-- An event of the event queue. -/
inductive FabricEvent where
  | connected
  | shutdown
  | error
  | other
deriving DecidableEq, Repr

/-- An entry of the completion queue: the write it is about went through, or failed. -/
inductive CompletionEntry where
  | data
  | error
deriving DecidableEq, Repr

/-- `Endpoint::Id` and `Completion::Token`, which are converted into one another
    and otherwise only compared. -/
abbrev Token := Nat

/-- `TargetInfo::id`. -/
abbrev TargetInfoId := Nat

structure Completion where
  token : Token
  entry : CompletionEntry
deriving DecidableEq, Repr

/-- What comes of a transfer at a connected endpoint: its protocol posts writes
    and adds them to its counter, or throws, with writes posted before. -/
inductive PostOutcome where
  | posted (writes : UInt64)
  | thrown (writes : UInt64)
deriving DecidableEq, Repr

def PostOutcome.writes : PostOutcome → Nat
  | .posted writes => writes.toNat
  | .thrown writes => writes.toNat

/-- `RCInitiatorEndpoint::State`. -/
inductive EndpointState where
  | idle (idleSince : Nat)
  | connecting
  | connected
  | flushing (pending : UInt64)
  | done
deriving DecidableEq, Repr

structure RCInitiatorEndpoint where
  state : EndpointState
  /-- `_pending` of the protocol. -/
  pending : UInt64
deriving DecidableEq, Repr

namespace RCInitiatorEndpoint

def init : RCInitiatorEndpoint := { state := .idle 0, pending := 0 }

def isConnected (endpoint : RCInitiatorEndpoint) : Bool :=
  match endpoint.state with
  | .connected => true
  | _ => false

/-- `shutdown`: a connected endpoint has its completions flushed first. -/
def shutdown (endpoint : RCInitiatorEndpoint) : RCInitiatorEndpoint :=
  match endpoint.state with
  | .idle _ => { endpoint with state := .done }
  | .connecting => { endpoint with state := .done }
  | .connected => { state := .flushing endpoint.pending, pending := 0 }
  | .flushing _ => endpoint
  | .done => endpoint

def terminate (endpoint : RCInitiatorEndpoint) : RCInitiatorEndpoint :=
  match endpoint.state with
  | .flushing _ => { endpoint with state := .done }
  | _ => endpoint

/-- `activate`: an endpoint that has been idle for less than five seconds is left
    alone. -/
def activate (endpoint : RCInitiatorEndpoint) (now : Nat) : RCInitiatorEndpoint :=
  match endpoint.state with
  | .idle idleSince =>
      if now - idleSince < 5000000000 then endpoint else { endpoint with state := .connecting }
  | _ => endpoint

/-- `consume(Event)`; `now` is when an endpoint that is restarted goes idle. -/
def consume (endpoint : RCInitiatorEndpoint) (event : FabricEvent) (now : Nat) :
    RCInitiatorEndpoint :=
  match endpoint.state with
  | .idle _ => endpoint
  | .connecting =>
      match event with
      | .error => { endpoint with state := .idle now }
      | .connected => { endpoint with state := .connected }
      | .shutdown => { endpoint with state := .idle now }
      | .other => endpoint
  | .connected =>
      match event with
      | .error => { endpoint with state := .idle now }
      | .shutdown => { state := .flushing endpoint.pending, pending := 0 }
      | _ => endpoint
  | .flushing _ =>
      match event with
      | .error => { endpoint with state := .done }
      | _ => endpoint
  | .done => endpoint

/-- The endpoint after its protocol has posted a write. -/
def posted (endpoint : RCInitiatorEndpoint) : RCInitiatorEndpoint :=
  { endpoint with pending := endpoint.pending + 1 }

/-- A transfer that posts `writes` writes; it is dropped unless the endpoint is
    connected. -/
def transfer (endpoint : RCInitiatorEndpoint) (writes : UInt64) : RCInitiatorEndpoint :=
  match endpoint.state with
  | .connected => { endpoint with pending := endpoint.pending + writes }
  | _ => endpoint

def canEvict (endpoint : RCInitiatorEndpoint) : Bool :=
  match endpoint.state with
  | .done => true
  | _ => false

def hasPendingWork (endpoint : RCInitiatorEndpoint) : Bool :=
  match endpoint.state with
  | .idle _ => true
  | .connecting => true
  | .connected => decide (endpoint.pending > 0)
  | .flushing _ => true
  | .done => false

def handleCompletionData (endpoint : RCInitiatorEndpoint) : RCInitiatorEndpoint :=
  match endpoint.state with
  | .idle _ => endpoint
  | .connecting => endpoint
  | .connected => { endpoint with pending := endpoint.pending - 1 }
  | .flushing pending => { endpoint with state := .flushing (pending - 1) }
  | .done => endpoint

/-- `handleCompletionError` writes a line of the log. -/
def handleCompletionError (endpoint : RCInitiatorEndpoint) : RCInitiatorEndpoint := endpoint

/-- `consume(Completion)`. -/
def consumeCompletion (endpoint : RCInitiatorEndpoint) (entry : CompletionEntry) :
    RCInitiatorEndpoint :=
  match entry with
  | .error => endpoint.handleCompletionError
  | .data => endpoint.handleCompletionData

end RCInitiatorEndpoint

theorem toNat_sub_one {pending : UInt64} (hpos : 0 < pending.toNat) :
    (pending - 1).toNat = pending.toNat - 1 := by
  have hle : (1 : UInt64) ≤ pending := by
    rw [UInt64.le_iff_toNat_le]
    exact hpos
  rw [UInt64.toNat_sub_of_le _ _ hle]
  rfl

end MediaExchange
