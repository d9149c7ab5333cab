/-
  MediaExchange/RDMInitiator.lean
  ===============================
  **A reliable-datagram initiator and its targets** (`RDMInitiator.cpp`).

  All targets share one endpoint, so there is no connection to wait for: a target
  is activated once, by putting its address in the address vector, and is taken
  out of the initiator in the call that shuts it down.  The initiator keeps its
  targets by the tokens of their writes, which are drawn at random, and a second
  map from the ids of the targets' `TargetInfo` to the tokens.
-/
import MediaExchange.Library.OrderedMap
import MediaExchange.RCInitiator

namespace MediaExchange

/-- `RDMInitiatorTarget::State`. -/
inductive RDMTargetState where
  | idle
  | activated
  | done
deriving DecidableEq, Repr

structure RDMInitiatorTarget where
  state : RDMTargetState
  /-- `_pending` of the protocol. -/
  pending : UInt64
deriving DecidableEq, Repr

namespace RDMInitiatorTarget

def init : RDMInitiatorTarget := { state := .idle, pending := 0 }

def activate (target : RDMInitiatorTarget) : Except FabricsException RDMInitiatorTarget :=
  match target.state with
  | .idle => .ok { target with state := .activated }
  | .activated => .ok target
  | .done =>
      .error (.invalidState "Endpoint has been shutdown and can no longer be used.")

def shutdown (target : RDMInitiatorTarget) : RDMInitiatorTarget :=
  match target.state with
  | .idle => { target with state := .done }
  | .activated => { target with state := .done }
  | .done => target

/-- A transfer that posts `writes` writes; it is dropped unless the target is
    activated. -/
def transfer (target : RDMInitiatorTarget) (writes : UInt64) : RDMInitiatorTarget :=
  match target.state with
  | .activated => { target with pending := target.pending + writes }
  | _ => target

def hasPendingWork (target : RDMInitiatorTarget) : Bool :=
  match target.state with
  | .idle => true
  | .activated => decide (target.pending > 0)
  | .done => false

def handleCompletion (target : RDMInitiatorTarget) (entry : CompletionEntry) :
    RDMInitiatorTarget :=
  match entry with
  | .error => target
  | .data =>
      match target.state with
      | .idle => target
      | .activated => { target with pending := target.pending - 1 }
      | .done => target

end RDMInitiatorTarget

/-- A target of the initiator's map, with the id of its `TargetInfo`. -/
structure RemoteTarget where
  info : TargetInfoId
  target : RDMInitiatorTarget
deriving DecidableEq, Repr

namespace RemoteTarget

def transfer (remote : RemoteTarget) : PostOutcome → RemoteTarget
  | .posted writes => { remote with target := remote.target.transfer writes }
  | .thrown _ => remote

/-- The number of writes that a transfer leaves on the fabric. -/
def writes (remote : RemoteTarget) (outcome : PostOutcome) : Nat :=
  if remote.target.state = .activated then outcome.writes else 0

def throws (remote : RemoteTarget) : PostOutcome → Bool
  | .posted _ => false
  | .thrown _ => decide (remote.target.state = .activated)

def activate (remote : RemoteTarget) : RemoteTarget :=
  match remote.target.activate with
  | .ok target => { remote with target := target }
  | .error _ => remote

end RemoteTarget

structure RDMInitiator where
  targets : OrderedMap Token RemoteTarget
  remoteEndpoints : OrderedMap TargetInfoId Token

namespace RDMInitiator

def init : RDMInitiator := { targets := .empty, remoteEndpoints := .empty }

/-- `addTarget`, where `randomToken` has drawn `token`. -/
def addTarget (initiator : RDMInitiator) (token : Token) (info : TargetInfoId) :
    Except FabricsException RDMInitiator :=
  match initiator.remoteEndpoints.get? info with
  | some _ =>
      .error (.alreadyExists ("A target with endpoint id " ++ toString info ++
        " has already been added to this initiator."))
  | none =>
      .ok { targets := initiator.targets.emplace token { info := info, target := .init }
            remoteEndpoints := initiator.remoteEndpoints.emplace info token }

/-- `findRemoteByEndpoint`, by its token. -/
def findRemoteByEndpoint (initiator : RDMInitiator) (info : TargetInfoId) :
    Except FabricsException Token :=
  match initiator.remoteEndpoints.get? info with
  | none => .error (.notFound ("No target found for endpoint id " ++ toString info))
  | some token =>
      match initiator.targets.get? token with
      | none => .error (.notFound "No target found for completion token value")
      | some _ => .ok token

/-- `removeTarget`: the target is shut down and erased. -/
def removeTarget (initiator : RDMInitiator) (info : TargetInfoId) :
    Except FabricsException RDMInitiator :=
  match initiator.findRemoteByEndpoint info with
  | .error exception => .error exception
  | .ok token =>
      .ok { targets := initiator.targets.eraseIf fun key _ => decide (key = token)
            remoteEndpoints := initiator.remoteEndpoints.eraseIf fun key _ => decide (key = info) }

/-- Whether a walk through the targets that ends at `last` gets to a target. -/
def upTo (last : Option Token) (token : Token) : Bool :=
  match last with
  | none => true
  | some last => decide (token ≤ last)

/-- The target a transfer to all targets throws at. -/
def throwsAt (initiator : RDMInitiator) (outcome : Token → PostOutcome) : Option Token :=
  initiator.targets.findKey? fun token remote => remote.throws (outcome token)

def reached (initiator : RDMInitiator) (outcome : Token → PostOutcome) (token : Token) : Bool :=
  upTo (initiator.throwsAt outcome) token

/-- `transferGrain` and `transferSamples`: the targets one after the other. -/
def transfer (initiator : RDMInitiator) (outcome : Token → PostOutcome) : RDMInitiator :=
  { initiator with
    targets := initiator.targets.map fun token remote =>
      if initiator.reached outcome token then remote.transfer (outcome token) else remote }

/-- The writes that a transfer leaves on the fabric, by token. -/
def writes (initiator : RDMInitiator) (outcome : Token → PostOutcome) (token : Token) : Nat :=
  match initiator.targets.get? token with
  | none => 0
  | some remote => if initiator.reached outcome token then remote.writes (outcome token) else 0

/-- `transferGrainToTarget`. -/
def transferGrainToTarget (initiator : RDMInitiator) (info : TargetInfoId) (outcome : PostOutcome) :
    Except FabricsException RDMInitiator :=
  match initiator.findRemoteByEndpoint info with
  | .error exception => .error exception
  | .ok token =>
      .ok { initiator with
        targets := initiator.targets.modify token fun remote => remote.transfer outcome }

/-- `activateIdleEndpoints`: `activate` throws of a target that is done, and the
    targets after it are not reached. -/
def activateIdleEndpoints (initiator : RDMInitiator) : RDMInitiator :=
  let last := initiator.targets.findKey? fun _ remote => decide (remote.target.state = .done)
  { initiator with
    targets := initiator.targets.map fun token remote =>
      if upTo last token then remote.activate else remote }

/-- `processCompletion`: the completion of an unknown target is dropped. -/
def processCompletion (initiator : RDMInitiator) (completion : Completion) : RDMInitiator :=
  match initiator.targets.get? completion.token with
  | none => initiator
  | some _ =>
      { initiator with
        targets := initiator.targets.modify completion.token fun remote =>
          { remote with target := remote.target.handleCompletion completion.entry } }

end RDMInitiator

end MediaExchange
