/-
  MediaExchange/RemovedTargets.lean
  =================================
  **A removed target stays removed** (`RCInitiator.cpp`, `RDMInitiator.cpp`).

  A run remembers which targets have been removed and not been added since.  No
  transfer may post a write to them, and no removal may touch another target.

  The connection initiator looks for the endpoint to shut down by the id of its
  `TargetInfo`, and takes the first one in its map.  That id is not the key of
  the map: a target that was added twice has two endpoints, and one that was added
  again shares its id with the endpoint that is still being flushed.  Where all
  other endpoints of the id are flushing or done (`Alone`), the removal is final.
  The datagram initiator refuses to add a target twice.
-/
import MediaExchange.RDMInitiator
import MediaExchange.InitiatorProgress

namespace MediaExchange.RemovedTargets

open MediaExchange.LabelledRun MediaExchange.InitiatorProgress

/-! ### The connection initiator -/

/-- The endpoint posts writes, or may come to. -/
def live (endpoint : RCInitiatorEndpoint) : Bool :=
  match endpoint.state with
  | .idle _ | .connecting | .connected => true
  | .flushing _ | .done => false

/-- An initiator, and the targets removed from it. -/
structure Tracked where
  system : System
  removed : TargetInfoId → Bool

def Tracked.init : Tracked where
  system := .init
  removed := fun _ => false

/-- What a call that is not refused does to the targets that are removed. -/
def track (s : Tracked) : Action → TargetInfoId → Bool
  | .addTarget _ info => Function.update s.removed info false
  | .removeTarget info =>
      match s.system.initiator.removeTarget info with
      | .ok _ => Function.update s.removed info true
      | .error _ => s.removed
  | _ => s.removed

def Tracked.step (s : Tracked) (a : Action) : Option Tracked :=
  (s.system.step a).map fun system => { system := system, removed := track s a }

/-- No transfer posts to a removed target, and one that does not throw posts to all
    that are connected; a removal changes no other target, and what is added is
    there. -/
def Kept (s : Tracked) : Action → Prop
  | .transfer outcome =>
      ∀ id target, s.system.initiator.targets.get? id = some target →
        (s.removed target.info = true → s.system.initiator.writes outcome id = 0) ∧
        (s.system.initiator.throwsAt outcome = none → target.endpoint.isConnected = true →
          s.system.initiator.writes outcome id = (outcome id).writes)
  | .transferGrainToTarget id outcome =>
      ∀ target, s.system.initiator.targets.get? id = some target →
        (s.removed target.info = true → s.system.initiator.writesTo id outcome = 0) ∧
        (target.endpoint.isConnected = true →
          s.system.initiator.writesTo id outcome = outcome.writes)
  | .removeTarget info =>
      ∀ t, s.step (.removeTarget info) = some t → ∀ id target,
        s.system.initiator.targets.get? id = some target → target.info ≠ info →
        t.system.initiator.targets.get? id = some target
  | .addTarget id info =>
      ∀ t, s.step (.addTarget id info) = some t →
        t.system.initiator.targets.get? id = some { info := info, endpoint := .init } ∧
        ∀ j target, s.system.initiator.targets.get? j = some target →
          t.system.initiator.targets.get? j = some target
  | _ => True

/-- A target is removed when it has no other endpoint that posts writes or may come
    to, and the id drawn for a new endpoint is not one in use. -/
def Alone (s : Tracked) : Action → Prop
  | .removeTarget info =>
      ∀ id target, s.system.initiator.targets.get? id = some target → target.info = info →
        s.system.initiator.findTarget info ≠ some id → live target.endpoint = false
  | .addTarget id _ => s.system.initiator.targets.get? id = none
  | _ => True

/-- The endpoints of removed targets are flushing or done. -/
def Gone (s : Tracked) : Prop :=
  ∀ id target, s.system.initiator.targets.get? id = some target →
    s.removed target.info = true → live target.endpoint = false

/-- A transition that brings no endpoint back. -/
def StaysGone (f : RCInitiatorEndpoint → RCInitiatorEndpoint) : Prop :=
  ∀ endpoint, live endpoint = false → live (f endpoint) = false

section Endpoints

theorem staysGone_activate (now : Nat) : StaysGone fun endpoint => endpoint.activate now := by
  rintro ⟨state, pending⟩ h
  cases state with
  | idle _ | connecting | connected => cases h
  | flushing _ | done => rfl

theorem staysGone_terminate : StaysGone RCInitiatorEndpoint.terminate := by
  rintro ⟨state, pending⟩ h
  cases state with
  | idle _ | connecting | connected => cases h
  | flushing _ | done => rfl

theorem live_shutdown (endpoint : RCInitiatorEndpoint) : live endpoint.shutdown = false := by
  obtain ⟨state, pending⟩ := endpoint
  cases state <;> rfl

theorem staysGone_consumeCompletion (entry : CompletionEntry) :
    StaysGone fun endpoint => endpoint.consumeCompletion entry := by
  rintro ⟨state, pending⟩ h
  cases entry with
  | error => exact h
  | data =>
    cases state with
    | idle _ | connecting | connected => cases h
    | flushing _ | done => rfl

theorem staysGone_consume (event : FabricEvent) (now : Nat) :
    StaysGone fun endpoint => endpoint.consume event now := by
  rintro ⟨state, pending⟩ h
  cases state with
  | idle _ | connecting | connected => cases h
  | flushing _ => cases event <;> rfl
  | done => rfl

theorem staysGone_transfer (writes : UInt64) :
    StaysGone fun endpoint => endpoint.transfer writes := by
  rintro ⟨state, pending⟩ h
  cases state with
  | idle _ | connecting | connected => cases h
  | flushing _ | done => rfl

theorem isConnected_of_not_live {endpoint : RCInitiatorEndpoint} (h : live endpoint = false) :
    endpoint.isConnected = false := by
  obtain ⟨state, pending⟩ := endpoint
  cases state with
  | connected => cases h
  | idle _ | connecting | flushing _ | done => rfl

end Endpoints

/-- Every endpoint was there before, under the same id, and none has come back. -/
def Descends (targets targets' : OrderedMap Token InitiatorTarget) : Prop :=
  ∀ id target', targets'.get? id = some target' → ∃ target, targets.get? id = some target ∧
    target'.info = target.info ∧ (live target.endpoint = false → live target'.endpoint = false)

section Steps

variable {targets targets' : OrderedMap Token InitiatorTarget}

theorem descends_refl : Descends targets targets :=
  fun _ target' h => ⟨target', h, rfl, fun hlive => hlive⟩

theorem descends_of_map {g : Token → InitiatorTarget → InitiatorTarget}
    (hget : ∀ id, targets'.get? id = (targets.get? id).map (g id))
    (hg : ∀ id target, (g id target).info = target.info ∧
      (live target.endpoint = false → live (g id target).endpoint = false)) :
    Descends targets targets' := by
  intro id target' htarget'
  rw [hget, Option.map_eq_some_iff] at htarget'
  obtain ⟨target, htarget, rfl⟩ := htarget'
  exact ⟨target, htarget, hg id target⟩

theorem staysGone_ite {c : Prop} [Decidable c] {f : RCInitiatorEndpoint → RCInitiatorEndpoint}
    (hf : StaysGone f) (target : InitiatorTarget) :
    (if c then target.onEndpoint f else target).info = target.info ∧
      (live target.endpoint = false →
        live (if c then target.onEndpoint f else target).endpoint = false) := by
  by_cases hc : c
  · rw [if_pos hc]
    exact ⟨rfl, hf target.endpoint⟩
  · rw [if_neg hc]
    exact ⟨rfl, fun hlive => hlive⟩

theorem staysGone_outcome (target : InitiatorTarget) (outcome : PostOutcome) :
    (target.transfer outcome).info = target.info ∧
      (live target.endpoint = false → live (target.transfer outcome).endpoint = false) := by
  cases outcome with
  | posted writes => exact ⟨rfl, staysGone_transfer writes target.endpoint⟩
  | thrown writes => exact ⟨rfl, fun hlive => hlive⟩

variable {s t : System}

theorem descends_forAll {f : RCInitiatorEndpoint → RCInitiatorEndpoint} (hf : StaysGone f) :
    Descends s.initiator.targets (s.initiator.forAll f).targets :=
  descends_of_map (g := fun _ => InitiatorTarget.onEndpoint f) (s.initiator.get?_forAll f)
    fun _ target => ⟨rfl, hf target.endpoint⟩

theorem descends_pollCQ (completion : Completion) :
    Descends s.initiator.targets (s.initiator.pollCQ completion).targets :=
  descends_of_map (s.initiator.get?_pollCQ completion)
    fun _ target => staysGone_ite (staysGone_consumeCompletion _) target

theorem descends_poll {now : Nat} {expired : Bool} (h : s.Polled now expired t) :
    Descends s.initiator.targets t.initiator.targets := by
  cases h with
  | activated caller hphase => exact descends_forAll (staysGone_activate now)
  | interrupted | undefined => exact descends_refl
  | flushed | timedOut => exact descends_forAll staysGone_terminate
  | completed caller hphase completion cq hcq => exact descends_pollCQ completion
  | unblocked inLoop hphase completion cq hcq initiator hblock =>
    obtain ⟨-, rfl⟩ := RCInitiator.blockOnCQ_eq_some.mp hblock
    exact descends_pollCQ completion
  | dispatched caller hphase id event eq heq =>
    exact descends_of_map (s.initiator.get?_pollEQ id event now)
      fun _ target => staysGone_ite (staysGone_consume event now) target
  | evicted caller hphase heq =>
    intro id target' htarget'
    change s.initiator.evictDeadEndpoints.targets.get? id = some target' at htarget'
    rw [RCInitiator.get?_evictDeadEndpoints, Option.filter_eq_some_iff] at htarget'
    exact ⟨target', htarget'.1, rfl, fun hlive => hlive⟩

/-- Only `addTarget` makes an endpoint that posts writes. -/
theorem descends_step {a : Action} (hadd : ∀ id info, a ≠ .addTarget id info)
    (h : s.step a = some t) : Descends s.initiator.targets t.initiator.targets := by
  cases a with
  | addTarget id info => exact absurd rfl (hadd id info)
  | removeTarget info =>
    obtain ⟨-, rfl⟩ := System.call_eq_some h
    exact descends_of_map (s.initiator.get?_removeTarget info) fun _ target =>
      staysGone_ite (fun endpoint _ => live_shutdown endpoint) target
  | transfer outcome =>
    obtain ⟨-, rfl⟩ := System.call_eq_some h
    refine descends_of_map (s.initiator.get?_transfer outcome) ?_
    intro id target
    split
    · exact staysGone_outcome target (outcome id)
    · exact ⟨rfl, fun hlive => hlive⟩
  | transferGrainToTarget id outcome =>
    obtain ⟨-, rfl⟩ := System.call_eq_some h
    refine descends_of_map (s.initiator.get?_transferGrainToTarget id outcome) ?_
    intro j target
    split
    · exact staysGone_outcome target outcome
    · exact ⟨rfl, fun hlive => hlive⟩
  | shutdown =>
    obtain ⟨-, rfl⟩ := System.call_eq_some h
    exact descends_forAll fun endpoint _ => live_shutdown endpoint
  | makeProgress caller =>
    obtain ⟨-, rfl⟩ := System.makeProgress_eq_some h
    exact descends_refl
  | poll now expired => exact descends_poll (System.polled_of_poll h)
  | complete completion =>
    obtain ⟨-, rfl⟩ := System.complete_eq_some h
    exact descends_refl
  | deliver id event =>
    obtain rfl := Option.some.inj h
    exact descends_refl

end Steps

/-! ### The invariant -/

section Invariant

variable {s t : Tracked}

theorem step_eq_some {a : Action} (h : s.step a = some t) :
    ∃ system, s.system.step a = some system ∧ t = { system := system, removed := track s a } := by
  rw [Tracked.step, Option.map_eq_some_iff] at h
  obtain ⟨system, hstep, rfl⟩ := h
  exact ⟨system, hstep, rfl⟩

theorem gone_of_descends {system : System} (hs : Gone s)
    (h : Descends s.system.initiator.targets system.initiator.targets) :
    Gone { system := system, removed := s.removed } := by
  intro id target' htarget' hremoved
  obtain ⟨target, htarget, hinfo, hlive⟩ := h id target' htarget'
  rw [hinfo] at hremoved
  exact hlive (hs id target htarget hremoved)

theorem gone_addTarget {id : Token} {info : TargetInfoId} (hs : Gone s)
    (halone : Alone s (.addTarget id info)) (h : s.step (.addTarget id info) = some t) :
    Gone t := by
  obtain ⟨system, hstep, rfl⟩ := step_eq_some h
  obtain ⟨-, rfl⟩ := System.call_eq_some hstep
  intro j target' htarget' hremoved
  change (s.system.initiator.addTarget id info).targets.get? j = _ at htarget'
  rw [RCInitiator.get?_addTarget] at htarget'
  by_cases hj : j = id
  · rw [if_pos hj, halone] at htarget'
    obtain rfl := Option.some.inj htarget'
    simp [track] at hremoved
  · rw [if_neg hj] at htarget'
    have hinfo : target'.info ≠ info := by
      intro hinfo
      simp [track, hinfo] at hremoved
    simp only [track, Function.update_of_ne hinfo] at hremoved
    exact hs j target' htarget' hremoved

theorem removeTarget_eq_ok {initiator : RCInitiator} {info : TargetInfoId} {id : Token}
    (hfind : initiator.findTarget info = some id) :
    ∃ next, initiator.removeTarget info = .ok next := by
  rw [RCInitiator.removeTarget, hfind]
  exact ⟨_, rfl⟩

theorem removeTarget_eq_error {initiator : RCInitiator} {info : TargetInfoId}
    (hfind : initiator.findTarget info = none) :
    ∃ exception, initiator.removeTarget info = .error exception := by
  rw [RCInitiator.removeTarget, hfind]
  exact ⟨_, rfl⟩

theorem gone_removeTarget {info : TargetInfoId} (hs : Gone s) (halone : Alone s (.removeTarget info))
    (h : s.step (.removeTarget info) = some t) : Gone t := by
  obtain ⟨system, hstep, rfl⟩ := step_eq_some h
  have hadd : ∀ id added, Action.removeTarget info ≠ .addTarget id added := by
    intro id added h
    cases h
  have hdescends := descends_step hadd hstep
  cases hfind : s.system.initiator.findTarget info with
  | none =>
    obtain ⟨exception, herror⟩ := removeTarget_eq_error hfind
    simp only [track, herror]
    exact gone_of_descends hs hdescends
  | some found =>
    obtain ⟨next, hok⟩ := removeTarget_eq_ok hfind
    simp only [track, hok]
    obtain ⟨-, rfl⟩ := System.call_eq_some hstep
    intro id target' htarget' hremoved
    change (settle _ _).targets.get? id = _ at htarget'
    rw [RCInitiator.get?_removeTarget, Option.map_eq_some_iff] at htarget'
    obtain ⟨target, htarget, rfl⟩ := htarget'
    by_cases hid : s.system.initiator.findTarget info = some id
    · simp only [hid, if_true]
      exact live_shutdown target.endpoint
    · simp only [hid, if_false] at hremoved ⊢
      by_cases hinfo : target.info = info
      · exact halone id target htarget hinfo hid
      · rw [Function.update_of_ne hinfo] at hremoved
        exact hs id target htarget hremoved

theorem gone_step {a : Action} (hs : Gone s) (halone : Alone s a) (h : s.step a = some t) :
    Gone t := by
  have hother : (∀ id info, a ≠ .addTarget id info) → track s a = s.removed → Gone t := by
    intro hadd htrack
    obtain ⟨system, hstep, rfl⟩ := step_eq_some h
    rw [htrack]
    exact gone_of_descends hs (descends_step hadd hstep)
  cases a with
  | addTarget id info => exact gone_addTarget hs halone h
  | removeTarget info => exact gone_removeTarget hs halone h
  | transfer | transferGrainToTarget | shutdown | makeProgress | poll | complete | deliver =>
    refine hother ?_ rfl
    intro id info h
    cases h

theorem writes_of_not_live {target : InitiatorTarget} (h : live target.endpoint = false)
    (outcome : PostOutcome) : target.writes outcome = 0 := by
  rw [InitiatorTarget.writes, isConnected_of_not_live h]
  rfl

theorem findTarget_info {initiator : RCInitiator} {info : TargetInfoId} {id : Token}
    {target : InitiatorTarget} (hfind : initiator.findTarget info = some id)
    (htarget : initiator.targets.get? id = some target) : target.info = info := by
  obtain ⟨found, hfound, hinfo⟩ := OrderedMap.findKey?_eq_some _ hfind
  obtain rfl := Option.some.inj (hfound.symm.trans htarget)
  exact of_decide_eq_true hinfo

theorem kept_transfer {outcome : Token → PostOutcome} (hs : Gone s) :
    Kept s (.transfer outcome) := by
  intro id target htarget
  simp only [RCInitiator.writes, htarget]
  constructor
  · intro hremoved
    rw [writes_of_not_live (hs id target htarget hremoved)]
    split <;> rfl
  · intro hthrows hconnected
    rw [RCInitiator.reached, hthrows, InitiatorTarget.writes, hconnected]
    rfl

theorem kept_transferGrainToTarget {id : Token} {outcome : PostOutcome} (hs : Gone s) :
    Kept s (.transferGrainToTarget id outcome) := by
  intro target htarget
  simp only [RCInitiator.writesTo, htarget]
  constructor
  · intro hremoved
    exact writes_of_not_live (hs id target htarget hremoved) outcome
  · intro hconnected
    rw [InitiatorTarget.writes, hconnected]
    rfl

theorem kept_removeTarget (info : TargetInfoId) : Kept s (.removeTarget info) := by
  intro t h id target htarget hinfo
  obtain ⟨system, hstep, rfl⟩ := step_eq_some h
  obtain ⟨-, rfl⟩ := System.call_eq_some hstep
  have hfind : s.system.initiator.findTarget info ≠ some id :=
    fun hfind => hinfo (findTarget_info hfind htarget)
  refine (s.system.initiator.get?_removeTarget info id).trans ?_
  simp [htarget, hfind]

theorem kept_addTarget {id : Token} {info : TargetInfoId} (halone : Alone s (.addTarget id info)) :
    Kept s (.addTarget id info) := by
  intro t h
  obtain ⟨system, hstep, rfl⟩ := step_eq_some h
  obtain ⟨-, rfl⟩ := System.call_eq_some hstep
  have hget := s.system.initiator.get?_addTarget id info
  refine ⟨?_, ?_⟩
  · refine (hget id).trans ?_
    rw [if_pos rfl, halone]
    rfl
  · intro j target htarget
    have hj : j ≠ id := by
      rintro rfl
      rw [halone] at htarget
      cases htarget
    refine (hget j).trans ?_
    rw [if_neg hj]
    exact htarget

theorem kept_step {a : Action} (hs : Gone s) (halone : Alone s a) : Kept s a := by
  cases a with
  | addTarget id info => exact kept_addTarget halone
  | removeTarget info => exact kept_removeTarget info
  | transfer outcome => exact kept_transfer hs
  | transferGrainToTarget id outcome => exact kept_transferGrainToTarget hs
  | shutdown | makeProgress | poll | complete | deliver => trivial

end Invariant

/-! ### The datagram initiator -/

/-- A datagram initiator, and the targets removed from it. -/
structure TrackedRemote where
  initiator : RDMInitiator
  removed : TargetInfoId → Bool

def TrackedRemote.init : TrackedRemote where
  initiator := .init
  removed := fun _ => false

inductive RemoteAction where
  | addTarget (token : Token) (info : TargetInfoId)
  | removeTarget (info : TargetInfoId)
  | transfer (outcome : Token → PostOutcome)
  | transferGrainToTarget (info : TargetInfoId) (outcome : PostOutcome)
  /-- Targets are activated, and a completion is taken from the queue if there is one. -/
  | makeProgress (completion : Option Completion)

/-- A call that throws changes nothing. -/
def TrackedRemote.step (s : TrackedRemote) : RemoteAction → Option TrackedRemote
  | .addTarget token info =>
      match s.initiator.addTarget token info with
      | .ok initiator =>
          some { initiator := initiator, removed := Function.update s.removed info false }
      | .error _ => some s
  | .removeTarget info =>
      match s.initiator.removeTarget info with
      | .ok initiator =>
          some { initiator := initiator, removed := Function.update s.removed info true }
      | .error _ => some s
  | .transfer outcome => some { s with initiator := s.initiator.transfer outcome }
  | .transferGrainToTarget info outcome =>
      match s.initiator.transferGrainToTarget info outcome with
      | .ok initiator => some { s with initiator := initiator }
      | .error _ => some s
  | .makeProgress completion =>
      let initiator := s.initiator.activateIdleEndpoints
      match completion with
      | none => some { s with initiator := initiator }
      | some completion => some { s with initiator := initiator.processCompletion completion }

/-- As for the connection initiator; a transfer to a removed target is refused. -/
def KeptRemote (s : TrackedRemote) : RemoteAction → Prop
  | .transfer outcome =>
      ∀ token remote, s.initiator.targets.get? token = some remote →
        (s.removed remote.info = true → s.initiator.writes outcome token = 0) ∧
        (s.initiator.throwsAt outcome = none → remote.target.state = .activated →
          s.initiator.writes outcome token = (outcome token).writes)
  | .transferGrainToTarget info outcome =>
      s.removed info = true →
        ∃ exception, s.initiator.transferGrainToTarget info outcome = .error exception
  | .removeTarget info =>
      ∀ t, s.step (.removeTarget info) = some t → ∀ token remote,
        s.initiator.targets.get? token = some remote → remote.info ≠ info →
        t.initiator.targets.get? token = some remote
  | .addTarget token info =>
      ∀ initiator, s.initiator.addTarget token info = .ok initiator →
        initiator.targets.get? token = some { info := info, target := .init } ∧
        ∀ other remote, s.initiator.targets.get? other = some remote →
          initiator.targets.get? other = some remote
  | .makeProgress _ => True

/-- The token drawn for a new target is not one in use. -/
def FreshToken (s : TrackedRemote) : RemoteAction → Prop
  | .addTarget token _ => s.initiator.targets.get? token = none
  | _ => True

/-- The two maps agree, and hold no removed target. -/
structure RemoteInvariant (s : TrackedRemote) : Prop where
  forward : ∀ info token, s.initiator.remoteEndpoints.get? info = some token →
    ∃ remote, s.initiator.targets.get? token = some remote ∧ remote.info = info
  backward : ∀ token remote, s.initiator.targets.get? token = some remote →
    s.initiator.remoteEndpoints.get? remote.info = some token
  gone : ∀ info, s.removed info = true → s.initiator.remoteEndpoints.get? info = none

section Remote

variable {s t : TrackedRemote}

theorem remoteInvariant_init : RemoteInvariant .init where
  forward := fun _ _ h => by cases h
  backward := fun _ _ h => by cases h
  gone := fun _ _ => rfl

/-- The targets change in place. -/
theorem remoteInvariant_of_map {targets : OrderedMap Token RemoteTarget}
    {g : Token → RemoteTarget → RemoteTarget} (hs : RemoteInvariant s)
    (hget : ∀ token, targets.get? token = (s.initiator.targets.get? token).map (g token))
    (hg : ∀ token remote, (g token remote).info = remote.info) :
    RemoteInvariant { s with initiator := { s.initiator with targets := targets } } := by
  refine ⟨?_, ?_, hs.gone⟩
  · intro info token htoken
    obtain ⟨remote, hremote, hinfo⟩ := hs.forward info token htoken
    refine ⟨g token remote, ?_, (hg token remote).trans hinfo⟩
    refine (hget token).trans ?_
    rw [hremote]
    rfl
  · intro token remote' hremote'
    change targets.get? token = some remote' at hremote'
    rw [hget, Option.map_eq_some_iff] at hremote'
    obtain ⟨remote, hremote, rfl⟩ := hremote'
    rw [hg]
    exact hs.backward token remote hremote

theorem addTarget_eq_ok {initiator next : RDMInitiator} {token : Token} {info : TargetInfoId}
    (h : initiator.addTarget token info = .ok next) :
    initiator.remoteEndpoints.get? info = none ∧
      next = { targets := initiator.targets.emplace token { info := info, target := .init }
               remoteEndpoints := initiator.remoteEndpoints.emplace info token } := by
  rw [RDMInitiator.addTarget] at h
  split at h
  · cases h
  · next hnone => exact ⟨hnone, (Except.ok.inj h).symm⟩

theorem remoteInvariant_addTarget {token : Token} {info : TargetInfoId} {next : RDMInitiator}
    (hs : RemoteInvariant s) (hfresh : s.initiator.targets.get? token = none)
    (h : s.initiator.addTarget token info = .ok next) :
    RemoteInvariant { initiator := next, removed := Function.update s.removed info false } := by
  obtain ⟨hnone, rfl⟩ := addTarget_eq_ok h
  have htargets := OrderedMap.get?_emplace s.initiator.targets token { info := info, target := .init }
  have hremotes := OrderedMap.get?_emplace s.initiator.remoteEndpoints info token
  refine ⟨?_, ?_, ?_⟩
  · intro other found hfound
    change (s.initiator.remoteEndpoints.emplace info token).get? other = _ at hfound
    rw [hremotes, hnone] at hfound
    by_cases hother : other = info
    · rw [if_pos hother] at hfound
      obtain rfl := Option.some.inj hfound
      refine ⟨{ info := info, target := .init }, ?_, hother.symm⟩
      refine (htargets token).trans ?_
      rw [if_pos rfl, hfresh]
      rfl
    · rw [if_neg hother] at hfound
      obtain ⟨remote, hremote, hinfo⟩ := hs.forward other found hfound
      have hne : found ≠ token := by
        rintro rfl
        rw [hfresh] at hremote
        cases hremote
      refine ⟨remote, ?_, hinfo⟩
      refine (htargets found).trans ?_
      rw [if_neg hne]
      exact hremote
  · intro other remote hremote
    change (s.initiator.targets.emplace token _).get? other = _ at hremote
    rw [htargets, hfresh] at hremote
    refine (hremotes remote.info).trans ?_
    by_cases hother : other = token
    · rw [if_pos hother, Option.getD_none] at hremote
      obtain rfl := Option.some.inj hremote
      rw [if_pos rfl, hnone, hother]
      rfl
    · rw [if_neg hother] at hremote
      have hback := hs.backward other remote hremote
      have hne : remote.info ≠ info := by
        intro hinfo
        rw [hinfo, hnone] at hback
        cases hback
      rw [if_neg hne]
      exact hback
  · intro other hremoved
    have hne : other ≠ info := by
      rintro rfl
      simp at hremoved
    simp only [Function.update_of_ne hne] at hremoved
    refine (hremotes other).trans ?_
    rw [if_neg hne]
    exact hs.gone other hremoved

theorem removeTarget_remote_eq_ok {initiator next : RDMInitiator} {info : TargetInfoId}
    (h : initiator.removeTarget info = .ok next) :
    ∃ token, initiator.remoteEndpoints.get? info = some token ∧
      next = { targets := initiator.targets.eraseIf fun key _ => decide (key = token)
               remoteEndpoints :=
                 initiator.remoteEndpoints.eraseIf fun key _ => decide (key = info) } := by
  rw [RDMInitiator.removeTarget] at h
  split at h
  · cases h
  · next token hfind =>
    refine ⟨token, ?_, (Except.ok.inj h).symm⟩
    rw [RDMInitiator.findRemoteByEndpoint] at hfind
    split at hfind
    · cases hfind
    · next found hfound =>
      split at hfind
      · cases hfind
      · obtain rfl := Except.ok.inj hfind
        exact hfound

theorem remoteInvariant_removeTarget {info : TargetInfoId} {next : RDMInitiator}
    (hs : RemoteInvariant s) (h : s.initiator.removeTarget info = .ok next) :
    RemoteInvariant { initiator := next, removed := Function.update s.removed info true } := by
  obtain ⟨token, htoken, rfl⟩ := removeTarget_remote_eq_ok h
  obtain ⟨gone, hgone, hinfo⟩ := hs.forward info token htoken
  refine ⟨?_, ?_, ?_⟩
  · intro other found hfound
    change (OrderedMap.eraseIf _ _).get? other = _ at hfound
    rw [OrderedMap.get?_erase] at hfound
    by_cases hother : other = info
    · rw [if_pos hother] at hfound
      cases hfound
    · rw [if_neg hother] at hfound
      obtain ⟨remote, hremote, hremoteInfo⟩ := hs.forward other found hfound
      have hne : found ≠ token := by
        rintro rfl
        rw [hgone] at hremote
        obtain rfl := Option.some.inj hremote
        exact hother (hremoteInfo.symm.trans hinfo)
      refine ⟨remote, ?_, hremoteInfo⟩
      change (OrderedMap.eraseIf _ _).get? found = _
      rw [OrderedMap.get?_erase, if_neg hne]
      exact hremote
  · intro other remote hremote
    change (OrderedMap.eraseIf _ _).get? other = _ at hremote
    rw [OrderedMap.get?_erase] at hremote
    by_cases hother : other = token
    · rw [if_pos hother] at hremote
      cases hremote
    · rw [if_neg hother] at hremote
      have hback := hs.backward other remote hremote
      have hne : remote.info ≠ info := by
        intro heq
        rw [heq, htoken] at hback
        exact hother (Option.some.inj hback).symm
      change (OrderedMap.eraseIf _ _).get? remote.info = _
      rw [OrderedMap.get?_erase, if_neg hne]
      exact hback
  · intro other hremoved
    change (OrderedMap.eraseIf _ _).get? other = _
    rw [OrderedMap.get?_erase]
    by_cases hother : other = info
    · rw [if_pos hother]
    · rw [if_neg hother]
      simp only [Function.update_of_ne hother] at hremoved
      exact hs.gone other hremoved

theorem get?_activateIdleEndpoints (initiator : RDMInitiator) :
    ∃ g : Token → RemoteTarget → RemoteTarget,
      (∀ token, initiator.activateIdleEndpoints.targets.get? token =
        (initiator.targets.get? token).map (g token)) ∧
      ∀ token remote, (g token remote).info = remote.info := by
  refine ⟨_, fun token => OrderedMap.get?_map initiator.targets _ token, ?_⟩
  intro token remote
  split
  · rw [RemoteTarget.activate]
    split <;> rfl
  · rfl

theorem info_transfer (remote : RemoteTarget) (outcome : PostOutcome) :
    (remote.transfer outcome).info = remote.info := by
  cases outcome <;> rfl

theorem remoteInvariant_makeProgress {completion : Option Completion} (hs : RemoteInvariant s)
    (h : s.step (.makeProgress completion) = some t) : RemoteInvariant t := by
  obtain ⟨g, hget, hg⟩ := get?_activateIdleEndpoints s.initiator
  have hactivated : RemoteInvariant { s with initiator := s.initiator.activateIdleEndpoints } :=
    remoteInvariant_of_map hs hget hg
  cases completion with
  | none =>
    obtain rfl := Option.some.inj h
    exact hactivated
  | some completion =>
    obtain rfl := Option.some.inj h
    simp only [RDMInitiator.processCompletion]
    split
    · exact hactivated
    · refine remoteInvariant_of_map (s := { s with initiator := s.initiator.activateIdleEndpoints })
        hactivated (OrderedMap.get?_modify _ _ _) ?_
      intro token remote
      split <;> rfl

theorem remoteInvariant_step {a : RemoteAction} (hs : RemoteInvariant s) (hfresh : FreshToken s a)
    (h : s.step a = some t) : RemoteInvariant t := by
  cases a with
  | addTarget token info =>
    rw [TrackedRemote.step] at h
    split at h
    · next next hok =>
      obtain rfl := Option.some.inj h
      exact remoteInvariant_addTarget hs hfresh hok
    · obtain rfl := Option.some.inj h
      exact hs
  | removeTarget info =>
    rw [TrackedRemote.step] at h
    split at h
    · next next hok =>
      obtain rfl := Option.some.inj h
      exact remoteInvariant_removeTarget hs hok
    · obtain rfl := Option.some.inj h
      exact hs
  | transfer outcome =>
    obtain rfl := Option.some.inj h
    refine remoteInvariant_of_map hs (OrderedMap.get?_map _ _) ?_
    intro token remote
    split
    · exact info_transfer remote (outcome token)
    · rfl
  | transferGrainToTarget info outcome =>
    rw [TrackedRemote.step] at h
    split at h
    · next next hok =>
      obtain rfl := Option.some.inj h
      rw [RDMInitiator.transferGrainToTarget] at hok
      split at hok
      · cases hok
      · obtain rfl := Except.ok.inj hok
        refine remoteInvariant_of_map hs (OrderedMap.get?_modify _ _ _) ?_
        intro token remote
        split
        · exact info_transfer remote outcome
        · rfl
    · obtain rfl := Option.some.inj h
      exact hs
  | makeProgress completion => exact remoteInvariant_makeProgress hs h

theorem keptRemote_step {a : RemoteAction} (hs : RemoteInvariant s) (hfresh : FreshToken s a) :
    KeptRemote s a := by
  cases a with
  | addTarget token info =>
    intro next hok
    obtain ⟨-, rfl⟩ := addTarget_eq_ok hok
    have hget := OrderedMap.get?_emplace s.initiator.targets token
      { info := info, target := .init }
    refine ⟨?_, ?_⟩
    · refine (hget token).trans ?_
      rw [if_pos rfl, hfresh]
      rfl
    · intro other remote hremote
      have hne : other ≠ token := by
        rintro rfl
        rw [hfresh] at hremote
        cases hremote
      refine (hget other).trans ?_
      rw [if_neg hne]
      exact hremote
  | removeTarget info =>
    intro t h token remote hremote hinfo
    rw [TrackedRemote.step] at h
    split at h
    · next next hok =>
      obtain rfl := Option.some.inj h
      obtain ⟨gone, hgone, rfl⟩ := removeTarget_remote_eq_ok hok
      have hne : token ≠ gone := by
        rintro rfl
        obtain ⟨other, hother, hotherInfo⟩ := hs.forward info token hgone
        rw [hremote] at hother
        obtain rfl := Option.some.inj hother
        exact hinfo hotherInfo
      refine (OrderedMap.get?_erase s.initiator.targets gone token).trans ?_
      rw [if_neg hne]
      exact hremote
    · obtain rfl := Option.some.inj h
      exact hremote
  | transfer outcome =>
    intro token remote hremote
    simp only [RDMInitiator.writes, hremote]
    constructor
    · intro hremoved
      have hgone := hs.gone remote.info hremoved
      rw [hs.backward token remote hremote] at hgone
      cases hgone
    · intro hthrows hactive
      rw [RDMInitiator.reached, hthrows, RemoteTarget.writes, if_pos hactive]
      rfl
  | transferGrainToTarget info outcome =>
    intro hremoved
    rw [RDMInitiator.transferGrainToTarget, RDMInitiator.findRemoteByEndpoint,
      hs.gone info hremoved]
    exact ⟨_, rfl⟩
  | makeProgress completion => trivial

end Remote

/-! ### Runs -/

theorem gone_init : Gone .init := fun _ _ h => by cases h

instance (s : Tracked) (a : Action) : Decidable (Alone s a) :=
  match a with
  | .removeTarget _ => OrderedMap.decidableAll s.system.initiator.targets
  | .addTarget id _ => inferInstanceAs (Decidable (s.system.initiator.targets.get? id = none))
  | .transfer _ => isTrue trivial
  | .transferGrainToTarget _ _ => isTrue trivial
  | .shutdown => isTrue trivial
  | .makeProgress _ => isTrue trivial
  | .poll _ _ => isTrue trivial
  | .complete _ => isTrue trivial
  | .deliver _ _ => isTrue trivial

instance (s : TrackedRemote) (a : RemoteAction) : Decidable (FreshToken s a) :=
  match a with
  | .addTarget token _ => inferInstanceAs (Decidable (s.initiator.targets.get? token = none))
  | .removeTarget _ => isTrue trivial
  | .transfer _ => isTrue trivial
  | .transferGrainToTarget _ _ => isTrue trivial
  | .makeProgress _ => isTrue trivial

/-- A target is added and connected. -/
def connectedRun : List Action :=
  [.addTarget 1 7, .makeProgress .direct, .poll 5000000000 false, .poll 5000000000 false,
    .deliver 1 .connected, .poll 5000000000 false, .poll 5000000000 false]

def removeOnceRun : List Action :=
  connectedRun ++ [.transfer fun _ => .posted 1, .removeTarget 7, .transfer fun _ => .posted 1]

def removeRemoteRun : List RemoteAction :=
  [.addTarget 1 7, .makeProgress none, .transfer fun _ => .posted 1, .removeTarget 7,
    .addTarget 2 7, .makeProgress (some ⟨1, .data⟩), .transfer fun _ => .posted 1]

/-- The target is removed, added again while its first endpoint is flushing, and
    removed again: the endpoint found is the flushing one, and the other one is
    connected later. -/
def removeTwiceRun : List Action :=
  connectedRun ++ [.removeTarget 7, .addTarget 2 7, .removeTarget 7, .makeProgress .direct,
    .poll 5000000000 false, .poll 5000000000 false, .deliver 2 .connected,
    .poll 5000000000 false, .poll 5000000000 false]

end MediaExchange.RemovedTargets
