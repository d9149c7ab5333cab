/-
  MediaExchange/CompletionDispatch.lean
  =====================================
  **Two ways to hand a completion to its endpoint** (`RCInitiator.cpp`,
  `RDMInitiator.cpp`).

  `pollCQ` and `blockOnCQ` look the endpoint of a completion up by its token.  The
  token can be one that the map does not hold any more: an endpoint is evicted
  once it is done, and it is done as soon as the queue has been found empty,
  with its last completions still to come.  `pollCQ` skips such a completion;
  `blockOnCQ` goes on with what the lookup has returned.
-/
import MediaExchange.RDMInitiator
import MediaExchange.InitiatorProgress

namespace MediaExchange.CompletionDispatch

open MediaExchange.LabelledRun MediaExchange.InitiatorProgress

/-- A completion is consumed once by the endpoint it is about, or dropped if there
    is none, and no other endpoint notices. -/
def Dispatched (targets targets' : OrderedMap Token InitiatorTarget) (completion : Completion) :
    Prop :=
  ∀ id, targets'.get? id = (targets.get? id).map fun target =>
    if id = completion.token then
      { target with endpoint := target.endpoint.consumeCompletion completion.entry }
    else target

/-- The same for the targets of a datagram initiator. -/
def DispatchedRemote (targets targets' : OrderedMap Token RemoteTarget) (completion : Completion) :
    Prop :=
  ∀ token, targets'.get? token = (targets.get? token).map fun remote =>
    if token = completion.token then
      { remote with target := remote.target.handleCompletion completion.entry }
    else remote

theorem dispatched_pollCQ (initiator : RCInitiator) (completion : Completion) :
    Dispatched initiator.targets (initiator.pollCQ completion).targets completion :=
  initiator.get?_pollCQ completion

theorem dispatched_processCompletion (initiator : RDMInitiator) (completion : Completion) :
    DispatchedRemote initiator.targets (initiator.processCompletion completion).targets
      completion := by
  intro token
  rw [RDMInitiator.processCompletion]
  split
  · next hnone =>
    by_cases htoken : token = completion.token
    · rw [htoken, hnone]
      rfl
    · simp [htoken]
  · exact OrderedMap.get?_modify initiator.targets _ _ token

/-! ### Runs -/

/-- The completion that `blockOnCQ` takes from the queue is one of an endpoint in
    the map. -/
def Present (s : System) : Action → Prop
  | .poll _ _ =>
      ∀ inLoop, s.phase = .blockOnCQ inLoop → ∀ completion ∈ s.cq.head?,
        (s.initiator.targets.get? completion.token).isSome = true
  | _ => True

section Steps

variable {s t : System}

theorem blockOnCQ_eq_none {initiator : RCInitiator} {completion : Completion} :
    initiator.blockOnCQ completion = none ↔
      (initiator.targets.get? completion.token).isSome = false := by
  rw [RCInitiator.blockOnCQ]
  split
  · next hnone => simp [hnone]
  · next hsome => simp [hsome]

theorem afterProgress_ne_undefined (initiator : RCInitiator) (expired : Bool) (caller : Caller) :
    afterProgress initiator expired caller ≠ .undefined := by
  cases caller with
  | direct => exact Phase.noConfusion
  | short zero => cases zero <;> exact Phase.noConfusion
  | loop =>
    rw [afterProgress]
    split <;> exact Phase.noConfusion

theorem afterBlock_ne_undefined (initiator : RCInitiator) (inLoop : Bool) :
    afterBlock initiator inLoop ≠ .undefined := by
  cases inLoop <;> exact Phase.noConfusion

/-- Only `blockOnCQ` gets to an endpoint that is not there. -/
theorem undefined_iff {a : Action} (hs : s.phase ≠ .undefined) (h : s.step a = some t) :
    t.phase = .undefined ↔ ¬ Present s a := by
  cases a with
  | addTarget | removeTarget | transfer | transferGrainToTarget | shutdown =>
    obtain ⟨-, rfl⟩ := System.call_eq_some h
    exact ⟨Phase.noConfusion, fun hnot => absurd trivial hnot⟩
  | makeProgress caller =>
    obtain ⟨-, rfl⟩ := System.makeProgress_eq_some h
    exact ⟨Phase.noConfusion, fun hnot => absurd trivial hnot⟩
  | complete completion =>
    obtain ⟨-, rfl⟩ := System.complete_eq_some h
    exact ⟨fun hundefined => absurd hundefined hs, fun hnot => absurd trivial hnot⟩
  | deliver id event =>
    obtain rfl := Option.some.inj h
    exact ⟨fun hundefined => absurd hundefined hs, fun hnot => absurd trivial hnot⟩
  | poll now expired =>
    have hskip : (∀ inLoop, s.phase ≠ .blockOnCQ inLoop) → Present s (.poll now expired) :=
      fun hphase inLoop hblock => absurd hblock (hphase inLoop)
    cases System.polled_of_poll h with
    | activated caller hphase | flushed caller hphase =>
      refine ⟨Phase.noConfusion, fun hnot => absurd (hskip ?_) hnot⟩
      intro inLoop
      rw [hphase]
      exact Phase.noConfusion
    | interrupted caller hphase =>
      refine ⟨Phase.noConfusion, fun hnot => absurd (hskip ?_) hnot⟩
      intro inLoop
      rw [hphase]
      exact Phase.noConfusion
    | completed caller hphase | dispatched caller hphase =>
      refine ⟨fun hundefined => absurd hundefined hs, fun hnot => absurd (hskip ?_) hnot⟩
      intro inLoop
      rw [hphase]
      exact Phase.noConfusion
    | evicted caller hphase heq =>
      refine ⟨fun hundefined => absurd hundefined (afterProgress_ne_undefined _ _ _),
        fun hnot => absurd (hskip ?_) hnot⟩
      intro inLoop
      rw [hphase]
      exact Phase.noConfusion
    | timedOut inLoop hphase hcq =>
      refine ⟨fun hundefined => absurd hundefined (afterBlock_ne_undefined _ _),
        fun hnot => absurd ?_ hnot⟩
      intro inLoop _ completion hcompletion
      rw [hcq] at hcompletion
      cases hcompletion
    | unblocked inLoop hphase completion cq hcq initiator hblock =>
      obtain ⟨hsome, rfl⟩ := RCInitiator.blockOnCQ_eq_some.mp hblock
      refine ⟨fun hundefined => absurd hundefined (afterBlock_ne_undefined _ _),
        fun hnot => absurd ?_ hnot⟩
      intro inLoop _ first hfirst
      rw [hcq] at hfirst
      obtain rfl := Option.some.inj hfirst
      exact hsome
    | undefined inLoop hphase completion cq hcq hblock =>
      refine ⟨fun _ hpresent => ?_, fun _ => rfl⟩
      have hsome := hpresent inLoop hphase completion (by rw [hcq]; rfl)
      rw [blockOnCQ_eq_none.mp hblock] at hsome
      cases hsome

end Steps

/-- `pollCQ` hands every completion to its endpoint or drops it, and `blockOnCQ`
    leaves the same initiator exactly when the endpoint is in the map; a run never
    gets to an endpoint outside the map exactly when this is so of all completions
    that `blockOnCQ` takes from the queue.  The datagram initiator drops what it
    does not know. -/
theorem dispatch_agrees (initiator : RCInitiator) (remote : RDMInitiator) (completion : Completion)
    (actions : List Action) :
    (Dispatched initiator.targets (initiator.pollCQ completion).targets completion ∧
      (initiator.blockOnCQ completion = some (initiator.pollCQ completion) ↔
        (initiator.targets.get? completion.token).isSome = true)) ∧
    (Throughout System.step (fun s => s.phase ≠ .undefined) .init actions ↔
      Along System.step Present .init actions) ∧
    DispatchedRemote remote.targets (remote.processCompletion completion).targets completion := by
  refine ⟨⟨dispatched_pollCQ initiator completion, ?_⟩, ?_, dispatched_processCompletion _ _⟩
  · simp [RCInitiator.blockOnCQ_eq_some]
  · have hinit : System.init.phase ≠ .undefined := by
      intro h
      cases h
    refine throughout_iff_along (J := fun s : System => s.phase ≠ .undefined) (fun _ hs => hs) ?_ ?_
      hinit actions
    · intro s a t hs hpresent h hundefined
      exact (undefined_iff hs h).mp hundefined hpresent
    · intro s a t hs hmissing h hdefined
      exact hdefined ((undefined_iff hs h).mpr hmissing)

/-- Two targets are added and connected, each gets a write, and the first one is
    removed and evicted; its completion comes while `blockOnCQ` waits. -/
def lateRun : List Action :=
  [.addTarget 1 7, .addTarget 2 8, .makeProgress .direct, .poll 5000000000 false,
    .poll 5000000000 false, .deliver 1 .connected, .poll 5000000000 false,
    .poll 5000000000 false, .transfer fun _ => .posted 1, .removeTarget 7,
    .makeProgress (.short false), .poll 5000000000 false, .poll 5000000000 false,
    .poll 5000000000 false, .complete ⟨1, .data⟩]

/-- `pollCQ` would skip the completion; `blockOnCQ` accesses the end of the map. -/
theorem late_completion_undefined :
    ∃ s, run System.step .init lateRun = some s ∧
      s.initiator.blockOnCQ ⟨1, .data⟩ ≠ some (s.initiator.pollCQ ⟨1, .data⟩) ∧
      ∃ t, s.step (.poll 5000000000 false) = some t ∧ t.phase = .undefined := by
  refine ⟨_, rfl, ?_, _, rfl, rfl⟩
  intro h
  cases (RCInitiator.blockOnCQ_eq_some.mp h).1

end MediaExchange.CompletionDispatch
