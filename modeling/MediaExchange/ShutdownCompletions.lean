/-
  MediaExchange/ShutdownCompletions.lean
  ======================================
  **Completions that are read together with a shutdown** (`RCTarget.cpp`).

  Two of the three ways of reading the queues take from both of them before
  `readNext` looks at either entry.  If the event is a shutdown, the target goes
  back to listening, and the completion beside it is neither handed to the
  protocol nor returned.  Nothing else is lost: every data completion reaches the
  protocol once, and its result the caller, exactly when no data completion is
  taken from its queue beside a shutdown (`lossless_iff_apart`).
-/
import MediaExchange.RCTarget

namespace MediaExchange.ShutdownCompletions

open MediaExchange.LabelledRun MediaExchange.RCTarget

variable {σ ρ : Type} {protocol : IngressProtocol σ ρ} {s t : System σ ρ}

/-- The data completions of a list. -/
def dataOf (completions : List TargetCompletion) : List TargetCompletion :=
  completions.filter TargetCompletion.isDataEntry

/-- The completion that a call in progress has dequeued. -/
def held : Pc → List TargetCompletion
  | .eventSecond completion => completion.toList
  | _ => []

/-- No call is in progress. -/
def between : Pc → Bool
  | .idle | .broken => true
  | _ => false

/-- Between two calls every data completion that was dequeued has been handed to
    the protocol, once and in order, and the protocol's results are what the calls
    returned. -/
structure Lossless (s : System σ ρ) : Prop where
  handed : between s.pc = true → dataOf (s.handed.map Prod.fst) = dataOf s.dequeued
  returned : s.returned = s.handed.map Prod.snd

/-- No data completion is dequeued beside a shutdown event. -/
def Apart (s : System σ ρ) : Action → Prop
  | .access _ =>
      match s.pc with
      | .eventSecond completion =>
          s.eq.head? = some .shutdown → dataOf completion.toList = []
      | .completionSecond event =>
          event = some .shutdown → dataOf s.cq.head?.toList = []
      | _ => True
  | _ => True

/-- What has been dequeued was handed over, or is in the hands of the call. -/
structure Invariant (s : System σ ρ) : Prop where
  handed : dataOf (s.handed.map Prod.fst) ++ dataOf (held s.pc) = dataOf s.dequeued
  returned : s.returned = s.handed.map Prod.snd

theorem invariant_init (start : σ) : Invariant (System.init start : System σ ρ) where
  handed := rfl
  returned := rfl

theorem held_of_between {pc : Pc} (h : between pc = true) : held pc = [] := by
  cases pc with
  | eventSecond => cases h
  | _ => rfl

theorem Invariant.lossless (hs : Invariant s) : Lossless s where
  handed := by
    intro hbetween
    have hhanded := hs.handed
    rw [held_of_between hbetween] at hhanded
    simpa [dataOf] using hhanded
  returned := hs.returned

/-! ### Reading both queues -/

theorem dataOf_append (first second : List TargetCompletion) :
    dataOf (first ++ second) = dataOf first ++ dataOf second :=
  List.filter_append _ _

theorem held_afterRead (result : Except FabricsException (Option ρ)) :
    held (System.afterRead result) = [] := by
  cases result <;> rfl

/-- What `readNext` does with a completion, if the event beside it is no shutdown
    or the completion no data. -/
theorem invariant_handle {completion : Option TargetCompletion} {event : Option TargetEvent}
    (hdequeued : dataOf (s.handed.map Prod.fst) ++ dataOf completion.toList = dataOf s.dequeued)
    (hreturned : s.returned = s.handed.map Prod.snd)
    (hapart : event = some .shutdown → dataOf completion.toList = []) :
    Invariant (s.handle protocol completion event) := by
  unfold System.handle
  by_cases hshutdown : event = some .shutdown
  · rw [hapart hshutdown, List.append_nil] at hdequeued
    rw [if_pos hshutdown]
    exact ⟨by simpa [held, dataOf] using hdequeued, hreturned⟩
  · rw [if_neg hshutdown]
    cases completion with
    | none => exact ⟨by simpa [held, dataOf] using hdequeued, hreturned⟩
    | some completion =>
      refine ⟨?_, ?_⟩
      · simp only [held_afterRead, List.map_append, dataOf_append]
        simpa [dataOf] using hdequeued
      · simp only [List.map_append, hreturned]
        rfl

/-- A data completion beside a shutdown is lost. -/
theorem not_lossless_handle {completion : Option TargetCompletion} {event : Option TargetEvent}
    (hdequeued : dataOf (s.handed.map Prod.fst) ++ dataOf completion.toList = dataOf s.dequeued)
    (hshutdown : event = some .shutdown) (hdata : dataOf completion.toList ≠ []) :
    ¬ Lossless (s.handle protocol completion event) := by
  intro h
  have hhanded := h.handed
  unfold System.handle at hhanded
  rw [if_pos hshutdown] at hhanded
  have hsame : dataOf (s.handed.map Prod.fst) = dataOf s.dequeued := hhanded rfl
  rw [← hdequeued] at hsame
  exact hdata (List.self_eq_append_right.mp hsame)

theorem invariant_handleEvent {event : Option TargetEvent} (hs : Invariant s)
    (hheld : held s.pc = []) : Invariant (s.handleEvent protocol event) := by
  have hhanded := hs.handed
  rw [hheld] at hhanded
  rw [System.handleEvent]
  split
  · split <;> exact ⟨hhanded, hs.returned⟩
  · split <;> exact ⟨hhanded, hs.returned⟩
  · exact ⟨hhanded, hs.returned⟩

/-- What has been handed over after the next completion is taken from the queue. -/
theorem dequeue_dequeued (hs : Invariant s) (hheld : held s.pc = []) :
    dataOf (s.dequeue.handed.map Prod.fst) ++ dataOf s.cq.head?.toList =
      dataOf s.dequeue.dequeued := by
  have hhanded := hs.handed
  rw [hheld] at hhanded
  rw [System.dequeue, dataOf_append, ← hhanded]
  simp [dataOf]

theorem eventSecond_dequeued (hs : Invariant s) {completion : Option TargetCompletion}
    (hpc : s.pc = .eventSecond completion) :
    dataOf (s.handed.map Prod.fst) ++ dataOf completion.toList = dataOf s.dequeued := by
  have hhanded := hs.handed
  rw [hpc] at hhanded
  exact hhanded

theorem invariant_access {expired : Bool} (hs : Invariant s) (hapart : Apart s (.access expired))
    (h : s.access protocol expired = some t) : Invariant t := by
  have hhanded := hs.handed
  cases hpc : s.pc with
  | idle | broken =>
    simp only [System.access, hpc] at h
    cases h
  | eventQueue =>
    simp only [System.access, hpc] at h
    obtain rfl := Option.some.inj h
    exact invariant_handleEvent (s := { s with eq := s.eq.tail }) ⟨hs.handed, hs.returned⟩
      (by rw [hpc]; rfl)
  | completionFirst =>
    simp only [System.access, hpc] at h
    obtain rfl := Option.some.inj h
    exact ⟨dequeue_dequeued hs (by rw [hpc]; rfl), hs.returned⟩
  | eventSecond completion =>
    simp only [System.access, hpc] at h
    obtain rfl := Option.some.inj h
    simp only [Apart, hpc] at hapart
    exact invariant_handle (eventSecond_dequeued hs hpc) hs.returned hapart
  | eventFirst =>
    simp only [System.access, hpc] at h
    obtain rfl := Option.some.inj h
    rw [hpc] at hhanded
    exact ⟨hhanded, hs.returned⟩
  | completionSecond event =>
    simp only [System.access, hpc] at h
    obtain rfl := Option.some.inj h
    simp only [Apart, hpc] at hapart
    exact invariant_handle (dequeue_dequeued hs (by rw [hpc]; rfl)) hs.returned hapart
  | deadline =>
    simp only [System.access, hpc] at h
    rw [hpc] at hhanded
    split at h
    · obtain rfl := Option.some.inj h
      exact invariant_handle hhanded hs.returned (fun _ => rfl)
    · obtain rfl := Option.some.inj h
      exact ⟨hhanded, hs.returned⟩
  | loopEvent =>
    simp only [System.access, hpc] at h
    rw [hpc] at hhanded
    split at h
    · obtain rfl := Option.some.inj h
      exact ⟨hhanded, hs.returned⟩
    · obtain rfl := Option.some.inj h
      refine invariant_handle ?_ hs.returned (fun _ => rfl)
      exact hhanded
  | loopCompletion =>
    simp only [System.access, hpc] at h
    split at h
    · obtain rfl := Option.some.inj h
      rw [hpc] at hhanded
      exact ⟨hhanded, hs.returned⟩
    · next completion cq hcq =>
      obtain rfl := Option.some.inj h
      have hdequeued := dequeue_dequeued hs (by rw [hpc]; rfl)
      rw [hcq] at hdequeued
      exact invariant_handle hdequeued hs.returned (fun hevent => by cases hevent)

theorem invariant_step {a : Action} (hs : Invariant s) (hapart : Apart s a)
    (h : s.step protocol a = some t) : Invariant t := by
  cases a with
  | readNext mode =>
    rw [System.step, Option.ite_none_right_eq_some] at h
    obtain ⟨hidle, h⟩ := h
    obtain rfl := Option.some.inj h
    have hhanded := hs.handed
    rw [hidle] at hhanded
    have hheld : held (System.startPc mode s.state) = [] := by
      cases s.state with
      | waitForConnectionRequest | waitForConnection => rfl
      | connected => cases mode <;> rfl
    exact ⟨by rw [hheld]; exact hhanded, hs.returned⟩
  | access expired => exact invariant_access hs hapart h
  | deliver event =>
    obtain rfl := Option.some.inj h
    exact ⟨hs.handed, hs.returned⟩
  | complete completion =>
    rw [System.step, Option.ite_none_left_eq_some] at h
    obtain rfl := Option.some.inj h.2
    exact ⟨hs.handed, hs.returned⟩

theorem not_lossless_step {a : Action} (hs : Invariant s) (hapart : ¬ Apart s a)
    (h : s.step protocol a = some t) : ¬ Lossless t := by
  cases a with
  | readNext mode | deliver event | complete completion => exact absurd trivial hapart
  | access expired =>
    rw [System.step] at h
    cases hpc : s.pc with
    | eventSecond completion =>
      simp only [System.access, hpc] at h
      obtain rfl := Option.some.inj h
      simp only [Apart, hpc, Classical.not_imp] at hapart
      exact not_lossless_handle (eventSecond_dequeued hs hpc) hapart.1 hapart.2
    | completionSecond event =>
      simp only [System.access, hpc] at h
      obtain rfl := Option.some.inj h
      simp only [Apart, hpc, Classical.not_imp] at hapart
      exact not_lossless_handle (dequeue_dequeued hs (by rw [hpc]; rfl)) hapart.1 hapart.2
    | _ => simp only [Apart, hpc, not_true_eq_false] at hapart

/-- A run loses no completion exactly when none is dequeued beside a shutdown. -/
theorem lossless_iff_apart (protocol : IngressProtocol σ ρ) (start : σ) (actions : List Action) :
    Throughout (System.step protocol) Lossless (.init start) actions ↔
      Along (System.step protocol) Apart (.init start) actions :=
  throughout_iff_along (fun _ hs => hs.lossless)
    (fun _ _ _ hs hapart h => invariant_step hs hapart h)
    (fun _ _ _ hs hapart h => not_lossless_step hs hapart h) (invariant_init start) actions

/-! ### A grain that is lost -/

/-- A protocol that returns the immediate data. -/
def immediateData : IngressProtocol Unit UInt64 where
  start := fun _ => ()
  read := fun _ completion =>
    match completion with
    | .data immData => ((), .ok immData)
    | .error => ((), .ok none)

def connectedRun : List Action :=
  [.deliver .connReq, .readNext .nonBlocking, .access false, .deliver .connected,
    .readNext .nonBlocking, .access false]

/-- The last write of a connection completes, and the initiator shuts it down. -/
def shutdownRun (mode : ReadMode) : List Action :=
  connectedRun ++ [.complete (.data (some 3)), .deliver .shutdown, .readNext mode,
    .access false, .access false]

theorem completion_lost :
    (¬ Throughout (System.step immediateData) Lossless (.init ()) (shutdownRun .nonBlocking)) ∧
      ¬ Throughout (System.step immediateData) Lossless (.init ()) (shutdownRun .blockingBriefly) := by
  refine ⟨fun h => ?_, fun h => ?_⟩
  · have hhanded := (h.last rfl).handed rfl
    revert hhanded
    decide
  · have hhanded := (h.last rfl).handed rfl
    revert hhanded
    decide

end MediaExchange.ShutdownCompletions
