/-
  MediaExchange/CompleteGrain.lean
  ================================
  **Complete grains only** (`mxl/src/grain/reader.rs`).

  `get_complete_grain` asks the blocking C call for all slices of a grain and asks
  again as long as the grain it is handed is partial.  The C call decides on the
  header in its own way: it hands out a grain that is flagged invalid whatever its
  slices.  Each repetition has a timeout of its own.

  The flow is the one the writer has left: nothing here but time and the reader
  moves.  `terminates_iff` says of which flows the loop comes back; a grain that it
  comes back with is whole (`isWholeGrain_of_returned`).
-/
import MediaExchange.BlockingTimeout

namespace MediaExchange.CompleteGrain

open MediaExchange.LabelledRun MediaExchange.FlowSynchronizationGroup
open MediaExchange.BlockingTimeout (Request Caller ApiCall start toDeadline)

variable {δ κ : Type*}

/-! ### The reader's results -/

/-- `Error`, as far as `from_status` and the grain reader make one. -/
inductive Error where
  | unknown (status : MxlStatus)
  | flowNotFound
  | outOfRangeTooLate
  | outOfRangeTooEarly
  | invalidFlowReader
  | invalidFlowWriter
  | timeout
  | invalidArg
  | conflict
  | other (text : String)
deriving DecidableEq, Repr

def Error.fromStatus : MxlStatus → Except Error Unit
  | .statusOk => .ok ()
  | .errUnknown => .error (.unknown .errUnknown)
  | .errFlowNotFound => .error .flowNotFound
  | .errOutOfRangeTooLate => .error .outOfRangeTooLate
  | .errOutOfRangeTooEarly => .error .outOfRangeTooEarly
  | .errInvalidFlowReader => .error .invalidFlowReader
  | .errInvalidFlowWriter => .error .invalidFlowWriter
  | .errTimeout => .error .timeout
  | .errInvalidArg => .error .invalidArg
  | .errConflict => .error .conflict
  | status => .error (.unknown status)

structure GrainData where
  payload : List UInt8
  totalSize : Nat
  flags : UInt32
deriving DecidableEq, Repr

/-! ### The loop -/

/-- The arguments of `get_complete_grain`, and for each slot of the ring what lies in
    memory behind the header of its grain. -/
structure Arguments (δ : Type*) where
  reader : δ
  index : UInt64
  timeoutNs : UInt64
  behindHeader : Nat → List UInt8

/-- In a call of the API, or back with a result. -/
inductive State (δ κ : Type*) where
  | calling (call : BlockingTimeout.State δ κ)
  | returned (result : Except Error GrainData)

/-- What the thread does next.  `clock` is what the clock shows by then. -/
inductive Action where
  | load (clock : Timepoint)
  | look (clock : Timepoint)
  | compare (clock : Timepoint) (flowValid : Bool)
  | wakeUp (clock : Timepoint)
  | timeOut (clock : Timepoint) (flowValid : Bool)
  | callReturned

/-- `flow_reader_get_grain`. -/
def flowReaderGetGrain (args : Arguments δ) (flows : Flows δ κ) (now : Timepoint) :
    BlockingTimeout.State δ κ :=
  start flows now (.getGrain args.reader args.index MXL_GRAIN_VALID_SLICES_ALL) args.timeoutNs

/-- The rest of an iteration.  Nobody writes, so the header is the one that the call has
    copied; the payload pointer is set to what is behind it. -/
def afterCall (args : Arguments δ) (call : BlockingTimeout.State δ κ) (status : MxlStatus) :
    State δ κ :=
  match Error.fromStatus status with
  | .error err => .returned (.error err)
  | .ok () =>
      let flow := call.flows.discrete args.reader
      let grainInfo := flow.grainInfo args.index
      let payloadPtr := some (args.behindHeader (flow.offset args.index))
      if grainInfo.validSlices ≠ grainInfo.totalSlices then
        .calling (flowReaderGetGrain args call.flows call.clock)
      else
        match payloadPtr with
        | none =>
            .returned (.error (.other s!"Failed to get grain payload for index {args.index}."))
        | some payload =>
            .returned (.ok
              { payload := payload.take grainInfo.grainSize.toNat
                totalSize := grainInfo.grainSize.toNat
                flags := grainInfo.flags })

/-- The thread's action inside the call. -/
def insideCall (call : BlockingTimeout.State δ κ) (clock : Timepoint)
    (action : BlockingTimeout.Action δ κ) : Option (State δ κ) :=
  (run BlockingTimeout.step call [.tick clock, action]).map .calling

def step (args : Arguments δ) : State δ κ → Action → Option (State δ κ)
  | .calling call, .load clock => insideCall call clock .load
  | .calling call, .look clock => insideCall call clock (.look clock)
  | .calling call, .compare clock flowValid => insideCall call clock (.compare flowValid)
  | .calling call, .wakeUp clock => insideCall call clock .wakeUp
  | .calling call, .timeOut clock flowValid => insideCall call clock (.timeOut flowValid)
  | .calling call, .callReturned =>
      match call.position with
      | .returned status => some (afterCall args call status)
      | _ => none
  | .returned _, _ => none

/-- `get_complete_grain` is called. -/
def getCompleteGrain (args : Arguments δ) (flows : Flows δ κ) (now : Timepoint) : State δ κ :=
  .calling (flowReaderGetGrain args flows now)

/-! ### What is to hold -/

def Returned : State δ κ → Prop
  | .calling _ => False
  | .returned _ => True

def HasElapsed (deadline : Timepoint) : State δ κ → Prop
  | .calling call => deadline ≤ call.clock
  | .returned _ => True

/-- There is a number of steps that is enough from wherever the thread is when the
    timeout has elapsed. -/
def Terminates (args : Arguments δ) (flows : Flows δ κ) (now : Timepoint) : Prop :=
  ∃ n, ∀ actions s, run (step args) (getCompleteGrain args flows now) actions = some s →
    HasElapsed (toDeadline now args.timeoutNs) s → Inevitable (step args) Returned n s

/-- A grain in range that the C call takes for complete enough and the loop for partial. -/
def TakenForPartial (flow : DiscreteFlowData) (index : UInt64) : Prop :=
  flow.inRange index ∧ (flow.grainInfo index).validSlices ≠ (flow.grainInfo index).totalSlices ∧
    ((flow.grainInfo index).totalSlices < (flow.grainInfo index).validSlices ∨
      (flow.grainInfo index).isInvalid)

/-! ### What the C call answers -/

def Arguments.request (args : Arguments δ) : Request δ κ :=
  .grain args.reader args.index MXL_GRAIN_VALID_SLICES_ALL

section Answers

variable {args : Arguments δ} {flows : Flows δ κ}

theorem hasSlices_all (info : GrainInfo) :
    hasSlices info MXL_GRAIN_VALID_SLICES_ALL = true ↔
      info.totalSlices ≤ info.validSlices ∨ info.isInvalid = true := by
  have hmin : min MXL_GRAIN_VALID_SLICES_ALL info.totalSlices = info.totalSlices := by
    apply UInt16.toNat_inj.mp
    have hlt := info.totalSlices.toNat_lt
    rw [UInt16.toNat_min]
    exact Nat.min_eq_right (Nat.le_of_lt_succ hlt)
  simp [hasSlices, hmin]

theorem result_eq_ok :
    (args.request : Request δ κ).result flows = .statusOk ↔
      (flows.discrete args.reader).inRange args.index ∧
        hasSlices ((flows.discrete args.reader).grainInfo args.index)
          MXL_GRAIN_VALID_SLICES_ALL = true := by
  simp only [Arguments.request, Request.result]
  constructor
  · intro h
    split at h
    · next hok =>
      obtain ⟨hrange, hslices, -⟩ := DiscreteFlowData.getGrainImpl_eq_ok.mp hok
      exact ⟨hrange, hslices⟩
    · next herror =>
      rw [h] at herror
      exact absurd herror DiscreteFlowData.getGrainImpl_ne_error_ok
  · rintro ⟨hrange, hslices⟩
    rw [DiscreteFlowData.getGrainImpl_eq_ok.mpr ⟨hrange, hslices, rfl⟩]

theorem takenForPartial_iff :
    TakenForPartial (flows.discrete args.reader) args.index ↔
      (args.request : Request δ κ).result flows = .statusOk ∧
        ((flows.discrete args.reader).grainInfo args.index).validSlices ≠
          ((flows.discrete args.reader).grainInfo args.index).totalSlices := by
  rw [result_eq_ok, hasSlices_all, TakenForPartial]
  constructor
  · rintro ⟨hrange, hpartial, hmore | hinvalid⟩
    · exact ⟨⟨hrange, .inl (UInt16.le_of_lt hmore)⟩, hpartial⟩
    · exact ⟨⟨hrange, .inr hinvalid⟩, hpartial⟩
  · rintro ⟨⟨hrange, henough | hinvalid⟩, hpartial⟩
    · exact ⟨hrange, hpartial, .inl (UInt16.lt_of_le_of_ne henough (Ne.symm hpartial))⟩
    · exact ⟨hrange, hpartial, .inr hinvalid⟩

end Answers

/-! ### Inside the call -/

/-- Where the call can be on flows that do not change: its counter is the one it has
    seen, and it waits and gives up only for want of data. -/
inductive InCall (flows : Flows δ κ) (request : Request δ κ) :
    BlockingTimeout.Position δ κ → Prop where
  | loading : InCall flows request (.loading request .api)
  | looking : InCall flows request (.looking request .api (request.syncCounter flows))
  | comparing (hearly : request.result flows = .errOutOfRangeTooEarly) :
      InCall flows request (.comparing request .api (request.syncCounter flows))
  | asleep (now : Timepoint) (timeout : Int64)
      (hearly : request.result flows = .errOutOfRangeTooEarly) :
      InCall flows request (.asleep request .api (request.syncCounter flows) now timeout)
  | returned (status : MxlStatus)
      (hstatus : status = .statusOk ↔ request.result flows = .statusOk) :
      InCall flows request (.returned status)

/-- How many steps there are at most, once no sleep is begun any more. -/
def rank : BlockingTimeout.Position δ κ → Nat
  | .walking _ _ => 6
  | .loading _ _ => 5
  | .looking _ _ _ => 4
  | .asleep _ _ _ _ _ => 3
  | .comparing _ _ _ => 2
  | .returned _ => 1

/-- One step of the call: time may have passed, the flows and the deadline are the same. -/
structure Advances (request : Request δ κ) (call call' : BlockingTimeout.State δ κ) : Prop where
  clock : call.clock ≤ call'.clock
  sameFlows : call'.flows = call.flows
  sameDeadline : call'.deadline = call.deadline
  inCall : InCall call.flows request call'.position
  rank : call.deadline ≤ call'.clock → rank call'.position < rank call.position

section Inside

variable {args : Arguments δ} {request : Request δ κ} {call call' : BlockingTimeout.State δ κ}
  {clock : Timepoint}

theorem insideCall_eq_some {action : BlockingTimeout.Action δ κ} {s : State δ κ} :
    insideCall call clock action = some s ↔
      call.clock ≤ clock ∧
        ∃ call', BlockingTimeout.step { call with clock } action = some call' ∧
          s = .calling call' := by
  by_cases hclock : call.clock ≤ clock
  · simp [insideCall, BlockingTimeout.step, hclock, eq_comm]
  · simp [insideCall, BlockingTimeout.step, hclock]

/-- A step that changes the position alone. -/
theorem advances_position {position : BlockingTimeout.Position δ κ} (hclock : call.clock ≤ clock)
    (hcall : InCall call.flows request position)
    (hrank : call.deadline ≤ clock → rank position < rank call.position) :
    Advances request call { call with clock, position } :=
  ⟨hclock, rfl, rfl, hcall, hrank⟩

theorem inCall_giveUp {flows : Flows δ κ} (hearly : request.result flows = .errOutOfRangeTooEarly)
    (flowValid : Bool) (call : BlockingTimeout.State δ κ) :
    InCall flows request (call.giveUp flowValid).position := by
  apply InCall.returned
  cases flowValid <;> simp [hearly]

theorem advances_load (hclock : call.clock ≤ clock) (hcall : InCall call.flows request call.position)
    (hstep : BlockingTimeout.step { call with clock } .load = some call') :
    Advances request call call' := by
  simp only [BlockingTimeout.step] at hstep
  generalize hposition : call.position = position at hcall hstep
  cases hcall with
  | loading =>
    cases hstep
    apply advances_position hclock .looking
    simp [rank, hposition]
  | _ => cases hstep

theorem advances_look {now : Timepoint} (hclock : call.clock ≤ clock)
    (hcall : InCall call.flows request call.position)
    (hstep : BlockingTimeout.step { call with clock } (.look now) = some call') :
    Advances request call call' := by
  simp only [BlockingTimeout.step] at hstep
  generalize hposition : call.position = position at hcall hstep
  cases hcall with
  | looking =>
    simp only at hstep
    split at hstep
    · next hearly =>
      cases hstep
      apply advances_position hclock (.comparing hearly)
      simp [rank, hposition]
    · cases hstep
      apply advances_position hclock (.returned _ Iff.rfl)
      simp [rank, hposition]
  | _ => cases hstep

theorem advances_compare {flowValid : Bool} (hclock : call.clock ≤ clock)
    (hcall : InCall call.flows request call.position)
    (hstep : BlockingTimeout.step { call with clock } (.compare flowValid) = some call') :
    Advances request call call' := by
  simp only [BlockingTimeout.step] at hstep
  generalize hposition : call.position = position at hcall hstep
  cases hcall with
  | comparing hearly =>
    simp only [if_true] at hstep
    split at hstep
    · cases hstep
      apply advances_position hclock (inCall_giveUp hearly flowValid call)
      simp [rank, hposition, BlockingTimeout.State.giveUp]
    · next hleft =>
      cases hstep
      apply advances_position hclock (.asleep _ _ hearly)
      intro hover
      exact absurd hover hleft
  | _ => cases hstep

theorem advances_wakeUp (hclock : call.clock ≤ clock)
    (hcall : InCall call.flows request call.position)
    (hstep : BlockingTimeout.step { call with clock } .wakeUp = some call') :
    Advances request call call' := by
  simp only [BlockingTimeout.step] at hstep
  generalize hposition : call.position = position at hcall hstep
  cases hcall with
  | asleep now timeout hearly =>
    cases hstep
    apply advances_position hclock (.comparing hearly)
    simp [rank, hposition]
  | _ => cases hstep

theorem advances_timeOut {flowValid : Bool} (hclock : call.clock ≤ clock)
    (hcall : InCall call.flows request call.position)
    (hstep : BlockingTimeout.step { call with clock } (.timeOut flowValid) = some call') :
    Advances request call call' := by
  simp only [BlockingTimeout.step] at hstep
  generalize hposition : call.position = position at hcall hstep
  cases hcall with
  | asleep now timeout hearly =>
    simp only at hstep
    split at hstep
    · cases hstep
      apply advances_position hclock (inCall_giveUp hearly flowValid call)
      simp [rank, hposition, BlockingTimeout.State.giveUp]
    · cases hstep
  | _ => cases hstep

/-- What a step of the thread can be: inside the call, or with a status that says what
    is in the flows. -/
theorem step_cases {action : Action} {s : State δ κ}
    (hcall : InCall call.flows request call.position)
    (hstep : step args (.calling call) action = some s) :
    (∃ call', s = .calling call' ∧ Advances request call call') ∨
      ∃ status, (status = .statusOk ↔ request.result call.flows = .statusOk) ∧
        s = afterCall args call status := by
  cases action with
  | load clock =>
    obtain ⟨hclock, call', hload, rfl⟩ := insideCall_eq_some.mp hstep
    exact .inl ⟨call', rfl, advances_load hclock hcall hload⟩
  | look clock =>
    obtain ⟨hclock, call', hlook, rfl⟩ := insideCall_eq_some.mp hstep
    exact .inl ⟨call', rfl, advances_look hclock hcall hlook⟩
  | compare clock flowValid =>
    obtain ⟨hclock, call', hcompare, rfl⟩ := insideCall_eq_some.mp hstep
    exact .inl ⟨call', rfl, advances_compare hclock hcall hcompare⟩
  | wakeUp clock =>
    obtain ⟨hclock, call', hwakeUp, rfl⟩ := insideCall_eq_some.mp hstep
    exact .inl ⟨call', rfl, advances_wakeUp hclock hcall hwakeUp⟩
  | timeOut clock flowValid =>
    obtain ⟨hclock, call', htimeOut, rfl⟩ := insideCall_eq_some.mp hstep
    exact .inl ⟨call', rfl, advances_timeOut hclock hcall htimeOut⟩
  | callReturned =>
    simp only [step] at hstep
    split at hstep
    · next status hposition =>
      cases hstep
      rw [hposition] at hcall
      cases hcall with
      | returned _ hstatus => exact .inr ⟨status, hstatus, rfl⟩
    · cases hstep

/-- Wherever the call is, the thread can go on. -/
theorem exists_step (hcall : InCall call.flows request call.position) :
    ∃ action s, step args (.calling call) action = some s := by
  have hinside : ∀ action, (BlockingTimeout.step call action).isSome →
      ∃ s, insideCall call call.clock action = some s := by
    intro action h
    obtain ⟨call', hcall'⟩ := Option.isSome_iff_exists.mp h
    exact ⟨.calling call', insideCall_eq_some.mpr ⟨Int64.le_refl _, call', hcall', rfl⟩⟩
  generalize hposition : call.position = position at hcall
  cases hcall with
  | loading =>
    refine ⟨.load call.clock, hinside .load ?_⟩
    simp [BlockingTimeout.step, hposition]
  | looking =>
    refine ⟨.look call.clock, hinside (.look call.clock) ?_⟩
    simp only [BlockingTimeout.step, hposition]
    split <;> rfl
  | comparing hearly =>
    refine ⟨.compare call.clock true, hinside (.compare true) ?_⟩
    simp only [BlockingTimeout.step, hposition, if_true]
    split <;> rfl
  | asleep now timeout hearly =>
    refine ⟨.wakeUp call.clock, hinside .wakeUp ?_⟩
    simp [BlockingTimeout.step, hposition]
  | returned status hstatus =>
    refine ⟨.callReturned, afterCall args call status, ?_⟩
    simp only [step, hposition]

end Inside

/-! ### The iterations -/

section Iterations

variable {args : Arguments δ} {flows : Flows δ κ} {now : Timepoint}
  {call : BlockingTimeout.State δ κ} {status : MxlStatus}

theorem fromStatus_eq_ok : Error.fromStatus status = .ok () ↔ status = .statusOk := by
  cases status <;> simp [Error.fromStatus]

/-- An iteration that is not taken for partial is the last one. -/
theorem returned_afterCall
    (hstatus : status = .statusOk ↔ args.request.result call.flows = .statusOk)
    (hwhole : ¬ TakenForPartial (call.flows.discrete args.reader) args.index) :
    Returned (afterCall args call status) := by
  rw [takenForPartial_iff] at hwhole
  unfold afterCall
  split
  · trivial
  · next hok =>
    have hresult := hstatus.mp (fromStatus_eq_ok.mp hok)
    have hslices := not_not.mp fun hpartial => hwhole ⟨hresult, hpartial⟩
    simp [hslices, Returned]

/-- One that is taken for partial starts the next, with a new timeout. -/
theorem afterCall_taken (hstatus : status = .statusOk ↔ args.request.result call.flows = .statusOk)
    (htaken : TakenForPartial (call.flows.discrete args.reader) args.index) :
    afterCall args call status = .calling (flowReaderGetGrain args call.flows call.clock) := by
  obtain ⟨hresult, hpartial⟩ := takenForPartial_iff.mp htaken
  have hok := fromStatus_eq_ok.mpr (hstatus.mpr hresult)
  simp [afterCall, hok, hpartial]

/-- Still in the first iteration, or back. -/
def FirstIteration (args : Arguments δ) (flows : Flows δ κ) (now : Timepoint) : State δ κ → Prop
  | .calling call =>
      call.flows = flows ∧ call.deadline = toDeadline now args.timeoutNs ∧
        InCall flows args.request call.position
  | .returned _ => True

/-- In one iteration or another. -/
def SomeIteration (args : Arguments δ) (flows : Flows δ κ) : State δ κ → Prop
  | .calling call => call.flows = flows ∧ InCall flows args.request call.position
  | .returned _ => False

def stepsLeft : State δ κ → Nat
  | .calling call => rank call.position
  | .returned _ => 0

theorem rank_pos (position : BlockingTimeout.Position δ κ) : 0 < rank position := by
  cases position <;> simp [rank]

theorem stepsLeft_le (s : State δ κ) : stepsLeft s ≤ 6 := by
  cases s with
  | calling call => cases hposition : call.position <;> simp [stepsLeft, rank, hposition]
  | returned result => simp [stepsLeft]

theorem firstIteration_start :
    FirstIteration args flows now (getCompleteGrain args flows now) :=
  ⟨rfl, rfl, .loading⟩

theorem someIteration_start : SomeIteration args flows (getCompleteGrain args flows now) :=
  ⟨rfl, .loading⟩

theorem firstIteration_step (hwhole : ¬ TakenForPartial (flows.discrete args.reader) args.index)
    {s t : State δ κ} {action : Action} (hs : FirstIteration args flows now s)
    (hstep : step args s action = some t) :
    FirstIteration args flows now t ∧
      (HasElapsed (toDeadline now args.timeoutNs) s →
        HasElapsed (toDeadline now args.timeoutNs) t ∧ stepsLeft t < stepsLeft s) := by
  cases s with
  | returned result => cases hstep
  | calling call =>
    obtain ⟨rfl, hdeadline, hcall⟩ := hs
    rcases step_cases hcall hstep with ⟨call', rfl, hadvances⟩ | ⟨status, hstatus, rfl⟩
    · refine ⟨⟨hadvances.sameFlows, hadvances.sameDeadline.trans hdeadline, hadvances.inCall⟩, ?_⟩
      intro helapsed
      have hlater : toDeadline now args.timeoutNs ≤ call'.clock :=
        Int64.le_trans helapsed hadvances.clock
      exact ⟨hlater, hadvances.rank (hdeadline ▸ hlater)⟩
    · have hreturned := returned_afterCall hstatus hwhole
      generalize afterCall args call status = t at hreturned
      cases t with
      | calling _ => exact hreturned.elim
      | returned result => exact ⟨trivial, fun _ => ⟨trivial, rank_pos _⟩⟩

theorem someIteration_step (htaken : TakenForPartial (flows.discrete args.reader) args.index)
    {s t : State δ κ} {action : Action} (hs : SomeIteration args flows s)
    (hstep : step args s action = some t) : SomeIteration args flows t := by
  cases s with
  | returned result => cases hstep
  | calling call =>
    obtain ⟨rfl, hcall⟩ := hs
    rcases step_cases hcall hstep with ⟨call', rfl, hadvances⟩ | ⟨status, hstatus, rfl⟩
    · exact ⟨hadvances.sameFlows, hadvances.inCall⟩
    · rw [afterCall_taken hstatus htaken]
      exact ⟨rfl, .loading⟩

theorem exists_step_of_not_returned (s : State δ κ)
    (hs : FirstIteration args flows now s ∧ HasElapsed (toDeadline now args.timeoutNs) s)
    (hnot : ¬ Returned s) : ∃ action t, step args s action = some t := by
  cases s with
  | calling call =>
    obtain ⟨⟨rfl, -, hcall⟩, -⟩ := hs
    exact exists_step hcall
  | returned result => exact absurd trivial hnot

/-- The clock can be at the deadline when the counter is first loaded. -/
theorem exists_elapsed (args : Arguments δ) (flows : Flows δ κ) (now : Timepoint) :
    ∃ actions s, run (step args) (getCompleteGrain args flows now) actions = some s ∧
      HasElapsed (toDeadline now args.timeoutNs) s := by
  by_cases hpassed : toDeadline now args.timeoutNs ≤ now
  · exact ⟨[], _, rfl, hpassed⟩
  · have hlater : now ≤ toDeadline now args.timeoutNs := Int64.le_of_lt (Int64.not_le.mp hpassed)
    refine ⟨[.load (toDeadline now args.timeoutNs)],
      .calling { flowReaderGetGrain args flows now with
        clock := toDeadline now args.timeoutNs
        position := .looking args.request .api (args.request.syncCounter flows) }, ?_, ?_⟩
    · rw [run_cons_eq_some]
      exact ⟨_, insideCall_eq_some.mpr ⟨hlater, _, rfl, rfl⟩, rfl⟩
    · exact Int64.le_refl (toDeadline now args.timeoutNs)

theorem not_terminates (htaken : TakenForPartial (flows.discrete args.reader) args.index) :
    ¬ Terminates args flows now := by
  rintro ⟨n, hterminates⟩
  obtain ⟨actions, s, hrun, helapsed⟩ := exists_elapsed args flows now
  have hsome : SomeIteration args flows s :=
    invariant_of_run (fun _ _ _ => someIteration_step htaken) someIteration_start hrun
  apply not_inevitable _ (fun _ _ _ => someIteration_step htaken) n hsome
    (hterminates actions s hrun helapsed)
  intro s hs
  cases s with
  | calling call => exact id
  | returned result => exact hs.elim

theorem terminates (hwhole : ¬ TakenForPartial (flows.discrete args.reader) args.index) :
    Terminates args flows now := by
  refine ⟨6, fun actions s hrun helapsed => ?_⟩
  have hfirst : FirstIteration args flows now s :=
    invariant_of_run (fun _ _ _ hs hstep => (firstIteration_step hwhole hs hstep).1)
      firstIteration_start hrun
  apply inevitable_of_rank exists_step_of_not_returned _ (And.intro hfirst helapsed)
    (stepsLeft_le s)
  intro s action t hs _ hstep
  obtain ⟨ht, hlower⟩ := firstIteration_step hwhole hs.1 hstep
  obtain ⟨hlater, hlt⟩ := hlower hs.2
  exact ⟨⟨ht, hlater⟩, hlt⟩

end Iterations

/-- **Complete grains.**  `get_complete_grain` comes back, once its timeout has elapsed and
    without the writer, if and only if the grain asked for is not one that the C call
    hands out with another number of slices than it should have. -/
theorem terminates_iff (args : Arguments δ) (flows : Flows δ κ) (now : Timepoint) :
    Terminates args flows now ↔ ¬ TakenForPartial (flows.discrete args.reader) args.index := by
  constructor
  · intro hterminates htaken
    exact not_terminates htaken hterminates
  · intro hwhole
    exact terminates hwhole

/-! ### What is returned -/

/-- The whole grain, as its header describes it. -/
structure IsWholeGrain (args : Arguments δ) (flow : DiscreteFlowData) (grain : GrainData) :
    Prop where
  inRange : flow.inRange args.index
  complete : (flow.grainInfo args.index).validSlices = (flow.grainInfo args.index).totalSlices
  payload : grain.payload = (args.behindHeader (flow.offset args.index)).take grain.totalSize
  totalSize : grain.totalSize = (flow.grainInfo args.index).grainSize.toNat
  flags : grain.flags = (flow.grainInfo args.index).flags

/-- In one iteration or another, or back with a whole grain or an error. -/
def WholeOrError (args : Arguments δ) (flows : Flows δ κ) : State δ κ → Prop
  | .calling call => call.flows = flows ∧ InCall flows args.request call.position
  | .returned (.ok grain) => IsWholeGrain args (flows.discrete args.reader) grain
  | .returned (.error _) => True

section Returned

variable {args : Arguments δ} {flows : Flows δ κ} {call : BlockingTimeout.State δ κ}
  {status : MxlStatus}

theorem wholeOrError_afterCall
    (hstatus : status = .statusOk ↔ args.request.result call.flows = .statusOk) :
    WholeOrError args call.flows (afterCall args call status) := by
  unfold afterCall
  split
  · trivial
  · next hok =>
    have hresult := hstatus.mp (fromStatus_eq_ok.mp hok)
    dsimp only
    split
    · exact ⟨rfl, .loading⟩
    · next hslices =>
      exact ⟨(result_eq_ok.mp hresult).1, not_not.mp hslices, rfl, rfl, rfl⟩

theorem wholeOrError_step {s t : State δ κ} {action : Action} (hs : WholeOrError args flows s)
    (hstep : step args s action = some t) : WholeOrError args flows t := by
  cases s with
  | returned result => cases hstep
  | calling call =>
    obtain ⟨rfl, hcall⟩ := hs
    rcases step_cases hcall hstep with ⟨call', rfl, hadvances⟩ | ⟨status, hstatus, rfl⟩
    · exact ⟨hadvances.sameFlows, hadvances.inCall⟩
    · exact wholeOrError_afterCall hstatus

/-- A grain that `get_complete_grain` comes back with is whole. -/
theorem isWholeGrain_of_returned {now : Timepoint} {actions : List Action} {grain : GrainData}
    (hrun : run (step args) (getCompleteGrain args flows now) actions =
      some (.returned (.ok grain))) :
    IsWholeGrain args (flows.discrete args.reader) grain := by
  have hstart : WholeOrError args flows (getCompleteGrain args flows now) := ⟨rfl, .loading⟩
  exact invariant_of_run (fun _ _ _ => wholeOrError_step) hstart hrun

end Returned

/-! ### A grain given up half way -/

theorem droppedGrain_grainCount_pos : 0 < (4 : UInt32).toNat := by decide

/-- The writer has committed three of eight slices of grain 2 and flagged it invalid. -/
def droppedGrain : DiscreteFlowData where
  grainCount := 4
  headIndex := 2
  lastWriteTime := 0
  syncCounter := 3
  grains _ := ⟨1, 4096, 2, MXL_GRAIN_FLAG_INVALID, 64, 8, 3⟩
  grainCount_pos := droppedGrain_grainCount_pos

def droppedFlows : Flows Unit Empty where
  discrete _ := droppedGrain
  continuous := nofun

/-- Five seconds are the timeout of the video source. -/
theorem droppedGrain_for_ever :
    ¬ Terminates ⟨(), 2, 5000000000, fun _ => []⟩ droppedFlows 0 := by
  apply not_terminates
  refine ⟨by decide, by decide, .inr ?_⟩
  decide

end MediaExchange.CompleteGrain
