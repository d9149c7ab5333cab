/-
  MediaExchange/BlockingTimeout.lean
  ==================================
  **How long the blocking calls block** (`flow.cpp`, `Timing.hpp`, `Sync.cpp`, the
  readers, `FlowSynchronizationGroup.cpp`).

  `mxlFlowReaderGetGrain`, `mxlFlowReaderGetSamples` and
  `mxlFlowSynchronizationGroupWaitForDataAt` turn their timeout into a point in time
  once.  What follows is one loop, which looks at the flow, compares its counter and
  sleeps until the counter moves or that point is reached; the group goes through it
  for one of its readers after the other.

  Time is what `currentTime(Clock::Realtime)` returns, which is never negative.  The
  clock does not step back and stays in the range of a time point; the flows may
  change in any way between any two steps, and the sleep may end at any time, but
  only at or after the relative time given with `ETIMEDOUT`.

  A timeout that does not end within the range of time points gives a deadline that
  has passed (`deadline_honoured_iff`).
-/
import MediaExchange.FlowSynchronizationGroup

namespace MediaExchange.BlockingTimeout

open MediaExchange.LabelledRun MediaExchange.FlowSynchronizationGroup

variable {δ κ : Type*}

/-! ### Points in time -/

/-- `operator+(Timepoint, Duration)`. -/
def addDuration (lhs : Timepoint) (rhs : Int64) : Timepoint :=
  let sum := lhs + rhs
  if sum ≥ 0 then sum else 0

/-- The sum that `operator+(Timepoint, Duration)` computes first is representable. -/
def SumFits (lhs : Timepoint) (rhs : Int64) : Prop :=
  -2 ^ 63 ≤ lhs.toInt + rhs.toInt ∧ lhs.toInt + rhs.toInt < 2 ^ 63

def toDeadline (now : Timepoint) (timeoutNs : UInt64) : Timepoint :=
  addDuration now timeoutNs.toInt64

/-- The first of the timeout's end and the last point in time. -/
def granted (now : Timepoint) (timeoutNs : UInt64) : Int :=
  now.toInt + min (timeoutNs.toNat : Int) (2 ^ 63 - 1 - now.toInt)

/-! ### What is waited for -/

/-- The grain or the samples that a reader's loop looks for. -/
inductive Request (δ κ : Type*) where
  | grain (r : δ) (index : UInt64) (minValidSlices : UInt16)
  | samples (r : κ) (index count : UInt64)

/-- One look at the flow. -/
def Request.result (flows : Flows δ κ) : Request δ κ → MxlStatus
  | .grain r index minValidSlices =>
      match (flows.discrete r).getGrainImpl index minValidSlices with
      | .ok _ => .statusOk
      | .error status => status
  | .samples r index count =>
      match (flows.continuous r).getSamplesImpl index count with
      | .ok _ => .statusOk
      | .error status => status

def Request.syncCounter (flows : Flows δ κ) : Request δ κ → UInt32
  | .grain r _ _ => (flows.discrete r).syncCounter
  | .samples r _ _ => (flows.continuous r).syncCounter

/-- What a group waits for with one of its readers. -/
def entryRequest (originTime : Timepoint) (current : ListEntry δ κ) : Request δ κ :=
  match current.reader with
  | .discrete r => .grain r (expectedIndex originTime current) current.minValidSlices
  | .continuous r => .samples r (expectedIndex originTime current) 0

/-- Where a reader's loop returns to. -/
inductive Caller (δ κ : Type*) where
  | api
  | group (originTime : Timepoint) (passed : List (ListEntry δ κ)) (current : ListEntry δ κ)
      (readers : List (ListEntry δ κ))

/-- How far a call is.  `loading` and `looking` are the reader's loop, `comparing` and
    `asleep` are `waitUntilChanged`; a sleep is known by when the clock was read and
    the relative time computed from it. -/
inductive Position (δ κ : Type*) where
  | walking (originTime : Timepoint) (call : Call δ κ)
  | loading (request : Request δ κ) (caller : Caller δ κ)
  | looking (request : Request δ κ) (caller : Caller δ κ) (previousSyncCounter : UInt32)
  | comparing (request : Request δ κ) (caller : Caller δ κ) (previousSyncCounter : UInt32)
  | asleep (request : Request δ κ) (caller : Caller δ κ) (previousSyncCounter : UInt32)
      (now : Timepoint) (timeout : Int64)
  | returned (status : MxlStatus)

structure State (δ κ : Type*) where
  flows : Flows δ κ
  clock : Timepoint
  calledAt : Timepoint
  timeoutNs : UInt64
  deadline : Timepoint
  position : Position δ κ

/-- `wakeUp` is any other end of a sleep than its timeout: woken, interrupted, or not
    fallen asleep. -/
inductive Action (δ κ : Type*) where
  | tick (clock : Timepoint)
  | evolve (flows : Flows δ κ)
  | walk
  | load
  | look (currentTaiTime : Timepoint)
  | compare (flowValid : Bool)
  | wakeUp
  | timeOut (flowValid : Bool)

inductive ApiCall (δ κ : Type*) where
  | getGrain (r : δ) (index : UInt64) (minValidSlices : UInt16)
  | getSamples (r : κ) (index count : UInt64)
  | waitForDataAt (originTime : Timepoint) (readers : List (ListEntry δ κ))

/-! ### Steps -/

def ApiCall.position : ApiCall δ κ → Position δ κ
  | .getGrain r index minValidSlices => .loading (.grain r index minValidSlices) .api
  | .getSamples r index count => .loading (.samples r index count) .api
  | .waitForDataAt originTime readers => .walking originTime (.iterating [] readers)

/-- The call is made. -/
def start (flows : Flows δ κ) (now : Timepoint) (call : ApiCall δ κ) (timeoutNs : UInt64) :
    State δ κ :=
  { flows, clock := now, calledAt := now, timeoutNs, deadline := toDeadline now timeoutNs
    position := call.position }

/-- The loop ends with a status. -/
def State.finish (s : State δ κ) (currentTaiTime : Timepoint) (status : MxlStatus) :
    Caller δ κ → State δ κ
  | .api => { s with position := .returned status }
  | .group originTime passed current readers =>
      match status with
      | .statusOk =>
          { s with
            position :=
              .walking originTime (afterWait originTime currentTaiTime passed current readers) }
      | status => { s with position := .returned status }

/-- `waitUntilChanged` returns false, and the loop what it has found last. -/
def State.giveUp (s : State δ κ) (flowValid : Bool) : State δ κ :=
  { s with position := .returned (if flowValid then .errOutOfRangeTooEarly else .errFlowInvalid) }

def step (s : State δ κ) : Action δ κ → Option (State δ κ)
  | .tick clock => if s.clock ≤ clock then some { s with clock } else none
  | .evolve flows => some { s with flows }
  | .walk =>
      match s.position with
      | .walking _ (.iterating _ []) => some { s with position := .returned .statusOk }
      | .walking originTime (.iterating passed (current :: readers)) =>
          if expectedIndex originTime current > s.flows.headIndex current.reader then
            some { s with
              position := .loading (entryRequest originTime current)
                (.group originTime passed current readers) }
          else
            some { s with position := .walking originTime (.iterating (passed ++ [current]) readers) }
      | _ => none
  | .load =>
      match s.position with
      | .loading request caller =>
          some { s with position := .looking request caller (request.syncCounter s.flows) }
      | _ => none
  | .look currentTaiTime =>
      match s.position with
      | .looking request caller previousSyncCounter =>
          match request.result s.flows with
          | .errOutOfRangeTooEarly =>
              some { s with position := .comparing request caller previousSyncCounter }
          | status => some (s.finish currentTaiTime status caller)
      | _ => none
  | .compare flowValid =>
      match s.position with
      | .comparing request caller previousSyncCounter =>
          if request.syncCounter s.flows = previousSyncCounter then
            if s.clock ≥ s.deadline then some (s.giveUp flowValid)
            else
              some { s with
                position := .asleep request caller previousSyncCounter s.clock
                  (s.deadline - s.clock) }
          else some { s with position := .loading request caller }
      | _ => none
  | .wakeUp =>
      match s.position with
      | .asleep request caller previousSyncCounter _ _ =>
          some { s with position := .comparing request caller previousSyncCounter }
      | _ => none
  | .timeOut flowValid =>
      match s.position with
      | .asleep _ _ _ now timeout =>
          if now.toInt + timeout.toInt ≤ s.clock.toInt then some (s.giveUp flowValid) else none
      | _ => none

/-! ### What is to hold -/

/-- The deadline is computed without overflow, a call is too early only when its
    timeout is over, and no sleep is longer than what is left of it. -/
structure Honoured (s : State δ κ) : Prop where
  sumFits : SumFits s.calledAt s.timeoutNs.toInt64
  elapsed : s.position = .returned .errOutOfRangeTooEarly →
    min (s.timeoutNs.toNat : Int) (2 ^ 63 - 1 - s.calledAt.toInt) ≤
      s.clock.toInt - s.calledAt.toInt
  sleep : ∀ request caller previousSyncCounter now timeout,
    s.position = .asleep request caller previousSyncCounter now timeout →
      0 < timeout.toInt ∧ timeout.toInt ≤ granted s.calledAt s.timeoutNs - now.toInt

/-- The data is not there when the call is made. -/
def Missing (flows : Flows δ κ) : ApiCall δ κ → Prop
  | .getGrain r index minValidSlices =>
      (Request.grain r index minValidSlices : Request δ κ).result flows = .errOutOfRangeTooEarly
  | .getSamples r index count =>
      (Request.samples r index count : Request δ κ).result flows = .errOutOfRangeTooEarly
  | .waitForDataAt originTime readers =>
      ∃ current ∈ readers, expectedIndex originTime current > flows.headIndex current.reader

/-- The timeout ends within the range of time points; a longer one is as good as none
    at the last of them. -/
def EndsInRange (now : Timepoint) (timeoutNs : UInt64) : Prop :=
  now.toInt + timeoutNs.toNat < 2 ^ 63 ∨ 2 ^ 63 ≤ timeoutNs.toNat ∧ now.toInt = 2 ^ 63 - 1

/-! ### The deadline -/

theorem toInt_toInt64 (x : UInt64) : x.toInt64.toInt = (x.toNat : Int).bmod (2 ^ 64) := by
  rw [← Int64.toInt_toBitVec, UInt64.toBitVec_toInt64, BitVec.toInt_eq_toNat_bmod]
  rfl

/-- Timeouts up to the largest duration are taken as they are, longer ones as
    negative durations. -/
theorem toInt_timeout (timeoutNs : UInt64) :
    timeoutNs.toInt64.toInt =
      if timeoutNs.toNat < 2 ^ 63 then (timeoutNs.toNat : Int) else timeoutNs.toNat - 2 ^ 64 := by
  have hlt := timeoutNs.toNat_lt
  rw [toInt_toInt64]
  split
  · exact Int.bmod_eq_of_le (by omega) (by omega)
  · have hwrap : (timeoutNs.toNat : Int).bmod (2 ^ 64) = (timeoutNs.toNat - 2 ^ 64 : Int).bmod (2 ^ 64) :=
      (Int.sub_bmod_right _ _).symm
    rw [hwrap]
    exact Int.bmod_eq_of_le (by omega) (by omega)

theorem toInt_addDuration {lhs : Timepoint} {rhs : Int64} (h : SumFits lhs rhs) :
    (addDuration lhs rhs).toInt = max (lhs.toInt + rhs.toInt) 0 := by
  have hsum : (lhs + rhs).toInt = lhs.toInt + rhs.toInt := by
    rw [Int64.toInt_add]
    exact Int.bmod_eq_of_le (by have := h.1; omega) (by have := h.2; omega)
  unfold addDuration
  simp only [ge_iff_le, Int64.le_iff_toInt_le, hsum]
  have hzero : (0 : Int64).toInt = 0 := rfl
  split
  · rw [hsum]
    omega
  · omega

section Deadline

variable {now : Timepoint} {timeoutNs : UInt64}

theorem sumFits_iff (hnow : 0 ≤ now.toInt) :
    SumFits now timeoutNs.toInt64 ↔
      now.toInt + timeoutNs.toNat < 2 ^ 63 ∨ 2 ^ 63 ≤ timeoutNs.toNat := by
  have hlt := timeoutNs.toNat_lt
  have hnowlt := now.toInt_lt
  unfold SumFits
  rw [toInt_timeout]
  split <;> omega

/-- A timeout that ends in range gives the deadline it is meant to; at the last point in
    time every deadline has been reached. -/
theorem deadline_of_endsInRange (hnow : 0 ≤ now.toInt) (h : EndsInRange now timeoutNs) :
    0 ≤ (toDeadline now timeoutNs).toInt ∧
      (toDeadline now timeoutNs).toInt ≤ granted now timeoutNs ∧
      (granted now timeoutNs ≤ (toDeadline now timeoutNs).toInt ∨
        granted now timeoutNs ≤ now.toInt) := by
  have hlt := timeoutNs.toNat_lt
  have hnowlt := now.toInt_lt
  have hfits : SumFits now timeoutNs.toInt64 := (sumFits_iff hnow).mpr (h.imp_right And.left)
  unfold toDeadline granted
  rw [toInt_addDuration hfits, toInt_timeout]
  rcases h with hend | ⟨hlong, hlast⟩
  · rw [if_pos (by omega)]
    omega
  · rw [if_neg (by omega)]
    omega

/-- A timeout taken as a negative duration gives a deadline that has passed. -/
theorem deadline_le_of_long (hnow : 0 ≤ now.toInt) (hlong : 2 ^ 63 ≤ timeoutNs.toNat) :
    (toDeadline now timeoutNs).toInt ≤ now.toInt := by
  have hlt := timeoutNs.toNat_lt
  have hfits : SumFits now timeoutNs.toInt64 := (sumFits_iff hnow).mpr (.inr hlong)
  unfold toDeadline
  rw [toInt_addDuration hfits, toInt_timeout, if_neg (by omega)]
  omega

end Deadline

/-! ### The invariant -/

structure Invariant (s : State δ κ) : Prop where
  sumFits : SumFits s.calledAt s.timeoutNs.toInt64
  called : 0 ≤ s.calledAt.toInt ∧ s.calledAt.toInt ≤ s.clock.toInt
  deadline : 0 ≤ s.deadline.toInt ∧ s.deadline.toInt ≤ granted s.calledAt s.timeoutNs
  reached : granted s.calledAt s.timeoutNs ≤ s.deadline.toInt ∨
    granted s.calledAt s.timeoutNs ≤ s.calledAt.toInt
  elapsed : s.position = .returned .errOutOfRangeTooEarly →
    granted s.calledAt s.timeoutNs ≤ s.clock.toInt
  sleep : ∀ request caller previousSyncCounter now timeout,
    s.position = .asleep request caller previousSyncCounter now timeout →
      0 < timeout.toInt ∧ now.toInt + timeout.toInt = s.deadline.toInt

theorem invariant_start {now : Timepoint} {timeoutNs : UInt64} (flows : Flows δ κ)
    (call : ApiCall δ κ) (hnow : 0 ≤ now.toInt) (h : EndsInRange now timeoutNs) :
    Invariant (start flows now call timeoutNs) := by
  obtain ⟨hnonneg, hle, hreached⟩ := deadline_of_endsInRange hnow h
  refine ⟨(sumFits_iff hnow).mpr (h.imp_right And.left), ⟨hnow, le_rfl⟩, ⟨hnonneg, hle⟩, hreached,
    ?_, ?_⟩
  · cases call <;> nofun
  · cases call <;> nofun

section Steps

variable {s t : State δ κ}

theorem Invariant.honoured (h : Invariant s) : Honoured s where
  sumFits := h.sumFits
  elapsed hearly := by
    have helapsed := h.elapsed hearly
    unfold granted at helapsed
    omega
  sleep request caller previousSyncCounter now timeout hasleep := by
    obtain ⟨hpos, hend⟩ := h.sleep _ _ _ _ _ hasleep
    have hle := h.deadline.2
    exact ⟨hpos, by omega⟩

/-- A step that neither returns too early nor falls asleep. -/
theorem Invariant.moved (h : Invariant s) {position : Position δ κ}
    (hearly : position ≠ .returned .errOutOfRangeTooEarly)
    (hawake : ∀ request caller previousSyncCounter now timeout,
      position ≠ .asleep request caller previousSyncCounter now timeout) :
    Invariant { s with position } :=
  ⟨h.sumFits, h.called, h.deadline, h.reached, fun h => absurd h hearly,
    fun _ _ _ _ _ h => absurd h (hawake _ _ _ _ _)⟩

/-- Giving up when the deadline is reached. -/
theorem Invariant.giveUp (h : Invariant s) (hdeadline : s.deadline.toInt ≤ s.clock.toInt)
    (flowValid : Bool) : Invariant (s.giveUp flowValid) := by
  have hcalled := h.called.2
  refine ⟨h.sumFits, h.called, h.deadline, h.reached, fun _ => ?_, ?_⟩
  · change granted s.calledAt s.timeoutNs ≤ s.clock.toInt
    rcases h.reached with hreached | hreached <;> omega
  · cases flowValid <;> nofun

theorem Invariant.finish (h : Invariant s) (currentTaiTime : Timepoint) {status : MxlStatus}
    (hstatus : status ≠ .errOutOfRangeTooEarly) (caller : Caller δ κ) :
    Invariant (s.finish currentTaiTime status caller) := by
  have hreturned : Invariant { s with position := .returned status } := by
    refine h.moved ?_ nofun
    intro heq
    exact hstatus (Position.returned.inj heq)
  cases caller with
  | api => exact hreturned
  | group originTime passed current readers =>
    cases status with
    | statusOk => exact h.moved nofun nofun
    | _ => exact hreturned

theorem invariant_look (h : Invariant s) {currentTaiTime : Timepoint}
    (hstep : step s (.look currentTaiTime) = some t) : Invariant t := by
  simp only [step] at hstep
  split at hstep
  · rename_i request caller previousSyncCounter hposition
    split at hstep
    · obtain rfl := Option.some.inj hstep
      exact h.moved nofun nofun
    · rename_i hstatus
      obtain rfl := Option.some.inj hstep
      exact h.finish currentTaiTime hstatus caller
  · cases hstep

theorem invariant_compare (h : Invariant s) {flowValid : Bool}
    (hstep : step s (.compare flowValid) = some t) : Invariant t := by
  simp only [step] at hstep
  split at hstep
  · rename_i request caller previousSyncCounter hposition
    split at hstep
    · split at hstep
      · rename_i hreached
        obtain rfl := Option.some.inj hstep
        exact h.giveUp (Int64.le_iff_toInt_le.mp hreached) flowValid
      · rename_i hleft
        obtain rfl := Option.some.inj hstep
        have hlt : s.clock.toInt < s.deadline.toInt :=
          Int.not_le.mp fun hle => hleft (Int64.le_iff_toInt_le.mpr hle)
        have hnonneg : 0 ≤ s.clock.toInt := le_trans h.called.1 h.called.2
        have hdeadline := s.deadline.toInt_lt
        have htimeout : (s.deadline - s.clock).toInt = s.deadline.toInt - s.clock.toInt := by
          rw [Int64.toInt_sub]
          exact Int.bmod_eq_of_le (by omega) (by omega)
        refine ⟨h.sumFits, h.called, h.deadline, h.reached, nofun, ?_⟩
        rintro _ _ _ now timeout heq
        obtain ⟨-, -, -, rfl, rfl⟩ := Position.asleep.inj heq
        change 0 < (s.deadline - s.clock).toInt ∧
          s.clock.toInt + (s.deadline - s.clock).toInt = s.deadline.toInt
        rw [htimeout]
        omega
    · obtain rfl := Option.some.inj hstep
      exact h.moved nofun nofun
  · cases hstep

theorem invariant_step {a : Action δ κ} (h : Invariant s) (hstep : step s a = some t) :
    Invariant t := by
  cases a with
  | tick clock =>
    obtain ⟨hle, heq⟩ := Option.ite_none_right_eq_some.mp hstep
    obtain rfl := Option.some.inj heq
    have hmono : s.clock.toInt ≤ clock.toInt := Int64.le_iff_toInt_le.mp hle
    exact ⟨h.sumFits, ⟨h.called.1, h.called.2.trans hmono⟩, h.deadline, h.reached,
      fun hearly => (h.elapsed hearly).trans hmono, h.sleep⟩
  | evolve flows =>
    obtain rfl := Option.some.inj hstep
    exact ⟨h.sumFits, h.called, h.deadline, h.reached, h.elapsed, h.sleep⟩
  | walk =>
    simp only [step] at hstep
    split at hstep
    · obtain rfl := Option.some.inj hstep
      exact h.moved nofun nofun
    · split at hstep
      · obtain rfl := Option.some.inj hstep
        exact h.moved nofun nofun
      · obtain rfl := Option.some.inj hstep
        exact h.moved nofun nofun
    · cases hstep
  | load =>
    simp only [step] at hstep
    split at hstep
    · obtain rfl := Option.some.inj hstep
      exact h.moved nofun nofun
    · cases hstep
  | look currentTaiTime => exact invariant_look h hstep
  | compare flowValid => exact invariant_compare h hstep
  | wakeUp =>
    simp only [step] at hstep
    split at hstep
    · obtain rfl := Option.some.inj hstep
      exact h.moved nofun nofun
    · cases hstep
  | timeOut flowValid =>
    simp only [step] at hstep
    split at hstep
    · rename_i request caller previousSyncCounter now timeout hposition
      obtain ⟨hover, heq⟩ := Option.ite_none_right_eq_some.mp hstep
      obtain rfl := Option.some.inj heq
      have hend := (h.sleep _ _ _ _ _ hposition).2
      exact h.giveUp (by omega) flowValid
    · cases hstep

end Steps

/-! ### A deadline that has passed -/

section Passed

variable {flows : Flows δ κ}

theorem waitResult_eq_result (originTime : Timepoint) (current : ListEntry δ κ) :
    waitResult flows originTime current = (entryRequest originTime current).result flows := by
  unfold waitResult entryRequest
  cases current.reader <;> rfl

/-- A reader that is behind has nothing to return. -/
theorem result_of_behind {originTime : Timepoint} {current : ListEntry δ κ}
    (h : expectedIndex originTime current > flows.headIndex current.reader) :
    (entryRequest originTime current).result flows = .errOutOfRangeTooEarly := by
  unfold entryRequest
  cases hreader : current.reader with
  | discrete r =>
    rw [hreader] at h
    have hnot : ¬ expectedIndex originTime current ≤ (flows.discrete r).headIndex :=
      UInt64.not_le.mpr h
    simp only [Request.result, DiscreteFlowData.getGrainImpl, if_neg hnot]
  | continuous r =>
    rw [hreader] at h
    have hnot : ¬ expectedIndex originTime current ≤ (flows.continuous r).headIndex :=
      UInt64.not_le.mpr h
    simp only [Request.result, ContinuousFlowData.getSamplesImpl, if_neg hnot]

/-- The walk stops at the first reader that is behind. -/
theorem run_walk {s : State δ κ} {originTime : Timepoint} {passed readers : List (ListEntry δ κ)}
    (hposition : s.position = .walking originTime (.iterating passed readers))
    (hbehind : ∃ current ∈ readers,
      expectedIndex originTime current > s.flows.headIndex current.reader) :
    ∃ as request caller, request.result s.flows = .errOutOfRangeTooEarly ∧
      run step s as = some { s with position := .loading request caller } := by
  induction readers generalizing s passed with
  | nil =>
    obtain ⟨_, hmem, -⟩ := hbehind
    cases hmem
  | cons current readers ih =>
    by_cases hcurrent : expectedIndex originTime current > s.flows.headIndex current.reader
    · refine ⟨[.walk], entryRequest originTime current, .group originTime passed current readers,
        result_of_behind hcurrent, ?_⟩
      simp only [run_cons, run_nil, step, hposition, if_pos hcurrent, Option.bind_some]
    · obtain ⟨other, hmem, hother⟩ := hbehind
      have hrest : other ∈ readers := by
        rcases List.mem_cons.mp hmem with rfl | hrest
        · exact absurd hother hcurrent
        · exact hrest
      obtain ⟨as, request, caller, hearly, hrun⟩ :=
        @ih { s with position := .walking originTime (.iterating (passed ++ [current]) readers) }
          (passed ++ [current]) rfl ⟨other, hrest, hother⟩
      refine ⟨.walk :: as, request, caller, hearly, ?_⟩
      rw [run_cons_eq_some]
      refine ⟨_, ?_, hrun⟩
      simp only [step, hposition, if_neg hcurrent]

/-- Every call comes to a loop that finds nothing. -/
theorem run_start {call : ApiCall δ κ} (hmissing : Missing flows call) (now : Timepoint)
    (timeoutNs : UInt64) :
    ∃ as request caller, request.result flows = .errOutOfRangeTooEarly ∧
      run step (start flows now call timeoutNs) as =
        some { start flows now call timeoutNs with position := .loading request caller } := by
  cases call with
  | getGrain r index minValidSlices =>
    exact ⟨[], .grain r index minValidSlices, .api, hmissing, rfl⟩
  | getSamples r index count => exact ⟨[], .samples r index count, .api, hmissing, rfl⟩
  | waitForDataAt originTime readers =>
    exact @run_walk δ κ (start flows now (.waitForDataAt originTime readers) timeoutNs) originTime
      [] readers rfl hmissing

theorem run_tooEarly {s : State δ κ} {request : Request δ κ} {caller : Caller δ κ}
    (hposition : s.position = .loading request caller)
    (hearly : request.result s.flows = .errOutOfRangeTooEarly) (hdeadline : s.deadline ≤ s.clock) :
    run step s [.load, .look 0, .compare true] =
      some { s with position := .returned .errOutOfRangeTooEarly } := by
  simp only [run_cons, run_nil, step, hposition, hearly, Option.bind_some, if_true, State.giveUp,
    ge_iff_le, if_pos hdeadline]

/-- A deadline in the past is reached at once. -/
theorem not_honoured_of_long {call : ApiCall δ κ} (hmissing : Missing flows call)
    {now : Timepoint} {timeoutNs : UInt64} (hnow : 0 ≤ now.toInt)
    (hlong : 2 ^ 63 ≤ timeoutNs.toNat) (hlast : now.toInt < 2 ^ 63 - 1) :
    ∃ as, ¬ Throughout step Honoured (start flows now call timeoutNs) as := by
  obtain ⟨as, request, caller, hearly, hrun⟩ := run_start hmissing now timeoutNs
  let last : List (Action δ κ) := [.load, .look 0, .compare true]
  refine ⟨as ++ last, fun h => ?_⟩
  have hrest := @run_tooEarly δ κ
    { start flows now call timeoutNs with position := .loading request caller } request caller
    rfl hearly (Int64.le_iff_toInt_le.mpr (deadline_le_of_long hnow hlong))
  have hlastState := h.last (by rw [run_append, hrun]; exact hrest)
  have helapsed : min (timeoutNs.toNat : Int) (2 ^ 63 - 1 - now.toInt) ≤ now.toInt - now.toInt :=
    hlastState.elapsed rfl
  omega

end Passed

/-- **Timeouts.**  A call on flows without the data honours its timeout in every run if
    and only if the timeout ends within the range of time points. -/
theorem deadline_honoured_iff (flows : Flows δ κ) (now : Timepoint) (call : ApiCall δ κ)
    (timeoutNs : UInt64) (hnow : 0 ≤ now.toInt) (hmissing : Missing flows call) :
    (∀ as, Throughout step Honoured (start flows now call timeoutNs) as) ↔
      EndsInRange now timeoutNs := by
  constructor
  · intro h
    have hfits := (sumFits_iff hnow).mp (h []).sumFits
    rcases hfits with hend | hlong
    · exact .inl hend
    · refine .inr ⟨hlong, ?_⟩
      have hlt := now.toInt_lt
      by_contra hlast
      obtain ⟨as, has⟩ := not_honoured_of_long hmissing hnow hlong (by omega)
      exact has (h as)
  · intro h as
    have hall : Throughout step Invariant (start flows now call timeoutNs) as :=
      throughout_of_step (fun _ _ _ => invariant_step) (invariant_start flows call hnow h) as
    exact hall.mono fun s hs => hs.honoured

/-! ### Waiting for ever -/

theorem quietFlow_grainCount_pos : 0 < (4 : UInt32).toNat := by decide

/-- A flow that has only its first grain. -/
def quietFlow : DiscreteFlowData where
  grainCount := 4
  headIndex := 0
  lastWriteTime := 0
  syncCounter := 0
  grains _ := ⟨1, 8192, 0, 0, 4, 1, 1⟩
  grainCount_pos := quietFlow_grainCount_pos

def quietFlows : Flows Unit Empty where
  discrete _ := quietFlow
  continuous := nofun

theorem missing_quietFlows : Missing quietFlows (.getGrain () 1 1) := rfl

/-- A microsecond is waited for. -/
theorem deadline_honoured_microsecond :
    Throughout step Honoured (start quietFlows 0 (.getGrain () 1 1) 1000)
      [.load, .look 0, .compare true, .wakeUp, .tick 1000, .compare true] :=
  (deadline_honoured_iff quietFlows 0 (.getGrain () 1 1) 1000 (by decide) missing_quietFlows).mpr
    (.inl (by decide)) _

/-- The longest timeout is over at once, and half of it overflows. -/
theorem longest_timeout_is_none :
    (∃ as, ¬ Throughout step Honoured
        (start quietFlows 0 (.getGrain () 1 1) 18446744073709551615) as) ∧
      ¬ Honoured (start quietFlows 1 (.getGrain () 1 1) 9223372036854775807) := by
  constructor
  · exact not_honoured_of_long missing_quietFlows (by decide) (by decide) (by decide)
  · intro h
    exact absurd h.sumFits.2 (by decide)

end MediaExchange.BlockingTimeout
