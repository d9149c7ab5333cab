/-
  MediaExchange/ClosingGrains.lean
  ================================
  **Closing a grain** (`mxl/src/grain/write_access.rs`, `flow.cpp`).

  A `GrainWriteAccess` stands for a grain that has been opened.  It is used up by
  `commit`, by `cancel` or by being dropped, and all three end in `drop`, which
  looks at a flag that the other two set before they do anything else.

  Underneath are the C functions, which may not get as far as the writer, and the
  writer's own `commit` and `cancel`.  For the writer a grain is open until its last
  slice has been committed.
-/
import MediaExchange.CompleteGrain

namespace MediaExchange.ClosingGrains

open MediaExchange.CompleteGrain (Error)

/-! ### The C functions -/

/-- What becomes of a call: the handle is not that of a discrete writer, or the
    writer's method returns, or an exception leaves it before or after it has done
    its work. -/
inductive CallOutcome where
  | notDiscrete
  | returns
  | throws (done : Bool)
deriving DecidableEq, Repr

def CallOutcome.isCarriedOut : CallOutcome → Bool
  | .notDiscrete => false
  | .returns => true
  | .throws done => done

def mxlFlowWriterOpenGrain (outcome : CallOutcome) (writer : PosixDiscreteFlowWriter)
    (flow : DiscreteFlowData) (index : UInt64) :
    MxlStatus × Option GrainInfo × PosixDiscreteFlowWriter × DiscreteFlowData :=
  let (status, info, writer', flow') := writer.openGrain flow index
  match outcome with
  | .notDiscrete => (.errInvalidFlowWriter, none, writer, flow)
  | .returns => (status, some info, writer', flow')
  | .throws true => (.errUnknown, some info, writer', flow')
  | .throws false => (.errUnknown, none, writer, flow)

/-- `mxlFlowWriterCommitGrain` of a record; callers here have no null pointers. -/
def mxlFlowWriterCommitGrain (outcome : CallOutcome) (writer : PosixDiscreteFlowWriter)
    (flow : DiscreteFlowData) (info : GrainInfo) (now : UInt64) :
    MxlStatus × PosixDiscreteFlowWriter × DiscreteFlowData :=
  match outcome with
  | .notDiscrete => (.errInvalidFlowWriter, writer, flow)
  | .returns => writer.commit flow info now
  | .throws true => (.errUnknown, (writer.commit flow info now).2)
  | .throws false => (.errUnknown, writer, flow)

def mxlFlowWriterCancelGrain (outcome : CallOutcome) (writer : PosixDiscreteFlowWriter) :
    MxlStatus × PosixDiscreteFlowWriter :=
  match outcome with
  | .notDiscrete => (.errInvalidFlowWriter, writer)
  | .returns => writer.cancel
  | .throws true => (.errUnknown, writer.cancel.2)
  | .throws false => (.errUnknown, writer)

/-! ### The writer and the calls made on it -/

inductive ApiCall where
  | commitGrain
  | cancelGrain
deriving DecidableEq, Repr

/-- The writer and its flow, with the closing calls that were made and the status
    each returned, in their order. -/
structure Session where
  writer : PosixDiscreteFlowWriter
  flow : DiscreteFlowData
  calls : List (ApiCall × MxlStatus)

/-- What the closing calls of a session come to, if they are made. -/
structure Outcomes where
  commitGrain : CallOutcome
  cancelGrain : CallOutcome
deriving DecidableEq, Repr

namespace Session

def start (writer : PosixDiscreteFlowWriter) (flow : DiscreteFlowData) : Session where
  writer := writer
  flow := flow
  calls := []

def flowWriterCommitGrain (s : Session) (outcomes : Outcomes) (info : GrainInfo) (now : UInt64) :
    MxlStatus × Session :=
  let (status, writer, flow) :=
    mxlFlowWriterCommitGrain outcomes.commitGrain s.writer s.flow info now
  (status, { writer := writer, flow := flow, calls := s.calls ++ [(.commitGrain, status)] })

def flowWriterCancelGrain (s : Session) (outcomes : Outcomes) : MxlStatus × Session :=
  let (status, writer) := mxlFlowWriterCancelGrain outcomes.cancelGrain s.writer
  (status, { s with writer := writer, calls := s.calls ++ [(.cancelGrain, status)] })

/-- The writer remembers the index of the grain it has open; the undefined index
    stands for none. -/
def IsOpen (s : Session) (index : UInt64) : Prop :=
  s.writer.currentIndex = index ∧ index ≠ MXL_UNDEFINED_INDEX

instance (s : Session) (index : UInt64) : Decidable (s.IsOpen index) :=
  inferInstanceAs (Decidable (_ ∧ _))

/-- The grain is no longer open, and that took one successful commit or one cancel
    and nothing else. -/
def ClosedOnce (s : Session) (index : UInt64) : Prop :=
  ¬ s.IsOpen index ∧
    (s.calls = [(.commitGrain, .statusOk)] ∨ ∃ status, s.calls = [(.cancelGrain, status)])

end Session

/-! ### The access -/

/-- `GrainWriteAccess`, without the handles and the payload. -/
structure GrainWriteAccess where
  grainInfo : GrainInfo
  committedOrCanceled : Bool
deriving DecidableEq, Repr

/-- The ways of using an access up. -/
inductive Consumption where
  | commit (validSlices : UInt16)
  | cancel
  | drop
deriving DecidableEq, Repr

namespace GrainWriteAccess

def new (grainInfo : GrainInfo) : GrainWriteAccess where
  grainInfo := grainInfo
  committedOrCanceled := false

def tooManySlices (grainInfo : GrainInfo) (validSlices : UInt16) : Error :=
  let totalSlices := grainInfo.totalSlices
  .other s!"Valid slices {validSlices} cannot exceed total slices {totalSlices}."

/-- `drop`; an error of the cancel is logged. -/
def drop (access : GrainWriteAccess) (s : Session) (outcomes : Outcomes) : Session :=
  if access.committedOrCanceled then s else (s.flowWriterCancelGrain outcomes).2

/-- `commit` up to the point where it returns and the access is dropped. -/
def commit (access : GrainWriteAccess) (s : Session) (outcomes : Outcomes) (now : UInt64)
    (validSlices : UInt16) : Except Error Unit × GrainWriteAccess × Session :=
  let access := { access with committedOrCanceled := true }
  if validSlices > access.grainInfo.totalSlices then
    (.error (tooManySlices access.grainInfo validSlices), access, s)
  else
    let access := { access with grainInfo := { access.grainInfo with validSlices := validSlices } }
    let (status, s) := s.flowWriterCommitGrain outcomes access.grainInfo now
    (Error.fromStatus status, access, s)

/-- `cancel` up to the point where it returns and the access is dropped. -/
def cancel (access : GrainWriteAccess) (s : Session) (outcomes : Outcomes) :
    Except Error Unit × GrainWriteAccess × Session :=
  let access := { access with committedOrCanceled := true }
  let (status, s) := s.flowWriterCancelGrain outcomes
  (Error.fromStatus status, access, s)

/-- Use the access up: what the caller is told and what is left. -/
def consume (access : GrainWriteAccess) (s : Session) (outcomes : Outcomes) (now : UInt64) :
    Consumption → Except Error Unit × Session
  | .commit validSlices =>
      let (result, access, s) := access.commit s outcomes now validSlices
      (result, access.drop s outcomes)
  | .cancel =>
      let (result, access, s) := access.cancel s outcomes
      (result, access.drop s outcomes)
  | .drop => (.ok (), access.drop s outcomes)

end GrainWriteAccess

/-- `GrainWriter::open_grain`; the C function sets the payload pointer together with
    the record. -/
def openGrain (outcome : CallOutcome) (writer : PosixDiscreteFlowWriter) (flow : DiscreteFlowData)
    (index : UInt64) :
    Except Error GrainWriteAccess × PosixDiscreteFlowWriter × DiscreteFlowData :=
  let (status, info, writer, flow) := mxlFlowWriterOpenGrain outcome writer flow index
  match Error.fromStatus status, info with
  | .error err, _ => (.error err, writer, flow)
  | .ok (), none =>
      (.error (.other s!"Failed to open grain payload for index {index}."), writer, flow)
  | .ok (), some info => (.ok (.new info), writer, flow)

/-! ### What the C functions do -/

section Calls

variable {outcome : CallOutcome} {writer : PosixDiscreteFlowWriter} {flow : DiscreteFlowData}
  {info : GrainInfo} {now : UInt64}

theorem commitGrain_accepted (houtcome : outcome = .returns)
    (hindex : info.index = writer.currentIndex) :
    mxlFlowWriterCommitGrain outcome writer flow info now =
      (.statusOk, writer.afterCommit info, flow.afterCommit info.index info now) := by
  rw [houtcome]
  exact PosixDiscreteFlowWriter.commit_accepted hindex

theorem commitGrain_eq_ok :
    (mxlFlowWriterCommitGrain outcome writer flow info now).1 = .statusOk ↔
      outcome = .returns ∧ info.index = writer.currentIndex := by
  constructor
  · intro h
    cases outcome with
    | notDiscrete => cases h
    | returns =>
      refine ⟨rfl, ?_⟩
      by_contra hindex
      rw [mxlFlowWriterCommitGrain, PosixDiscreteFlowWriter.commit_rejected hindex] at h
      cases h
    | throws done => cases done <;> cases h
  · rintro ⟨houtcome, hindex⟩
    rw [commitGrain_accepted houtcome hindex]

theorem cancelGrain_writer :
    (mxlFlowWriterCancelGrain outcome writer).2 =
      if outcome.isCarriedOut then { currentIndex := MXL_UNDEFINED_INDEX } else writer := by
  cases outcome with
  | notDiscrete => rfl
  | returns => rfl
  | throws done => cases done <;> rfl

end Calls

/-! ### What a consumed access leaves behind -/

section Consumed

variable (info : GrainInfo) (writer : PosixDiscreteFlowWriter) (flow : DiscreteFlowData)
  (outcomes : Outcomes) (now : UInt64) {validSlices : UInt16}

/-- A new access is used up. -/
def consumed (how : Consumption) : Except Error Unit × Session :=
  (GrainWriteAccess.new info).consume (.start writer flow) outcomes now how

/-- The record that is committed. -/
def committedInfo (validSlices : UInt16) : GrainInfo :=
  { info with validSlices := validSlices }

/-- A commit of too many slices returns before any call is made, with the flag set. -/
theorem consumed_commit_of_lt (h : info.totalSlices < validSlices) :
    consumed info writer flow outcomes now (.commit validSlices) =
      (.error (GrainWriteAccess.tooManySlices info validSlices), .start writer flow) := by
  have hcommit : (GrainWriteAccess.new info).commit (.start writer flow) outcomes now validSlices =
      (.error (GrainWriteAccess.tooManySlices info validSlices), ⟨info, true⟩,
        .start writer flow) := if_pos h
  simp [consumed, GrainWriteAccess.consume, hcommit, GrainWriteAccess.drop]

theorem consumed_commit_of_le (h : validSlices ≤ info.totalSlices) :
    consumed info writer flow outcomes now (.commit validSlices) =
      (Error.fromStatus ((Session.start writer flow).flowWriterCommitGrain outcomes
          (committedInfo info validSlices) now).1,
        ((Session.start writer flow).flowWriterCommitGrain outcomes
          (committedInfo info validSlices) now).2) := by
  have hcommit : (GrainWriteAccess.new info).commit (.start writer flow) outcomes now validSlices =
      (Error.fromStatus ((Session.start writer flow).flowWriterCommitGrain outcomes
          (committedInfo info validSlices) now).1, ⟨committedInfo info validSlices, true⟩,
        ((Session.start writer flow).flowWriterCommitGrain outcomes
          (committedInfo info validSlices) now).2) := if_neg (UInt16.not_lt.mpr h)
  simp [consumed, GrainWriteAccess.consume, hcommit, GrainWriteAccess.drop]

theorem consumed_commit_eq_ok :
    (consumed info writer flow outcomes now (.commit validSlices)).1 = .ok () ↔
      validSlices ≤ info.totalSlices ∧ outcomes.commitGrain = .returns ∧
        info.index = writer.currentIndex := by
  by_cases hle : validSlices ≤ info.totalSlices
  · rw [consumed_commit_of_le info writer flow outcomes now hle, CompleteGrain.fromStatus_eq_ok]
    simp only [hle, true_and]
    exact commitGrain_eq_ok
  · rw [consumed_commit_of_lt info writer flow outcomes now (UInt16.not_le.mp hle)]
    simp [hle]

/-- A commit that succeeds is the only call; nothing is dropped on top of it. -/
theorem consumed_commit_ok
    (h : (consumed info writer flow outcomes now (.commit validSlices)).1 = .ok ()) :
    (consumed info writer flow outcomes now (.commit validSlices)).2 =
      { writer := writer.afterCommit (committedInfo info validSlices)
        flow := flow.afterCommit info.index (committedInfo info validSlices) now
        calls := [(.commitGrain, .statusOk)] } := by
  obtain ⟨hle, houtcome, hindex⟩ := (consumed_commit_eq_ok info writer flow outcomes now).mp h
  have hcall : mxlFlowWriterCommitGrain outcomes.commitGrain writer flow
      (committedInfo info validSlices) now = _ := commitGrain_accepted houtcome hindex
  simp only [consumed_commit_of_le info writer flow outcomes now hle,
    Session.flowWriterCommitGrain, Session.start, hcall]
  rfl

theorem consumed_calls_length (how : Consumption) :
    (consumed info writer flow outcomes now how).2.calls.length ≤ 1 := by
  cases how with
  | commit validSlices =>
    by_cases hle : validSlices ≤ info.totalSlices
    · rw [consumed_commit_of_le info writer flow outcomes now hle]
      exact Nat.le_refl 1
    · rw [consumed_commit_of_lt info writer flow outcomes now (UInt16.not_le.mp hle)]
      exact Nat.zero_le 1
  | cancel => exact Nat.le_refl 1
  | drop => exact Nat.le_refl 1

/-- After a successful commit the grain is open as long as slices are missing. -/
theorem isOpen_of_commit
    (h : (consumed info writer flow outcomes now (.commit validSlices)).1 = .ok ()) :
    (consumed info writer flow outcomes now (.commit validSlices)).2.IsOpen info.index ↔
      validSlices < info.totalSlices ∧ info.index ≠ MXL_UNDEFINED_INDEX := by
  obtain ⟨hle, -, hindex⟩ := (consumed_commit_eq_ok info writer flow outcomes now).mp h
  rw [consumed_commit_ok info writer flow outcomes now h]
  simp only [Session.IsOpen, PosixDiscreteFlowWriter.afterCommit, committedInfo]
  by_cases hfull : validSlices = info.totalSlices
  · simp [hfull, UInt16.lt_irrefl, eq_comm]
  · simp [hfull, hindex, UInt16.lt_of_le_of_ne hle hfull]

theorem closedOnce_of_commit
    (h : (consumed info writer flow outcomes now (.commit validSlices)).1 = .ok ()) :
    (consumed info writer flow outcomes now (.commit validSlices)).2.ClosedOnce info.index ↔
      validSlices = info.totalSlices ∨ info.index = MXL_UNDEFINED_INDEX := by
  obtain ⟨hle, -, -⟩ := (consumed_commit_eq_ok info writer flow outcomes now).mp h
  have hopen := isOpen_of_commit info writer flow outcomes now h
  have hcalls := congrArg Session.calls (consumed_commit_ok info writer flow outcomes now h)
  rw [Session.ClosedOnce, hopen, hcalls]
  constructor
  · rintro ⟨hclosed, -⟩
    by_contra hneither
    push Not at hneither
    exact hclosed ⟨UInt16.lt_of_le_of_ne hle hneither.1, hneither.2⟩
  · intro hdone
    refine ⟨?_, Or.inl rfl⟩
    rintro ⟨hlt, hindex⟩
    rcases hdone with rfl | hundefined
    · exact UInt16.lt_irrefl _ hlt
    · exact hindex hundefined

/-- What a cancel, made for the caller or by the drop, leaves behind. -/
theorem consumed_cancelled {how : Consumption} (h : how = .cancel ∨ how = .drop) :
    (consumed info writer flow outcomes now how).2 =
      { writer := (mxlFlowWriterCancelGrain outcomes.cancelGrain writer).2
        flow := flow
        calls := [(.cancelGrain, (mxlFlowWriterCancelGrain outcomes.cancelGrain writer).1)] } := by
  rcases h with rfl | rfl
  · rfl
  · rfl

theorem closedOnce_of_cancelled {how : Consumption} (h : how = .cancel ∨ how = .drop)
    (hcarried : outcomes.cancelGrain.isCarriedOut) (index : UInt64) :
    (consumed info writer flow outcomes now how).2.ClosedOnce index := by
  rw [consumed_cancelled info writer flow outcomes now h]
  constructor
  · rintro ⟨hcurrent, hindex⟩
    rw [cancelGrain_writer, if_pos hcarried] at hcurrent
    exact hindex hcurrent.symm
  · exact Or.inr ⟨_, rfl⟩

end Consumed

/-! ### The result -/

/-- **Closing a grain.**  However an access is used up, at most one call is made.  A
    cancelled or dropped access makes one cancel, after which nothing is open in the
    writer if the writer has carried it out; otherwise nothing has changed.  A commit
    that succeeds is not followed by a cancel and closes the grain if it has all of
    its slices; a partial one keeps it open. -/
theorem closing_calls (info : GrainInfo) (writer : PosixDiscreteFlowWriter)
    (flow : DiscreteFlowData) (outcomes : Outcomes) (now : UInt64) :
    (∀ how, (consumed info writer flow outcomes now how).2.calls.length ≤ 1) ∧
    (∀ how, how = .cancel ∨ how = .drop →
      (∃ status,
        (consumed info writer flow outcomes now how).2.calls = [(.cancelGrain, status)]) ∧
      if outcomes.cancelGrain.isCarriedOut then
        ∀ index, (consumed info writer flow outcomes now how).2.ClosedOnce index
      else
        (consumed info writer flow outcomes now how).2.writer = writer ∧
          (consumed info writer flow outcomes now how).2.flow = flow) ∧
    ∀ validSlices, (consumed info writer flow outcomes now (.commit validSlices)).1 = .ok () →
      (consumed info writer flow outcomes now (.commit validSlices)).2.calls =
          [(.commitGrain, .statusOk)] ∧
        ((consumed info writer flow outcomes now (.commit validSlices)).2.ClosedOnce info.index ↔
          validSlices = info.totalSlices ∨ info.index = MXL_UNDEFINED_INDEX) ∧
        ((consumed info writer flow outcomes now (.commit validSlices)).2.IsOpen info.index ↔
          validSlices < info.totalSlices ∧ info.index ≠ MXL_UNDEFINED_INDEX) := by
  refine ⟨consumed_calls_length info writer flow outcomes now, ?_, ?_⟩
  · intro how hhow
    have hleft := consumed_cancelled info writer flow outcomes now hhow
    refine ⟨⟨_, congrArg Session.calls hleft⟩, ?_⟩
    by_cases hcarried : outcomes.cancelGrain.isCarriedOut = true
    · rw [if_pos hcarried]
      intro index
      exact closedOnce_of_cancelled info writer flow outcomes now hhow hcarried index
    · rw [if_neg hcarried, hleft, cancelGrain_writer, if_neg hcarried]
      exact ⟨rfl, rfl⟩
  · intro validSlices hok
    exact ⟨congrArg Session.calls (consumed_commit_ok info writer flow outcomes now hok),
      closedOnce_of_commit info writer flow outcomes now hok,
      isOpen_of_commit info writer flow outcomes now hok⟩

/-- Grain 5 of a new flow is opened for two slices.  A commit of one of them succeeds
    and leaves it open, and so does a cancel that the C function turns down. -/
theorem partial_commit_stays_open :
    let flow := DiscreteFlowData.create ⟨4, 16, 2, by decide⟩ 0
    ∃ access writer flow',
      openGrain .returns .init flow 5 = (.ok access, writer, flow') ∧
      access.consume (.start writer flow') ⟨.returns, .returns⟩ 1 (.commit 1) =
        consumed access.grainInfo writer flow' ⟨.returns, .returns⟩ 1 (.commit 1) ∧
      (consumed access.grainInfo writer flow' ⟨.returns, .returns⟩ 1 (.commit 1)).1 = .ok () ∧
      (consumed access.grainInfo writer flow' ⟨.returns, .returns⟩ 1 (.commit 1)).2.IsOpen 5 ∧
      ¬ (consumed access.grainInfo writer flow' ⟨.returns, .returns⟩ 1
        (.commit 1)).2.ClosedOnce 5 ∧
      (consumed access.grainInfo writer flow' ⟨.returns, .notDiscrete⟩ 1 .drop).2.IsOpen 5 := by
  refine ⟨_, _, _, rfl, rfl, rfl, ?_, ?_, ?_⟩
  · decide
  · rintro ⟨hclosed, -⟩
    exact hclosed (by decide)
  · decide

end MediaExchange.ClosingGrains
