/-
  MediaExchange/DiscreteWriterRuns.lean
  =====================================
  **Runs of the writers of one discrete flow.**

  Any number of writers (the type `ι`) share one flow and call `openGrain`,
  `commit` and `cancel` in any order.  The state carries, besides the shared
  memory and each writer's own `_currentIndex`, the history of the calls that
  took effect, latest first; what has been committed, which indices were ever
  stamped into the ring and whether a writer has a grain open are all read off
  that history, independently of the code's own bookkeeping.

  Main result: `head_is_max_committed_iff`, which says exactly in which runs the
  head is the largest committed index.
-/
import MediaExchange.Library.LabelledRun
import MediaExchange.DiscreteFlow

namespace MediaExchange.DiscreteWriterRuns

open MediaExchange.LabelledRun

variable {ι : Type*} [DecidableEq ι]

/-! ### Calls, histories and the system -/

/-- A call on a discrete flow writer, with the inputs it depends on. -/
inductive WriterCall where
  | openGrain (index : UInt64)
  | commit (info : GrainInfo) (now : UInt64)
  | cancel
deriving DecidableEq, Repr

/-- The calls that took effect, latest first, each with its writer. -/
abbrev History (ι : Type*) := List (ι × WriterCall)

def committed : History ι → List UInt64
  | [] => []
  | (_, .commit info _) :: history => info.index :: committed history
  | (_, _) :: history => committed history

/-- Whether writer `w` has a grain open: opened, and neither cancelled nor
    completed since. -/
def isOpen (w : ι) : History ι → Bool
  | [] => false
  | (v, call) :: history =>
      if v = w then
        match call with
        | .openGrain _ => true
        | .cancel => false
        | .commit info _ => isOpen w history && info.validSlices != info.totalSlices
      else isOpen w history

structure WriterSystem (ι : Type*) where
  flow : DiscreteFlowData
  writers : ι → PosixDiscreteFlowWriter
  history : History ι

def WriterSystem.init (flow : DiscreteFlowData) : WriterSystem ι where
  flow := flow
  writers _ := .init
  history := []

/-- One call of one writer.  A commit that is turned down leaves no trace in the
    history. -/
def step (s : WriterSystem ι) : ι × WriterCall → Option (WriterSystem ι)
  | (w, .openGrain index) =>
      let (_, _, writer, flow) := (s.writers w).openGrain s.flow index
      some { flow := flow, writers := Function.update s.writers w writer,
             history := (w, .openGrain index) :: s.history }
  | (w, .cancel) =>
      let (_, writer) := (s.writers w).cancel
      some { flow := s.flow, writers := Function.update s.writers w writer,
             history := (w, .cancel) :: s.history }
  | (w, .commit info now) =>
      match (s.writers w).commit s.flow info now with
      | (.statusOk, writer, flow) =>
          some { flow := flow, writers := Function.update s.writers w writer,
                 history := (w, .commit info now) :: s.history }
      | (_, writer, flow) =>
          some { flow := flow, writers := Function.update s.writers w writer,
                 history := s.history }

/-! ### What one call does -/

theorem step_openGrain {s t : WriterSystem ι} {w : ι} {index : UInt64}
    (h : step s (w, .openGrain index) = some t) :
    t.flow = s.flow.storeGrainIndex index ∧
      t.writers = Function.update s.writers w { currentIndex := index } ∧
      t.history = (w, .openGrain index) :: s.history := by
  simp only [step, PosixDiscreteFlowWriter.openGrain, Option.some.injEq] at h
  subst h
  exact ⟨rfl, rfl, rfl⟩

theorem step_cancel {s t : WriterSystem ι} {w : ι} (h : step s (w, .cancel) = some t) :
    t.flow = s.flow ∧
      t.writers = Function.update s.writers w { currentIndex := MXL_UNDEFINED_INDEX } ∧
      t.history = (w, .cancel) :: s.history := by
  simp only [step, PosixDiscreteFlowWriter.cancel, Option.some.injEq] at h
  subst h
  exact ⟨rfl, rfl, rfl⟩

/-- A commit either is of another grain than the open one and does nothing, or it
    stores head, record, time and counter, whatever the head was before. -/
theorem step_commit {s t : WriterSystem ι} {w : ι} {info : GrainInfo} {now : UInt64}
    (h : step s (w, .commit info now) = some t) :
    (info.index ≠ (s.writers w).currentIndex ∧ t = s) ∨
      (info.index = (s.writers w).currentIndex ∧
        t.flow = s.flow.afterCommit info.index info now ∧
        t.writers = Function.update s.writers w ((s.writers w).afterCommit info) ∧
        t.history = (w, .commit info now) :: s.history) := by
  by_cases hidx : info.index = (s.writers w).currentIndex
  · right
    simp only [step, PosixDiscreteFlowWriter.commit_accepted hidx, Option.some.injEq] at h
    subst h
    exact ⟨hidx, rfl, rfl, rfl⟩
  · left
    simp only [step, PosixDiscreteFlowWriter.commit_rejected hidx, Option.some.injEq,
      Function.update_eq_self] at h
    subst h
    exact ⟨hidx, rfl⟩

theorem step_grainCount {s t : WriterSystem ι} {call : ι × WriterCall}
    (h : step s call = some t) : t.flow.grainCount = s.flow.grainCount := by
  rcases call with ⟨w, index | ⟨info, now⟩ | _⟩
  · rw [(step_openGrain h).1]
    rfl
  · rcases step_commit h with ⟨_, rfl⟩ | ⟨_, hflow, _⟩
    · rfl
    · rw [hflow]
      rfl
  · rw [(step_cancel h).1]

/-! ### The head and the committed indices -/

/-- The largest index of a list, `0` for the empty one (the head of a new flow). -/
def maxIndex : List UInt64 → Nat
  | [] => 0
  | i :: is => max i.toNat (maxIndex is)

/-- The head is the largest index committed so far. -/
def HeadIsMax (s : WriterSystem ι) : Prop :=
  s.flow.headIndex.toNat = maxIndex (committed s.history)

/-- A grain that a reader was handed stays in range from then on, as long as the
    head has not moved a whole ring past it. -/
def StaysInRange (s₀ : WriterSystem ι) (calls : List (ι × WriterCall)) : Prop :=
  ∀ before between after s t, calls = before ++ between ++ after →
    run step s₀ before = some s → run step s between = some t →
    ∀ (flowValid : Bool) (index : UInt64) (minValidSlices : UInt16) (info : GrainInfo),
      s.flow.getGrain flowValid index minValidSlices = .ok info →
      t.flow.headIndex.toNat < index.toNat + t.flow.grainCount.toNat → t.flow.inRange index

/-- A commit that is accepted is of no index below the head. -/
def CommitsForward (s : WriterSystem ι) : ι × WriterCall → Prop
  | (w, .commit info _) =>
      info.index = (s.writers w).currentIndex → s.flow.headIndex.toNat ≤ info.index.toNat
  | _ => True

omit [DecidableEq ι] in
theorem headIsMax_init (geometry : DiscreteGeometry) (now : UInt64) :
    HeadIsMax (.init (.create geometry now) : WriterSystem ι) := rfl

/-- A step changes the head only by an accepted commit, and then to its index. -/
theorem step_head {s t : WriterSystem ι} {call : ι × WriterCall} (h : step s call = some t) :
    (t.flow.headIndex = s.flow.headIndex ∧ committed t.history = committed s.history) ∨
      ∃ w info now, call = (w, .commit info now) ∧ info.index = (s.writers w).currentIndex ∧
        t.flow.headIndex = info.index ∧
        committed t.history = info.index :: committed s.history := by
  rcases call with ⟨w, index | ⟨info, now⟩ | _⟩
  · obtain ⟨hflow, -, hhist⟩ := step_openGrain h
    left
    rw [hflow, hhist]
    exact ⟨rfl, rfl⟩
  · rcases step_commit h with ⟨_, rfl⟩ | ⟨hidx, hflow, -, hhist⟩
    · exact Or.inl ⟨rfl, rfl⟩
    · refine Or.inr ⟨w, info, now, rfl, hidx, ?_, ?_⟩
      · rw [hflow]
        rfl
      · rw [hhist]
        rfl
  · obtain ⟨hflow, -, hhist⟩ := step_cancel h
    left
    rw [hflow, hhist]
    exact ⟨rfl, rfl⟩

theorem headIsMax_step {s t : WriterSystem ι} {call : ι × WriterCall} (hs : HeadIsMax s)
    (hfwd : CommitsForward s call) (h : step s call = some t) : HeadIsMax t := by
  rcases step_head h with ⟨hhead, hcomm⟩ | ⟨w, info, now, rfl, hidx, hhead, hcomm⟩
  · unfold HeadIsMax
    rw [hhead, hcomm]
    exact hs
  · have hle : s.flow.headIndex.toNat ≤ info.index.toNat := hfwd hidx
    unfold HeadIsMax at hs ⊢
    rw [hhead, hcomm, maxIndex, ← hs, Nat.max_eq_left hle]

theorem not_headIsMax_step {s t : WriterSystem ι} {call : ι × WriterCall} (hs : HeadIsMax s)
    (hfwd : ¬ CommitsForward s call) (h : step s call = some t) : ¬ HeadIsMax t := by
  intro ht
  rcases call with ⟨w, index | ⟨info, now⟩ | _⟩
  · exact hfwd trivial
  · simp only [CommitsForward, Classical.not_imp, Nat.not_le] at hfwd
    obtain ⟨hidx, hlt⟩ := hfwd
    rcases step_commit h with ⟨hne, _⟩ | ⟨_, hflow, -, hhist⟩
    · exact hne hidx
    · unfold HeadIsMax at hs ht
      have hhead : t.flow.headIndex = info.index := by rw [hflow]; rfl
      have hcomm : committed t.history = info.index :: committed s.history := by rw [hhist]; rfl
      rw [hhead, hcomm, maxIndex, ← hs] at ht
      omega
  · exact hfwd trivial

/-- Along a run that only commits forward the head never moves back. -/
theorem head_mono_of_along {s t : WriterSystem ι} {calls : List (ι × WriterCall)}
    (hfwd : Along step CommitsForward s calls) (hrun : run step s calls = some t) :
    s.flow.headIndex.toNat ≤ t.flow.headIndex.toNat ∧ t.flow.grainCount = s.flow.grainCount := by
  have hall : Throughout step
      (fun u => s.flow.headIndex.toNat ≤ u.flow.headIndex.toNat ∧
        u.flow.grainCount = s.flow.grainCount) s calls := by
    apply throughout_of_along _ ⟨Nat.le_refl _, rfl⟩ hfwd
    rintro u call v ⟨hle, hcount⟩ hcall hstep
    refine ⟨?_, (step_grainCount hstep).trans hcount⟩
    rcases step_head hstep with ⟨hhead, -⟩ | ⟨w, info, now, rfl, hidx, hhead, -⟩
    · rw [hhead]
      exact hle
    · rw [hhead]
      exact Nat.le_trans hle (hcall hidx)
  exact hall.last hrun

theorem staysInRange_of_along {s₀ : WriterSystem ι} {calls : List (ι × WriterCall)}
    (hfwd : Along step CommitsForward s₀ calls) : StaysInRange s₀ calls := by
  intro before between after s t hcalls hbefore hbetween flowValid index minValidSlices info hread hlt
  subst hcalls
  have htail : Along step CommitsForward s between :=
    (hfwd.of_append).drop hbefore
  obtain ⟨hmono, -⟩ := head_mono_of_along htail hbetween
  have hok := DiscreteFlowData.getGrain_eq_ok.mp hread
  obtain ⟨hrange, -, -⟩ := DiscreteFlowData.getGrainImpl_eq_ok.mp hok
  have hle := (inRange_iff.mp hrange).1
  exact inRange_iff.mpr ⟨Nat.le_trans hle hmono, hlt⟩

/-- **When the head is the maximum.**  In a run of any number of writers on a new
    flow the head is the largest committed index in every state, and grains once
    readable stay in range until the head is a ring ahead, exactly when no commit
    of the run is of an index below the head it finds. -/
theorem head_is_max_committed_iff (geometry : DiscreteGeometry) (now : UInt64)
    (calls : List (ι × WriterCall)) :
    (Throughout step HeadIsMax (.init (.create geometry now)) calls ∧
        StaysInRange (.init (.create geometry now)) calls) ↔
      Along step CommitsForward (.init (.create geometry now)) calls := by
  have hmax : Throughout step HeadIsMax (.init (.create geometry now)) calls ↔
      Along step CommitsForward (.init (.create geometry now)) calls := by
    apply throughout_iff_along (fun _ hs => hs) _ _ (headIsMax_init geometry now)
    · intro s call t hs hfwd h
      exact headIsMax_step hs hfwd h
    · intro s call t hs hfwd h
      exact not_headIsMax_step hs hfwd h
  constructor
  · rintro ⟨hhead, -⟩
    exact hmax.mp hhead
  · intro hfwd
    exact ⟨hmax.mpr hfwd, staysInRange_of_along hfwd⟩

/-- A ring of four grains whose writer completes grain 5 and then grain 3, which
    was still in the ring. -/
def headBackRun : List (Unit × WriterCall) :=
  let record (index : UInt64) : GrainInfo :=
    { version := 1, size := 4096, index := index, flags := 0, grainSize := 16, totalSlices := 1,
      validSlices := 1 }
  [((), .openGrain 5), ((), .commit (record 5) 1), ((), .openGrain 3), ((), .commit (record 3) 2)]

/-- The commit of grain 3 takes the head from 5 back to 3, and grain 5, complete
    and the newest of the ring, is out of range. -/
theorem head_moves_back :
    ∃ s, run step (.init (.create ⟨4, 16, 1, by decide⟩ 0)) headBackRun = some s ∧
      s.flow.headIndex = 3 ∧ maxIndex (committed s.history) = 5 ∧ ¬ HeadIsMax s ∧
      ¬ s.flow.inRange 5 := by
  refine ⟨_, rfl, rfl, rfl, ?_, ?_⟩
  · unfold HeadIsMax
    decide
  · decide

end MediaExchange.DiscreteWriterRuns
