/-
  MediaExchange/GrainSource.lean
  ==============================
  **The video and the data source** (`mxlsrc/create_video.rs`, `mxlsrc/create_data.rs`).

  The next grain is the one of the first call plus the number of buffers created
  since, or the current one if that is later.  Falling behind leaves the count as it
  is, so that the source stays behind, and the grain it delivers is the current one
  however often it is called.  `delivered_iff` says when it is another grain each time.

  After a read that failed `create` builds a new state: a session ends and the next
  one starts from the current index.
-/
import Mathlib.Data.List.Chain
import MediaExchange.AncillaryData
import MediaExchange.AudioSource
import MediaExchange.CompleteGrain
import MediaExchange.Library.LabelledRun

namespace MediaExchange.GrainSource

open MediaExchange.LabelledRun
open MediaExchange.AncillaryData (gstSt2038FromMxlSmpte291Grain)
open MediaExchange.AudioSink (FlowError)
open MediaExchange.AudioSource (InitialTime asU128)
open MediaExchange.CompleteGrain (GrainData Error)

/-! ### The source -/

/-- What is used of `State`, with the `VideoState` or the `DataState`, which have the same
    fields. -/
structure State where
  initialInfo : InitialTime
  grainRate : MxlRational
  frameCounter : UInt64
  isInitialized : Bool

/-- The state that `init` builds for a flow of a rate. -/
def State.init (grainRate : MxlRational) : State where
  initialInfo := { mxlIndex := 0, gstTime := 0 }
  grainRate
  frameCounter := 0
  isInitialized := false

structure Buffer where
  pts : UInt64
  data : List UInt8
deriving DecidableEq, Repr

inductive CreateState where
  | dataCreated (buffer : Buffer)
  | noDataCreated
deriving DecidableEq, Repr

/-- What a call finds: the current index, the running time, and for each index what
    `get_complete_grain` comes back with. -/
structure Call where
  currentIndex : UInt64
  tsGst : Option UInt64
  completeGrain : UInt64 → Except Error GrainData

/-- So many grains last, in nanoseconds. -/
def elapsed (rate : MxlRational) (frameCounter : UInt64) : UInt64 :=
  UInt64.ofNat
    (1000000000 * frameCounter.toNat * asU128 rate.denominator % 2 ^ 128 / asU128 rate.numerator)

namespace State

variable (state : State)

def withInitialTime (currentIndex tsGst : UInt64) : State :=
  if state.isInitialized then state
  else { state with initialInfo := ⟨currentIndex, tsGst⟩, isInitialized := true }

/-- The index that the count of buffers has come to. -/
def scheduledIndex : UInt64 := state.initialInfo.mxlIndex + state.frameCounter

def nextFrameIndex (currentIndex : UInt64) : UInt64 :=
  if state.scheduledIndex < currentIndex then currentIndex else state.scheduledIndex

/-- The time stamp that the count of buffers has come to. -/
def scheduledPts : UInt64 :=
  elapsed state.grainRate state.frameCounter + state.initialInfo.gstTime

/-- The time stamp, and the time base moved forward where the running time is later. -/
def computePts (tsGst : UInt64) : UInt64 × InitialTime :=
  let prevPts := state.scheduledPts
  if prevPts < tsGst then
    let pts := prevPts - state.initialInfo.gstTime
    let gstTime := state.initialInfo.gstTime + tsGst - prevPts
    (pts + gstTime, { state.initialInfo with gstTime })
  else (prevPts, state.initialInfo)

end State

/-- What a call has made of the state when it has a time stamp. -/
def State.stamped (state : State) (currentIndex tsGst : UInt64) : State :=
  { state.withInitialTime currentIndex tsGst with
    initialInfo := ((state.withInitialTime currentIndex tsGst).computePts tsGst).2 }

/-- From the read of the grain on. -/
def afterRead (makeData : List UInt8 → Option (List UInt8)) (state : State) (pts : UInt64) :
    Except Error GrainData → Except FlowError CreateState × State
  | .error _ => (.ok .noDataCreated, state)
  | .ok grainData =>
      if grainData.flags &&& MXL_GRAIN_FLAG_INVALID ≠ 0 then (.error .error, state)
      else
        match makeData grainData.payload with
        | none => (.error .error, state)
        | some data =>
            (.ok (.dataCreated { pts, data }), { state with frameCounter := state.frameCounter + 1 })

/-- What `create_video` and `create_data` have in common: all but what is made of the
    payload, and `none` where that fails.  There is no result where a rate of zero is
    divided by. -/
def createGrain (makeData : List UInt8 → Option (List UInt8)) (state : State) (call : Call) :
    Option (Except FlowError CreateState × State) :=
  match call.tsGst with
  | none => some (.error .error, state)
  | some tsGst =>
      if asU128 (state.withInitialTime call.currentIndex tsGst).grainRate.numerator = 0 then none
      else
        some (afterRead makeData (state.stamped call.currentIndex tsGst)
          ((state.withInitialTime call.currentIndex tsGst).computePts tsGst).1
          (call.completeGrain
            ((state.withInitialTime call.currentIndex tsGst).nextFrameIndex call.currentIndex)))

/-- `create_video` copies the payload. -/
def createVideo : State → Call → Option (Except FlowError CreateState × State) :=
  createGrain some

/-- `create_data` converts it. -/
def createData : State → Call → Option (Except FlowError CreateState × State) :=
  createGrain fun payload => (gstSt2038FromMxlSmpte291Grain payload).toOption

inductive FlowKind where
  | video
  | data

/-- `try_create`. -/
def tryCreate : FlowKind → State → Call → Option (Except FlowError CreateState × State)
  | .video => createVideo
  | .data => createData

/-! ### Runs of the source -/

inductive Action where
  | create (call : Call)
  /-- `init`, after a call that created nothing, or of an element that is started. -/
  | rebuild (grainRate : MxlRational)

/-- A buffer that was created. -/
structure Delivery where
  session : Nat
  index : UInt64
  pts : UInt64
  /-- The count of buffers was behind the current index. -/
  behind : Bool
deriving DecidableEq, Repr

/-- A source, and what it has done. -/
structure System where
  state : State
  /-- The last current index. -/
  currentIndex : UInt64
  session : Nat
  /-- The latest running time since the last buffer. -/
  latest : UInt64
  /-- The last buffer first. -/
  delivered : List Delivery

def System.init (grainRate : MxlRational) : System :=
  { state := .init grainRate, currentIndex := 0, session := 0, latest := 0, delivered := [] }

/-- What a call at a running time has delivered with its buffer. -/
def System.delivery (s : System) (currentIndex tsGst pts : UInt64) : Delivery where
  session := s.session
  index := (s.state.withInitialTime currentIndex tsGst).nextFrameIndex currentIndex
  pts
  behind := decide ((s.state.withInitialTime currentIndex tsGst).scheduledIndex < currentIndex)

/-- The source after a call, by what it returned. -/
def returned (s : System) (call : Call) : Except FlowError CreateState × State → System
  | (.ok (.dataCreated buffer), state) =>
      { state
        currentIndex := call.currentIndex
        session := s.session
        latest := 0
        delivered :=
          s.delivery call.currentIndex (call.tsGst.getD 0) buffer.pts :: s.delivered }
  | (_, state) =>
      { s with
        state
        currentIndex := call.currentIndex
        latest := max s.latest (call.tsGst.getD 0) }

/-- A call or a rebuild; current indices do not go back. -/
def step (kind : FlowKind) (s : System) : Action → Option System
  | .create call =>
      if call.currentIndex < s.currentIndex then none
      else (tryCreate kind s.state call).map (returned s call)
  | .rebuild grainRate =>
      some { s with state := .init grainRate, session := s.session + 1, latest := 0 }

/-- A later grain, and in one session a later time stamp. -/
def Follows (later earlier : Delivery) : Prop :=
  earlier.index < later.index ∧ (earlier.session = later.session → earlier.pts < later.pts)

/-- No grain is delivered twice, nor any out of order. -/
def Increasing (s : System) : Prop := s.delivered.IsChain Follows

def Creates (kind : FlowKind) (state : State) (call : Call) : Prop :=
  ∃ buffer after, tryCreate kind state call = some (.ok (.dataCreated buffer), after)

/-- What the last count of a buffer has added to the time stamp. -/
def State.period (state : State) : UInt64 :=
  elapsed state.grainRate state.frameCounter - elapsed state.grainRate (state.frameCounter - 1)

/-- A buffer is created after one that was delivered from behind, or in another session,
    only when the current index has gone past that, and after the others while there are
    indices left; in one session, only when a period or the running time has moved the
    time stamp. -/
def Moved (kind : FlowKind) (s : System) : Action → Prop
  | .create call =>
      Creates kind s.state call → ∀ last, s.delivered.head? = some last →
        (if last.session = s.session ∧ last.behind = false then last.index ≠ MXL_UNDEFINED_INDEX
          else last.index < call.currentIndex) ∧
        (last.session = s.session →
          last.pts < last.pts + s.state.period ∨ last.pts < max s.latest (call.tsGst.getD 0))
  | .rebuild _ => True

/-! ### One call -/

section Calls

variable {state : State} {currentIndex tsGst : UInt64}

@[simp] theorem isInitialized_withInitialTime :
    (state.withInitialTime currentIndex tsGst).isInitialized = true := by
  unfold State.withInitialTime
  split
  · assumption
  · rfl

@[simp] theorem frameCounter_withInitialTime :
    (state.withInitialTime currentIndex tsGst).frameCounter = state.frameCounter := by
  unfold State.withInitialTime
  split <;> rfl

theorem withInitialTime_of_initialized (h : state.isInitialized = true) :
    state.withInitialTime currentIndex tsGst = state := if_pos h

theorem toNat_nextFrameIndex :
    (state.nextFrameIndex currentIndex).toNat =
      max state.scheduledIndex.toNat currentIndex.toNat := by
  unfold State.nextFrameIndex
  simp only [UInt64.lt_iff_toNat_lt]
  split <;> omega

/-- The time stamp is the later one of the count's and the running time, and the count's
    has then come to it. -/
theorem computePts_eq :
    (state.computePts tsGst).1.toNat = max state.scheduledPts.toNat tsGst.toNat ∧
      (state.computePts tsGst).2.mxlIndex = state.initialInfo.mxlIndex ∧
      elapsed state.grainRate state.frameCounter + (state.computePts tsGst).2.gstTime =
        (state.computePts tsGst).1 := by
  have hscheduled : state.scheduledPts =
      elapsed state.grainRate state.frameCounter + state.initialInfo.gstTime := rfl
  unfold State.computePts
  generalize elapsed state.grainRate state.frameCounter = elapsed at hscheduled ⊢
  generalize state.scheduledPts = prevPts at hscheduled ⊢
  by_cases hlate : prevPts < tsGst
  · have hlater := UInt64.lt_iff_toNat_lt.mp hlate
    have hpts : prevPts - state.initialInfo.gstTime +
        (state.initialInfo.gstTime + tsGst - prevPts) = tsGst := by grind
    simp only [if_pos hlate, hpts]
    refine ⟨?_, trivial, ?_⟩
    · omega
    · rw [hscheduled]
      grind
  · have hearly : ¬ prevPts.toNat < tsGst.toNat := by rwa [← UInt64.lt_iff_toNat_lt]
    simp only [if_neg hlate]
    refine ⟨?_, trivial, hscheduled.symm⟩
    omega

theorem afterRead_cases {makeData : List UInt8 → Option (List UInt8)} {pts : UInt64}
    {grain : Except Error GrainData} {result : Except FlowError CreateState} {after : State}
    (h : afterRead makeData state pts grain = (result, after)) :
    ((∀ buffer, result ≠ .ok (.dataCreated buffer)) ∧ after = state) ∨
      ∃ buffer, result = .ok (.dataCreated buffer) ∧ buffer.pts = pts ∧
        after = { state with frameCounter := state.frameCounter + 1 } := by
  unfold afterRead at h
  split at h
  · obtain ⟨rfl, rfl⟩ := Prod.mk.inj h
    exact .inl ⟨nofun, rfl⟩
  · split at h
    · obtain ⟨rfl, rfl⟩ := Prod.mk.inj h
      exact .inl ⟨nofun, rfl⟩
    · split at h
      · obtain ⟨rfl, rfl⟩ := Prod.mk.inj h
        exact .inl ⟨nofun, rfl⟩
      · obtain ⟨rfl, rfl⟩ := Prod.mk.inj h
        exact .inr ⟨_, rfl, rfl, rfl⟩

@[simp] theorem grainRate_withInitialTime :
    (state.withInitialTime currentIndex tsGst).grainRate = state.grainRate := by
  unfold State.withInitialTime
  split <;> rfl

@[simp] theorem grainRate_stamped :
    (state.stamped currentIndex tsGst).grainRate = state.grainRate :=
  grainRate_withInitialTime

@[simp] theorem isInitialized_stamped :
    (state.stamped currentIndex tsGst).isInitialized = true :=
  isInitialized_withInitialTime

@[simp] theorem frameCounter_stamped :
    (state.stamped currentIndex tsGst).frameCounter = state.frameCounter :=
  frameCounter_withInitialTime

/-- Without a running time nothing is done; otherwise a buffer is created and counted, or
    the state is left with the time stamp. -/
theorem createGrain_cases {makeData : List UInt8 → Option (List UInt8)} {call : Call}
    {result : Except FlowError CreateState} {after : State}
    (h : createGrain makeData state call = some (result, after)) :
    (call.tsGst = none ∧ result = .error .error ∧ after = state) ∨
      ∃ tsGst, call.tsGst = some tsGst ∧
        (((∀ buffer, result ≠ .ok (.dataCreated buffer)) ∧
            after = state.stamped call.currentIndex tsGst) ∨
          ∃ buffer, result = .ok (.dataCreated buffer) ∧
            buffer.pts = ((state.withInitialTime call.currentIndex tsGst).computePts tsGst).1 ∧
            after = { state.stamped call.currentIndex tsGst with
              frameCounter := state.frameCounter + 1 }) := by
  unfold createGrain at h
  split at h
  · next hts =>
    obtain ⟨rfl, rfl⟩ := Prod.mk.inj (Option.some.inj h)
    exact .inl ⟨hts, rfl, rfl⟩
  · next tsGst hts =>
    refine .inr ⟨tsGst, hts, ?_⟩
    split at h
    · cases h
    · have hcases := afterRead_cases (Option.some.inj h)
      rw [frameCounter_stamped] at hcases
      exact hcases

theorem tryCreate_eq (kind : FlowKind) : ∃ makeData, tryCreate kind = createGrain makeData := by
  cases kind with
  | video => exact ⟨_, rfl⟩
  | data => exact ⟨_, rfl⟩

end Calls

/-! ### The invariant -/

/-- Before the first buffer of a session the count is at zero, at an index that has been
    reached.  After a buffer it is one on from that buffer, or has not got past it if it
    was behind, and the time stamp is a period on or at a running time since. -/
structure Invariant (s : System) : Prop where
  increasing : Increasing s
  session : ∀ last, s.delivered.head? = some last → last.session ≤ s.session
  first : (∀ last, s.delivered.head? = some last → last.session ≠ s.session) →
    s.state.frameCounter = 0 ∧
      (s.state.isInitialized = true → s.state.initialInfo.mxlIndex ≤ s.currentIndex)
  running : ∀ last, s.delivered.head? = some last → last.session = s.session →
    s.state.isInitialized = true ∧
      (last.behind = true → s.state.scheduledIndex ≤ last.index) ∧
      (last.behind = false → s.state.scheduledIndex = last.index + 1) ∧
      s.state.scheduledPts = max (last.pts + s.state.period) s.latest

theorem invariant_init (grainRate : MxlRational) : Invariant (.init grainRate) := by
  constructor
  · exact List.IsChain.nil
  · nofun
  · intro _
    exact ⟨rfl, nofun⟩
  · nofun

theorem invariant_rebuild {s : System} (hs : Invariant s) (grainRate : MxlRational) :
    Invariant
      { s with state := .init grainRate, session := s.session + 1, latest := 0 } := by
  constructor
  · exact hs.increasing
  · intro last hlast
    exact Nat.le_succ_of_le (hs.session last hlast)
  · intro _
    exact ⟨rfl, nofun⟩
  · intro last hlast hsession
    have := hs.session last hlast
    simp only at hsession
    omega

section Steps

variable {s : System} {call : Call} {tsGst : UInt64}

theorem scheduledPts_moved (state : State) (initialInfo : InitialTime) :
    ({ state with initialInfo } : State).scheduledPts =
      elapsed state.grainRate state.frameCounter + initialInfo.gstTime := rfl

/-- The time stamp of a call is where the count has then come to. -/
theorem scheduledPts_stamped (state : State) (currentIndex : UInt64) :
    (state.stamped currentIndex tsGst).scheduledPts =
      ((state.withInitialTime currentIndex tsGst).computePts tsGst).1 := by
  unfold State.stamped
  rw [scheduledPts_moved]
  exact computePts_eq.2.2

theorem scheduledIndex_stamped (state : State) (currentIndex : UInt64) :
    (state.stamped currentIndex tsGst).scheduledIndex =
      (state.withInitialTime currentIndex tsGst).scheduledIndex := by
  unfold State.stamped State.scheduledIndex
  simp only [computePts_eq.2.1]

/-- Within a session the time stamp of a call is a period on from the last one, or at the
    latest running time since. -/
theorem pts_running (hs : Invariant s) {last : Delivery} (hlast : s.delivered.head? = some last)
    (hsession : last.session = s.session) (currentIndex : UInt64) :
    ((s.state.withInitialTime currentIndex tsGst).computePts tsGst).1 =
      max (last.pts + s.state.period) (max s.latest tsGst) := by
  obtain ⟨hinit, -, -, hpts⟩ := hs.running last hlast hsession
  rw [withInitialTime_of_initialized hinit]
  apply UInt64.toNat_inj.mp
  rw [computePts_eq.1, hpts]
  simp only [UInt64.toNat_max]
  omega

/-- The first grain of a session is the current one. -/
theorem scheduledIndex_first (hs : Invariant s)
    (hfirst : ∀ last, s.delivered.head? = some last → last.session ≠ s.session)
    (hcurrent : s.currentIndex ≤ call.currentIndex) :
    (s.state.withInitialTime call.currentIndex tsGst).scheduledIndex ≤ call.currentIndex := by
  obtain ⟨hcounter, hindex⟩ := hs.first hfirst
  unfold State.scheduledIndex
  rw [frameCounter_withInitialTime, hcounter, UInt64.add_zero]
  unfold State.withInitialTime
  split
  · next hinit => exact UInt64.le_trans (hindex hinit) hcurrent
  · exact UInt64.le_refl _

/-- A call that creates nothing. -/
theorem invariant_of_not_created (hs : Invariant s) (hcurrent : s.currentIndex ≤ call.currentIndex) :
    Invariant
      { s with
        state := s.state.stamped call.currentIndex tsGst
        currentIndex := call.currentIndex
        latest := max s.latest tsGst } := by
  constructor
  · exact hs.increasing
  · exact hs.session
  · intro hfirst
    have hcounter := (hs.first hfirst).1
    have hindex := @scheduledIndex_first s call tsGst hs hfirst hcurrent
    rw [← scheduledIndex_stamped, State.scheduledIndex, frameCounter_stamped, hcounter,
      UInt64.add_zero] at hindex
    exact ⟨frameCounter_stamped.trans hcounter, fun _ => hindex⟩
  · intro last hlast hsession
    obtain ⟨hinit, hbehind, hahead, -⟩ := hs.running last hlast hsession
    have hscheduled : (s.state.stamped call.currentIndex tsGst).scheduledIndex =
        s.state.scheduledIndex := by
      rw [scheduledIndex_stamped, withInitialTime_of_initialized hinit]
    refine ⟨isInitialized_stamped, ?_, ?_, ?_⟩
    · rw [hscheduled]
      exact hbehind
    · rw [hscheduled]
      exact hahead
    · rw [scheduledPts_stamped, pts_running hs hlast hsession]
      simp [State.period]

/-- A call without a running time. -/
theorem invariant_of_no_time (hs : Invariant s) (hcurrent : s.currentIndex ≤ call.currentIndex) :
    Invariant { s with currentIndex := call.currentIndex, latest := max s.latest 0 } := by
  have hlatest : max s.latest 0 = s.latest := by
    apply UInt64.toNat_inj.mp
    simp [UInt64.toNat_max]
  rw [hlatest]
  constructor
  · exact hs.increasing
  · exact hs.session
  · intro hfirst
    obtain ⟨hcounter, hindex⟩ := hs.first hfirst
    exact ⟨hcounter, fun hinit => UInt64.le_trans (hindex hinit) hcurrent⟩
  · exact hs.running

/-! ### A buffer that is created -/

/-- The grain it is made of is another one exactly when the count or the current index has
    moved. -/
theorem index_lt_iff (hs : Invariant s) {last : Delivery} (hlast : s.delivered.head? = some last)
    (hcurrent : s.currentIndex ≤ call.currentIndex) :
    last.index < (s.state.withInitialTime call.currentIndex tsGst).nextFrameIndex
        call.currentIndex ↔
      if last.session = s.session ∧ last.behind = false then last.index ≠ MXL_UNDEFINED_INDEX
      else last.index < call.currentIndex := by
  rw [UInt64.lt_iff_toNat_lt, toNat_nextFrameIndex]
  by_cases hsession : last.session = s.session
  · obtain ⟨hinit, hbehind, hahead, -⟩ := hs.running last hlast hsession
    rw [withInitialTime_of_initialized hinit]
    cases hflag : last.behind with
    | true =>
      have hle := UInt64.le_iff_toNat_le.mp (hbehind hflag)
      rw [if_neg (by simp), UInt64.lt_iff_toNat_lt]
      omega
    | false =>
      have hlt := last.index.toNat_lt
      have hlt' := call.currentIndex.toNat_lt
      rw [if_pos ⟨hsession, rfl⟩, hahead hflag, UInt64.toNat_add, ne_eq, ← UInt64.toNat_inj,
        toNat_MXL_UNDEFINED_INDEX]
      simp only [UInt64.reduceToNat]
      omega
  · have hfirst : ∀ other, s.delivered.head? = some other → other.session ≠ s.session := by
      intro other hother
      obtain rfl := Option.some.inj (hlast.symm.trans hother)
      exact hsession
    have hle := UInt64.le_iff_toNat_le.mp (@scheduledIndex_first s call tsGst hs hfirst hcurrent)
    rw [if_neg (fun h => hsession h.1), UInt64.lt_iff_toNat_lt]
    omega

theorem pts_lt_iff (hs : Invariant s) {last : Delivery} (hlast : s.delivered.head? = some last)
    (hsession : last.session = s.session) (currentIndex : UInt64) :
    last.pts < ((s.state.withInitialTime currentIndex tsGst).computePts tsGst).1 ↔
      last.pts < last.pts + s.state.period ∨ last.pts < max s.latest tsGst := by
  rw [pts_running hs hlast hsession]
  generalize last.pts + s.state.period = next
  generalize max s.latest tsGst = latest
  simp only [UInt64.lt_iff_toNat_lt, UInt64.toNat_max]
  omega

/-- The count after a buffer. -/
theorem scheduledIndex_counted (state : State) (currentIndex : UInt64) :
    ({ state.stamped currentIndex tsGst with frameCounter := state.frameCounter + 1 } :
      State).scheduledIndex =
        (state.withInitialTime currentIndex tsGst).scheduledIndex + 1 := by
  rw [← scheduledIndex_stamped]
  unfold State.scheduledIndex
  simp only [frameCounter_stamped]
  grind

/-- Its time stamp is a period on from the buffer's. -/
theorem scheduledPts_counted (state : State) (currentIndex : UInt64) :
    ({ state.stamped currentIndex tsGst with frameCounter := state.frameCounter + 1 } :
      State).scheduledPts =
        ((state.withInitialTime currentIndex tsGst).computePts tsGst).1 +
          ({ state.stamped currentIndex tsGst with frameCounter := state.frameCounter + 1 } :
            State).period := by
  rw [← scheduledPts_stamped]
  unfold State.scheduledPts State.period
  simp only [frameCounter_stamped, grainRate_stamped, UInt64.add_sub_cancel]
  grind

/-- A grain from behind is the current one, which the count does not get past. -/
theorem count_of_behind {scheduled currentIndex : UInt64} (h : scheduled < currentIndex) :
    scheduled + 1 ≤ currentIndex := by
  have hlt := UInt64.lt_iff_toNat_lt.mp h
  have hbound := currentIndex.toNat_lt
  rw [UInt64.le_iff_toNat_le, UInt64.toNat_add]
  simp only [UInt64.reduceToNat]
  omega

/-- A call that creates a buffer that follows the others. -/
theorem invariant_of_created (hs : Invariant s)
    (hfollows : ∀ last, s.delivered.head? = some last →
      Follows (s.delivery call.currentIndex tsGst
        ((s.state.withInitialTime call.currentIndex tsGst).computePts tsGst).1) last) :
    Invariant
      { state :=
          { s.state.stamped call.currentIndex tsGst with frameCounter := s.state.frameCounter + 1 }
        currentIndex := call.currentIndex
        session := s.session
        latest := 0
        delivered :=
          s.delivery call.currentIndex tsGst
            ((s.state.withInitialTime call.currentIndex tsGst).computePts tsGst).1 ::
              s.delivered } := by
  constructor
  · exact List.isChain_cons.mpr ⟨hfollows, hs.increasing⟩
  · intro last hlast
    obtain rfl := Option.some.inj hlast
    exact Nat.le_refl _
  · intro hfirst
    exact absurd rfl (hfirst _ rfl)
  · intro last hlast _
    obtain rfl := Option.some.inj hlast
    refine ⟨isInitialized_stamped, ?_, ?_, ?_⟩
    · intro hbehind
      have hlt := of_decide_eq_true hbehind
      rw [scheduledIndex_counted]
      unfold System.delivery State.nextFrameIndex
      simp only [if_pos hlt]
      exact count_of_behind hlt
    · intro hahead
      have hge := of_decide_eq_false hahead
      rw [scheduledIndex_counted]
      unfold System.delivery State.nextFrameIndex
      simp only [if_neg hge]
    · rw [scheduledPts_counted]
      apply UInt64.toNat_inj.mp
      rw [UInt64.toNat_max]
      simp [System.delivery]

theorem returned_of_not_created {result : Except FlowError CreateState} (after : State)
    (h : ∀ buffer, result ≠ .ok (.dataCreated buffer)) :
    returned s call (result, after) =
      { s with
        state := after
        currentIndex := call.currentIndex
        latest := max s.latest (call.tsGst.getD 0) } := by
  rcases result with e | (buffer | _)
  · rfl
  · exact absurd rfl (h buffer)
  · rfl

theorem returned_of_created {buffer : Buffer} {pts : UInt64} (after : State)
    (hts : call.tsGst = some tsGst) (hpts : buffer.pts = pts) :
    returned s call (.ok (.dataCreated buffer), after) =
      { state := after
        currentIndex := call.currentIndex
        session := s.session
        latest := 0
        delivered := s.delivery call.currentIndex tsGst pts :: s.delivered } := by
  rw [← hpts]
  simp [returned, hts]

theorem moved_of_not_created {kind : FlowKind} {result : Except FlowError CreateState}
    {after : State} (hresult : tryCreate kind s.state call = some (result, after))
    (h : ∀ buffer, result ≠ .ok (.dataCreated buffer)) : Moved kind s (.create call) := by
  rintro ⟨buffer, after', hcreated⟩
  rw [hresult] at hcreated
  exact absurd (Prod.mk.inj (Option.some.inj hcreated)).1 (h buffer)

/-- What a call delivers follows what was delivered before if and only if there has been a
    move. -/
theorem moved_iff {kind : FlowKind} {buffer : Buffer} {after : State} (hs : Invariant s)
    (hcurrent : s.currentIndex ≤ call.currentIndex) (hts : call.tsGst = some tsGst)
    (hresult : tryCreate kind s.state call = some (.ok (.dataCreated buffer), after)) :
    Moved kind s (.create call) ↔ ∀ last, s.delivered.head? = some last →
      Follows (s.delivery call.currentIndex tsGst
        ((s.state.withInitialTime call.currentIndex tsGst).computePts tsGst).1) last := by
  have heach : ∀ last, s.delivered.head? = some last →
      (Follows (s.delivery call.currentIndex tsGst
          ((s.state.withInitialTime call.currentIndex tsGst).computePts tsGst).1) last ↔
        (if last.session = s.session ∧ last.behind = false then last.index ≠ MXL_UNDEFINED_INDEX
          else last.index < call.currentIndex) ∧
        (last.session = s.session →
          last.pts < last.pts + s.state.period ∨ last.pts < max s.latest (call.tsGst.getD 0))) := by
    intro last hlast
    rw [hts, Option.getD_some, ← @index_lt_iff s call tsGst hs last hlast hcurrent]
    apply and_congr_right
    intro _
    constructor
    · intro h hsession
      exact (pts_lt_iff hs hlast hsession call.currentIndex).mp (h hsession)
    · intro h hsession
      exact (pts_lt_iff hs hlast hsession call.currentIndex).mpr (h hsession)
  constructor
  · intro h last hlast
    exact (heach last hlast).mpr (h ⟨buffer, after, hresult⟩ last hlast)
  · intro h _ last hlast
    exact (heach last hlast).mp (h last hlast)

/-- One step, from a state in which everything has followed: the next state has the
    invariant if there has been a move, and a delivery that does not follow if not. -/
theorem step_cases {kind : FlowKind} {t : System} {a : Action} (hs : Invariant s)
    (h : step kind s a = some t) :
    (Moved kind s a → Invariant t) ∧ (¬ Moved kind s a → ¬ Increasing t) := by
  cases a with
  | rebuild grainRate =>
    obtain rfl := Option.some.inj h
    exact ⟨fun _ => invariant_rebuild hs grainRate, fun hnot => absurd trivial hnot⟩
  | create call =>
    rw [step] at h
    split at h
    · cases h
    · next hcurrent =>
      obtain ⟨⟨result, after⟩, hresult, rfl⟩ := Option.map_eq_some_iff.mp h
      rw [UInt64.not_lt] at hcurrent
      obtain ⟨makeData, hkind⟩ := tryCreate_eq kind
      rcases createGrain_cases (hkind ▸ hresult) with ⟨hts, rfl, rfl⟩ |
        ⟨tsGst, hts, ⟨hnot, rfl⟩ | ⟨buffer, rfl, hpts, rfl⟩⟩
      · have hnot : ∀ buffer, (.error .error : Except FlowError CreateState) ≠
            .ok (.dataCreated buffer) := by simp
        have hmoved := moved_of_not_created hresult hnot
        refine ⟨fun _ => ?_, fun hstill => absurd hmoved hstill⟩
        rw [returned_of_not_created _ hnot, hts, Option.getD_none]
        exact invariant_of_no_time hs hcurrent
      · have hmoved := moved_of_not_created hresult hnot
        refine ⟨fun _ => ?_, fun hstill => absurd hmoved hstill⟩
        rw [returned_of_not_created _ hnot, hts, Option.getD_some]
        exact invariant_of_not_created hs hcurrent
      · have hmoved := moved_iff hs hcurrent hts hresult
        rw [returned_of_created _ hts hpts, hmoved]
        constructor
        · intro hfollows
          exact invariant_of_created hs hfollows
        · intro hnot hincreasing
          exact hnot (List.isChain_cons.mp hincreasing).1

end Steps

/-- **No grain twice.**  In every run of the source, each buffer is made of a later grain
    than the one before it and has a later time stamp than it in the same session, if and
    only if there has been a move before each. -/
theorem delivered_iff (kind : FlowKind) (grainRate : MxlRational) (actions : List Action) :
    Throughout (step kind) Increasing (.init grainRate) actions ↔
      Along (step kind) (Moved kind) (.init grainRate) actions := by
  apply throughout_iff_along (fun s (hs : Invariant s) => hs.increasing) _ _
    (invariant_init grainRate)
  · intro s a t hs hq h
    exact (step_cases hs h).1 hq
  · intro s a t hs hq h
    exact (step_cases hs h).2 hq

/-! ### Five grains missed -/

/-- A call that gets a grain of one byte. -/
def oneByte (currentIndex tsGst : UInt64) : Call where
  currentIndex
  tsGst := some tsGst
  completeGrain _ := .ok { payload := [0], totalSize := 1, flags := 0 }

/-- The source has fallen behind by five grains of 50 Hz, and is called twice within the
    next one. -/
theorem grain_delivered_twice :
    ¬ Throughout (step .video) Increasing (.init ⟨50, 1⟩)
      [.create (oneByte 100 0), .create (oneByte 105 100000000),
        .create (oneByte 105 101000000)] := by
  intro h
  obtain ⟨t, hrun, hdelivered⟩ : ∃ t, run (step .video) (.init ⟨50, 1⟩)
      [.create (oneByte 100 0), .create (oneByte 105 100000000),
        .create (oneByte 105 101000000)] = some t ∧
      t.delivered = [⟨0, 105, 120000000, true⟩, ⟨0, 105, 100000000, true⟩, ⟨0, 100, 0, false⟩] :=
    ⟨_, rfl, rfl⟩
  have hlast := h.last hrun
  rw [Increasing, hdelivered, List.isChain_cons] at hlast
  exact absurd (hlast.1 _ rfl).1 (by decide)

end MediaExchange.GrainSource
