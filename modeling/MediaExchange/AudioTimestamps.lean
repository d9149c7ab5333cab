/-
  MediaExchange/AudioTimestamps.lean
  ==================================
  **The time stamps of the audio source** (`mxlsrc/create_audio.rs`).

  A time stamp is that of the last restart and one batch for each buffer since; if
  that is behind the pipeline's running time, it is moved up to it.  So the buffers
  may get ahead of the running time, a batch at a time.  A restart forgets the
  buffers: it takes the running time, and a buffer that starts there starts before
  the end of the previous one if that has got ahead.

  Restarts are the jumps of a late reader and the new states that `create` builds
  after a read that failed.
-/
import Mathlib.Data.List.Chain
import MediaExchange.AudioSource
import MediaExchange.Library.LabelledRun

namespace MediaExchange.AudioTimestamps

open MediaExchange.AudioSource MediaExchange.LabelledRun
open MediaExchange.AudioSink (FlowError)
open MediaExchange.InterleavedAudio (Planes interleaveAudio)

/-! ### Runs of the source -/

inductive Action where
  /-- A call of `create_audio`. -/
  | create (call : Call)
  /-- `init`, after a call that created nothing, or of an element that is started. -/
  | rebuild

/-- Whether a call starts the time stamps again. -/
def restarts (config : FlowConfig) (state : State) (call : Call) : Bool :=
  match call.head, call.tsGst with
  | some head, some tsGst =>
      let started := audioStateInit state tsGst config.batch head call.initNow
      !state.audio.isInitialized ||
        ((waitForSample started.audio config.batch head call.polls).isOk &&
          (isReaderLate head config.batch config.ring started.audio).1)
  | _, _ => false

/-- A source, and what it has done. -/
structure System where
  state : State
  /-- The last running time. -/
  clock : UInt64
  /-- The time stamps of the buffers, the last one first. -/
  created : List UInt64
  /-- There has been a restart since the last buffer. -/
  restarted : Bool

def System.init : System :=
  { state := .init, clock := 0, created := [], restarted := true }

/-- The source after a call, by what it returned. -/
def returned (config : FlowConfig) (s : System) (call : Call) (clock : UInt64) :
    Except FlowError CreateState × State → System
  | (.ok (.dataCreated buffer), state) =>
      { state := state, clock := clock, created := buffer.pts :: s.created, restarted := false }
  | (_, state) =>
      { s with
        state := state
        clock := clock
        restarted := s.restarted || restarts config s.state call }

/-- A call or a rebuild; running times do not go back. -/
def step (config : FlowConfig) (s : System) : Action → Option System
  | .create call =>
      let clock := call.tsGst.getD s.clock
      if clock < s.clock then none
      else (createAudio config s.state call).map (returned config s call clock)
  | .rebuild => some { s with state := .init, restarted := true }

/-- The length of a buffer in nanoseconds. -/
def duration (config : FlowConfig) : Nat := batchDurationNs config.batch config.sampleRate

/-- A buffer does not start before the previous one, nor before its end. -/
def Follows (config : FlowConfig) (later earlier : UInt64) : Prop :=
  earlier ≤ later ∧ earlier.toNat + duration config ≤ later.toNat

/-- Every buffer follows the one before it. -/
def NeverBack (config : FlowConfig) (s : System) : Prop := s.created.IsChain (Follows config)

def Creates (config : FlowConfig) (state : State) (call : Call) : Prop :=
  ∃ buffer after, createAudio config state call = some (.ok (.dataCreated buffer), after)

/-- A buffer is created after a restart only at a running time at which the previous
    buffer has ended; without a restart, the end is one that 64 bits hold. -/
def OnTime (config : FlowConfig) (s : System) : Action → Prop
  | .create call =>
      Creates config s.state call → ∀ last tsGst, s.created.head? = some last →
        call.tsGst = some tsGst →
        if s.restarted || restarts config s.state call then
          last.toNat + duration config ≤ tsGst.toNat
        else last.toNat + duration config < 2 ^ 64
  | .rebuild => True

/-! ### One call -/

variable {config : FlowConfig}

/-- The step from one buffer to the next, in 64 bits. -/
def increment (config : FlowConfig) : UInt64 := UInt64.ofNat (duration config)

theorem ofNat_mul_mod (counter : UInt64) (n : Nat) :
    UInt64.ofNat (counter.toNat * n % 2 ^ 128) = counter * UInt64.ofNat n := by
  apply UInt64.toNat_inj.mp
  rw [UInt64.toNat_ofNat', UInt64.toNat_mul, UInt64.toNat_ofNat',
    Nat.mod_mod_of_dvd _ (Nat.pow_dvd_pow 2 (by decide)), Nat.mul_mod, Nat.mul_mod_mod]
  simp

/-- The time stamp: that of the counter, or the running time if that is later.  The time
    of the restart is moved so that the counter's comes to the same. -/
theorem computePts_cases {audio : AudioState} {tsGst pts : UInt64} {info info' : InitialTime}
    (h : computePts config.batch config.sampleRate audio tsGst info = some (pts, info')) :
    pts = (if info.gstTime + audio.batchCounter * increment config < tsGst then tsGst
      else info.gstTime + audio.batchCounter * increment config) ∧
      info'.gstTime + audio.batchCounter * increment config = pts := by
  rw [computePts] at h
  split at h
  · cases h
  · simp only [ofNat_mul_mod] at h
    change (if info.gstTime + audio.batchCounter * increment config < tsGst then _ else _) = _ at h
    split at h
    · next hlate =>
      obtain ⟨rfl, rfl⟩ := Prod.mk.inj (Option.some.inj h)
      refine ⟨(if_pos hlate).symm, ?_⟩
      change info.gstTime + (tsGst - (info.gstTime + audio.batchCounter * increment config)) +
        audio.batchCounter * increment config = tsGst
      grind
    · next hearly =>
      obtain ⟨rfl, rfl⟩ := Prod.mk.inj (Option.some.inj h)
      exact ⟨(if_neg hearly).symm, rfl⟩

/-- The state a call has come to before it reads, or when it gives up waiting. -/
def prepared (config : FlowConfig) (state : State) (call : Call) (head tsGst : UInt64) : State :=
  let started := audioStateInit state tsGst config.batch head call.initNow
  match waitForSample started.audio config.batch head call.polls with
  | .error _ => started
  | .ok () => beforeRead config started head tsGst call.resyncNow

theorem audioStateInit_initialized {state : State} (h : state.audio.isInitialized = true)
    (tsGst batch head mxlNow : UInt64) : audioStateInit state tsGst batch head mxlNow = state := by
  rw [audioStateInit, if_pos h]

theorem audioStateInit_fresh {state : State} (h : state.audio.isInitialized = false)
    (tsGst batch head mxlNow : UInt64) :
    (audioStateInit state tsGst batch head mxlNow).audio.isInitialized = true ∧
      (audioStateInit state tsGst batch head mxlNow).audio.batchCounter = 0 ∧
      (audioStateInit state tsGst batch head mxlNow).initialInfo.gstTime = tsGst := by
  simp [audioStateInit, h]

theorem beforeRead_late {state : State} {head : UInt64} (tsGst resyncNow : UInt64)
    (h : (isReaderLate head config.batch config.ring state.audio).1 = true) :
    (beforeRead config state head tsGst resyncNow).audio.isInitialized = state.audio.isInitialized ∧
      (beforeRead config state head tsGst resyncNow).audio.batchCounter = 0 ∧
      (beforeRead config state head tsGst resyncNow).initialInfo.gstTime = tsGst := by
  rw [isReaderLate] at h
  rw [beforeRead, isReaderLate]
  split at h
  · next hlt => simp [if_pos hlt, resyncState, catchUp]
  · cases h

theorem beforeRead_notLate {state : State} {head : UInt64} (tsGst resyncNow : UInt64)
    (h : (isReaderLate head config.batch config.ring state.audio).1 = false) :
    beforeRead config state head tsGst resyncNow = state := by
  rw [isReaderLate] at h
  rw [beforeRead, isReaderLate]
  split at h
  · cases h
  · next hge => simp [if_neg hge]

/-- A restart sets the time stamps to the running time. -/
theorem prepared_restarted {state : State} {call : Call} {head tsGst : UInt64}
    (hhead : call.head = some head) (hts : call.tsGst = some tsGst)
    (h : restarts config state call = true) :
    (prepared config state call head tsGst).audio.isInitialized = true ∧
      (prepared config state call head tsGst).audio.batchCounter = 0 ∧
      (prepared config state call head tsGst).initialInfo.gstTime = tsGst := by
  simp only [restarts, hhead, hts] at h
  rw [prepared]
  cases hinit : state.audio.isInitialized with
  | false =>
    have hfresh := audioStateInit_fresh hinit tsGst config.batch head call.initNow
    generalize audioStateInit state tsGst config.batch head call.initNow = started at hfresh ⊢
    split
    · exact hfresh
    · cases hlate : (isReaderLate head config.batch config.ring started.audio).1 with
      | true =>
        obtain ⟨hsame, hcounter⟩ := beforeRead_late tsGst call.resyncNow hlate
        exact ⟨hsame.trans hfresh.1, hcounter⟩
      | false =>
        rw [beforeRead_notLate tsGst call.resyncNow hlate]
        exact hfresh
  | true =>
    simp only [hinit, Bool.not_true, Bool.false_or, Bool.and_eq_true] at h
    obtain ⟨hwaited, hlate⟩ := h
    rw [audioStateInit_initialized hinit] at hwaited hlate ⊢
    split
    · next e hwait =>
      rw [hwait] at hwaited
      cases hwaited
    · obtain ⟨hsame, hcounter⟩ := beforeRead_late tsGst call.resyncNow hlate
      exact ⟨hsame.trans hinit, hcounter⟩

/-- Without a restart the state stays as it is. -/
theorem prepared_of_not_restarts {state : State} {call : Call} {head tsGst : UInt64}
    (hhead : call.head = some head) (hts : call.tsGst = some tsGst)
    (h : restarts config state call = false) :
    state.audio.isInitialized = true ∧ prepared config state call head tsGst = state := by
  simp only [restarts, hhead, hts, Bool.or_eq_false_iff, Bool.not_eq_false'] at h
  obtain ⟨hinit, hlate⟩ := h
  refine ⟨hinit, ?_⟩
  rw [audioStateInit_initialized hinit] at hlate
  rw [prepared, audioStateInit_initialized hinit]
  split
  · rfl
  · next hwait =>
    rw [hwait] at hlate
    exact beforeRead_notLate tsGst call.resyncNow hlate

theorem prepared_initialized {state : State} {call : Call} {head tsGst : UInt64}
    (hhead : call.head = some head) (hts : call.tsGst = some tsGst) :
    (prepared config state call head tsGst).audio.isInitialized = true := by
  cases hrestarts : restarts config state call with
  | true => exact (prepared_restarted hhead hts hrestarts).1
  | false =>
    obtain ⟨hinit, hsame⟩ := prepared_of_not_restarts hhead hts hrestarts
    rw [hsame]
    exact hinit

/-- A read that succeeds creates a buffer, or leaves the state. -/
theorem afterRead_cases {state after : State} {tsGst : UInt64} {samples : List Planes}
    {result : Except FlowError CreateState}
    (h : afterRead config state tsGst samples = some (result, after)) :
    (after = state ∧ ∀ buffer, result ≠ .ok (.dataCreated buffer)) ∨
    ∃ buffer info info', result = .ok (.dataCreated buffer) ∧
      info.gstTime = state.initialInfo.gstTime ∧
      computePts config.batch config.sampleRate state.audio tsGst info =
        some (buffer.pts, info') ∧
      after.initialInfo = info' ∧ after.audio.isInitialized = state.audio.isInitialized ∧
      after.audio.batchCounter = state.audio.batchCounter + 1 := by
  rw [afterRead] at h
  cases hinterleaved : interleaveAudio samples with
  | none => simp [hinterleaved] at h
  | some interleaved =>
    simp only [hinterleaved] at h
    cases hduration : computeBatchDuration state.audio.index config.batch config.sampleRate with
    | error e =>
      left
      simp only [hduration] at h
      obtain ⟨rfl, rfl⟩ := Prod.mk.inj (Option.some.inj h)
      exact ⟨rfl, by simp⟩
    | ok readBatchDuration =>
      right
      simp only [hduration] at h
      split at h
      · cases h
      · next pts info' hpts =>
        obtain ⟨buffer, hbuffer, hresult⟩ := Option.map_eq_some_iff.mp h
        obtain ⟨rfl, rfl⟩ := Prod.mk.inj hresult
        have hbuilt : buffer.pts = pts := by
          rw [buildBuffer] at hbuffer
          split at hbuffer
          · rw [← Option.some.inj hbuffer]
          · cases hbuffer
        rw [← hbuilt] at hpts
        refine ⟨buffer, _, info', rfl, ?_, hpts, rfl, rfl, rfl⟩
        rfl

/-- A call without a head or a running time does nothing, one that creates no buffer
    leaves the state it has come to, and one that does counts a batch on. -/
theorem createAudio_cases {state after : State} {call : Call}
    {result : Except FlowError CreateState}
    (h : createAudio config state call = some (result, after)) :
    (after = state ∧ restarts config state call = false ∧
      ∀ buffer, result ≠ .ok (.dataCreated buffer)) ∨
    ∃ head tsGst, call.head = some head ∧ call.tsGst = some tsGst ∧
      ((after = prepared config state call head tsGst ∧
        ∀ buffer, result ≠ .ok (.dataCreated buffer)) ∨
      ∃ buffer info info', result = .ok (.dataCreated buffer) ∧
        info.gstTime = (prepared config state call head tsGst).initialInfo.gstTime ∧
        computePts config.batch config.sampleRate (prepared config state call head tsGst).audio
          tsGst info = some (buffer.pts, info') ∧
        after.initialInfo = info' ∧
        after.audio.isInitialized = (prepared config state call head tsGst).audio.isInitialized ∧
        after.audio.batchCounter =
          (prepared config state call head tsGst).audio.batchCounter + 1) := by
  rw [createAudio] at h
  cases hhead : call.head with
  | none =>
    left
    simp only [hhead] at h
    obtain ⟨rfl, rfl⟩ := Prod.mk.inj (Option.some.inj h)
    refine ⟨rfl, ?_, ?_⟩
    · simp [restarts, hhead]
    · simp
  | some head =>
    cases hts : call.tsGst with
    | none =>
      left
      simp only [hhead, hts] at h
      obtain ⟨rfl, rfl⟩ := Prod.mk.inj (Option.some.inj h)
      refine ⟨rfl, ?_, ?_⟩
      · simp [restarts, hhead, hts]
      · simp
    | some tsGst =>
      right
      refine ⟨head, tsGst, rfl, rfl, ?_⟩
      simp only [hhead, hts] at h
      rw [prepared]
      cases hwait : waitForSample (audioStateInit state tsGst config.batch head call.initNow).audio
          config.batch head call.polls with
      | error e =>
        left
        simp only [hwait] at h
        obtain ⟨rfl, rfl⟩ := Prod.mk.inj (Option.some.inj h)
        exact ⟨rfl, by simp⟩
      | ok _ =>
        simp only [hwait] at h
        cases hsamples : call.samples with
        | none =>
          left
          simp only [hsamples] at h
          obtain ⟨rfl, rfl⟩ := Prod.mk.inj (Option.some.inj h)
          exact ⟨rfl, by simp⟩
        | some samples =>
          simp only [hsamples] at h
          exact afterRead_cases h

/-! ### The invariant -/

/-- Before the first buffer after a restart the counter is at zero, and the time of the
    restart has been reached; otherwise the counter comes to the end of the last
    buffer, in 64 bits. -/
structure Invariant (config : FlowConfig) (s : System) : Prop where
  neverBack : NeverBack config s
  restarted : s.restarted = true → s.state.audio.isInitialized = true →
    s.state.audio.batchCounter = 0 ∧ s.state.initialInfo.gstTime ≤ s.clock
  running : s.restarted = false → s.state.audio.isInitialized = true ∧
    ∃ last, s.created.head? = some last ∧
      s.state.initialInfo.gstTime + s.state.audio.batchCounter * increment config =
        last + increment config

theorem invariant_init (config : FlowConfig) : Invariant config .init := by
  constructor
  · exact List.IsChain.nil
  · intro _ h
    cases h
  · intro h
    cases h

/-- What a created buffer starts at. -/
theorem pts_cases {s : System} {call : Call} {head tsGst pts : UInt64} {info info' : InitialTime}
    (hs : Invariant config s) (hclock : s.clock ≤ tsGst)
    (hhead : call.head = some head) (hts : call.tsGst = some tsGst)
    (hinfo : info.gstTime = (prepared config s.state call head tsGst).initialInfo.gstTime)
    (hpts : computePts config.batch config.sampleRate
      (prepared config s.state call head tsGst).audio tsGst info = some (pts, info')) :
    if s.restarted || restarts config s.state call then pts = tsGst
    else ∃ last, s.created.head? = some last ∧
      pts = if last + increment config < tsGst then tsGst else last + increment config := by
  obtain ⟨hcases, -⟩ := computePts_cases hpts
  have hzero {gstTime : UInt64} (hle : gstTime ≤ tsGst) :
      (if gstTime + 0 * increment config < tsGst then tsGst
        else gstTime + 0 * increment config) = tsGst := by
    rw [UInt64.zero_mul, UInt64.add_zero]
    split
    · rfl
    · next hge => exact UInt64.le_antisymm hle (UInt64.not_lt.mp hge)
  cases hrestarts : restarts config s.state call with
  | true =>
    obtain ⟨-, hcounter, htime⟩ := prepared_restarted hhead hts hrestarts
    rw [Bool.or_true, if_pos rfl, hcases, hcounter, hinfo, htime]
    exact hzero (UInt64.le_refl tsGst)
  | false =>
    obtain ⟨hinit, hsame⟩ := prepared_of_not_restarts hhead hts hrestarts
    rw [hsame] at hinfo hcases
    rw [Bool.or_false]
    cases hbefore : s.restarted with
    | true =>
      obtain ⟨hcounter, htime⟩ := hs.restarted hbefore hinit
      rw [if_pos rfl, hcases, hcounter, hinfo]
      exact hzero (UInt64.le_trans htime hclock)
    | false =>
      obtain ⟨-, last, hlast, hend⟩ := hs.running hbefore
      rw [if_neg Bool.false_ne_true]
      refine ⟨last, hlast, ?_⟩
      rw [hcases, hinfo, hend]

/-- The end of a buffer, where 64 bits hold it. -/
theorem toNat_add_increment {last : UInt64} (h : last.toNat + duration config < 2 ^ 64) :
    (last + increment config).toNat = last.toNat + duration config := by
  rw [UInt64.toNat_add, increment, UInt64.toNat_ofNat', Nat.add_mod_mod, Nat.mod_eq_of_lt h]

/-- A buffer follows the previous one if and only if it is created on time. -/
theorem follows_iff {last tsGst pts : UInt64} {fresh : Bool}
    (hpts : if fresh then pts = tsGst
      else pts = if last + increment config < tsGst then tsGst else last + increment config) :
    Follows config pts last ↔
      if fresh then last.toNat + duration config ≤ tsGst.toNat
      else last.toNat + duration config < 2 ^ 64 := by
  cases fresh with
  | true =>
    obtain rfl : pts = tsGst := hpts
    rw [if_pos rfl]
    constructor
    · exact fun h => h.2
    · intro h
      refine ⟨UInt64.le_iff_toNat_le.mpr ?_, h⟩
      omega
  | false =>
    rw [if_neg Bool.false_ne_true] at hpts ⊢
    constructor
    · intro h
      exact lt_of_le_of_lt h.2 pts.toNat_lt
    · intro h
      have hend := toNat_add_increment h
      have hle : last.toNat + duration config ≤ pts.toNat := by
        rw [hpts]
        split
        · next hlt =>
          rw [UInt64.lt_iff_toNat_lt, hend] at hlt
          exact Nat.le_of_lt hlt
        · exact hend.ge
      refine ⟨UInt64.le_iff_toNat_le.mpr ?_, hle⟩
      omega

/-- A call that creates no buffer. -/
theorem invariant_of_not_created {s : System} {call : Call} {head tsGst : UInt64}
    (hs : Invariant config s) (hclock : s.clock ≤ tsGst) (hhead : call.head = some head)
    (hts : call.tsGst = some tsGst) :
    Invariant config
      { s with
        state := prepared config s.state call head tsGst
        clock := tsGst
        restarted := s.restarted || restarts config s.state call } := by
  cases hrestarts : restarts config s.state call with
  | true =>
    obtain ⟨-, hcounter, htime⟩ := prepared_restarted hhead hts hrestarts
    constructor
    · exact hs.neverBack
    · intro _ _
      refine ⟨hcounter, ?_⟩
      change (prepared config s.state call head tsGst).initialInfo.gstTime ≤ tsGst
      rw [htime]
      exact UInt64.le_refl tsGst
    · intro h
      rw [Bool.or_true] at h
      cases h
  | false =>
    obtain ⟨hinit, hsame⟩ := prepared_of_not_restarts hhead hts hrestarts
    rw [hsame, Bool.or_false]
    constructor
    · exact hs.neverBack
    · intro h _
      obtain ⟨hcounter, htime⟩ := hs.restarted h hinit
      exact ⟨hcounter, UInt64.le_trans htime hclock⟩
    · exact hs.running

theorem returned_of_not_created {s : System} {call : Call} {clock : UInt64}
    {result : Except FlowError CreateState} (after : State)
    (h : ∀ buffer, result ≠ .ok (.dataCreated buffer)) :
    returned config s call clock (result, after) =
      { s with
        state := after
        clock := clock
        restarted := s.restarted || restarts config s.state call } := by
  rcases result with e | (buffer | _)
  · rfl
  · exact absurd rfl (h buffer)
  · rfl

theorem onTime_of_not_created {s : System} {call : Call} {result : Except FlowError CreateState}
    {after : State} (hresult : createAudio config s.state call = some (result, after))
    (h : ∀ buffer, result ≠ .ok (.dataCreated buffer)) : OnTime config s (.create call) := by
  rintro ⟨buffer, after', hcreated⟩
  rw [hresult] at hcreated
  exact absurd (Prod.mk.inj (Option.some.inj hcreated)).1 (h buffer)

/-- A call without a head or a running time. -/
theorem invariant_of_unchanged {s : System} {clock : UInt64} (hs : Invariant config s)
    (hclock : s.clock ≤ clock) : Invariant config { s with clock := clock } := by
  constructor
  · exact hs.neverBack
  · intro hbefore hinit
    obtain ⟨hcounter, htime⟩ := hs.restarted hbefore hinit
    exact ⟨hcounter, UInt64.le_trans htime hclock⟩
  · exact hs.running

section Created

variable {s : System} {call : Call} {head tsGst : UInt64} {buffer : Buffer}
  {info info' : InitialTime} {after : State}

/-- A call that creates a buffer is on time if and only if the buffer follows the last. -/
theorem onTime_iff_follows (hs : Invariant config s) (hclock : s.clock ≤ tsGst)
    (hhead : call.head = some head) (hts : call.tsGst = some tsGst)
    (hinfo : info.gstTime = (prepared config s.state call head tsGst).initialInfo.gstTime)
    (hpts : computePts config.batch config.sampleRate
      (prepared config s.state call head tsGst).audio tsGst info = some (buffer.pts, info'))
    (hresult : createAudio config s.state call = some (.ok (.dataCreated buffer), after)) :
    OnTime config s (.create call) ↔
      ∀ last, s.created.head? = some last → Follows config buffer.pts last := by
  have hstart := pts_cases hs hclock hhead hts hinfo hpts
  have hstart' : ∀ last, s.created.head? = some last →
      if s.restarted || restarts config s.state call then buffer.pts = tsGst
      else buffer.pts = if last + increment config < tsGst then tsGst
        else last + increment config := by
    intro last hlast
    split at hstart
    · next hfresh =>
      rw [if_pos hfresh]
      exact hstart
    · next hfresh =>
      rw [if_neg hfresh]
      obtain ⟨last', hlast', hnext⟩ := hstart
      obtain rfl := Option.some.inj (hlast.symm.trans hlast')
      exact hnext
  constructor
  · intro h last hlast
    exact (follows_iff (hstart' last hlast)).mpr
      (h ⟨buffer, after, hresult⟩ last tsGst hlast hts)
  · intro h _ last tsGst' hlast hts'
    obtain rfl := Option.some.inj (hts.symm.trans hts')
    exact (follows_iff (hstart' last hlast)).mp (h last hlast)

/-- A buffer that follows the last is counted. -/
theorem invariant_of_created (hhead : call.head = some head) (hts : call.tsGst = some tsGst)
    (hpts : computePts config.batch config.sampleRate
      (prepared config s.state call head tsGst).audio tsGst info = some (buffer.pts, info'))
    (hafter : after.initialInfo = info')
    (hinit : after.audio.isInitialized =
      (prepared config s.state call head tsGst).audio.isInitialized)
    (hcounter : after.audio.batchCounter =
      (prepared config s.state call head tsGst).audio.batchCounter + 1)
    (hnever : NeverBack config (returned config s call tsGst (.ok (.dataCreated buffer), after))) :
    Invariant config (returned config s call tsGst (.ok (.dataCreated buffer), after)) := by
  have hrunning : after.initialInfo.gstTime + after.audio.batchCounter * increment config =
      buffer.pts + increment config := by
    rw [hafter, hcounter, ← (computePts_cases hpts).2]
    grind
  constructor
  · exact hnever
  · intro hrestarted
    cases hrestarted
  · intro _
    refine ⟨?_, buffer.pts, rfl, hrunning⟩
    change after.audio.isInitialized = true
    rw [hinit]
    exact prepared_initialized hhead hts

end Created

/-- One step, from a state in which no buffer has gone back: the next state has the
    invariant if the step is on time, and a buffer in the wrong order if it is not. -/
theorem step_cases {s t : System} {a : Action} (hs : Invariant config s)
    (h : step config s a = some t) :
    (OnTime config s a → Invariant config t) ∧ (¬ OnTime config s a → ¬ NeverBack config t) := by
  cases a with
  | rebuild =>
    obtain rfl := Option.some.inj h
    refine ⟨fun _ => ?_, fun hnot => absurd trivial hnot⟩
    constructor
    · exact hs.neverBack
    · intro _ hinit
      cases hinit
    · intro hrestarted
      cases hrestarted
  | create call =>
    rw [step] at h
    split at h
    · cases h
    · next hclock =>
      obtain ⟨⟨result, after⟩, hresult, rfl⟩ := Option.map_eq_some_iff.mp h
      rw [UInt64.not_lt] at hclock
      rcases createAudio_cases hresult with ⟨rfl, hrestarts, hnot⟩ |
        ⟨head, tsGst, hhead, hts, ⟨rfl, hnot⟩ |
          ⟨buffer, info, info', rfl, hinfo, hpts, hafter, hinit, hcounter⟩⟩
      · refine ⟨fun _ => ?_, fun hlate => absurd (onTime_of_not_created hresult hnot) hlate⟩
        rw [returned_of_not_created _ hnot, hrestarts, Bool.or_false]
        exact invariant_of_unchanged hs hclock
      · refine ⟨fun _ => ?_, fun hlate => absurd (onTime_of_not_created hresult hnot) hlate⟩
        rw [hts, Option.getD_some] at hclock
        rw [returned_of_not_created _ hnot, hts, Option.getD_some]
        exact invariant_of_not_created hs hclock hhead hts
      · rw [hts, Option.getD_some] at hclock ⊢
        have hchain : NeverBack config (returned config s call tsGst
            (.ok (.dataCreated buffer), after)) ↔ OnTime config s (.create call) := by
          rw [onTime_iff_follows hs hclock hhead hts hinfo hpts hresult, NeverBack, returned,
            List.isChain_cons, and_iff_left]
          · rfl
          · exact hs.neverBack
        constructor
        · intro honTime
          exact invariant_of_created hhead hts hpts hafter hinit hcounter (hchain.mpr honTime)
        · intro hlate hnever
          exact hlate (hchain.mp hnever)

/-- **Time stamps never go back.**  In every run of the source, each buffer starts no
    earlier than the previous one and its end, if and only if none is created after a
    restart while the previous one has not ended in running time. -/
theorem never_back_iff (config : FlowConfig) (actions : List Action) :
    Throughout (step config) (NeverBack config) .init actions ↔
      Along (step config) (OnTime config) .init actions := by
  refine throughout_iff_along (fun s (hs : Invariant config s) => hs.neverBack) ?_ ?_
    (invariant_init config) actions
  · intro s a t hs hq h
    exact (step_cases hs h).1 hq
  · intro s a t hs hq h
    exact (step_cases hs h).2 hq

/-! ### A jump right after a burst -/

/-- Batches of one sample at 48 kHz. -/
def singleSamples : FlowConfig where
  bufferLength := 1000
  maxCommitBatchSizeHint := 1
  sampleRate := { numerator := 48000, denominator := 1 }

/-- A call at a running time that finds the flow at a head and reads a silent sample. -/
def silence (head tsGst : UInt64) : Call where
  head := some head
  tsGst := some tsGst
  initNow := 0
  polls := []
  resyncNow := 0
  samples := some [{ plane1 := [0, 0, 0, 0], plane2 := [] }]

/-- Two buffers are read within a microsecond, and the source jumps for the third. -/
theorem jump_goes_back :
    ¬ Throughout (step singleSamples) (NeverBack singleSamples) .init
      [.create (silence 5000 0), .create (silence 5000 1000), .create (silence 9000 2000)] := by
  intro h
  obtain ⟨t, hrun, hcreated⟩ : ∃ t, run (step singleSamples) .init
      [.create (silence 5000 0), .create (silence 5000 1000), .create (silence 9000 2000)] =
        some t ∧ t.created = [2000, 20833, 0] :=
    ⟨_, rfl, rfl⟩
  have hlast := h.last hrun
  rw [NeverBack, hcreated, List.isChain_cons] at hlast
  exact absurd (hlast.1 20833 rfl).1 (by decide)

end MediaExchange.AudioTimestamps
