/-
  MediaExchange/CompleteFlow.lean
  ===============================
  **What a creation builds.**

  A flow is completely set up when its data file, its grains or its channel buffers,
  and the files beside them are what the request asks for.  The statements of a
  creation, executed to the end, get there, except that `openChannelBuffers` computes
  the number of samples in 32 bits: the channel buffers have their size exactly if
  that number fits (`Request.Allocated.sized_iff`).

  A new discrete flow is also the one that the runs of readers and writers start from.
-/
import MediaExchange.FlowCreation

namespace MediaExchange.FlowCreation

open StraightLine

/-! ### A completely set up flow -/

/-- The configuration a request asks for, as the data file can hold it. -/
def Request.config : Request → FlowConfigInfo
  | .discrete r =>
      { common := initCommonFlowConfigInfo (sanitizeFlowFormat r.flowFormat) r.grainRate
          r.maxSyncBatchSizeHint r.maxCommitBatchSizeHint,
        discrete := { sliceSizes := r.grainSliceLengths, grainCount := r.grainCount.toUInt32 } }
  | .continuous r =>
      { common := initCommonFlowConfigInfo (sanitizeFlowFormat r.flowFormat) r.sampleRate
          r.maxSyncBatchSizeHint r.maxCommitBatchSizeHint,
        continuous :=
          { channelCount := r.channelCount.toUInt32, bufferLength := r.bufferLength.toUInt32 } }

/-- The data file of a flow to which nothing has been written yet. -/
structure Flow.Initialised (f : Flow) (config : FlowConfigInfo) (inode : Nat) : Prop where
  version : f.info.version = FLOW_DATA_VERSION
  size : f.info.size = 2048
  config : f.info.config = config
  headIndex : f.info.runtime.headIndex = 0
  times : f.info.runtime.lastReadTime = f.info.runtime.lastWriteTime
  state : f.state = { inode := inode, syncCounter := 0 }

def DiscreteRequest.grain (r : DiscreteRequest) : Grain where
  payloadSize := r.grainPayloadSize
  info := {
    version := GRAIN_HEADER_VERSION
    size := 4096
    index := 0
    flags := 0
    grainSize := r.grainPayloadSize.toUInt32
    totalSlices := r.grainNumOfSlices.toUInt16
    validSlices := 0 }

/-- The files of a flow, with all its grains, the channel buffers apart. -/
structure Request.Prepared (r : Request) (k : Nat) (d : Directory) : Prop where
  flow : ∃ f, d.flow = some f ∧ f.Initialised r.config k
  files : match r with
    | .discrete r => d.flowDef = some r.flowDef ∧ d.accessFile = true ∧
        d.grainDirectory = true ∧ d.grains = List.replicate r.grainCount.toNat r.grain
    | .continuous r => d.flowDef = some r.flowDef

/-- The size of the channel buffers of the configured geometry. -/
def ContinuousRequest.channelDataSize (r : ContinuousRequest) : Nat :=
  r.channelCount.toUInt32.toNat * r.bufferLength.toUInt32.toNat * r.sampleWordSize.toNat

/-- There is room for every sample of every channel. -/
def Request.Sized (d : Directory) : Request → Prop
  | .discrete _ => True
  | .continuous r => ∃ bytes, d.channels = some bytes ∧ bytes.toNat = r.channelDataSize

/-- Header, config, state, grains and channel buffers are completely set up. -/
structure Request.Complete (r : Request) (k : Nat) (d : Directory) : Prop
    extends r.Prepared k d where
  sized : r.Sized d

/-- The flow data shows the flow in directory `k` as the request asks for it. -/
structure Request.Shown (r : Request) (k : Nat) (d : FlowData) : Prop where
  directory : d.directory = k
  flow : d.flow.Initialised r.config k
  mapped : match r with
    | .discrete r => r.grainCount.toUInt32.toNat ≤ d.grains
    | .continuous r => d.sampleWordSize = r.sampleWordSize

/-! ### The size of the channel buffers -/

/-- The number of samples fits 32 bits, and the size of the buffers 64. -/
def Request.Fits : Request → Prop
  | .discrete _ => True
  | .continuous r =>
      r.channelCount.toUInt32.toNat * r.bufferLength.toUInt32.toNat < 2 ^ 32 ∧
        r.channelDataSize < 2 ^ 64

instance : DecidablePred Request.Fits
  | .discrete _ => inferInstanceAs (Decidable True)
  | .continuous _ => inferInstanceAs (Decidable (_ ∧ _))

/-- The channel buffers as `openChannelBuffers` allocates them. -/
def Request.Allocated (d : Directory) : Request → Prop
  | .discrete _ => True
  | .continuous r =>
      r.sampleWordSize ≠ 0 ∧ 0 < (Request.continuous r).config.buffersLength ∧
        d.channels =
          some ((Request.continuous r).config.buffersLength.toUInt64 * r.sampleWordSize)

/-- A product computed in 32 bits and multiplied on in 64 is exact iff nothing wraps. -/
theorem wrapped_product_eq_iff {n w : Nat} (hw : 0 < w) :
    n % 2 ^ 32 * w % 2 ^ 64 = n * w ↔ n < 2 ^ 32 ∧ n * w < 2 ^ 64 := by
  constructor
  · intro h
    have h64 : n * w < 2 ^ 64 := by
      rw [← h]
      exact Nat.mod_lt _ (by decide)
    have hle : n * w ≤ n % 2 ^ 32 * w := by
      calc n * w = n % 2 ^ 32 * w % 2 ^ 64 := h.symm
        _ ≤ n % 2 ^ 32 * w := Nat.mod_le _ _
    have hn : n ≤ n % 2 ^ 32 := Nat.le_of_mul_le_mul_right hle hw
    have h32 : n % 2 ^ 32 < 2 ^ 32 := Nat.mod_lt _ (by decide)
    exact ⟨by omega, h64⟩
  · rintro ⟨h32, h64⟩
    rw [Nat.mod_eq_of_lt h32, Nat.mod_eq_of_lt h64]

theorem buffersLength_toNat (r : ContinuousRequest) :
    (Request.continuous r).config.buffersLength.toNat =
      r.channelCount.toUInt32.toNat * r.bufferLength.toUInt32.toNat % 2 ^ 32 :=
  UInt32.toNat_mul _ _

theorem word_pos {w : UInt64} (h : w ≠ 0) : 0 < w.toNat :=
  Nat.pos_of_ne_zero fun h0 => h (UInt64.toNat_inj.mp h0)

/-- The allocated buffers have room for all samples iff the request fits. -/
theorem Request.Allocated.sized_iff {r : Request} {d : Directory} (h : r.Allocated d) :
    r.Sized d ↔ r.Fits := by
  cases r with
  | discrete r => exact Iff.rfl
  | continuous r =>
    obtain ⟨hword, hlength, hchannels⟩ := h
    have hbytes : ((Request.continuous r).config.buffersLength.toUInt64 * r.sampleWordSize).toNat =
        r.channelCount.toUInt32.toNat * r.bufferLength.toUInt32.toNat % 2 ^ 32 *
          r.sampleWordSize.toNat % 2 ^ 64 := by
      rw [UInt64.toNat_mul, UInt32.toNat_toUInt64, buffersLength_toNat]
    have hexact := wrapped_product_eq_iff
      (n := r.channelCount.toUInt32.toNat * r.bufferLength.toUInt32.toNat) (word_pos hword)
    simp only [Request.Sized, hchannels, Option.some.injEq, exists_eq_left', hbytes]
    exact hexact

/-- The word size concluded from buffers that fit is the one they were made with. -/
theorem Request.Allocated.sampleWordSize {r : ContinuousRequest} {d : Directory}
    (h : (Request.continuous r).Allocated d) (hfits : (Request.continuous r).Fits) :
    ∃ bytes, d.channels = some bytes ∧
      FlowCreation.sampleWordSize bytes (Request.continuous r).config.buffersLength =
        r.sampleWordSize := by
  obtain ⟨bytes, hchannels, hsize⟩ := h.sized_iff.mpr hfits
  obtain ⟨hword, hlength, -⟩ := h
  have hcount : (Request.continuous r).config.buffersLength.toNat =
      r.channelCount.toUInt32.toNat * r.bufferLength.toUInt32.toNat := by
    rw [buffersLength_toNat, Nat.mod_eq_of_lt hfits.1]
  have hpos : 0 < (Request.continuous r).config.buffersLength.toNat :=
    UInt32.lt_iff_toNat_lt.mp hlength
  rw [ContinuousRequest.channelDataSize, ← hcount] at hsize
  have hle : (Request.continuous r).config.buffersLength.toUInt64 ≤ bytes := by
    rw [UInt64.le_iff_toNat_le, UInt32.toNat_toUInt64, hsize]
    exact Nat.le_mul_of_pos_right _ (word_pos hword)
  refine ⟨bytes, hchannels, ?_⟩
  rw [FlowCreation.sampleWordSize, if_pos hle]
  apply UInt64.toNat_inj.mp
  rw [UInt64.toNat_div, UInt32.toNat_toUInt64, hsize, Nat.mul_div_cancel_left _ hpos]

/-! ### Building -/

@[simp] theorem finishes_onDirectory {P : Directory → Prop} {f : Directory → Directory}
    {fs : List BuildStep} {d : Directory} :
    Finishes P (onDirectory f :: fs) d ↔ Finishes P fs (f d) := by
  simp [finishes_cons, onDirectory]

@[simp] theorem finishes_onFlow {P : Directory → Prop} {f : Flow → Flow}
    {fs : List BuildStep} {d : Directory} :
    Finishes P (onFlow f :: fs) d ↔ Finishes P fs { d with flow := d.flow.map f } := by
  simp [finishes_cons, onFlow]

@[simp] theorem finishes_onGrain {P : Directory → Prop} {i : Nat} {f : GrainInfo → GrainInfo}
    {fs : List BuildStep} {d : Directory} :
    Finishes P (onGrain i f :: fs) d ↔ Finishes P fs
      { d with grains := d.grains.modify i fun g => { g with info := f g.info } } := by
  simp [finishes_cons, onGrain]

@[simp] theorem finishes_timed {P : Directory → Prop} {f : UInt64 → Flow → Flow}
    {fs : List BuildStep} {d : Directory} :
    Finishes P ((fun now => onFlow (f now) now) :: fs) d ↔
      ∀ now, Finishes P fs { d with flow := d.flow.map (f now) } := by
  simp [finishes_cons, onFlow]

theorem modify_last {α : Type*} (f : α → α) (as : List α) (a : α) :
    (as ++ [a]).modify as.length f = as ++ [f a] := by
  induction as with
  | nil => rfl
  | cons b bs ih => simpa using ih

/-- One pass of the creation loop adds one initialised grain. -/
theorem finishes_grain (r : DiscreteRequest) (d : Directory) (i : Nat) :
    Finishes (fun e => e = { d with grains := List.replicate (i + 1) r.grain }) (grainSteps r i)
      { d with grains := List.replicate i r.grain } := by
  have hmodify : ∀ (f : Grain → Grain) (g : Grain),
      (List.replicate i r.grain ++ [g]).modify i f = List.replicate i r.grain ++ [f g] := by
    intro f g
    have h := modify_last f (List.replicate i r.grain) g
    rwa [List.length_replicate] at h
  simp only [grainSteps, finishes_onDirectory, finishes_onGrain, finishes_nil, hmodify]
  rw [List.replicate_succ']
  rfl

theorem finishes_grains (r : DiscreteRequest) (d : Directory) (hd : d.grains = []) :
    Finishes (fun e => e = { d with grains := List.replicate r.grainCount.toNat r.grain })
      ((List.range r.grainCount.toNat).flatMap (grainSteps r)) d := by
  have hbody : ∀ i e, e = { d with grains := List.replicate i r.grain } →
      Finishes (fun e' => e' = { d with grains := List.replicate (i + 1) r.grain })
        (grainSteps r i) e := by
    rintro i e rfl
    exact finishes_grain r d i
  have hstart : d = { d with grains := List.replicate 0 r.grain } := by
    rw [List.replicate_zero, ← hd]
  exact finishes_loop hbody r.grainCount.toNat hstart

/-- What a directory is when all the statements that build it are behind it. -/
structure Request.Built (r : Request) (k : Nat) (d : Directory) : Prop
    extends r.Prepared k d where
  allocated : r.Allocated d

theorem finishes_discrete (r : DiscreteRequest) (k : Nat) :
    Finishes ((Request.discrete r).Built k) (discreteSteps r k) {} := by
  rw [discreteSteps, finishes_append]
  simp only [finishes_onDirectory, finishes_onFlow, finishes_timed, finishes_nil, Option.map_some]
  intro now
  refine (finishes_grains r _ rfl).mono ?_
  rintro d rfl
  refine ⟨⟨⟨_, rfl, ?_⟩, ⟨rfl, rfl, rfl, rfl⟩⟩, trivial⟩
  exact ⟨rfl, rfl, rfl, rfl, rfl, rfl⟩

theorem finishes_continuous (r : ContinuousRequest) (k : Nat) :
    Finishes ((Request.continuous r).Built k) (continuousSteps r k) {} := by
  rw [continuousSteps]
  simp only [finishes_onDirectory, finishes_onFlow, finishes_timed, Option.map_some]
  intro now now' d hd
  simp only [createChannelBuffers, Option.ite_none_right_eq_some, Option.some.injEq] at hd
  obtain ⟨⟨hword, hlength⟩, rfl⟩ := hd
  refine ⟨⟨⟨_, rfl, ?_⟩, rfl⟩, hword, hlength, rfl⟩
  exact ⟨rfl, rfl, rfl, rfl, rfl, rfl⟩

/-- A `createOrOpen` function builds what it has been asked for, or fails. -/
theorem finishes_steps (r : Request) (k : Nat) : Finishes (r.Built k) (r.steps k) {} := by
  cases r with
  | discrete r => exact finishes_discrete r k
  | continuous r => exact finishes_continuous r k

theorem Request.Built.complete {r : Request} {k : Nat} {d : Directory} (h : r.Built k d)
    (hfits : r.Fits) : r.Complete k d :=
  ⟨h.toPrepared, h.allocated.sized_iff.mpr hfits⟩

/-! ### The new flow, as its readers and writers see it -/

theorem toNat_grainCount_le (r : DiscreteRequest) :
    r.grainCount.toUInt32.toNat ≤ r.grainCount.toNat := by
  rw [UInt64.toNat_toUInt32]
  exact Nat.mod_le _ _

def DiscreteRequest.geometry (r : DiscreteRequest) (hpos : 0 < r.grainCount.toUInt32.toNat) :
    DiscreteGeometry where
  grainCount := r.grainCount.toUInt32
  grainSize := r.grainPayloadSize.toUInt32
  totalSlices := r.grainNumOfSlices.toUInt16
  grainCount_pos := hpos

/-- The files of a directory hold the discrete flow. -/
structure Directory.Holds (d : Directory) (flow : DiscreteFlowData) : Prop where
  data : ∃ f, d.flow = some f ∧ f.info.config.discrete.grainCount = flow.grainCount ∧
    f.info.runtime.headIndex = flow.headIndex ∧
    f.info.runtime.lastWriteTime = flow.lastWriteTime ∧ f.state.syncCounter = flow.syncCounter
  grains : ∀ i < flow.grainCount.toNat, d.grains[i]?.map Grain.info = some (flow.grains i)

/-- What a creation leaves is the flow that the runs of readers and writers start from. -/
theorem Request.Prepared.holds_create {r : DiscreteRequest} {k : Nat} {d : Directory}
    (h : (Request.discrete r).Prepared k d) (hpos : 0 < r.grainCount.toUInt32.toNat) :
    ∃ now, d.Holds (.create (r.geometry hpos) now) := by
  obtain ⟨f, hf, hinit⟩ := h.flow
  obtain ⟨-, -, -, hgrains⟩ := h.files
  refine ⟨f.info.runtime.lastWriteTime, ⟨f, hf, ?_, hinit.headIndex, rfl, ?_⟩, ?_⟩
  · rw [hinit.config]
    rfl
  · rw [hinit.state]
    rfl
  · intro i hi
    have hlt : i < r.grainCount.toNat := Nat.lt_of_lt_of_le hi (toNat_grainCount_le r)
    rw [hgrains, List.getElem?_replicate, if_pos hlt]
    rfl

end MediaExchange.FlowCreation
