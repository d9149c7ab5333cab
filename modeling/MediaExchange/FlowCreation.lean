/-
  MediaExchange/FlowCreation.lean
  ===============================
  **Creating and opening one flow, by any number of calls at once.**

  `createOrOpenDiscreteFlow` and `createOrOpenContinuousFlow` build a flow in a
  temporary directory of their own, file by file and field by field, and rename the
  directory to the flow's path if nothing is there.  Who comes too late opens what is
  there, as `openFlow` does: the data file first, then, depending on what the data
  file says, every grain or the channel buffers.

  A call is a party; its steps alternate with those of all others.  A directory is
  known by a number that no other has, which is also the inode of its data file: the
  names that `mkdtemp` makes are fresh, and a rename changes neither.  The statements
  that build a flow are kept as a list of what is still to be done, in the order of
  the source.  The flow's id, which is the same in all calls, does not appear, and
  nothing is deleted; a call may fail at any time, for want of memory or of a lock.
-/
import MediaExchange.Library.LabelledRun
import MediaExchange.Library.StraightLine
import MediaExchange.DiscreteFlow
import MediaExchange.FlowParser

namespace MediaExchange.FlowCreation

/-! ### Shared memory -/

def FLOW_DATA_VERSION : UInt32 := 1

def GRAIN_HEADER_VERSION : UInt32 := 1

/-- `mxlCommonFlowConfigInfo`, without the id. -/
structure CommonFlowConfigInfo where
  format : MxlDataFormat := .unspecified
  grainRate : MxlRational := ⟨0, 0⟩
  maxCommitBatchSizeHint : UInt32 := 0
  maxSyncBatchSizeHint : UInt32 := 0
  payloadLocation : UInt32 := 0
  deviceIndex : Int32 := 0
  deriving DecidableEq

structure DiscreteFlowConfigInfo where
  sliceSizes : Vector UInt32 4 := .replicate 4 0
  grainCount : UInt32 := 0
  deriving DecidableEq

structure ContinuousFlowConfigInfo where
  channelCount : UInt32 := 0
  bufferLength : UInt32 := 0
  deriving DecidableEq

/-- `mxlFlowConfigInfo`.  The format says which of the two parts is there. -/
structure FlowConfigInfo where
  common : CommonFlowConfigInfo := {}
  discrete : DiscreteFlowConfigInfo := {}
  continuous : ContinuousFlowConfigInfo := {}
  deriving DecidableEq

structure FlowRuntimeInfo where
  headIndex : UInt64 := 0
  lastWriteTime : UInt64 := 0
  lastReadTime : UInt64 := 0
  deriving DecidableEq

structure FlowInfo where
  version : UInt32 := 0
  size : UInt32 := 0
  config : FlowConfigInfo := {}
  runtime : FlowRuntimeInfo := {}
  deriving DecidableEq

structure FlowState where
  inode : Nat := 0
  syncCounter : UInt32 := 0
  deriving DecidableEq

/-- `Flow`.  The defaults are the zeroes of a file that has just been allocated. -/
structure Flow where
  info : FlowInfo := {}
  state : FlowState := {}
  deriving DecidableEq

/-- A grain file: the size of its payload, and its header. -/
structure Grain where
  payloadSize : UInt64
  info : GrainInfo := ⟨0, 0, 0, 0, 0, 0, 0⟩
  deriving DecidableEq

/-- The files of a flow directory; the channel data is known by its size in bytes. -/
structure Directory where
  flowDef : Option String := none
  accessFile : Bool := false
  flow : Option Flow := none
  grainDirectory : Bool := false
  grains : List Grain := []
  channels : Option UInt64 := none
  deriving DecidableEq

/-! ### Requests -/

structure DiscreteRequest where
  flowDef : String
  flowFormat : MxlDataFormat
  grainCount : UInt64
  grainRate : MxlRational
  grainPayloadSize : UInt64
  grainNumOfSlices : UInt64
  grainSliceLengths : Vector UInt32 4
  maxSyncBatchSizeHint : UInt32
  maxCommitBatchSizeHint : UInt32
  deriving DecidableEq

structure ContinuousRequest where
  flowDef : String
  flowFormat : MxlDataFormat
  sampleRate : MxlRational
  channelCount : UInt64
  sampleWordSize : UInt64
  bufferLength : UInt64
  maxSyncBatchSizeHint : UInt32
  maxCommitBatchSizeHint : UInt32
  deriving DecidableEq

/-- The arguments of a `createOrOpenDiscreteFlow` or a `createOrOpenContinuousFlow`. -/
inductive Request where
  | discrete (request : DiscreteRequest)
  | continuous (request : ContinuousRequest)
  deriving DecidableEq

def mxlIsContinuousDataFormat : MxlDataFormat → Bool
  | .audio => true
  | _ => false

def mxlIsSupportedDataFormat : MxlDataFormat → Bool
  | .video => true
  | .audio => true
  | .data => true
  | .unspecified => false

def sanitizeFlowFormat (format : MxlDataFormat) : MxlDataFormat :=
  if mxlIsSupportedDataFormat format then format else .unspecified

/-- The check of the format with which both functions begin. -/
def Request.supported : Request → Bool
  | .discrete r => mxlIsDiscreteDataFormat (sanitizeFlowFormat r.flowFormat)
  | .continuous r => mxlIsContinuousDataFormat (sanitizeFlowFormat r.flowFormat)

/-! ### Building a flow -/

/-- A statement that builds a directory, executed at some time; `none` where it
    throws. -/
abbrev BuildStep := UInt64 → Directory → Option Directory

def onDirectory (f : Directory → Directory) : BuildStep := fun _ d => some (f d)

/-- A store to the mapped data file. -/
def onFlow (f : Flow → Flow) : BuildStep := fun _ d => some { d with flow := d.flow.map f }

/-- A store to the header of a grain. -/
def onGrain (i : Nat) (f : GrainInfo → GrainInfo) : BuildStep := fun _ d =>
  some { d with grains := d.grains.modify i fun g => { g with info := f g.info } }

def initCommonFlowConfigInfo (format : MxlDataFormat) (grainRate : MxlRational)
    (maxSyncBatchSizeHint maxCommitBatchSizeHint : UInt32) : CommonFlowConfigInfo where
  format := format
  grainRate := grainRate
  maxCommitBatchSizeHint := maxCommitBatchSizeHint
  maxSyncBatchSizeHint := maxSyncBatchSizeHint
  payloadLocation := 0
  deviceIndex := -1

def initFlowRuntimeInfo (now : UInt64) : FlowRuntimeInfo where
  lastWriteTime := now
  lastReadTime := now

def initFlowState (inode : Nat) : FlowState where
  inode := inode

/-- The body of the creation loop: `emplaceGrain`, and the fields of the header. -/
def grainSteps (r : DiscreteRequest) (i : Nat) : List BuildStep :=
  [ onDirectory fun d => { d with grains := d.grains ++ [{ payloadSize := r.grainPayloadSize }] },
    onGrain i fun info => { info with grainSize := r.grainPayloadSize.toUInt32 },
    onGrain i fun info => { info with totalSlices := r.grainNumOfSlices.toUInt16 },
    onGrain i fun info => { info with validSlices := 0 },
    onGrain i fun info => { info with version := GRAIN_HEADER_VERSION },
    onGrain i fun info => { info with size := 4096 } ]

/-- `createOrOpenDiscreteFlow`, from the descriptor to the last grain. -/
def discreteSteps (r : DiscreteRequest) (inode : Nat) : List BuildStep :=
  [ onDirectory fun d => { d with flowDef := some r.flowDef },
    onDirectory fun d => { d with accessFile := true },
    onDirectory fun d => { d with flow := some {} },
    onFlow fun f => { f with info.version := FLOW_DATA_VERSION },
    onFlow fun f => { f with info.size := 2048 },
    onFlow fun f => { f with
      info.config.common := initCommonFlowConfigInfo (sanitizeFlowFormat r.flowFormat) r.grainRate
        r.maxSyncBatchSizeHint r.maxCommitBatchSizeHint },
    onFlow fun f => { f with info.config.discrete := {} },
    onFlow fun f => { f with info.config.discrete.grainCount := r.grainCount.toUInt32 },
    onFlow fun f => { f with info.config.discrete.sliceSizes := r.grainSliceLengths },
    fun now => onFlow (fun f => { f with info.runtime := initFlowRuntimeInfo now }) now,
    onFlow fun f => { f with state := initFlowState inode },
    onDirectory fun d => { d with grainDirectory := true } ] ++
  (List.range r.grainCount.toNat).flatMap (grainSteps r)

/-- The number of samples that `openChannelBuffers` computes, in 32 bits. -/
def FlowConfigInfo.buffersLength (config : FlowConfigInfo) : UInt32 :=
  config.continuous.channelCount * config.continuous.bufferLength

/-- `openChannelBuffers` for a flow that is being created. -/
def createChannelBuffers (sampleWordSize : UInt64) : BuildStep := fun _ d =>
  match d.flow with
  | none => none
  | some f =>
      if sampleWordSize ≠ 0 ∧ 0 < f.info.config.buffersLength then
        some { d with channels := some (f.info.config.buffersLength.toUInt64 * sampleWordSize) }
      else none

/-- `createOrOpenContinuousFlow`, from the descriptor to the channel buffers. -/
def continuousSteps (r : ContinuousRequest) (inode : Nat) : List BuildStep :=
  [ onDirectory fun d => { d with flowDef := some r.flowDef },
    onDirectory fun d => { d with flow := some {} },
    onFlow fun f => { f with info.version := FLOW_DATA_VERSION },
    onFlow fun f => { f with info.size := 2048 },
    onFlow fun f => { f with
      info.config.common := initCommonFlowConfigInfo (sanitizeFlowFormat r.flowFormat) r.sampleRate
        r.maxSyncBatchSizeHint r.maxCommitBatchSizeHint },
    onFlow fun f => { f with info.config.continuous := {} },
    onFlow fun f => { f with info.config.continuous.channelCount := r.channelCount.toUInt32 },
    onFlow fun f => { f with info.config.continuous.bufferLength := r.bufferLength.toUInt32 },
    fun now => onFlow (fun f => { f with info.runtime := initFlowRuntimeInfo now }) now,
    onFlow fun f => { f with state := initFlowState inode },
    createChannelBuffers r.sampleWordSize ]

def Request.steps (inode : Nat) : Request → List BuildStep
  | .discrete r => discreteSteps r inode
  | .continuous r => continuousSteps r inode

/-! ### Calls -/

/-- `DiscreteFlowData` or `ContinuousFlowData`: the directory whose files are mapped,
    the data file as it is when the call returns, and the number of grains or the
    word size of the channel buffers. -/
structure FlowData where
  directory : Nat
  flow : Flow
  grains : Nat := 0
  sampleWordSize : UInt64 := 1
  deriving DecidableEq

/-- How far `openFlow` is: before the data file is opened, with the data file open,
    and behind the check of its version, on the way through the grains or before
    the channel buffers. -/
inductive OpenPhase where
  | start
  | opened (directory : Nat)
  | grains (directory : Nat) (count : UInt32) (i : Nat)
  | channels (directory : Nat)
  deriving DecidableEq

/-- A call of a `createOrOpen` function, whose request it carries, or of `openFlow`,
    which has none. -/
inductive Call where
  | idle
  | building (request : Request) (directory : Nat) (todo : List BuildStep)
  | opening (request : Option Request) (phase : OpenPhase)
  | returned (request : Option Request) (created : Bool) (data : FlowData)
  | failed

variable {π : Type*}

structure State (π : Type*) where
  /-- The directory at the flow's path. -/
  published : Option Nat
  nextDirectory : Nat
  directories : Nat → Directory
  calls : π → Call

def State.initial : State π where
  published := none
  nextDirectory := 0
  directories _ := {}
  calls _ := .idle

inductive Action (π : Type*) where
  | createOrOpen (p : π) (request : Request)
  | openFlow (p : π)
  | build (p : π) (now : UInt64)
  | publish (p : π)
  | openDataFile (p : π)
  | checkFlow (p : π)
  | openGrain (p : π)
  | finish (p : π)
  | fail (p : π)

variable [DecidableEq π]

def State.setCall (s : State π) (p : π) (c : Call) : State π :=
  { s with calls := Function.update s.calls p c }

/-- The mapped data file of a directory. -/
def State.flowOf (s : State π) (k : Nat) : Flow := (s.directories k).flow.getD {}

/-- `createTemporaryFlowDirectory`, unless the format is refused. -/
def createOrOpen (s : State π) (p : π) (request : Request) : Option (State π) :=
  match s.calls p with
  | .idle =>
      if request.supported then
        some ({ s with
          nextDirectory := s.nextDirectory + 1
          directories := Function.update s.directories s.nextDirectory {} }.setCall p
            (.building request s.nextDirectory (request.steps s.nextDirectory)))
      else some (s.setCall p .failed)
  | _ => none

def openFlow (s : State π) (p : π) : Option (State π) :=
  match s.calls p with
  | .idle => some (s.setCall p (.opening none .start))
  | _ => none

/-- The next statement of a `createOrOpen` function. -/
def build (s : State π) (p : π) (now : UInt64) : Option (State π) :=
  match s.calls p with
  | .building request k (f :: todo) =>
      match f now (s.directories k) with
      | some d =>
          some ({ s with directories := Function.update s.directories k d }.setCall p
            (.building request k todo))
      | none => some (s.setCall p .failed)
  | _ => none

/-- The flow data of a flow that the call has created. -/
def Request.created (request : Request) (k : Nat) (f : Flow) : FlowData :=
  match request with
  | .discrete r => { directory := k, flow := f, grains := r.grainCount.toNat }
  | .continuous r => { directory := k, flow := f, sampleWordSize := r.sampleWordSize }

/-- `publishFlowDirectory`, and the return if that has succeeded. -/
def publish (s : State π) (p : π) : Option (State π) :=
  match s.calls p with
  | .building request k [] =>
      match s.published with
      | none =>
          some ({ s with published := some k }.setCall p
            (.returned (some request) true (request.created k (s.flowOf k))))
      | some _ => some (s.setCall p (.opening (some request) .start))
  | _ => none

/-- `openFlow`: the data file at the flow's path. -/
def openDataFile (s : State π) (p : π) : Option (State π) :=
  match s.calls p with
  | .opening request .start =>
      match s.published with
      | some k =>
          if (s.directories k).flow.isSome then some (s.setCall p (.opening request (.opened k)))
          else some (s.setCall p .failed)
      | none => some (s.setCall p .failed)
  | _ => none

/-- `openFlow`: the version and the format of the flow; for a discrete flow the grain
    directory. -/
def checkFlow (s : State π) (p : π) : Option (State π) :=
  match s.calls p with
  | .opening request (.opened k) =>
      let info := (s.flowOf k).info
      let grainDirectory := s.published.any fun base => (s.directories base).grainDirectory
      if info.version ≠ FLOW_DATA_VERSION then some (s.setCall p .failed)
      else if mxlIsDiscreteDataFormat info.config.common.format then
        if 0 < info.config.discrete.grainCount ∧ grainDirectory = false then
          some (s.setCall p .failed)
        else some (s.setCall p (.opening request (.grains k info.config.discrete.grainCount 0)))
      else if mxlIsContinuousDataFormat info.config.common.format then
        some (s.setCall p (.opening request (.channels k)))
      else some (s.setCall p .failed)
  | _ => none

/-- `emplaceGrain` for an existing flow: the grain is opened by its path, and its
    version is checked. -/
def openGrain (s : State π) (p : π) : Option (State π) :=
  match s.calls p with
  | .opening request (.grains k count i) =>
      if i < count.toNat then
        match s.published.bind fun base => (s.directories base).grains[i]? with
        | some grain =>
            if grain.info.version ≠ GRAIN_HEADER_VERSION then some (s.setCall p .failed)
            else some (s.setCall p (.opening request (.grains k count (i + 1))))
        | none => some (s.setCall p .failed)
      else none
  | _ => none

/-- The word size that `openChannelBuffers` concludes from the size of the file. -/
def sampleWordSize (mappedSize : UInt64) (buffersLength : UInt32) : UInt64 :=
  if buffersLength.toUInt64 ≤ mappedSize then mappedSize / buffersLength.toUInt64 else 1

/-- The end of `openFlow`: a discrete flow with all its grains, or a continuous one
    with `openChannelBuffers`.  A `createOrOpen` function goes on with a
    `dynamic_pointer_cast` to the kind of flow it wants. -/
def finish (s : State π) (p : π) : Option (State π) :=
  match s.calls p with
  | .opening request (.grains k count i) =>
      if i < count.toNat then none
      else match request with
        | some (.continuous _) => some (s.setCall p .failed)
        | _ => some (s.setCall p (.returned request false
            { directory := k, flow := s.flowOf k, grains := i }))
  | .opening request (.channels k) =>
      let buffersLength := (s.flowOf k).info.config.buffersLength
      match s.published.bind fun base => (s.directories base).channels with
      | some mappedSize =>
          if buffersLength = 0 then some (s.setCall p .failed)
          else match request with
            | some (.discrete _) => some (s.setCall p .failed)
            | _ => some (s.setCall p (.returned request false
                { directory := k, flow := s.flowOf k,
                  sampleWordSize := sampleWordSize mappedSize buffersLength }))
      | none => some (s.setCall p .failed)
  | _ => none

/-- Any system call of a call may fail, and with it the call. -/
def fail (s : State π) (p : π) : Option (State π) :=
  match s.calls p with
  | .building _ _ _ => some (s.setCall p .failed)
  | .opening _ _ => some (s.setCall p .failed)
  | _ => none

def step (s : State π) : Action π → Option (State π)
  | .createOrOpen p request => createOrOpen s p request
  | .openFlow p => openFlow s p
  | .build p now => build s p now
  | .publish p => publish s p
  | .openDataFile p => openDataFile s p
  | .checkFlow p => checkFlow s p
  | .openGrain p => openGrain s p
  | .finish p => finish s p
  | .fail p => fail s p

end MediaExchange.FlowCreation
