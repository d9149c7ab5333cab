/-
  MediaExchange/FlowSizing.lean
  =============================
  **From a flow definition to the rings of a new flow** (`FlowParser.cpp`,
  `FlowOptionsParser.cpp`, `createFlowWriter` of `Instance.cpp`).

  The length of a ring comes from a rate that the definition gives and from the
  history duration, the batch size hints from the options or from the rate.  Here
  the arithmetic on the way keeps whether it has left the range of a type or divided
  by zero; the parser does what it does in `FlowParser.parse` (`parse_eq_ok`).  No flow of
  that id is in the domain yet, so that a flow is created.
-/
import MediaExchange.Library.MachineArithmetic
import MediaExchange.CompleteFlow

namespace MediaExchange.FlowSizing

open MachineArithmetic MachineArithmetic.Computation
open FlowCreation

/-! ### Numbers of a document -/

/-- A number of a document, without its fraction. -/
def truncated (x : ℚ) : ℤ := x.num.tdiv x.den

def castToInt64 (x : ℚ) : Computation String Int64 :=
  operation (castInt64 x) (InInt64 (truncated x))

def castToSize (x : ℚ) : Computation String UInt64 :=
  operation (castSize x) (InUInt64 (truncated x))

def castToUInt32 (x : ℚ) : Computation String UInt32 :=
  operation (UInt32.ofInt (truncated x)) (InUInt32 (truncated x))

/-! ### The parser of the definition -/

def extractDenominator (object : JsonObject) : Computation String Int64 :=
  match object.lookup "denominator" with
  | none => pure 1
  | some value =>
      match value.getNumber with
      | none => throw "type mismatch! call is<type>() before get<type>()"
      | some x => castToInt64 x

def extractNumerator (object : JsonObject) : Computation String Int64 := do
  castToInt64 (← ofExcept (fetchAs JsonValue.getNumber object "numerator"))

def extractRational (object : JsonObject) : Computation String MxlRational := do
  let numerator ← extractNumerator object
  let denominator ← extractDenominator object
  let g ← gcdInt64 numerator denominator
  if g ≠ 0 then do
    let numerator ← divideInt64 numerator g
    let denominator ← divideInt64 denominator g
    pure ⟨numerator, denominator⟩
  else pure ⟨numerator, denominator⟩

/-- `a != b` of two rates. -/
def differs (a b : MxlRational) : Computation String Bool := do
  let left ← multiplyInt64 a.numerator b.denominator
  let right ← multiplyInt64 a.denominator b.numerator
  pure (left != right)

/-- Neither rate of interlaced video; the second is looked at if it is not the first. -/
def notInterlacedRate (rate : MxlRational) : Computation String Bool := do
  if ← differs rate ⟨30000, 1001⟩ then differs rate ⟨25, 1⟩ else pure false

def frameSide (root : JsonObject) (field : String) : Computation String UInt64 := do
  castToSize (← ofExcept (fetchAs JsonValue.getNumber root field))

def checkVideo (root : JsonObject) (grainRate : MxlRational) :
    Computation String (Bool × MxlRational) := do
  let width ← frameSide root "frame_width"
  let height ← frameSide root "frame_height"
  if width < 2 ∨ width > MAX_WIDTH ∨ height < 1 ∨ height > MAX_HEIGHT then
    throw ("Invalid video dimensions: " ++ toString width ++ "x" ++ toString height ++
      ". range is 2x1 to " ++ toString MAX_WIDTH ++ "x" ++ toString MAX_HEIGHT)
  else do
    let mode ← ofExcept (FlowParser.interlaceMode root)
    if mode = "progressive" then
      pure (false, grainRate)
    else if mode = "interlaced_tff" ∨ mode = "interlaced_bff" then do
      if ← notInterlacedRate grainRate then
        throw "Invalid grain_rate for interlaced video. Expected 30000/1001 or 25/1."
      else do
        let numerator ← multiplyInt64 grainRate.numerator 2
        pure (true, { grainRate with numerator := numerator })
    else
      throw ("Invalid interlace_mode: " ++ mode)

/-- The field that has the rate of a format. -/
def rateField (format : MxlDataFormat) : Except String String :=
  if mxlIsDiscreteDataFormat format then .ok "grain_rate"
  else if format = .audio then .ok "sample_rate"
  else .error "Unsupported flow format."

def fetchRate (root : JsonObject) (format : MxlDataFormat) : Computation String MxlRational := do
  let field ← ofExcept (rateField format)
  extractRational (← ofExcept (fetchAs JsonValue.getObject root field))

/-- The constructor of `FlowParser`, from the parsed document on. -/
def parse (isUuid : String → Bool) (root : JsonObject) : Computation String FlowParser := do
  let id ← ofExcept (fetchAs JsonValue.getString root "id")
  if isUuid id then do
    let format ← ofExcept (translateFlowFormat <$> fetchAs JsonValue.getString root "format")
    let grainRate ← fetchRate root format
    ofExcept (FlowParser.checkCommon root)
    if format = .video then do
      let (interlaced, grainRate) ← checkVideo root grainRate
      pure { format, interlaced, grainRate, root }
    else
      pure { format, interlaced := false, grainRate, root }
  else
    throw "Invalid flow 'id'."

def getChannelCount (root : JsonObject) : Computation String UInt64 :=
  match root.lookup "channel_count" with
  | none => pure 1
  | some (.number value) =>
      if value.den = 1 ∧ 0 < value then castToSize value
      else throw "Unsupported channel count: false"
  | some (.string _) => throw "Unsupported channel count: true"
  | some _ => throw "Unsupported channel count: false"

/-! ### The parser of the options -/

structure FlowOptionsParser where
  maxCommitBatchSizeHint : Option UInt32 := none
  maxSyncBatchSizeHint : Option UInt32 := none
deriving DecidableEq

def readHint (root : JsonObject) (field : String) : Computation String (Option UInt32) :=
  match root.lookup field with
  | none => pure none
  | some (.number v) =>
      if v < 1 then throw (field ++ " must be greater or equal to 1.")
      else some <$> castToUInt32 v
  | some _ => throw (field ++ " must be a number.")

/-- The constructor of `FlowOptionsParser`, from the parsed document on; there is none
    if the options are absent or empty. -/
def parseOptions : Option JsonValue → Computation String FlowOptionsParser
  | none => pure {}
  | some (.object root) => do
      let commit ← readHint root "maxCommitBatchSizeHint"
      let sync ← readHint root "maxSyncBatchSizeHint"
      match sync with
      | none => pure ⟨commit, none⟩
      | some s => do
          let remainder ← remainderUInt32 s (commit.getD 1)
          if remainder ≠ 0 then
            throw "maxSyncBatchSizeHint must be a multiple of maxCommitBatchSizeHint."
          else pure ⟨commit, some s⟩
  | some _ => throw "Expected a JSON object"

/-! ### The request -/

variable (historyDuration : UInt64) (flowDef : String) (parser : FlowParser)
  (options : FlowOptionsParser)

def createOrOpenDiscreteFlowData : Computation String DiscreteRequest := do
  let grainRate := parser.grainRate
  let total ← scale historyDuration grainRate.numerator
  let perGrain ← scale 1000000000 grainRate.denominator
  let grainCount ← divide total perGrain
  let batchSizeDefault ← ofExcept parser.getTotalPayloadSlices
  let payloadSize ← ofExcept parser.getPayloadSize
  let sliceLengths ← ofExcept parser.getPayloadSliceLengths
  pure {
    flowDef := flowDef
    flowFormat := parser.format
    grainCount := grainCount
    grainRate := grainRate
    grainPayloadSize := payloadSize
    grainNumOfSlices := batchSizeDefault
    grainSliceLengths := sliceLengths
    maxSyncBatchSizeHint := options.maxSyncBatchSizeHint.getD batchSizeDefault.toUInt32
    maxCommitBatchSizeHint := options.maxCommitBatchSizeHint.getD batchSizeDefault.toUInt32 }

/-- The buffer length, rounded up to whole pages. -/
def pageAligned (bufferLength sampleWordSize : UInt64) : Computation String UInt64 := do
  let lengthPerPage ← divide 4096 sampleWordSize
  let raised ← add bufferLength lengthPerPage
  let last ← subtract raised 1
  let pages ← divide last lengthPerPage
  multiply pages lengthPerPage

/-- Ten milliseconds worth of samples. -/
def defaultBatchSize (rate : MxlRational) : Computation String Int64 := do
  let perBatch ← multiplyInt64 100 rate.denominator
  divideInt64 rate.numerator perBatch

def createOrOpenContinuousFlowData : Computation String ContinuousRequest := do
  let sampleRate := parser.grainRate
  let total ← scale historyDuration sampleRate.numerator
  let perSample ← scale 500000000 sampleRate.denominator
  let bufferLength ← divide total perSample
  let sampleWordSize ← ofExcept parser.getPayloadSize
  let pageAlignedLength ← pageAligned bufferLength sampleWordSize
  let batchSizeDefault ← defaultBatchSize sampleRate
  let channelCount ← getChannelCount parser.root
  pure {
    flowDef := flowDef
    flowFormat := parser.format
    sampleRate := sampleRate
    channelCount := channelCount
    sampleWordSize := sampleWordSize
    bufferLength := pageAlignedLength
    maxSyncBatchSizeHint :=
      options.maxSyncBatchSizeHint.getD batchSizeDefault.toUInt64.toUInt32
    maxCommitBatchSizeHint :=
      options.maxCommitBatchSizeHint.getD batchSizeDefault.toUInt64.toUInt32 }

def createOrOpenFlowData : Computation String Request :=
  if mxlIsDiscreteDataFormat parser.format then do
    pure (.discrete (← createOrOpenDiscreteFlowData historyDuration flowDef parser options))
  else if mxlIsContinuousDataFormat parser.format then do
    pure (.continuous (← createOrOpenContinuousFlowData historyDuration flowDef parser options))
  else throw "Invalid flow format."

/-! ### The flow -/

/-- The size of the channel buffers, as `openChannelBuffers` works it out. -/
def channelBuffersSize (r : ContinuousRequest) : Computation String UInt64 := do
  let buffersLength ← multiplyUInt32 r.channelCount.toUInt32 r.bufferLength.toUInt32
  multiply buffersLength.toUInt64 r.sampleWordSize

/-- The statements that build a directory, all executed at one time. -/
def execute (now : UInt64) (steps : List BuildStep) : Option Directory :=
  steps.foldlM (fun d f => f now d) {}

/-- Only the channel buffers may turn out to be impossible. -/
def finished : Option Directory → Computation String Directory
  | none => throw "Attempt to open channel buffer with invalid geometry."
  | some d => pure d

/-- `createOrOpenDiscreteFlow` and `createOrOpenContinuousFlow` for a flow that is not
    there. -/
def createFlow (inode : Nat) (now : UInt64) : Request → Computation String Directory
  | .discrete r => finished (execute now (discreteSteps r inode))
  | .continuous r => do
      let _ ← channelBuffersSize r
      finished (execute now (continuousSteps r inode))

/-- What `createFlowWriter` does with what the two parsers have read. -/
def createOrOpenFlow (inode : Nat) (now : UInt64) : Computation String Directory := do
  let request ← createOrOpenFlowData historyDuration flowDef parser options
  createFlow inode now request

/-- `createFlowWriter`, until there is a flow to write to. -/
def createFlowWriter (isUuid : String → Bool) (root : JsonObject) (options : Option JsonValue)
    (inode : Nat) (now : UInt64) : Computation String Directory := do
  let parser ← parse isUuid root
  let optionsParser ← parseOptions options
  createOrOpenFlow historyDuration flowDef parser optionsParser inode now

/-! ### The plain parser, again -/

section Parser

variable {object root : JsonObject} {isUuid : String → Bool} {rate : MxlRational}

theorem computes_extractNumerator : (extractNumerator object).Computes
    (castInt64 <$> fetchAs JsonValue.getNumber object "numerator") :=
  Computes.map fun _ => rfl

theorem computes_extractDenominator :
    (extractDenominator object).Computes (MediaExchange.extractDenominator object) := by
  unfold extractDenominator MediaExchange.extractDenominator
  cases object.lookup "denominator" with
  | none => exact computes_pure 1
  | some value =>
    dsimp only
    cases value.getNumber with
    | none => exact computes_throw _ _
    | some x => exact computes_of_result rfl

theorem computes_extractRational :
    (extractRational object).Computes (MediaExchange.extractRational object) := by
  apply computes_extractNumerator.bind
  intro numerator
  apply computes_extractDenominator.bind
  intro denominator
  refine Computes.after result_gcdInt64 ?_
  dsimp only
  split
  · next hg =>
    have hdivide : ∀ a, (divideInt64 a (Int64.ofInt (numerator.toInt.gcd denominator.toInt)) :
        Computation String Int64).result = _ :=
      fun a => result_divideInt64_eq_ok.mpr ⟨hg, rfl⟩
    exact Computes.after (hdivide numerator) (Computes.after (hdivide denominator)
      (computes_pure _))
  · exact computes_pure _

theorem computes_frameSide (field : String) : (frameSide root field).Computes
    (castSize <$> fetchAs JsonValue.getNumber root field) :=
  Computes.map fun _ => rfl

theorem result_notInterlacedRate :
    (notInterlacedRate rate).result =
      .ok (rate.differs ⟨30000, 1001⟩ && rate.differs ⟨25, 1⟩) := by
  have hdiffers : ∀ other, (differs rate other).result = .ok (rate.differs other) :=
    fun _ => rfl
  unfold notInterlacedRate
  cases hfirst : rate.differs ⟨30000, 1001⟩ with
  | false => exact result_bind_eq_ok.mpr ⟨false, by rw [hdiffers, hfirst], rfl⟩
  | true => exact result_bind_eq_ok.mpr ⟨true, by rw [hdiffers, hfirst], rfl⟩

theorem computes_checkVideo :
    (checkVideo root rate).Computes (FlowParser.checkVideo root rate) := by
  apply (computes_frameSide "frame_width").bind
  intro width
  apply (computes_frameSide "frame_height").bind
  intro height
  refine (computes_throw _ _).ite ((computes_ofExcept _).bind fun mode => ?_)
  refine (computes_pure _).ite (Computes.ite ?_ (computes_throw _ _))
  refine Computes.after result_notInterlacedRate ?_
  simp only [Bool.and_eq_true]
  exact (computes_throw _ _).ite (Computes.after result_multiplyInt64 (computes_pure _))

theorem computes_fetchRate (format : MxlDataFormat) :
    (fetchRate root format).Computes (FlowParser.fetchRate root format) := by
  unfold fetchRate FlowParser.fetchRate rateField
  split
  · exact Computes.after rfl ((computes_ofExcept _).bind fun _ => computes_extractRational)
  · split
    · exact Computes.after rfl ((computes_ofExcept _).bind fun _ => computes_extractRational)
    · intro _
      exact iff_of_false nofun nofun

/-- The arithmetic apart, the parser is `FlowParser.parse`. -/
theorem parse_eq_ok {parser : FlowParser} :
    (parse isUuid root).result = .ok parser ↔ FlowParser.parse isUuid root = .ok parser := by
  have hparse : (parse isUuid root).Computes (FlowParser.parse isUuid root) := by
    refine (computes_ofExcept _).bind fun id => Computes.ite ?_ (computes_throw _ _)
    apply (computes_ofExcept _).bind
    intro format
    apply (computes_fetchRate format).bind
    intro rate
    refine (computes_ofExcept _).bind fun _ => Computes.ite ?_ (computes_pure _)
    exact computes_checkVideo.bind fun _ => computes_pure _
  exact hparse parser

theorem not_continuous_of_discrete {format : MxlDataFormat}
    (h : mxlIsDiscreteDataFormat format = true) : ¬ mxlIsContinuousDataFormat format = true := by
  cases format with
  | unspecified => cases h
  | video => decide
  | audio => cases h
  | data => decide

/-- The format of a definition that is let through. -/
theorem format_of_parse {parser : FlowParser}
    (hparse : FlowParser.parse isUuid root = .ok parser) :
    mxlIsDiscreteDataFormat parser.format = true ∨ parser.format = .audio := by
  obtain ⟨id, -, h⟩ := bind_eq_ok.mp hparse
  split at h
  · obtain ⟨format, -, h⟩ := bind_eq_ok.mp h
    obtain ⟨rate, hrate, h⟩ := bind_eq_ok.mp h
    obtain ⟨-, -, h⟩ := bind_eq_ok.mp h
    have hformat : parser.format = format := by
      split at h
      · obtain ⟨checked, -, h⟩ := bind_eq_ok.mp h
        cases h
        rfl
      · cases h
        rfl
    rw [hformat]
    unfold FlowParser.fetchRate at hrate
    split at hrate
    · next hdiscrete => exact Or.inl hdiscrete
    · split at hrate
      · next haudio => exact Or.inr haudio
      · cases hrate
  · cases h

end Parser

/-! ### The request, and the flow it makes -/

section Request

variable {historyDuration : UInt64} {flowDef : String} {parser : FlowParser}
  {options : FlowOptionsParser}

/-- The length of a ring that is as long as the history: `unit` is the time, in
    nanoseconds, that a rate of one fills. -/
def ringLength (unit historyDuration : UInt64) (rate : MxlRational) : UInt64 :=
  historyDuration * rate.numerator.toUInt64 / (unit * rate.denominator.toUInt64)

def alignedLength (bufferLength sampleWordSize : UInt64) : UInt64 :=
  (bufferLength + 4096 / sampleWordSize - 1) / (4096 / sampleWordSize) * (4096 / sampleWordSize)

/-- The default of the batch size hints of a continuous flow. -/
def defaultHint (rate : MxlRational) : UInt32 :=
  (rate.numerator / (100 * rate.denominator)).toUInt64.toUInt32

/-- The request of a discrete flow, from the three values the parser is asked for. -/
def discreteRequest (historyDuration : UInt64) (flowDef : String) (parser : FlowParser)
    (options : FlowOptionsParser) (totalSlices payloadSize : UInt64)
    (sliceLengths : Vector UInt32 4) : DiscreteRequest where
  flowDef := flowDef
  flowFormat := parser.format
  grainCount := ringLength 1000000000 historyDuration parser.grainRate
  grainRate := parser.grainRate
  grainPayloadSize := payloadSize
  grainNumOfSlices := totalSlices
  grainSliceLengths := sliceLengths
  maxSyncBatchSizeHint := options.maxSyncBatchSizeHint.getD totalSlices.toUInt32
  maxCommitBatchSizeHint := options.maxCommitBatchSizeHint.getD totalSlices.toUInt32

def continuousRequest (historyDuration : UInt64) (flowDef : String) (parser : FlowParser)
    (options : FlowOptionsParser) (sampleWordSize channelCount : UInt64) : ContinuousRequest where
  flowDef := flowDef
  flowFormat := parser.format
  sampleRate := parser.grainRate
  channelCount := channelCount
  sampleWordSize := sampleWordSize
  bufferLength := alignedLength (ringLength 500000000 historyDuration parser.grainRate)
    sampleWordSize
  maxSyncBatchSizeHint := options.maxSyncBatchSizeHint.getD (defaultHint parser.grainRate)
  maxCommitBatchSizeHint := options.maxCommitBatchSizeHint.getD (defaultHint parser.grainRate)

theorem discreteFlowData_eq_ok {r : DiscreteRequest} :
    (createOrOpenDiscreteFlowData historyDuration flowDef parser options).result = .ok r ↔
      1000000000 * parser.grainRate.denominator.toUInt64 ≠ 0 ∧
        ∃ totalSlices payloadSize sliceLengths, parser.getTotalPayloadSlices = .ok totalSlices ∧
          parser.getPayloadSize = .ok payloadSize ∧
          parser.getPayloadSliceLengths = .ok sliceLengths ∧
          r = discreteRequest historyDuration flowDef parser options totalSlices payloadSize
            sliceLengths := by
  unfold createOrOpenDiscreteFlowData
  simp only [result_bind_eq_ok, result_scale, result_ofExcept_eq_ok, result_divide_eq_ok,
    result_pure, Except.ok.injEq, exists_eq_left']
  constructor
  · rintro ⟨_, ⟨hunit, rfl⟩, totalSlices, htotal, payloadSize, hsize, sliceLengths, hlengths, rfl⟩
    exact ⟨hunit, totalSlices, payloadSize, sliceLengths, htotal, hsize, hlengths, rfl⟩
  · rintro ⟨hunit, totalSlices, payloadSize, sliceLengths, htotal, hsize, hlengths, rfl⟩
    exact ⟨_, ⟨hunit, rfl⟩, totalSlices, htotal, payloadSize, hsize, sliceLengths, hlengths, rfl⟩

/-- A sample has four or eight bytes. -/
theorem getPayloadSize_audio (hformat : parser.format = .audio) {n : UInt64}
    (h : parser.getPayloadSize = .ok n) : n = 4 ∨ n = 8 := by
  rw [FlowParser.getPayloadSize, hformat] at h
  obtain ⟨bitDepth, -, h⟩ := bind_eq_ok.mp h
  split at h
  · cases h
  · next hdepth =>
    have hcases : bitDepth = 32 ∨ bitDepth = 64 := by
      by_contra hne
      exact hdepth (not_or.mp hne)
    cases h
    rcases hcases with rfl | rfl
    · exact Or.inl (by decide)
    · exact Or.inr (by decide)

theorem pageAligned_eq_ok {len word n : UInt64} (hword : word = 4 ∨ word = 8) :
    (pageAligned len word).result = .ok n ↔ n = alignedLength len word := by
  have hpage : word ≠ 0 ∧ 4096 / word ≠ 0 := by
    rcases hword with rfl | rfl <;> decide
  unfold pageAligned
  simp only [result_bind_eq_ok, result_divide_eq_ok, result_add, result_subtract, result_multiply,
    Except.ok.injEq, exists_eq_left', and_assoc, exists_and_left, exists_eq_left, ne_eq, hpage,
    not_false_eq_true, true_and]
  exact eq_comm

/-- The divisor of a continuous flow, modulo the word, is a multiple of 256. -/
theorem ringLength_lt {rate : MxlRational} (hunit : 500000000 * rate.denominator.toUInt64 ≠ 0) :
    (ringLength 500000000 historyDuration rate).toNat < 2 ^ 62 := by
  have hper : 256 ≤ (500000000 * rate.denominator.toUInt64).toNat := by
    have hpos := Nat.pos_of_ne_zero fun hzero => hunit (UInt64.toNat_inj.mp hzero)
    have h500000000 : (500000000 : UInt64).toNat = 500000000 := rfl
    rw [UInt64.toNat_mul, h500000000] at hpos ⊢
    omega
  have htotal := (historyDuration * rate.numerator.toUInt64).toNat_lt
  rw [ringLength, UInt64.toNat_div]
  calc _ ≤ (historyDuration * rate.numerator.toUInt64).toNat / 256 :=
        Nat.div_le_div_left hper (by decide)
    _ < 2 ^ 62 := by omega

theorem toNat_alignedLength {len word : UInt64} (hword : word = 4 ∨ word = 8)
    (hlen : len.toNat < 2 ^ 62) : (alignedLength len word).toNat =
      (len.toNat + 4096 / word.toNat - 1) / (4096 / word.toNat) * (4096 / word.toNat) := by
  have hpage : ∀ page : UInt64, page = 1024 ∨ page = 512 →
      ((len + page - 1) / page * page).toNat =
        (len.toNat + page.toNat - 1) / page.toNat * page.toNat := by
    intro page hcases
    have h1 : (1 : UInt64).toNat = 1 := rfl
    have hvalue : page.toNat = 1024 ∨ page.toNat = 512 :=
      hcases.imp (congrArg UInt64.toNat) (congrArg UInt64.toNat)
    rw [UInt64.toNat_mul, UInt64.toNat_div, UInt64.toNat_sub, UInt64.toNat_add, h1]
    have hlast : (2 ^ 64 - 1 + (len.toNat + page.toNat) % 2 ^ 64) % 2 ^ 64 =
        len.toNat + page.toNat - 1 := by omega
    rw [hlast]
    rcases hvalue with hvalue | hvalue <;> rw [hvalue] <;> omega
  rcases hword with rfl | rfl
  · exact hpage 1024 (Or.inl rfl)
  · exact hpage 512 (Or.inr rfl)

/-- The samples of a continuous flow: those of twice the history, worked out in 64 bits, and
    rounded up to pages. -/
def pageAlignedSamples (historyDuration : UInt64) (rate : MxlRational) (sampleWordSize : ℕ) : ℕ :=
  let samples := (historyDuration.toNat * rate.numerator.toInt % 2 ^ 64).toNat /
    (500000000 * rate.denominator.toInt % 2 ^ 64).toNat
  let perPage := 4096 / sampleWordSize
  (samples + perPage - 1) / perPage * perPage

theorem toNat_bufferLength_eq {rate : MxlRational} {word : UInt64} (hword : word = 4 ∨ word = 8)
    (hunit : 500000000 * rate.denominator.toUInt64 ≠ 0) :
    (alignedLength (ringLength 500000000 historyDuration rate) word).toNat =
      pageAlignedSamples historyDuration rate word.toNat := by
  have hproduct : ∀ (a : UInt64) (i : Int64),
      (a * i.toUInt64).toNat = (a.toNat * i.toInt % 2 ^ 64).toNat := by
    intro a i
    rw [← toNat_mul_toUInt64, Int.toNat_natCast]
  have h500000000 : (500000000 : UInt64).toNat = 500000000 := rfl
  have hlength : (ringLength 500000000 historyDuration rate).toNat =
      (historyDuration.toNat * rate.numerator.toInt % 2 ^ 64).toNat /
        (500000000 * rate.denominator.toInt % 2 ^ 64).toNat := by
    rw [ringLength, UInt64.toNat_div, hproduct, hproduct, h500000000]
    rfl
  rw [toNat_alignedLength hword (ringLength_lt hunit), hlength]
  rfl

theorem defaultBatchSize_eq_ok {rate : MxlRational} {n : Int64}
    (hunit : 500000000 * rate.denominator.toUInt64 ≠ 0) :
    (defaultBatchSize rate).result = .ok n ↔ n = rate.numerator / (100 * rate.denominator) := by
  have hne : 100 * rate.denominator ≠ 0 := by
    intro hzero
    apply hunit
    have hproduct : 100 * rate.denominator.toUInt64 = 0 := by
      have h := congrArg Int64.toUInt64 hzero
      rwa [Int64.toUInt64_mul] at h
    calc 500000000 * rate.denominator.toUInt64
        = 5000000 * (100 * rate.denominator.toUInt64) := by rw [← UInt64.mul_assoc]; rfl
      _ = 5000000 * 0 := by rw [hproduct]
      _ = 0 := UInt64.mul_zero
  unfold defaultBatchSize
  simp only [result_bind_eq_ok, result_multiplyInt64, result_divideInt64_eq_ok, Except.ok.injEq,
    exists_eq_left', ne_eq, hne, not_false_eq_true, true_and]

theorem continuousFlowData_eq_ok (hformat : parser.format = .audio) {r : ContinuousRequest} :
    (createOrOpenContinuousFlowData historyDuration flowDef parser options).result = .ok r ↔
      500000000 * parser.grainRate.denominator.toUInt64 ≠ 0 ∧
        ∃ sampleWordSize channelCount, parser.getPayloadSize = .ok sampleWordSize ∧
          (getChannelCount parser.root).result = .ok channelCount ∧
          r = continuousRequest historyDuration flowDef parser options sampleWordSize
            channelCount := by
  unfold createOrOpenContinuousFlowData
  simp only [result_bind_eq_ok, result_scale, result_ofExcept_eq_ok, result_divide_eq_ok,
    result_pure, Except.ok.injEq, exists_eq_left']
  constructor
  · rintro ⟨_, ⟨hunit, rfl⟩, word, hword, length, hlength, default, hdefault, count, hcount, rfl⟩
    rw [pageAligned_eq_ok (getPayloadSize_audio hformat hword)] at hlength
    rw [defaultBatchSize_eq_ok hunit] at hdefault
    subst hlength hdefault
    exact ⟨hunit, word, count, hword, hcount, rfl⟩
  · rintro ⟨hunit, word, count, hword, hcount, rfl⟩
    exact ⟨_, ⟨hunit, rfl⟩, word, hword, _,
      (pageAligned_eq_ok (getPayloadSize_audio hformat hword)).mpr rfl, _,
      (defaultBatchSize_eq_ok hunit).mpr rfl, count, hcount, rfl⟩

end Request

section Flow

variable {inode : Nat} {now : UInt64}

/-- No statement of the creation of a discrete flow fails. -/
theorem exists_execute_discrete (r : DiscreteRequest) :
    ∃ d, execute now (discreteSteps r inode) = some d := by
  refine @StraightLine.exists_foldlM Directory UInt64 (discreteSteps r inode) ?_ now {}
  have hgrains : ∀ f ∈ (List.range r.grainCount.toNat).flatMap (grainSteps r), ∀ x d,
      ∃ d', f x d = some d' := by
    intro f hf x d
    obtain ⟨i, -, hf⟩ := List.mem_flatMap.mp hf
    simp only [grainSteps, List.mem_cons, List.not_mem_nil, or_false] at hf
    rcases hf with rfl | rfl | rfl | rfl | rfl | rfl <;> exact ⟨_, rfl⟩
  intro f hf x d
  rcases List.mem_append.mp hf with hf | hf
  · simp only [List.mem_cons, List.not_mem_nil, or_false] at hf
    rcases hf with rfl | rfl | rfl | rfl | rfl | rfl | rfl | rfl | rfl | rfl | rfl | rfl <;>
      exact ⟨_, rfl⟩
  · exact hgrains f hf x d

theorem createFlow_discrete (r : DiscreteRequest) :
    ∃ d, (createFlow inode now (.discrete r)).result = .ok d := by
  obtain ⟨d, hd⟩ := @exists_execute_discrete inode now r
  refine ⟨d, ?_⟩
  simp only [createFlow, hd, finished, result_pure]

theorem finished_eq_ok {x : Option Directory} {d : Directory} :
    (finished x).result = .ok d ↔ x = some d := by
  cases x with
  | none => exact iff_of_false nofun nofun
  | some d' => simp [finished]

/-- A directory that is there at the end is what the request asks for. -/
theorem built_of_createFlow {request : Request} {d : Directory}
    (h : (createFlow inode now request).result = .ok d) : request.Built inode d := by
  have hexecute : execute now (request.steps inode) = some d := by
    cases request with
    | discrete r => exact finished_eq_ok.mp h
    | continuous r =>
      obtain ⟨_, -, h⟩ := result_bind_eq_ok.mp h
      exact finished_eq_ok.mp h
  exact (finishes_steps request inode).of_foldlM hexecute

/-- Channel buffers of no length are refused. -/
theorem execute_continuous_iff {r : ContinuousRequest} :
    (execute now (continuousSteps r inode)).isSome ↔
      r.sampleWordSize ≠ 0 ∧ 0 < (Request.continuous r).config.buffersLength := by
  simp only [execute, continuousSteps, onDirectory, onFlow, createChannelBuffers,
    List.foldlM_cons, List.foldlM_nil, Option.bind_eq_bind, Option.bind_some, Option.map_some]
  split
  · next h => exact iff_of_true rfl h
  · next h => exact iff_of_false Bool.false_ne_true h

theorem exists_createFlow_continuous_iff {r : ContinuousRequest} (hword : r.sampleWordSize ≠ 0) :
    (∃ d, (createFlow inode now (.continuous r)).result = .ok d) ↔
      0 < (Request.continuous r).config.buffersLength := by
  constructor
  · rintro ⟨d, hd⟩
    exact (built_of_createFlow hd).allocated.2.1
  · intro hlength
    obtain ⟨d, hd⟩ := Option.isSome_iff_exists.mp
      ((@execute_continuous_iff inode now r).mpr ⟨hword, hlength⟩)
    exact ⟨d, result_bind_eq_ok.mpr ⟨_, rfl, finished_eq_ok.mpr hd⟩⟩

variable {historyDuration : UInt64} {flowDef : String} {parser : FlowParser}
  {options : FlowOptionsParser} {d : Directory}

theorem createOrOpenFlow_discrete_eq_ok (hformat : mxlIsDiscreteDataFormat parser.format = true) :
    (createOrOpenFlow historyDuration flowDef parser options inode now).result = .ok d ↔
      1000000000 * parser.grainRate.denominator.toUInt64 ≠ 0 ∧
        ∃ totalSlices payloadSize sliceLengths, parser.getTotalPayloadSlices = .ok totalSlices ∧
          parser.getPayloadSize = .ok payloadSize ∧
          parser.getPayloadSliceLengths = .ok sliceLengths ∧
          (createFlow inode now (.discrete (discreteRequest historyDuration flowDef parser options
            totalSlices payloadSize sliceLengths))).result = .ok d := by
  unfold createOrOpenFlow createOrOpenFlowData
  rw [if_pos hformat]
  simp only [result_bind_eq_ok, result_pure, Except.ok.injEq, discreteFlowData_eq_ok]
  constructor
  · rintro ⟨_, ⟨_, ⟨hunit, totalSlices, payloadSize, sliceLengths, htotal, hsize, hlengths, rfl⟩,
      rfl⟩, hd⟩
    exact ⟨hunit, totalSlices, payloadSize, sliceLengths, htotal, hsize, hlengths, hd⟩
  · rintro ⟨hunit, totalSlices, payloadSize, sliceLengths, htotal, hsize, hlengths, hd⟩
    exact ⟨_, ⟨_, ⟨hunit, totalSlices, payloadSize, sliceLengths, htotal, hsize, hlengths, rfl⟩,
      rfl⟩, hd⟩

theorem createOrOpenFlow_continuous_eq_ok (hformat : parser.format = .audio) :
    (createOrOpenFlow historyDuration flowDef parser options inode now).result = .ok d ↔
      500000000 * parser.grainRate.denominator.toUInt64 ≠ 0 ∧
        ∃ sampleWordSize channelCount, parser.getPayloadSize = .ok sampleWordSize ∧
          (getChannelCount parser.root).result = .ok channelCount ∧
          (createFlow inode now (.continuous (continuousRequest historyDuration flowDef parser
            options sampleWordSize channelCount))).result = .ok d := by
  unfold createOrOpenFlow createOrOpenFlowData
  rw [if_neg (by rw [hformat]; decide), if_pos (by rw [hformat]; rfl)]
  simp only [result_bind_eq_ok, result_pure, Except.ok.injEq, continuousFlowData_eq_ok hformat]
  constructor
  · rintro ⟨_, ⟨_, ⟨hunit, word, count, hword, hcount, rfl⟩, rfl⟩, hd⟩
    exact ⟨hunit, word, count, hword, hcount, hd⟩
  · rintro ⟨hunit, word, count, hword, hcount, hd⟩
    exact ⟨_, ⟨_, ⟨hunit, word, count, hword, hcount, rfl⟩, rfl⟩, hd⟩

theorem createFlowWriter_eq_ok {isUuid : String → Bool} {root : JsonObject}
    {document : Option JsonValue} :
    (createFlowWriter historyDuration flowDef isUuid root document inode now).result = .ok d ↔
      ∃ parser options, FlowParser.parse isUuid root = .ok parser ∧
        (parseOptions document).result = .ok options ∧
        (createOrOpenFlow historyDuration flowDef parser options inode now).result = .ok d := by
  unfold createFlowWriter
  simp only [result_bind_eq_ok, parse_eq_ok, exists_and_left]

end Flow

/-! ### Documents -/

/-- The document of a flow of ancillary data, of a rate that is yet to be filled in. -/
def dataDocument (rate : JsonObject) : JsonObject :=
  [("id", .string "5fbec3b1-1b0f-417d-9059-8b94a47197ed"),
    ("format", .string "urn:x-nmos:format:data"), ("label", .string "data"),
    ("media_type", .string "video/smpte291"),
    ("tags", .object [("urn:x-nmos:tag:grouphint/v1.0", .array [.string "group:role"])]),
    ("grain_rate", .object rate)]

def dataParser (rate : JsonObject) (grainRate : MxlRational) : FlowParser :=
  ⟨.data, false, grainRate, dataDocument rate⟩

theorem dataParser_discrete (rate : JsonObject) (grainRate : MxlRational) :
    mxlIsDiscreteDataFormat (dataParser rate grainRate).format = true := rfl

theorem parse_dataDocument {rate : JsonObject} {grainRate : MxlRational}
    (hrate : MediaExchange.extractRational rate = .ok grainRate) :
    FlowParser.parse (fun _ => true) (dataDocument rate) = .ok (dataParser rate grainRate) := by
  have hfetch : FlowParser.fetchRate (dataDocument rate) .data = .ok grainRate :=
    bind_eq_ok.mpr ⟨rate, rfl, hrate⟩
  have hcommon : FlowParser.checkCommon (dataDocument rate) = .ok () := rfl
  refine bind_eq_ok.mpr ⟨_, rfl, ?_⟩
  refine bind_eq_ok.mpr ⟨.data, rfl, ?_⟩
  refine bind_eq_ok.mpr ⟨grainRate, hfetch, ?_⟩
  exact bind_eq_ok.mpr ⟨(), hcommon, rfl⟩

/-- The document of a flow of 32-bit samples, of a rate and a number of channels that are
    yet to be filled in. -/
def audioDocument (rate : JsonObject) (channelCount : ℚ) : JsonObject :=
  [("id", .string "b3bb5be7-9fe9-4324-a5bb-4c70e1084449"),
    ("format", .string "urn:x-nmos:format:audio"), ("label", .string "audio"),
    ("channel_count", .number channelCount), ("bit_depth", .number 32),
    ("tags", .object [("urn:x-nmos:tag:grouphint/v1.0", .array [.string "group:role"])]),
    ("sample_rate", .object rate)]

def audioParser (rate : JsonObject) (channelCount : ℚ) (sampleRate : MxlRational) : FlowParser :=
  ⟨.audio, false, sampleRate, audioDocument rate channelCount⟩

theorem parse_audioDocument {rate : JsonObject} {channelCount : ℚ} {sampleRate : MxlRational}
    (hrate : MediaExchange.extractRational rate = .ok sampleRate) :
    FlowParser.parse (fun _ => true) (audioDocument rate channelCount) =
      .ok (audioParser rate channelCount sampleRate) := by
  have hfetch : FlowParser.fetchRate (audioDocument rate channelCount) .audio = .ok sampleRate :=
    bind_eq_ok.mpr ⟨rate, rfl, hrate⟩
  have hcommon : FlowParser.checkCommon (audioDocument rate channelCount) = .ok () := rfl
  refine bind_eq_ok.mpr ⟨_, rfl, ?_⟩
  refine bind_eq_ok.mpr ⟨.audio, rfl, ?_⟩
  refine bind_eq_ok.mpr ⟨sampleRate, hfetch, ?_⟩
  exact bind_eq_ok.mpr ⟨(), hcommon, rfl⟩

end MediaExchange.FlowSizing
