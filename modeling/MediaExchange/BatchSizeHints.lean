/-
  MediaExchange/BatchSizeHints.lean
  =================================
  **The batch size hints of a new flow.**

  A hint that the options do not give has a default: the slices of a grain, or ten
  milliseconds worth of samples.  The options are checked when they are parsed, before
  there is a default, and the defaults are not checked at all.
-/
import MediaExchange.FlowSizing

namespace MediaExchange.FlowSizing

open MachineArithmetic MachineArithmetic.Computation
open FlowCreation

/-- What is documented of the two fields of the configuration. -/
structure ConsistentHints (format : MxlDataFormat) (config : FlowConfigInfo) : Prop where
  commit_pos : 1 ≤ config.common.maxCommitBatchSizeHint.toNat
  sync_pos : 1 ≤ config.common.maxSyncBatchSizeHint.toNat
  multiple : config.common.maxCommitBatchSizeHint.toNat ∣ config.common.maxSyncBatchSizeHint.toNat
  half : mxlIsContinuousDataFormat format = true →
    2 * config.common.maxCommitBatchSizeHint.toNat < config.continuous.bufferLength.toNat

/-- A call throws, or it creates a flow with consistent hints. -/
def HintsOrError (format : MxlDataFormat) (call : Computation String Directory) : Prop :=
  match call.result with
  | .error .divisionByZero => False
  | .error (.thrown _) => True
  | .ok d => ConsistentHints format (d.flow.getD {}).info.config

section Outcomes

variable {historyDuration : UInt64} {flowDef : String} {parser : FlowParser}
  {options : FlowOptionsParser} {inode : Nat} {now : UInt64} {format : MxlDataFormat}

theorem hintsOrError_iff {call : Computation String Directory} :
    HintsOrError format call ↔ call.result ≠ .error .divisionByZero ∧
      ∀ d, call.result = .ok d → ConsistentHints format (d.flow.getD {}).info.config := by
  unfold HintsOrError
  cases call.result with
  | error stop =>
    cases stop with
    | divisionByZero => exact iff_of_false id fun h => h.1 rfl
    | thrown error =>
      refine iff_of_true trivial ⟨fun h => ?_, fun d hd => ?_⟩
      · cases h
      · cases hd
  | ok d => simp

theorem result_finished_ne_divisionByZero (x : Option Directory) :
    (finished x).result ≠ .error .divisionByZero := by
  cases x with
  | none => exact nofun
  | some d => exact nofun

theorem createFlow_ne_divisionByZero (request : Request) :
    (createFlow inode now request).result ≠ .error .divisionByZero := by
  cases request with
  | discrete r => exact result_finished_ne_divisionByZero _
  | continuous r =>
    refine result_bind_ne_divisionByZero.mpr ⟨nofun, fun _ _ => ?_⟩
    exact result_finished_ne_divisionByZero _

theorem getChannelCount_ne_divisionByZero (root : JsonObject) :
    (getChannelCount root).result ≠ .error .divisionByZero := by
  unfold getChannelCount
  split
  · exact nofun
  · split
    · exact nofun
    · exact nofun
  · exact nofun
  · exact nofun

theorem discrete_ne_divisionByZero (hformat : mxlIsDiscreteDataFormat parser.format = true) :
    (createOrOpenFlow historyDuration flowDef parser options inode now).result ≠
        .error .divisionByZero ↔
      1000000000 * parser.grainRate.denominator.toUInt64 ≠ 0 := by
  unfold createOrOpenFlow createOrOpenFlowData createOrOpenDiscreteFlowData
  rw [if_pos hformat]
  simp only [result_bind_ne_divisionByZero, result_divide_ne_divisionByZero,
    result_ofExcept_ne_divisionByZero, createFlow_ne_divisionByZero, result_scale, result_pure,
    Except.ok.injEq, forall_eq', ne_eq, reduceCtorEq, not_false_eq_true, implies_true, and_true,
    true_and]

theorem continuous_ne_divisionByZero (hformat : parser.format = .audio) :
    (createOrOpenFlow historyDuration flowDef parser options inode now).result ≠
        .error .divisionByZero ↔
      500000000 * parser.grainRate.denominator.toUInt64 ≠ 0 := by
  unfold createOrOpenFlow createOrOpenFlowData createOrOpenContinuousFlowData
  rw [if_neg (by rw [hformat]; decide), if_pos (by rw [hformat]; rfl)]
  simp only [result_bind_ne_divisionByZero, result_divide_ne_divisionByZero,
    result_ofExcept_ne_divisionByZero, createFlow_ne_divisionByZero, result_scale, result_pure,
    getChannelCount_ne_divisionByZero, result_ofExcept_eq_ok,
    Except.ok.injEq, forall_eq', ne_eq, reduceCtorEq, not_false_eq_true, implies_true, and_true,
    true_and]
  refine ⟨And.left, fun hunit => ⟨hunit, fun length _ word hword => ?_⟩⟩
  rw [(pageAligned_eq_ok (getPayloadSize_audio hformat hword)).mpr rfl,
    (defaultBatchSize_eq_ok hunit).mpr rfl]
  exact ⟨nofun, fun _ _ => nofun⟩

end Outcomes

/-! ### The options and the defaults -/

/-- Two hints that the options give have been checked against each other. -/
theorem parseOptions_spec {document : Option JsonValue} {options : FlowOptionsParser} {c s : UInt32}
    (h : (parseOptions document).result = .ok options)
    (hcommit : options.maxCommitBatchSizeHint = some c)
    (hsync : options.maxSyncBatchSizeHint = some s) : c ≠ 0 ∧ c.toNat ∣ s.toNat := by
  unfold parseOptions at h
  split at h
  · cases h
    cases hcommit
  · obtain ⟨commit, -, h⟩ := result_bind_eq_ok.mp h
    obtain ⟨sync, -, h⟩ := result_bind_eq_ok.mp h
    cases sync with
    | none =>
      cases h
      cases hsync
    | some s' =>
      obtain ⟨remainder, hremainder, h⟩ := result_bind_eq_ok.mp h
      obtain ⟨hne, rfl⟩ := result_remainderUInt32_eq_ok.mp hremainder
      split at h
      · cases h
      · next hzero =>
        cases h
        cases hsync
        obtain rfl : commit = some c := hcommit
        refine ⟨hne, Nat.dvd_of_mod_eq_zero ?_⟩
        have hmod := congrArg UInt32.toNat (not_not.mp hzero)
        rwa [UInt32.toNat_mod] at hmod
  · cases h

/-- A grain has between 1 and 4320 slices. -/
theorem toNat_totalSlices {isUuid : String → Bool} {root : JsonObject} {parser : FlowParser}
    {totalSlices payloadSize : UInt64} (hparse : FlowParser.parse isUuid root = .ok parser)
    (htotal : parser.getTotalPayloadSlices = .ok totalSlices)
    (hsize : parser.getPayloadSize = .ok payloadSize) :
    0 < totalSlices.toNat ∧ totalSlices.toNat ≤ 4320 := by
  obtain ⟨rfl, hvideo⟩ := FlowParser.parse_spec hparse
  cases hkind : parser.format with
  | unspecified =>
    rw [FlowParser.getTotalPayloadSlices, hkind] at htotal
    cases htotal
  | audio =>
    rw [FlowParser.getTotalPayloadSlices, hkind] at htotal
    cases htotal
  | data =>
    rw [FlowParser.getTotalPayloadSlices, hkind] at htotal
    cases htotal
    decide
  | video =>
    obtain ⟨width, height, hwidth, hheight, -, -, hmin, hmax⟩ := hvideo hkind
    obtain ⟨mediaType, hmedia⟩ : ∃ mediaType,
        fetchAs JsonValue.getString parser.root "media_type" = .ok mediaType := by
      rw [FlowParser.getTotalPayloadSlices, hkind] at htotal
      obtain ⟨mediaType, hmedia, -⟩ := bind_eq_ok.mp htotal
      exact ⟨mediaType, hmedia⟩
    obtain ⟨heven, -⟩ := FlowParser.getPayloadSize_video hkind hwidth hheight hmedia hsize
    obtain rfl := FlowParser.getTotalPayloadSlices_video hkind hheight hmedia htotal
    exact FlowParser.toNat_lines heven hmin hmax

/-- Ten milliseconds worth of samples, as far as 64 and then 32 bits hold them. -/
def tenMilliseconds (rate : MxlRational) : ℕ :=
  (rate.numerator.toInt.tdiv ((100 * rate.denominator.toInt).bmod (2 ^ 64)) % 2 ^ 32).toNat

theorem toNat_defaultHint (rate : MxlRational) :
    (defaultHint rate).toNat = tenMilliseconds rate := by
  have h100 : (100 : Int64).toInt = 100 := by decide
  have hproduct : (100 * rate.denominator).toInt =
      (100 * rate.denominator.toInt).bmod (2 ^ 64) := by
    rw [Int64.toInt_mul, h100]
  have hquotient := toNat_toUInt64 (rate.numerator / (100 * rate.denominator))
  rw [Int64.toInt_div, hproduct] at hquotient
  have hbmod := @Int.bmod_emod
    (rate.numerator.toInt.tdiv ((100 * rate.denominator.toInt).bmod (2 ^ 64))) (2 ^ 64)
  rw [defaultHint, UInt64.toNat_toUInt32, tenMilliseconds]
  omega

/-! ### Consistent hints -/

/-- Which hints the options may give beside a default: two of them have been checked when
    the options were parsed. -/
def HintsAgree (options : FlowOptionsParser) (default : ℕ) : Prop :=
  match options.maxCommitBatchSizeHint, options.maxSyncBatchSizeHint with
  | none, none => 0 < default
  | some commit, none => 0 < default ∧ commit.toNat ∣ default
  | none, some sync => sync ≠ 0 ∧ default ∣ sync.toNat
  | some _, some sync => sync ≠ 0

/-- The commit batch size hint that is stored. -/
def commitHint (options : FlowOptionsParser) (default : ℕ) : ℕ :=
  match options.maxCommitBatchSizeHint with
  | none => default
  | some commit => commit.toNat

/-- The condition on a definition, the history duration and the options: the rate can be
    divided by, and if the flow is not refused for another reason, the hints agree, and
    that of a continuous flow is less than half of the buffer. -/
def HintsFit (historyDuration : UInt64) (parser : FlowParser) (options : FlowOptionsParser) :
    Prop :=
  let rate := parser.grainRate
  if mxlIsDiscreteDataFormat parser.format then
    (1000000000 * rate.denominator.toInt) % 2 ^ 64 ≠ 0 ∧
      ∀ totalSlices payloadSize sliceLengths, parser.getTotalPayloadSlices = .ok totalSlices →
        parser.getPayloadSize = .ok payloadSize →
        parser.getPayloadSliceLengths = .ok sliceLengths →
          HintsAgree options totalSlices.toNat
  else
    (500000000 * rate.denominator.toInt) % 2 ^ 64 ≠ 0 ∧
      ∀ sampleWordSize channelCount, parser.getPayloadSize = .ok sampleWordSize →
        (getChannelCount parser.root).result = .ok channelCount →
        let samples := pageAlignedSamples historyDuration rate sampleWordSize.toNat
        channelCount.toNat * samples % 2 ^ 32 ≠ 0 →
          HintsAgree options (tenMilliseconds rate) ∧
            2 * commitHint options (tenMilliseconds rate) < samples % 2 ^ 32

section Hints

variable {document : Option JsonValue} {options : FlowOptionsParser} {default : UInt32}

theorem ne_zero_iff {n : UInt32} : n ≠ 0 ↔ 1 ≤ n.toNat := by
  rw [Nat.one_le_iff_ne_zero, ne_eq, ne_eq, ← UInt32.toNat_inj]
  rfl

/-- What is stored is consistent if the hints and the default agree. -/
theorem hintsAgree_iff (hoptions : (parseOptions document).result = .ok options) :
    (1 ≤ (options.maxCommitBatchSizeHint.getD default).toNat ∧
      1 ≤ (options.maxSyncBatchSizeHint.getD default).toNat ∧
      (options.maxCommitBatchSizeHint.getD default).toNat ∣
        (options.maxSyncBatchSizeHint.getD default).toNat) ↔
      HintsAgree options default.toNat := by
  unfold HintsAgree
  cases hcommit : options.maxCommitBatchSizeHint with
  | none =>
    cases hsync : options.maxSyncBatchSizeHint with
    | none => exact ⟨fun h => h.1, fun h => ⟨h, h, dvd_refl _⟩⟩
    | some sync =>
      simp only [Option.getD_none, Option.getD_some, ne_zero_iff]
      constructor
      · rintro ⟨-, hpos, hdvd⟩
        exact ⟨hpos, hdvd⟩
      · rintro ⟨hpos, hdvd⟩
        exact ⟨Nat.pos_of_dvd_of_pos hdvd hpos, hpos, hdvd⟩
  | some commit =>
    cases hsync : options.maxSyncBatchSizeHint with
    | none =>
      simp only [Option.getD_none, Option.getD_some]
      constructor
      · rintro ⟨-, hpos, hdvd⟩
        exact ⟨hpos, hdvd⟩
      · rintro ⟨hpos, hdvd⟩
        exact ⟨Nat.pos_of_dvd_of_pos hdvd hpos, hpos, hdvd⟩
    | some sync =>
      obtain ⟨hne, hdvd⟩ := parseOptions_spec hoptions hcommit hsync
      simp only [Option.getD_some, ne_zero_iff]
      exact ⟨fun h => h.2.1, fun h => ⟨ne_zero_iff.mp hne, h, hdvd⟩⟩

theorem commitHint_eq : (options.maxCommitBatchSizeHint.getD default).toNat =
    commitHint options default.toNat := by
  unfold commitHint
  cases options.maxCommitBatchSizeHint with
  | none => rfl
  | some commit => rfl

end Hints

section Main

variable {isUuid : String → Bool} {root : JsonObject} {historyDuration : UInt64} {flowDef : String}
  {parser : FlowParser} {options : FlowOptionsParser} {document : Option JsonValue}
  {inode : Nat} {now : UInt64}

theorem perUnit_ne_zero_iff (unit : UInt64) (denominator : Int64) :
    unit * denominator.toUInt64 ≠ 0 ↔ (unit.toNat * denominator.toInt) % 2 ^ 64 ≠ 0 := by
  rw [← toNat_mul_toUInt64, ne_eq, ne_eq, ← UInt64.toNat_inj, Int.natCast_eq_zero]
  rfl

theorem discrete_hints_iff (hformat : mxlIsDiscreteDataFormat parser.format = true)
    (hparse : FlowParser.parse isUuid root = .ok parser)
    (hoptions : (parseOptions document).result = .ok options) :
    HintsOrError parser.format
        (createOrOpenFlow historyDuration flowDef parser options inode now) ↔
      HintsFit historyDuration parser options := by
  have hnanoseconds : ((1000000000 : UInt64).toNat : ℤ) = 1000000000 := rfl
  rw [hintsOrError_iff, discrete_ne_divisionByZero hformat, perUnit_ne_zero_iff, HintsFit,
    if_pos hformat, hnanoseconds]
  apply and_congr_right
  intro hunit
  rw [← hnanoseconds, ← perUnit_ne_zero_iff] at hunit
  have hconsistent : ∀ {totalSlices payloadSize sliceLengths d},
      parser.getTotalPayloadSlices = .ok totalSlices → parser.getPayloadSize = .ok payloadSize →
      (createFlow inode now (.discrete (discreteRequest historyDuration flowDef parser options
        totalSlices payloadSize sliceLengths))).result = .ok d →
      (ConsistentHints parser.format (d.flow.getD {}).info.config ↔
        HintsAgree options totalSlices.toNat) := by
    intro totalSlices payloadSize sliceLengths d htotal hsize hd
    obtain ⟨f, hf, hinit⟩ := (built_of_createFlow hd).flow
    obtain ⟨-, hle⟩ := toNat_totalSlices hparse htotal hsize
    have hdefault : totalSlices.toUInt32.toNat = totalSlices.toNat := by
      rw [UInt64.toNat_toUInt32]
      exact Nat.mod_eq_of_lt (by omega)
    rw [hf, Option.getD_some, hinit.config, ← hdefault, ← hintsAgree_iff hoptions]
    constructor
    · rintro ⟨hcommit, hsync, hmultiple, -⟩
      exact ⟨hcommit, hsync, hmultiple⟩
    · rintro ⟨hcommit, hsync, hmultiple⟩
      exact ⟨hcommit, hsync, hmultiple, fun hcontinuous => absurd hcontinuous
        (not_continuous_of_discrete hformat)⟩
  constructor
  · intro h totalSlices payloadSize sliceLengths htotal hsize hlengths
    obtain ⟨d, hd⟩ := @createFlow_discrete inode now (discreteRequest historyDuration flowDef parser
      options totalSlices payloadSize sliceLengths)
    refine (hconsistent htotal hsize hd).mp (h d ?_)
    exact (createOrOpenFlow_discrete_eq_ok hformat).mpr
      ⟨hunit, totalSlices, payloadSize, sliceLengths, htotal, hsize, hlengths, hd⟩
  · intro h d hd
    obtain ⟨-, totalSlices, payloadSize, sliceLengths, htotal, hsize, hlengths, hd⟩ :=
      (createOrOpenFlow_discrete_eq_ok hformat).mp hd
    exact (hconsistent htotal hsize hd).mpr
      (h totalSlices payloadSize sliceLengths htotal hsize hlengths)

/-- The lengths that a continuous flow stores. -/
theorem continuousRequest_lengths (hformat : parser.format = .audio) {word : UInt64}
    (count : UInt64) (hword : parser.getPayloadSize = .ok word)
    (hunit : 500000000 * parser.grainRate.denominator.toUInt64 ≠ 0) :
    (Request.continuous (continuousRequest historyDuration flowDef parser options word
      count)).config.continuous.bufferLength.toNat =
        pageAlignedSamples historyDuration parser.grainRate word.toNat % 2 ^ 32 ∧
    (Request.continuous (continuousRequest historyDuration flowDef parser options word
      count)).config.buffersLength.toNat =
        count.toNat * pageAlignedSamples historyDuration parser.grainRate word.toNat % 2 ^ 32 := by
  have hbuffer := @toNat_bufferLength_eq historyDuration _ _ (getPayloadSize_audio hformat hword)
    hunit
  constructor
  · rw [← hbuffer]
    exact UInt64.toNat_toUInt32 _
  · rw [buffersLength_toNat, UInt64.toNat_toUInt32, UInt64.toNat_toUInt32, ← Nat.mul_mod,
      ← hbuffer]
    rfl

/-- The hints of a continuous flow. -/
theorem consistentHints_continuous (hformat : parser.format = .audio)
    (hoptions : (parseOptions document).result = .ok options) {word count : UInt64}
    (hword : parser.getPayloadSize = .ok word)
    (hunit : 500000000 * parser.grainRate.denominator.toUInt64 ≠ 0) {d : Directory}
    (hd : (createFlow inode now (.continuous (continuousRequest historyDuration flowDef parser
      options word count))).result = .ok d) :
    ConsistentHints parser.format (d.flow.getD {}).info.config ↔
      HintsAgree options (tenMilliseconds parser.grainRate) ∧
        2 * commitHint options (tenMilliseconds parser.grainRate) <
          pageAlignedSamples historyDuration parser.grainRate word.toNat % 2 ^ 32 := by
  obtain ⟨f, hf, hinit⟩ := (built_of_createFlow hd).flow
  have hlength := (@continuousRequest_lengths historyDuration flowDef parser options hformat word
    count hword hunit).1
  rw [hf, Option.getD_some, hinit.config, ← hlength, ← toNat_defaultHint,
    ← hintsAgree_iff hoptions, ← commitHint_eq]
  constructor
  · rintro ⟨hcommit, hsync, hmultiple, hhalf⟩
    exact ⟨⟨hcommit, hsync, hmultiple⟩, hhalf (by rw [hformat]; rfl)⟩
  · rintro ⟨⟨hcommit, hsync, hmultiple⟩, hhalf⟩
    exact ⟨hcommit, hsync, hmultiple, fun _ => hhalf⟩

theorem continuous_hints_iff (hformat : parser.format = .audio)
    (hoptions : (parseOptions document).result = .ok options) :
    HintsOrError parser.format
        (createOrOpenFlow historyDuration flowDef parser options inode now) ↔
      HintsFit historyDuration parser options := by
  have hother : ¬ mxlIsDiscreteDataFormat parser.format = true := by
    rw [hformat]
    decide
  have hnanoseconds : ((500000000 : UInt64).toNat : ℤ) = 500000000 := rfl
  rw [hintsOrError_iff, continuous_ne_divisionByZero hformat, perUnit_ne_zero_iff, HintsFit,
    if_neg hother, hnanoseconds]
  apply and_congr_right
  intro hunit
  rw [← hnanoseconds, ← perUnit_ne_zero_iff] at hunit
  constructor
  · intro h word count hword hcount samples hne
    have hword' : word ≠ 0 := by
      rcases getPayloadSize_audio hformat hword with rfl | rfl <;> decide
    rw [← (@continuousRequest_lengths _ flowDef _ options hformat _ count hword hunit).2] at hne
    obtain ⟨d, hd⟩ := (@exists_createFlow_continuous_iff inode now _ hword').mpr
      (UInt32.lt_iff_toNat_lt.mpr (Nat.pos_of_ne_zero hne))
    apply (consistentHints_continuous hformat hoptions hword hunit hd).mp
    apply h d
    exact (createOrOpenFlow_continuous_eq_ok hformat).mpr ⟨hunit, word, count, hword, hcount, hd⟩
  · intro h d hd
    obtain ⟨-, word, count, hword, hcount, hd⟩ := (createOrOpenFlow_continuous_eq_ok hformat).mp hd
    refine (consistentHints_continuous hformat hoptions hword hunit hd).mpr
      (h word count hword hcount ?_)
    rw [← (@continuousRequest_lengths _ flowDef _ options hformat _ count hword hunit).2]
    exact Nat.ne_of_gt (UInt32.lt_iff_toNat_lt.mp (built_of_createFlow hd).allocated.2.1)

/-- Behind the two parsers. -/
theorem hintsOrError_createFlowWriter (hparse : FlowParser.parse isUuid root = .ok parser)
    (hoptions : (parseOptions document).result = .ok options) (format : MxlDataFormat) :
    HintsOrError format
        (createFlowWriter historyDuration flowDef isUuid root document inode now) ↔
      HintsOrError format (createOrOpenFlow historyDuration flowDef parser options inode now) := by
  have hcall : (createFlowWriter historyDuration flowDef isUuid root document inode now).result =
      (createOrOpenFlow historyDuration flowDef parser options inode now).result := by
    unfold createFlowWriter
    rw [result_bind_of_ok (parse_eq_ok.mpr hparse), result_bind_of_ok hoptions]
  rw [hintsOrError_iff, hintsOrError_iff, hcall]

end Main

/-- **Consistent hints.**  For a definition and options that the parsers let through, a
    call throws or creates a flow with consistent hints under this condition. -/
theorem batch_size_hints_iff (isUuid : String → Bool) (historyDuration : UInt64) (flowDef : String)
    (root : JsonObject) (document : Option JsonValue) (parser : FlowParser)
    (options : FlowOptionsParser) (inode : Nat) (now : UInt64)
    (hparse : FlowParser.parse isUuid root = .ok parser)
    (hoptions : (parseOptions document).result = .ok options) :
    HintsOrError parser.format
        (createFlowWriter historyDuration flowDef isUuid root document inode now) ↔
      HintsFit historyDuration parser options := by
  rw [hintsOrError_createFlowWriter hparse hoptions]
  rcases format_of_parse hparse with hformat | hformat
  · exact discrete_hints_iff hformat hparse hoptions
  · exact continuous_hints_iff hformat hoptions

/-! ### One hint, and none -/

/-- Options that give a commit batch size hint and no other. -/
def commitOnly (hint : ℚ) : Option JsonValue :=
  some (.object [("maxCommitBatchSizeHint", .number hint)])

def hertz50 : JsonObject := [("numerator", .number 50)]

/-- Commits of 64 bytes, signaled grain by grain of 4096. -/
theorem batch_size_hints_64 :
    HintsOrError .data (createFlowWriter 200000000 "data" (fun _ => true) (dataDocument hertz50)
      (commitOnly 64) 0 0) := by
  refine (batch_size_hints_iff _ _ _ _ _ (dataParser hertz50 ⟨50, 1⟩) ⟨some 64, none⟩ _ _
    (parse_dataDocument rfl) rfl).mpr ?_
  rw [HintsFit, if_pos (dataParser_discrete _ _)]
  refine ⟨by decide, fun totalSlices _ _ htotal _ _ => ?_⟩
  cases htotal
  exact ⟨by decide, by decide⟩

/-- Commits of 100 bytes do not divide a grain of 4096, and ten milliseconds at 50 samples a
    second have no sample. -/
theorem batch_size_hints_inconsistent :
    ¬ HintsOrError .data (createFlowWriter 200000000 "data" (fun _ => true)
        (dataDocument hertz50) (commitOnly 100) 0 0) ∧
      ¬ HintsOrError .audio (createFlowWriter 200000000 "audio" (fun _ => true)
        (audioDocument hertz50 2) none 0 0) := by
  constructor
  · intro h
    have hparse := @parse_dataDocument hertz50 _ rfl
    have hoptions : (parseOptions (commitOnly 100)).result = .ok ⟨some 100, none⟩ := rfl
    have hfit := (discrete_hints_iff (dataParser_discrete _ _) hparse hoptions).mp
      ((hintsOrError_createFlowWriter hparse hoptions .data).mp h)
    rw [HintsFit, if_pos (dataParser_discrete _ _)] at hfit
    exact absurd (hfit.2 4096 4096 #v[1, 0, 0, 0] rfl rfl rfl).2 (by decide)
  · intro h
    have hparse := @parse_audioDocument hertz50 2 _ rfl
    have hfit := (@continuous_hints_iff _ _ (audioParser hertz50 2 ⟨50, 1⟩) _ none _ _ rfl rfl).mp
      ((hintsOrError_createFlowWriter hparse rfl .audio).mp h)
    have hpos : 0 < tenMilliseconds ⟨50, 1⟩ := (hfit.2 4 2 rfl rfl (by decide)).1
    exact absurd hpos (by decide)

end MediaExchange.FlowSizing
