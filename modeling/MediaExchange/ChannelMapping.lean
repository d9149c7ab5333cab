/-
  MediaExchange/ChannelMapping.lean
  =================================
  **The channel buffers of a continuous flow** (`ContinuousFlowData.hpp`).

  The buffers of all channels are one file, whose size is the product of the number
  of channels, the length of a buffer and the size of a sample.  Who opens the flow
  finds the first two in its configuration, and divides the size of the file by their
  product to get the third.  Both numbers are kept in 32 bits, and so is their
  product.
-/
import MediaExchange.FlowSizing

namespace MediaExchange.FlowSizing

open MachineArithmetic MachineArithmetic.Computation
open FlowCreation

/-- `channelCount()`, `channelBufferLength()` and `sampleWordSize()` of a flow. -/
structure ChannelGeometry where
  channelCount : UInt32
  bufferLength : UInt32
  sampleWordSize : UInt64
deriving DecidableEq

/-- `openContinuousFlow`: the geometry of a flow, from its configuration and the size of
    its channel data. -/
def openContinuousFlow (d : Directory) : Option ChannelGeometry :=
  match d.flow, d.channels with
  | some f, some mappedSize =>
      if 0 < f.info.config.buffersLength then
        some {
          channelCount := f.info.config.continuous.channelCount
          bufferLength := f.info.config.continuous.bufferLength
          sampleWordSize := sampleWordSize mappedSize f.info.config.buffersLength }
      else none
  | _, _ => none

/-- The channel data has room for every sample of the request, and the flow is opened with
    the geometry of the request. -/
structure Mapped (r : ContinuousRequest) (d : Directory) : Prop where
  large : ∃ mappedSize, d.channels = some mappedSize ∧
    r.channelCount.toNat * r.bufferLength.toNat * r.sampleWordSize.toNat ≤ mappedSize.toNat
  reopened : ∃ geometry, openContinuousFlow d = some geometry ∧
    geometry.channelCount.toNat = r.channelCount.toNat ∧
    geometry.bufferLength.toNat = r.bufferLength.toNat ∧
    geometry.sampleWordSize = r.sampleWordSize

section Mapped

variable {r : ContinuousRequest} {inode : Nat} {d : Directory}

/-- Factors of a product below 2^32 are below 2^32. -/
theorem factors_lt {m n : ℕ} (hpos : 0 < m * n) (h : m * n < 2 ^ 32) :
    m < 2 ^ 32 ∧ n < 2 ^ 32 := by
  have hm : 0 < m := Nat.pos_of_mul_pos_right hpos
  have hn : 0 < n := Nat.pos_of_mul_pos_left hpos
  exact ⟨lt_of_le_of_lt (Nat.le_mul_of_pos_right m hn) h,
    lt_of_le_of_lt (Nat.le_mul_of_pos_left n hm) h⟩

/-- Neither factor is zero if the product of both is not, in 32 bits. -/
theorem product_pos (hlength : 0 < (Request.continuous r).config.buffersLength.toNat) :
    0 < r.channelCount.toNat * r.bufferLength.toNat := by
  rw [buffersLength_toNat, UInt64.toNat_toUInt32, UInt64.toNat_toUInt32, ← Nat.mul_mod] at hlength
  exact Nat.lt_of_lt_of_le hlength (Nat.mod_le _ _)

/-- The channel data of a flow is large enough if the number of samples fits in 32 bits. -/
theorem mapped_iff (h : (Request.continuous r).Built inode d)
    (hword : r.sampleWordSize = 4 ∨ r.sampleWordSize = 8) :
    Mapped r d ↔ r.channelCount.toNat * r.bufferLength.toNat < 2 ^ 32 := by
  obtain ⟨hne, hlength, hchannels⟩ := h.allocated
  obtain ⟨f, hf, hinit⟩ := h.flow
  have hwordpos := word_pos hne
  constructor
  · rintro ⟨⟨mappedSize, hmapped, hlarge⟩, -⟩
    rw [hchannels] at hmapped
    cases hmapped
    rw [UInt64.toNat_mul, UInt32.toNat_toUInt64] at hlarge
    have hle : r.channelCount.toNat * r.bufferLength.toNat * r.sampleWordSize.toNat ≤
        (Request.continuous r).config.buffersLength.toNat * r.sampleWordSize.toNat :=
      hlarge.trans (Nat.mod_le _ _)
    exact Nat.lt_of_le_of_lt (Nat.le_of_mul_le_mul_right hle hwordpos) (UInt32.toNat_lt _)
  · intro hlt
    obtain ⟨hchannelCount, hbufferLength⟩ :=
      factors_lt (product_pos (UInt32.lt_iff_toNat_lt.mp hlength)) hlt
    have hcount : r.channelCount.toUInt32.toNat = r.channelCount.toNat := by
      rw [UInt64.toNat_toUInt32, Nat.mod_eq_of_lt hchannelCount]
    have hbuffer : r.bufferLength.toUInt32.toNat = r.bufferLength.toNat := by
      rw [UInt64.toNat_toUInt32, Nat.mod_eq_of_lt hbufferLength]
    have hfits : (Request.continuous r).Fits := by
      have hvalue : r.sampleWordSize.toNat = 4 ∨ r.sampleWordSize.toNat = 8 :=
        hword.imp (congrArg UInt64.toNat) (congrArg UInt64.toNat)
      simp only [Request.Fits, ContinuousRequest.channelDataSize, hcount, hbuffer]
      rcases hvalue with hvalue | hvalue <;> rw [hvalue] <;> omega
    obtain ⟨mappedSize, hmapped, hsize⟩ := h.allocated.sized_iff.mpr hfits
    obtain ⟨mappedSize', hmapped', hreopened⟩ := h.allocated.sampleWordSize hfits
    rw [hmapped] at hmapped'
    cases hmapped'
    refine ⟨⟨mappedSize, hmapped, ?_⟩, ?_⟩
    · rw [hsize, ContinuousRequest.channelDataSize, hcount, hbuffer]
    · have hconfig := hinit.config
      rw [openContinuousFlow, hf, hmapped]
      dsimp only
      rw [hconfig, if_pos hlength]
      exact ⟨_, rfl, hcount, hbuffer, hreopened⟩

end Mapped

/-- **The channel data is large enough**, and says itself what is in it, exactly if the
    channels of twice the history have less than 2^32 samples. -/
theorem channel_mapping_iff (isUuid : String → Bool) (historyDuration : UInt64) (flowDef : String)
    (root : JsonObject) (document : Option JsonValue) (parser : FlowParser)
    (options : FlowOptionsParser) (channelCount sampleWordSize : UInt64) (inode : Nat)
    (now : UInt64) (d : Directory) (hparse : FlowParser.parse isUuid root = .ok parser)
    (hformat : parser.format = .audio)
    (hoptions : (parseOptions document).result = .ok options)
    (hcount : (getChannelCount parser.root).result = .ok channelCount)
    (hword : parser.getPayloadSize = .ok sampleWordSize)
    (hcreated : (createFlowWriter historyDuration flowDef isUuid root document inode now).result =
      .ok d) :
    Mapped (continuousRequest historyDuration flowDef parser options sampleWordSize channelCount)
        d ↔
      channelCount.toNat * pageAlignedSamples historyDuration parser.grainRate
        sampleWordSize.toNat < 2 ^ 32 := by
  obtain ⟨parser', options', hparse', hoptions', hflow⟩ := createFlowWriter_eq_ok.mp hcreated
  rw [hparse] at hparse'
  cases hparse'
  rw [hoptions] at hoptions'
  cases hoptions'
  obtain ⟨hunit, word, count, hword', hcount', hd⟩ :=
    (createOrOpenFlow_continuous_eq_ok hformat).mp hflow
  rw [hword] at hword'
  cases hword'
  rw [hcount] at hcount'
  cases hcount'
  have hcases := getPayloadSize_audio hformat hword
  rw [← toNat_bufferLength_eq hcases hunit]
  exact mapped_iff (built_of_createFlow hd) hcases

/-! ### A channel too many -/

def hertz48000 : JsonObject := [("numerator", .number 48000)]

/-- The request for 400 milliseconds of audio, in 19 pages of 1024 samples for each channel. -/
def audioRequest (channels : ℚ) (channelCount : UInt64) : ContinuousRequest :=
  continuousRequest 200000000 "audio" (audioParser hertz48000 channels ⟨48000, 1⟩) {} 4 channelCount

theorem audioRequest_created {channels : ℚ} {channelCount : UInt64}
    (hcount : (getChannelCount (audioDocument hertz48000 channels)).result = .ok channelCount)
    (hlength : 0 < channelCount.toUInt32 * 19456) :
    ∃ d, (createFlowWriter 200000000 "audio" (fun _ => true) (audioDocument hertz48000 channels)
        none 0 0).result = .ok d ∧
      (Request.continuous (audioRequest channels channelCount)).Built 0 d := by
  have hbuffer : alignedLength (ringLength 500000000 200000000 ⟨48000, 1⟩) 4 = 19456 := by decide
  have hbuffers : (Request.continuous (audioRequest channels channelCount)).config.buffersLength =
      channelCount.toUInt32 * 19456 :=
    congrArg (fun length => channelCount.toUInt32 * length.toUInt32) hbuffer
  rw [← hbuffers] at hlength
  have hword : (4 : UInt64) ≠ 0 := by decide
  have hunit : 500000000 * (1 : Int64).toUInt64 ≠ 0 := by decide
  obtain ⟨d, hd⟩ := (@exists_createFlow_continuous_iff 0 0 _ hword).mpr hlength
  refine ⟨d, createFlowWriter_eq_ok.mpr ⟨audioParser hertz48000 channels ⟨48000, 1⟩, {},
    parse_audioDocument rfl, rfl, ?_⟩, built_of_createFlow hd⟩
  exact (createOrOpenFlow_continuous_eq_ok rfl).mpr ⟨hunit, 4, channelCount, rfl, hcount, hd⟩

/-- Two channels. -/
theorem channel_mapping_stereo :
    ∃ d, (createFlowWriter 200000000 "audio" (fun _ => true) (audioDocument hertz48000 2)
        none 0 0).result = .ok d ∧ Mapped (audioRequest 2 2) d := by
  obtain ⟨d, hd, -⟩ := @audioRequest_created 2 2 rfl (by decide)
  refine ⟨d, hd, ?_⟩
  exact (channel_mapping_iff (fun _ => true) 200000000 "audio" (audioDocument hertz48000 2) none
    (audioParser hertz48000 2 ⟨48000, 1⟩) {} 2 4 0 0 d (parse_audioDocument rfl) rfl rfl rfl rfl
    hd).mpr (by decide)

/-- 2^22 + 1 channels have the channel data of one. -/
theorem channel_mapping_wrapped :
    ∃ d, (createFlowWriter 200000000 "audio" (fun _ => true) (audioDocument hertz48000 4194305)
        none 0 0).result = .ok d ∧ ¬ Mapped (audioRequest 4194305 4194305) d := by
  obtain ⟨d, hd, hbuilt⟩ := @audioRequest_created 4194305 4194305 rfl (by decide)
  refine ⟨d, hd, fun hmapped => ?_⟩
  exact absurd ((mapped_iff hbuilt (Or.inl rfl)).mp hmapped) (by decide)

end MediaExchange.FlowSizing
