/-
  MediaExchange/LateBuffers.lean
  ==============================
  **Late buffers** (`mxlsink/render_video.rs`, `mxlsink/render_audio.rs`).

  A buffer whose time stamp on the MXL clock is in the past makes everything later:
  the latency grows by the lateness, rounded down to whole grains or samples, and
  the buffer itself is given five milliseconds more.  What the rounding leaves is
  less than a period, so that the five milliseconds make up for it where a period is
  no longer than that (`onTime_of_period`), and otherwise as `onTime_iff` says.

  Points in time are integers, as in `AudioSink`; `adjustWords_eq` says that the code's
  64-bit words hold them as long as nothing overflows.
-/
import MediaExchange.AudioSink
import MediaExchange.AudioSource

namespace MediaExchange.LateBuffers

open MediaExchange.AudioSink
open MediaExchange.AudioSource (asU128)

/-! ### The adjustment

Both sinks make it with the same arithmetic; what is `samples_to_ns` and `ns_to_samples`
in one is `grains_to_ns` and `ns_to_grains` in the other. -/

/-- Something with a time stamp is about to be mapped to an index. -/
structure Mapping where
  rate : SampleRate
  /-- The time stamp on the MXL clock, without the latency. -/
  mxlPts : Int
  /-- In grains or samples. -/
  latency : Nat
  mxlNow : Nat

namespace Mapping

variable (m : Mapping)

/-- The time stamp with the latency so far. -/
def pts : Int := m.mxlPts + m.rate.samplesToNs m.latency

def Late : Prop := m.pts < m.mxlNow

instance : Decidable m.Late := inferInstanceAs (Decidable (_ < _))

def diffNs : Nat := (m.mxlNow - m.pts).toNat

/-- The time stamp that is mapped, and the latency from now on. -/
def adjusted : Int × Nat :=
  if m.Late then
    let latency := m.latency + m.rate.nsToSamples m.diffNs
    (m.mxlPts + m.rate.samplesToNs latency + LATENCY_CUSHION, latency)
  else (m.pts, m.latency)

/-- What is mapped is not late. -/
def OnTime : Prop := m.mxlNow ≤ m.adjusted.1

/-- A period is `periodDividend / rate.numerator` nanoseconds. -/
def periodDividend : Nat := m.rate.denominator * 1000000000

/-- What the lateness has over whole periods is no more than the cushion and what the
    duration of the latency has lost in rounding (all times the numerator). -/
def Covered : Prop :=
  m.diffNs * m.rate.numerator % m.periodDividend ≤
    m.latency * m.periodDividend % m.rate.numerator + 5000000 * m.rate.numerator

end Mapping

/-! ### The video sink -/

/-- What changes of `VideoState`. -/
structure VideoState where
  grainIndex : UInt64
  initialTime : Option InitialTime
  /-- In grains. -/
  latency : Nat
deriving DecidableEq, Repr

/-- A GStreamer buffer, with the clocks as they are when it is rendered. -/
structure VideoBuffer where
  pts : Option Nat
  buf : List UInt8
  /-- The time of the element's clock, if it has one. -/
  gstNow : Option Nat
  mxlNow : Nat

structure WriteGrainData where
  buf : List UInt8
  index : Int
deriving DecidableEq, Repr

namespace VideoState

def offset (state : VideoState) (mxlNow gstNow : Nat) : Int :=
  match state.initialTime with
  | some initial => initial.mxlPtsOffset
  | none => mxlNow - gstNow

end VideoState

def videoMapping (rate : SampleRate) (state : VideoState) (buffer : VideoBuffer)
    (gstNow gstPts : Nat) : Mapping where
  rate
  mxlPts := gstPts + state.offset buffer.mxlNow gstNow
  latency := state.latency
  mxlNow := buffer.mxlNow

/-- `video`: what is sent to the engine, and the state afterwards. -/
def video (rate : SampleRate) (state : VideoState) (buffer : VideoBuffer) :
    Except FlowError WriteGrainData × VideoState :=
  match buffer.gstNow with
  | none => (.error .error, state)
  | some gstNow =>
      let initialTime := some ⟨state.offset buffer.mxlNow gstNow⟩
      match buffer.pts with
      | none => (.error .error, { state with initialTime })
      | some gstPts =>
          let (pts, latency) := (videoMapping rate state buffer gstNow gstPts).adjusted
          (.ok { buf := buffer.buf, index := rate.timestampToIndex pts },
            { grainIndex := state.grainIndex + 1, initialTime, latency })

/-- With a clock and a time stamp, what is sent has the index of the mapping. -/
theorem video_eq (rate : SampleRate) (state : VideoState) (buffer : VideoBuffer)
    (gstNow gstPts : Nat) :
    video rate state { buffer with gstNow := some gstNow, pts := some gstPts } =
      (.ok
        { buf := buffer.buf
          index :=
            rate.timestampToIndex (videoMapping rate state buffer gstNow gstPts).adjusted.1 },
        { grainIndex := state.grainIndex + 1
          initialTime := some ⟨state.offset buffer.mxlNow gstNow⟩
          latency := (videoMapping rate state buffer gstNow gstPts).adjusted.2 }) := rfl

/-! ### The audio sink -/

def chunkMapping (flowDef : FlowDefAudio) (buffer : Buffer) (loop : ChunkLoop) : Mapping where
  rate := flowDef.sampleRate
  mxlPts := loop.basePts
  latency := loop.latency
  mxlNow := buffer.chunkNow loop.srcOffsetSamples

/-- A turn of the audio sink's loop maps its chunk so. -/
theorem sendChunk_eq (flowDef : FlowDefAudio) (maxChunk : Nat) (buffer : Buffer)
    (loop : ChunkLoop) :
    sendChunk flowDef maxChunk buffer loop =
      { remaining := loop.remaining - min loop.remaining maxChunk
        srcOffsetSamples := loop.srcOffsetSamples + min loop.remaining maxChunk
        basePts := loop.basePts + flowDef.sampleRate.samplesToNs (min loop.remaining maxChunk)
        latency := (chunkMapping flowDef buffer loop).adjusted.2
        sent := loop.sent ++
          [{ chunk :=
              flowDef.computeChunk buffer.src loop.srcOffsetSamples (min loop.remaining maxChunk)
             numChannels := flowDef.channelCount
             bytesPerSample := flowDef.bytesPerSample
             chunkSamples := min loop.remaining maxChunk
             index :=
              flowDef.sampleRate.timestampToIndex (chunkMapping flowDef buffer loop).adjusted.1 }] } := by
  by_cases hlate : (chunkMapping flowDef buffer loop).Late
  · have hpts : loop.basePts + (flowDef.sampleRate.samplesToNs loop.latency : Int) <
        buffer.chunkNow loop.srcOffsetSamples := hlate
    simp only [sendChunk, Mapping.adjusted, if_pos hlate, if_pos hpts]
    rfl
  · have hpts : ¬ loop.basePts + (flowDef.sampleRate.samplesToNs loop.latency : Int) <
        buffer.chunkNow loop.srcOffsetSamples := hlate
    simp only [sendChunk, Mapping.adjusted, if_neg hlate, if_neg hpts]
    rfl

/-! ### When the adjustment is enough -/

section Enough

variable {m : Mapping}

/-- The whole periods added to the latency last as long as they should, but for what
    rounding to nanoseconds adds or takes. -/
theorem samplesToNs_add (rate : SampleRate) (latency samples : Nat) :
    rate.samplesToNs (latency + samples) = rate.samplesToNs latency +
      (latency * (rate.denominator * 1000000000) % rate.numerator +
        samples * (rate.denominator * 1000000000)) / rate.numerator := by
  have hpos := rate.numerator_pos
  unfold SampleRate.samplesToNs
  rw [mul_assoc, mul_assoc, Nat.add_mul]
  generalize latency * (rate.denominator * 1000000000) = duration
  generalize samples * (rate.denominator * 1000000000) = added
  have hsplit : duration + added =
      rate.numerator * (duration / rate.numerator) + (duration % rate.numerator + added) := by
    have := Nat.div_add_mod duration rate.numerator
    omega
  rw [hsplit, Nat.mul_add_div hpos]

theorem toNat_diffNs (hlate : m.Late) : (m.diffNs : Int) = m.mxlNow - m.pts := by
  apply Int.toNat_of_nonneg
  have := le_of_lt hlate
  omega

/-- The adjusted time stamp of something late, as far as it is from the present. -/
theorem adjusted_of_late (hlate : m.Late) :
    m.adjusted.1 = m.mxlNow - m.diffNs + LATENCY_CUSHION +
      ((m.latency * m.periodDividend % m.rate.numerator +
        m.rate.nsToSamples m.diffNs * m.periodDividend) / m.rate.numerator : Nat) := by
  have hdiff := toNat_diffNs hlate
  unfold Mapping.adjusted
  rw [if_pos hlate]
  simp only [samplesToNs_add]
  unfold Mapping.pts at hdiff
  unfold Mapping.periodDividend
  push_cast
  omega

theorem onTime_of_late_iff (hlate : m.Late) : m.OnTime ↔ m.Covered := by
  have hpos := m.rate.numerator_pos
  unfold Mapping.OnTime Mapping.Covered
  rw [adjusted_of_late hlate]
  have hperiods : m.rate.nsToSamples m.diffNs * m.periodDividend +
      m.diffNs * m.rate.numerator % m.periodDividend = m.diffNs * m.rate.numerator := by
    have := Nat.div_add_mod (m.diffNs * m.rate.numerator) m.periodDividend
    rw [mul_comm] at this
    exact this
  generalize m.latency * m.periodDividend % m.rate.numerator = lost at *
  generalize m.rate.nsToSamples m.diffNs * m.periodDividend = whole at *
  generalize m.diffNs * m.rate.numerator % m.periodDividend = rest at *
  have hdiv : m.diffNs ≤ (lost + whole) / m.rate.numerator + 5000000 ↔
      m.diffNs * m.rate.numerator ≤ lost + whole + 5000000 * m.rate.numerator := by
    rw [← Nat.add_mul_div_right _ _ hpos, Nat.le_div_iff_mul_le hpos]
  have hcushion : LATENCY_CUSHION = 5000000 := rfl
  rw [hcushion]
  omega

theorem mapping_onTime_iff : m.OnTime ↔ (m.Late → m.Covered) := by
  constructor
  · intro h hlate
    exact (onTime_of_late_iff hlate).mp h
  · intro h
    by_cases hlate : m.Late
    · exact (onTime_of_late_iff hlate).mpr (h hlate)
    · unfold Mapping.OnTime Mapping.adjusted
      rw [if_neg hlate]
      exact not_lt.mp hlate

/-- With periods of no more than the cushion everything is covered. -/
theorem onTime_of_period (hperiod : m.periodDividend ≤ 5000000 * m.rate.numerator) : m.OnTime := by
  rw [mapping_onTime_iff]
  intro _
  have hpos : 0 < m.periodDividend := Nat.mul_pos m.rate.denominator_pos (by decide)
  have hrest := Nat.mod_lt (m.diffNs * m.rate.numerator) hpos
  unfold Mapping.Covered
  omega

end Enough

/-- **Late buffers.**  In both sinks, the time stamp whose index is sent is not before now
    if and only if it was so without the adjustment or the adjustment covers the
    lateness. -/
theorem onTime_iff (rate : SampleRate) (state : VideoState) (frame : VideoBuffer)
    (gstNow gstPts : Nat) (flowDef : FlowDefAudio) (maxChunk : Nat) (buffer : Buffer)
    (loop : ChunkLoop) :
    ((video rate state { frame with gstNow := some gstNow, pts := some gstPts }).1 =
        .ok
          { buf := frame.buf
            index :=
              rate.timestampToIndex (videoMapping rate state frame gstNow gstPts).adjusted.1 } ∧
      ((videoMapping rate state frame gstNow gstPts).OnTime ↔
        ((videoMapping rate state frame gstNow gstPts).Late →
          (videoMapping rate state frame gstNow gstPts).Covered))) ∧
    ((sendChunk flowDef maxChunk buffer loop).sent.getLast?.map WriteSampleData.index =
        some (flowDef.sampleRate.timestampToIndex
          (chunkMapping flowDef buffer loop).adjusted.1) ∧
      ((chunkMapping flowDef buffer loop).OnTime ↔
        ((chunkMapping flowDef buffer loop).Late → (chunkMapping flowDef buffer loop).Covered))) := by
  refine ⟨⟨?_, mapping_onTime_iff⟩, ?_, mapping_onTime_iff⟩
  · rw [video_eq]
  · rw [sendChunk_eq]
    simp

/-! ### A frame of 25 Hz -/

theorem pal_numerator_pos : 0 < 25 := by decide

def pal : SampleRate := ⟨25, 1, pal_numerator_pos, Nat.one_pos⟩

/-- Just short of a frame late: the latency stays, the cushion is all there is. -/
theorem frame_late_again :
    video pal ⟨0, some ⟨0⟩, 0⟩ ⟨some 0, [], some 0, 39000000⟩ =
        (.ok ⟨[], pal.timestampToIndex 5000000⟩, ⟨1, some ⟨0⟩, 0⟩) ∧
      ¬ (videoMapping pal ⟨0, some ⟨0⟩, 0⟩ ⟨some 0, [], some 0, 39000000⟩ 0 0).OnTime := by
  constructor
  · decide
  · unfold Mapping.OnTime
    decide

/-! ### The code's words -/

section Words

def samplesToNsWords (samples : UInt64) (rate : MxlRational) : UInt64 :=
  UInt64.ofNat
    (samples.toNat * 1000000000 % 2 ^ 128 * asU128 rate.denominator % 2 ^ 128 /
      asU128 rate.numerator)

def nsToSamplesWords (ns : UInt64) (rate : MxlRational) : UInt64 :=
  UInt64.ofNat
    (ns.toNat * asU128 rate.numerator % 2 ^ 128 /
      (asU128 rate.denominator * 1000000000 % 2 ^ 128))

/-- The adjustment in 64-bit words. -/
def adjustedWords (rate : MxlRational) (mxlPts latency mxlNow : UInt64) : UInt64 × UInt64 :=
  let pts := mxlPts + samplesToNsWords latency rate
  if pts < mxlNow then
    let latency := latency + nsToSamplesWords (mxlNow - pts) rate
    (mxlPts + samplesToNsWords latency rate + 5000000, latency)
  else (pts, latency)

/-- The numbers of an adjustment fit the types they have. -/
structure Fits (m : Mapping) : Prop where
  numerator : m.rate.numerator < 2 ^ 63
  denominator : m.rate.denominator < 2 ^ 63
  mxlPts : 0 ≤ m.mxlPts
  mxlNow : m.mxlNow < 2 ^ 64
  latency : m.adjusted.2 < 2 ^ 64
  duration : m.adjusted.2 * m.periodDividend < 2 ^ 128
  pts : m.adjusted.1 < 2 ^ 64

def rateWords (rate : SampleRate) : MxlRational :=
  ⟨Int64.ofInt rate.numerator, Int64.ofInt rate.denominator⟩

theorem asU128_ofInt {x : Nat} (h : x < 2 ^ 63) : asU128 (Int64.ofInt x) = x := by
  have hx : (Int64.ofInt x).toInt = x := Int64.toInt_ofInt_of_le (by omega) (by omega)
  unfold asU128
  omega

theorem samplesToNsWords_eq {rate : SampleRate} {samples : UInt64}
    (hnumerator : rate.numerator < 2 ^ 63) (hdenominator : rate.denominator < 2 ^ 63)
    (hduration : samples.toNat * (rate.denominator * 1000000000) < 2 ^ 128) :
    samplesToNsWords samples (rateWords rate) = UInt64.ofNat (rate.samplesToNs samples.toNat) := by
  have hsamples := samples.toNat_lt
  unfold samplesToNsWords rateWords SampleRate.samplesToNs
  simp only [asU128_ofInt hnumerator, asU128_ofInt hdenominator]
  have hfirst : samples.toNat * 1000000000 % 2 ^ 128 = samples.toNat * 1000000000 :=
    Nat.mod_eq_of_lt (by omega)
  have hreorder : samples.toNat * 1000000000 * rate.denominator =
      samples.toNat * (rate.denominator * 1000000000) := by ring
  rw [hfirst, hreorder, Nat.mod_eq_of_lt hduration, mul_assoc]

theorem nsToSamplesWords_eq {rate : SampleRate} {ns : UInt64}
    (hnumerator : rate.numerator < 2 ^ 63) (hdenominator : rate.denominator < 2 ^ 63) :
    nsToSamplesWords ns (rateWords rate) = UInt64.ofNat (rate.nsToSamples ns.toNat) := by
  have hns := ns.toNat_lt
  unfold nsToSamplesWords rateWords SampleRate.nsToSamples
  simp only [asU128_ofInt hnumerator, asU128_ofInt hdenominator]
  have hscaled : ns.toNat * rate.numerator < 2 ^ 128 := by
    calc ns.toNat * rate.numerator ≤ 2 ^ 64 * 2 ^ 63 :=
          Nat.mul_le_mul (le_of_lt hns) (le_of_lt hnumerator)
      _ < 2 ^ 128 := by decide
  have hperiod : rate.denominator * 1000000000 < 2 ^ 128 := by omega
  rw [Nat.mod_eq_of_lt hscaled, Nat.mod_eq_of_lt hperiod]

theorem toNat_add_of_lt {a b : UInt64} (h : a.toNat + b.toNat < 2 ^ 64) :
    (a + b).toNat = a.toNat + b.toNat := by
  rw [UInt64.toNat_add]
  exact Nat.mod_eq_of_lt h

/-- A time stamp with a latency. -/
theorem toNat_stamp {rate : SampleRate} {mxlPts samples : UInt64}
    (hnumerator : rate.numerator < 2 ^ 63) (hdenominator : rate.denominator < 2 ^ 63)
    (hduration : samples.toNat * (rate.denominator * 1000000000) < 2 ^ 128)
    (hfits : mxlPts.toNat + rate.samplesToNs samples.toNat < 2 ^ 64) :
    (mxlPts + samplesToNsWords samples (rateWords rate)).toNat =
      mxlPts.toNat + rate.samplesToNs samples.toNat := by
  have hns : (samplesToNsWords samples (rateWords rate)).toNat =
      rate.samplesToNs samples.toNat := by
    rw [samplesToNsWords_eq hnumerator hdenominator hduration, UInt64.toNat_ofNat']
    exact Nat.mod_eq_of_lt (by omega)
  rw [toNat_add_of_lt (by omega), hns]

/-- A latency that grows by a lateness. -/
theorem toNat_grown {rate : SampleRate} {latency ns : UInt64}
    (hnumerator : rate.numerator < 2 ^ 63) (hdenominator : rate.denominator < 2 ^ 63)
    (hfits : latency.toNat + rate.nsToSamples ns.toNat < 2 ^ 64) :
    (latency + nsToSamplesWords ns (rateWords rate)).toNat =
      latency.toNat + rate.nsToSamples ns.toNat := by
  have hsamples : (nsToSamplesWords ns (rateWords rate)).toNat = rate.nsToSamples ns.toNat := by
    rw [nsToSamplesWords_eq hnumerator hdenominator, UInt64.toNat_ofNat']
    exact Nat.mod_eq_of_lt (by omega)
  rw [toNat_add_of_lt (by omega), hsamples]

variable {m : Mapping} {mxlPts latency mxlNow : UInt64}

theorem latency_le_adjusted (m : Mapping) : m.latency ≤ m.adjusted.2 := by
  unfold Mapping.adjusted
  split
  · exact Nat.le_add_right _ _
  · exact Nat.le_refl _

/-- The time stamp without the adjustment fits too. -/
theorem Fits.pts_lt (h : Fits m) : m.pts < 2 ^ 64 := by
  by_cases hlate : m.Late
  · have hnow := h.mxlNow
    exact lt_trans hlate (by exact_mod_cast hnow)
  · have hadjusted := h.pts
    unfold Mapping.adjusted at hadjusted
    rwa [if_neg hlate] at hadjusted

/-- The time stamp with the latency so far. -/
theorem toNat_pts (h : Fits m) (hpts : (mxlPts.toNat : Int) = m.mxlPts)
    (hlatency : latency.toNat = m.latency) :
    ((mxlPts + samplesToNsWords latency (rateWords m.rate)).toNat : Int) = m.pts := by
  have hlt := h.pts_lt
  have hduration : latency.toNat * (m.rate.denominator * 1000000000) < 2 ^ 128 := by
    rw [hlatency]
    exact lt_of_le_of_lt (Nat.mul_le_mul_right _ (latency_le_adjusted m)) h.duration
  unfold Mapping.pts at hlt ⊢
  rw [← hlatency] at hlt ⊢
  rw [toNat_stamp h.numerator h.denominator hduration (by omega)]
  omega

/-- As long as nothing overflows, the code's words hold the integers of the model. -/
theorem adjustedWords_eq (h : Fits m) (hpts : (mxlPts.toNat : Int) = m.mxlPts)
    (hlatency : latency.toNat = m.latency) (hnow : mxlNow.toNat = m.mxlNow) :
    ((adjustedWords (rateWords m.rate) mxlPts latency mxlNow).1.toNat : Int) = m.adjusted.1 ∧
      (adjustedWords (rateWords m.rate) mxlPts latency mxlNow).2.toNat = m.adjusted.2 := by
  have hwords := toNat_pts h hpts hlatency
  unfold adjustedWords
  generalize mxlPts + samplesToNsWords latency (rateWords m.rate) = pts at hwords
  have hlt : pts < mxlNow ↔ m.Late := by
    unfold Mapping.Late
    rw [UInt64.lt_iff_toNat_lt]
    omega
  by_cases hlate : m.Late
  · have hdiff : (mxlNow - pts).toNat = m.diffNs := by
      rw [UInt64.toNat_sub_of_le _ _ (UInt64.le_of_lt (hlt.mpr hlate))]
      have := toNat_diffNs hlate
      omega
    have hlatency64 := h.latency
    have hduration := h.duration
    have hpts64 := h.pts
    unfold Mapping.adjusted at hlatency64 hduration hpts64 ⊢
    simp only [if_pos hlate, if_pos (hlt.mpr hlate), ← hlatency, ← hdiff]
      at hlatency64 hduration hpts64 ⊢
    have hgrown := toNat_grown h.numerator h.denominator hlatency64
    rw [← hgrown] at hduration hpts64 ⊢
    have hcushion : LATENCY_CUSHION = 5000000 := rfl
    have hfive : (5000000 : UInt64).toNat = 5000000 := rfl
    rw [hcushion] at hpts64 ⊢
    have hstamp := @toNat_stamp m.rate mxlPts _ h.numerator h.denominator hduration (by omega)
    refine ⟨?_, rfl⟩
    rw [toNat_add_of_lt (by omega), hstamp]
    omega
  · unfold Mapping.adjusted
    rw [if_neg hlate, if_neg (mt hlt.mp hlate)]
    exact ⟨hwords, hlatency⟩

end Words

end MediaExchange.LateBuffers
