/-
  MediaExchange/UsableRing.lean
  =============================
  **Every accepted flow has a usable ring.**

  The parser lets through any rate: a denominator of zero, negative numbers, and
  numbers that a cast cannot hold.  The length of the ring is a quotient in 64 bits,
  kept in 32; that of a continuous flow is rounded up to pages, and its creation is
  refused if the channel buffers have no length.  `usable_ring_iff` is the condition
  on the definition and the history duration under which nothing of this goes wrong.
-/
import MediaExchange.FlowSizing
import Mathlib.Algebra.Order.Ring.Unbundled.Rat

namespace MediaExchange.FlowSizing

open MachineArithmetic MachineArithmetic.Computation
open FlowCreation

/-! ### Reading a definition -/

/-- Both numbers of a rate have an absolute value of 64 bits. -/
def RationalInRange (object : JsonObject) : Prop :=
  ∀ field ∈ ["numerator", "denominator"], ∀ x,
    fetchAs JsonValue.getNumber object field = .ok x → (truncated x).natAbs < 2 ^ 63

/-- The numbers of a definition are in the range of the types they are cast to, and the
    rate of interlaced video can be compared with the two that there are. -/
structure DefinitionInRange (root : JsonObject) (parser : FlowParser) : Prop where
  rate : ∀ field object, rateField parser.format = .ok field →
    fetchAs JsonValue.getObject root field = .ok object → RationalInRange object
  frame : parser.format = .video → ∀ field ∈ ["frame_width", "frame_height"], ∀ x,
    fetchAs JsonValue.getNumber root field = .ok x → InUInt64 (truncated x)
  interlaced : parser.interlaced = true → ∀ rate,
    FlowParser.fetchRate root parser.format = .ok rate →
      InInt64 (rate.numerator.toInt * 1001) ∧ InInt64 (rate.denominator.toInt * 30000)

section Parser

variable {object root : JsonObject} {isUuid : String → Bool} {rate : MxlRational}

theorem map_eq_ok {ε α β : Type} {x : Except ε α} {f : α → β} {b : β} :
    f <$> x = .ok b ↔ ∃ a, x = .ok a ∧ f a = b := by
  cases x with
  | error error => exact iff_of_false nofun fun ⟨_, h, _⟩ => nomatch h
  | ok a =>
    constructor
    · intro h
      exact ⟨a, rfl, Except.ok.inj h⟩
    · rintro ⟨a', ha', h⟩
      cases ha'
      exact congrArg Except.ok h

theorem toInt_castInt64 {x : ℚ} (h : InInt64 (truncated x)) :
    (castInt64 x).toInt = truncated x := by
  have hlt : truncated x < 2 ^ (64 - 1) := h.2
  exact Int64.toInt_ofInt_of_le h.1 hlt

/-- A number can be cast, and has an absolute value, if that fits. -/
theorem number_inRange_iff (x : ℚ) :
    InInt64 (truncated x) ∧ InInt64 (castInt64 x).toInt.natAbs ↔ (truncated x).natAbs < 2 ^ 63 := by
  constructor
  · rintro ⟨hcast, habs⟩
    rw [toInt_castInt64 hcast] at habs
    have hlt := habs.2
    omega
  · intro hlt
    have hcast : InInt64 (truncated x) := by
      unfold InInt64
      omega
    rw [toInt_castInt64 hcast]
    refine ⟨hcast, ?_⟩
    unfold InInt64
    omega

theorem faultless_extractNumerator {x : ℚ}
    (h : fetchAs JsonValue.getNumber object "numerator" = .ok x) :
    (extractNumerator object).Faultless ↔ InInt64 (truncated x) := by
  unfold extractNumerator
  rw [faultless_bind_of_ok (result_ofExcept_eq_ok.mpr h)]
  simp [castToInt64]

theorem faultless_extractDenominator {d : Int64}
    (h : MediaExchange.extractDenominator object = .ok d) :
    (extractDenominator object).Faultless ∧ InInt64 d.toInt.natAbs ↔
      ∀ x, fetchAs JsonValue.getNumber object "denominator" = .ok x →
        (truncated x).natAbs < 2 ^ 63 := by
  unfold MediaExchange.extractDenominator at h
  unfold extractDenominator fetchAs
  cases hlookup : object.lookup "denominator" with
  | none =>
    rw [hlookup] at h
    cases h
    exact iff_of_true ⟨faultless_pure _, by decide⟩ nofun
  | some value =>
    rw [hlookup] at h
    dsimp only at h ⊢
    cases hx : value.getNumber with
    | none =>
      rw [hx] at h
      cases h
    | some x =>
      rw [hx] at h
      cases h
      simp only [Except.ok.injEq, forall_eq']
      rw [← number_inRange_iff]
      simp [castToInt64]

theorem inInt64_tdiv {i j : ℤ} (hi : i.natAbs < 2 ^ 63) : InInt64 (i.tdiv j) := by
  have hle := Int.natAbs_tdiv_le_natAbs i j
  unfold InInt64
  omega

theorem faultless_extractRational (h : MediaExchange.extractRational object = .ok rate) :
    (extractRational object).Faultless ↔ RationalInRange object := by
  obtain ⟨n, hn, h⟩ := bind_eq_ok.mp h
  obtain ⟨d, hd, -⟩ := bind_eq_ok.mp h
  have hdivisions : InInt64 n.toInt.natAbs → InInt64 d.toInt.natAbs →
      (if Int64.ofInt (Int.gcd n.toInt d.toInt) ≠ 0 then do
        let numerator ← divideInt64 n (Int64.ofInt (Int.gcd n.toInt d.toInt))
        let denominator ← divideInt64 d (Int64.ofInt (Int.gcd n.toInt d.toInt))
        pure ⟨numerator, denominator⟩
      else pure ⟨n, d⟩ : Computation String MxlRational).Faultless := by
    intro hn' hd'
    split
    · next hg =>
      refine faultless_bind.mpr ⟨faultless_divideInt64.mpr ⟨hg, inInt64_tdiv ?_⟩, fun _ _ =>
        faultless_bind.mpr ⟨faultless_divideInt64.mpr ⟨hg, inInt64_tdiv ?_⟩,
          fun _ _ => faultless_pure _⟩⟩
      · have hlt := hn'.2
        omega
      · have hlt := hd'.2
        omega
    · exact faultless_pure _
  unfold extractRational
  rw [faultless_bind_of_ok ((computes_extractNumerator n).mpr hn),
    faultless_bind_of_ok ((computes_extractDenominator d).mpr hd),
    faultless_bind_of_ok result_gcdInt64, faultless_gcdInt64]
  obtain ⟨x, hx, rfl⟩ := map_eq_ok.mp hn
  have hnumerator : (∀ y, fetchAs JsonValue.getNumber object "numerator" = .ok y →
      (truncated y).natAbs < 2 ^ 63) ↔ (truncated x).natAbs < 2 ^ 63 := by
    rw [hx]
    simp only [Except.ok.injEq, forall_eq']
  rw [faultless_extractNumerator hx, RationalInRange, List.forall_mem_cons, List.forall_mem_singleton,
    hnumerator, ← number_inRange_iff x, ← faultless_extractDenominator hd]
  constructor
  · rintro ⟨hcast, hdenominator, ⟨hn', hd'⟩, -⟩
    exact ⟨⟨hcast, hn'⟩, hdenominator, hd'⟩
  · rintro ⟨⟨hcast, hn'⟩, hdenominator, hd'⟩
    exact ⟨hcast, hdenominator, ⟨hn', hd'⟩, hdivisions hn' hd'⟩

theorem faultless_frameSide {field : String} {side : UInt64}
    (h : (frameSide root field).result = .ok side) : (frameSide root field).Faultless ↔
      ∀ x, fetchAs JsonValue.getNumber root field = .ok x → InUInt64 (truncated x) := by
  obtain ⟨x, hx, -⟩ := result_bind_eq_ok.mp h
  unfold frameSide
  rw [faultless_bind_of_ok hx, result_ofExcept_eq_ok.mp hx]
  simp [castToSize]

theorem faultless_differs (a b : MxlRational) : (differs a b).Faultless ↔
    InInt64 (a.numerator.toInt * b.denominator.toInt) ∧
      InInt64 (a.denominator.toInt * b.numerator.toInt) := by
  unfold differs
  rw [faultless_bind_of_ok result_multiplyInt64, faultless_multiplyInt64,
    faultless_bind_of_ok result_multiplyInt64, faultless_multiplyInt64]
  simp

/-- Comparing with 30000/1001 is what may go wrong; if it does not, neither does comparing
    with 25/1 or doubling. -/
theorem faultless_interlaced {f : Bool → Computation String (Bool × MxlRational)}
    (hresult : (notInterlacedRate rate).result = .ok false)
    (hf : f false = do
      let numerator ← multiplyInt64 rate.numerator 2
      pure (true, { rate with numerator := numerator })) :
    (notInterlacedRate rate >>= f).Faultless ↔
      InInt64 (rate.numerator.toInt * 1001) ∧ InInt64 (rate.denominator.toInt * 30000) := by
  have h1001 : (1001 : Int64).toInt = 1001 := by decide
  have h30000 : (30000 : Int64).toInt = 30000 := by decide
  have h25 : (25 : Int64).toInt = 25 := by decide
  have h2 : (2 : Int64).toInt = 2 := by decide
  have h1 : (1 : Int64).toInt = 1 := by decide
  have hn := rate.numerator.toInt_lt
  have hn' := rate.numerator.le_toInt
  rw [faultless_bind_of_ok hresult, hf, faultless_bind_of_ok result_multiplyInt64,
    faultless_multiplyInt64, h2]
  constructor
  · rintro ⟨hcompare, -⟩
    have hfirst := (faultless_bind.mp hcompare).1
    rwa [faultless_differs, h1001, h30000] at hfirst
  · rintro ⟨hleft, hright⟩
    have hfirst : (differs rate ⟨30000, 1001⟩).Faultless := by
      rw [faultless_differs, h1001, h30000]
      exact ⟨hleft, hright⟩
    have hsecond : (differs rate ⟨25, 1⟩).Faultless := by
      rw [faultless_differs, h1, h25]
      unfold InInt64 at hright ⊢
      omega
    refine ⟨faultless_bind.mpr ⟨hfirst, fun b _ => ?_⟩, ?_, faultless_pure _⟩
    · cases b with
      | false => exact faultless_pure _
      | true => exact hsecond
    · unfold InInt64 at hleft ⊢
      omega

theorem faultless_checkVideo {interlaced : Bool} {fieldRate : MxlRational}
    (h : (checkVideo root rate).result = .ok (interlaced, fieldRate)) :
    (checkVideo root rate).Faultless ↔
      (∀ field ∈ ["frame_width", "frame_height"], ∀ x,
        fetchAs JsonValue.getNumber root field = .ok x → InUInt64 (truncated x)) ∧
      (interlaced = true → InInt64 (rate.numerator.toInt * 1001) ∧
        InInt64 (rate.denominator.toInt * 30000)) := by
  obtain ⟨width, hwidth, hrest⟩ := result_bind_eq_ok.mp h
  obtain ⟨height, hheight, hrest⟩ := result_bind_eq_ok.mp hrest
  unfold checkVideo
  rw [faultless_bind_of_ok hwidth, faultless_bind_of_ok hheight, faultless_frameSide hwidth,
    faultless_frameSide hheight, List.forall_mem_cons, List.forall_mem_singleton, and_assoc]
  refine and_congr_right' (and_congr_right' ?_)
  split at hrest
  · cases hrest
  · next hdim =>
    rw [if_neg hdim]
    obtain ⟨mode, hmode, hrest⟩ := result_bind_eq_ok.mp hrest
    rw [faultless_bind_of_ok hmode]
    simp only [faultless_ofExcept, true_and]
    split at hrest
    · next hprogressive =>
      rw [if_pos hprogressive]
      cases hrest
      exact iff_of_true (faultless_pure _) fun h => absurd h Bool.false_ne_true
    · next hother =>
      rw [if_neg hother]
      split at hrest
      · next hinterlaced =>
        rw [if_pos hinterlaced]
        obtain ⟨wrong, hwrong, hrest⟩ := result_bind_eq_ok.mp hrest
        cases wrong with
        | true => cases hrest
        | false =>
          cases hrest
          rw [faultless_interlaced hwrong rfl]
          exact ⟨fun hproducts _ => hproducts, fun hproducts => hproducts rfl⟩
      · cases hrest

theorem faultless_fetchRate {format : MxlDataFormat}
    (h : FlowParser.fetchRate root format = .ok rate) :
    (fetchRate root format).Faultless ↔
      ∀ field object, rateField format = .ok field →
        fetchAs JsonValue.getObject root field = .ok object → RationalInRange object := by
  obtain ⟨field, hfield, hrate⟩ := result_bind_eq_ok.mp ((computes_fetchRate format rate).mpr h)
  obtain ⟨object, hobject, hrate⟩ := result_bind_eq_ok.mp hrate
  unfold fetchRate
  rw [faultless_bind_of_ok hfield, faultless_bind_of_ok hobject,
    faultless_extractRational ((computes_extractRational rate).mp hrate),
    result_ofExcept_eq_ok.mp hfield]
  simp only [faultless_ofExcept, true_and, Except.ok.injEq]
  constructor
  · rintro hinRange _ _ rfl hobject'
    rw [result_ofExcept_eq_ok.mp hobject] at hobject'
    cases hobject'
    exact hinRange
  · intro hinRange
    exact hinRange field object rfl (result_ofExcept_eq_ok.mp hobject)

/-- The parser's arithmetic, for a definition it lets through. -/
theorem faultless_parse {parser : FlowParser}
    (h : FlowParser.parse isUuid root = .ok parser) :
    (parse isUuid root).Faultless ↔ DefinitionInRange root parser := by
  obtain ⟨id, hid, hrest⟩ := result_bind_eq_ok.mp (parse_eq_ok.mpr h)
  unfold parse
  rw [faultless_bind_of_ok hid]
  split at hrest
  · next huuid =>
    obtain ⟨format, hformat, hrest⟩ := result_bind_eq_ok.mp hrest
    obtain ⟨rate, hrate, hrest⟩ := result_bind_eq_ok.mp hrest
    obtain ⟨_, hcommon, hrest⟩ := result_bind_eq_ok.mp hrest
    have hfetch := (computes_fetchRate format rate).mp hrate
    rw [if_pos huuid, faultless_bind_of_ok hformat, faultless_bind_of_ok hrate,
      faultless_bind_of_ok hcommon, faultless_fetchRate hfetch]
    simp only [faultless_ofExcept, true_and]
    split at hrest
    · next hvideo =>
      obtain ⟨⟨interlaced, fieldRate⟩, hcheck, hrest⟩ := result_bind_eq_ok.mp hrest
      cases hrest
      rw [if_pos hvideo, faultless_bind_of_ok hcheck, faultless_checkVideo hcheck]
      constructor
      · rintro ⟨hin, ⟨hframe, hinterlaced⟩, -⟩
        refine ⟨hin, fun _ => hframe, fun htrue rate' hrate' => ?_⟩
        rw [hfetch] at hrate'
        cases hrate'
        exact hinterlaced htrue
      · rintro ⟨hin, hframe, hinterlaced⟩
        exact ⟨hin, ⟨hframe hvideo, fun htrue => hinterlaced htrue rate hfetch⟩, faultless_pure _⟩
    · next hother =>
      cases hrest
      rw [if_neg hother]
      constructor
      · rintro ⟨hin, -⟩
        exact ⟨hin, fun hvideo => absurd hvideo hother, fun h => absurd h Bool.false_ne_true⟩
      · rintro ⟨hin, -, -⟩
        exact ⟨hin, faultless_pure _⟩
  · cases hrest

end Parser

/-! ### The length of a ring -/

/-- The history in grains or samples can be worked out in 64 bits. -/
def HistoryInRange (unit historyDuration : UInt64) (rate : MxlRational) : Prop :=
  InUInt64 (historyDuration.toNat * rate.numerator.toInt) ∧ 0 < rate.denominator.toInt ∧
    unit.toNat * rate.denominator.toInt < 2 ^ 64

/-- The history in grains or samples, among the integers. -/
def exactQuotient (unit historyDuration : UInt64) (rate : MxlRational) : ℤ :=
  (historyDuration.toNat * rate.numerator.toInt).fdiv (unit.toNat * rate.denominator.toInt)

/-- Rounded up to whole pages. -/
def pagedLength (length perPage : ℤ) : ℤ := (length + perPage - 1) / perPage * perPage

/-- The length of a ring, among the integers. -/
def exactLength (historyDuration : UInt64) (parser : FlowParser) : ℤ :=
  if mxlIsDiscreteDataFormat parser.format then
    exactQuotient 1000000000 historyDuration parser.grainRate
  else
    match parser.getPayloadSize with
    | .error _ => 0
    | .ok sampleWordSize =>
        pagedLength (exactQuotient 500000000 historyDuration parser.grainRate)
          (4096 / sampleWordSize.toNat)

section Length

variable {unit historyDuration : UInt64} {rate : MxlRational} {α : Type}

theorem toNat_perUnit (h : HistoryInRange unit historyDuration rate) :
    ((unit * rate.denominator.toUInt64).toNat : ℤ) = unit.toNat * rate.denominator.toInt := by
  obtain ⟨-, hpos, hlt⟩ := h
  rw [toNat_mul_toUInt64]
  exact Int.emod_eq_of_lt (Int.mul_nonneg (Int.natCast_nonneg _) hpos.le) hlt

theorem exactQuotient_eq (h : HistoryInRange unit historyDuration rate) :
    ((ringLength unit historyDuration rate).toNat : ℤ) =
      exactQuotient unit historyDuration rate := by
  have htotal : ((historyDuration * rate.numerator.toUInt64).toNat : ℤ) =
      historyDuration.toNat * rate.numerator.toInt := by
    rw [toNat_mul_toUInt64]
    exact Int.emod_eq_of_lt h.1.1 h.1.2
  have hunit := Int.mul_nonneg (Int.natCast_nonneg unit.toNat) h.2.1.le
  rw [ringLength, UInt64.toNat_div, Int.natCast_ediv, htotal, toNat_perUnit h, exactQuotient,
    Int.fdiv_eq_ediv_of_nonneg _ hunit]

theorem perUnit_ne_zero (hunit : 0 < unit.toNat) (h : HistoryInRange unit historyDuration rate) :
    unit * rate.denominator.toUInt64 ≠ 0 := by
  intro hzero
  have hprod := toNat_perUnit h
  rw [hzero] at hprod
  have hpos := Int.mul_pos (Int.natCast_pos.mpr hunit) h.2.1
  rw [← hprod] at hpos
  exact absurd hpos (by decide)

/-- The three operations with which both kinds of flow begin. -/
theorem faultless_history {f : UInt64 → Computation String α} (hunit : 0 < unit.toNat) :
    (do
      let total ← scale historyDuration rate.numerator
      let perUnit ← scale unit rate.denominator
      let length ← divide total perUnit
      f length).Faultless ↔
      HistoryInRange unit historyDuration rate ∧
        (f (ringLength unit historyDuration rate)).Faultless := by
  rw [faultless_bind_of_ok result_scale, faultless_scale, faultless_bind_of_ok result_scale,
    faultless_scale, faultless_bind, faultless_divide]
  simp only [result_divide_eq_ok]
  constructor
  · rintro ⟨htotal, hper, hne, hrest⟩
    have hpos : 0 < rate.denominator.toInt := by
      have hnonneg : 0 ≤ rate.denominator.toInt :=
        Int.le_of_mul_le_mul_left (by simpa using hper.1) (Int.natCast_pos.mpr hunit)
      refine lt_of_le_of_ne hnonneg fun hzero => hne (UInt64.toNat_inj.mp ?_)
      have hprod := toNat_mul_toUInt64 unit rate.denominator
      rw [← hzero, Int.mul_zero] at hprod
      exact Int.natCast_inj.mp hprod
    exact ⟨⟨htotal, hpos, hper.2⟩, hrest _ ⟨hne, rfl⟩⟩
  · rintro ⟨hhistory, hrest⟩
    refine ⟨hhistory.1, ⟨?_, hhistory.2.2⟩, perUnit_ne_zero hunit hhistory, ?_⟩
    · exact Int.mul_nonneg (Int.natCast_nonneg _) hhistory.2.1.le
    · rintro _ ⟨-, rfl⟩
      exact hrest

/-- Rounding up to pages leaves no range. -/
theorem faultless_pageAligned {len word : UInt64} (hword : word = 4 ∨ word = 8)
    (hlen : len.toNat < 2 ^ 62) : (pageAligned len word).Faultless := by
  obtain ⟨hne, page, hpage, hne', hcases⟩ : word ≠ 0 ∧ ∃ page, 4096 / word = page ∧ page ≠ 0 ∧
      (page.toNat = 1024 ∨ page.toNat = 512) := by
    rcases hword with rfl | rfl
    · exact ⟨by decide, 1024, by decide, by decide, Or.inl rfl⟩
    · exact ⟨by decide, 512, by decide, by decide, Or.inr rfl⟩
  have h1 : (1 : UInt64).toNat = 1 := rfl
  have hraised : (len + page).toNat = len.toNat + page.toNat := by
    rw [UInt64.toNat_add]
    omega
  have hlast : (len + page - 1).toNat = len.toNat + page.toNat - 1 := by
    rw [UInt64.toNat_sub, hraised, h1]
    omega
  unfold pageAligned
  rw [faultless_bind_of_ok (result_divide_eq_ok.mpr ⟨hne, hpage.symm⟩), faultless_divide,
    faultless_bind_of_ok result_add, faultless_add, faultless_bind_of_ok result_subtract,
    faultless_subtract, hraised, h1,
    faultless_bind_of_ok (result_divide_eq_ok.mpr ⟨hne', rfl⟩), faultless_divide,
    faultless_multiply, UInt64.toNat_div, hlast]
  unfold InUInt64
  refine ⟨hne, by omega, by omega, hne', ?_⟩
  rcases hcases with hvalue | hvalue <;> rw [hvalue] <;> omega

theorem faultless_defaultBatchSize (h : HistoryInRange 500000000 historyDuration rate) :
    (defaultBatchSize rate).Faultless := by
  obtain ⟨-, hpos, hlt⟩ := h
  have h500000000 : (500000000 : UInt64).toNat = 500000000 := rfl
  have h100 : (100 : Int64).toInt = 100 := by decide
  rw [h500000000] at hlt
  have hproduct : (100 * rate.denominator).toInt = 100 * rate.denominator.toInt := by
    rw [Int64.toInt_mul, h100]
    exact Int.bmod_eq_of_le (by omega) (by omega)
  have hne : 100 * rate.denominator ≠ 0 := by
    intro hzero
    rw [hzero] at hproduct
    have h0 : (0 : Int64).toInt = 0 := rfl
    omega
  unfold defaultBatchSize
  rw [faultless_bind_of_ok result_multiplyInt64, faultless_multiplyInt64, faultless_divideInt64,
    h100, hproduct]
  refine ⟨by unfold InInt64; omega, hne, ?_⟩
  have hn := rate.numerator.le_toInt
  have hn' := rate.numerator.toInt_lt
  have habs := Int.natAbs_tdiv rate.numerator.toInt (100 * rate.denominator.toInt)
  have hquotient : (rate.numerator.toInt.tdiv (100 * rate.denominator.toInt)).natAbs ≤
      rate.numerator.toInt.natAbs / 100 := by
    rw [habs]
    exact Nat.div_le_div_left (by omega) (by decide)
  unfold InInt64
  omega

end Length

/-! ### The request and the flow -/

/-- A number of channels is less than 2^64. -/
def ChannelCountInRange (root : JsonObject) : Prop :=
  ∀ x, root.lookup "channel_count" = some (.number x) → x.den = 1 → x.num < 2 ^ 64

theorem faultless_getChannelCount (root : JsonObject) :
    (getChannelCount root).Faultless ↔ ChannelCountInRange root := by
  unfold getChannelCount ChannelCountInRange
  cases root.lookup "channel_count" with
  | none => simp
  | some value =>
    cases value with
    | number x =>
      simp only [Option.some.injEq, JsonValue.number.injEq, forall_eq']
      split
      · next hcount =>
        have htruncated : truncated x = x.num := by
          rw [truncated, hcount.1]
          exact Int.tdiv_one x.num
        have hpos : 0 < x.num := Rat.num_pos.mpr hcount.2
        simp only [castToSize, faultless_operation, decide_eq_true_eq, htruncated, InUInt64,
          hcount.1, forall_const]
        exact ⟨And.right, fun hlt => ⟨hpos.le, hlt⟩⟩
      · next hcount =>
        apply iff_of_true (faultless_throw _)
        intro hden
        have hle : ¬ 0 < x.num := fun hpos => hcount ⟨hden, Rat.num_pos.mp hpos⟩
        omega
    | null => simp
    | boolean value => simp
    | string value => simp
    | array elements => simp
    | object fields => simp

section Flow

variable {historyDuration : UInt64} {flowDef : String} {parser : FlowParser}
  {options : FlowOptionsParser} {inode : Nat} {now : UInt64} {d : Directory}

/-- The length of the ring that the data file of a flow names. -/
def storedLength (format : MxlDataFormat) (d : Directory) : ℕ :=
  let config := (d.flow.getD {}).info.config
  if mxlIsDiscreteDataFormat format then config.discrete.grainCount.toNat
  else config.continuous.bufferLength.toNat

@[simp] theorem faultless_finished (x : Option Directory) : (finished x).Faultless := by
  cases x with
  | none => exact faultless_throw _
  | some d => exact faultless_pure d

theorem faultless_ofExcept_bind {α β : Type} {x : Except String α} {f : α → Computation String β} :
    (ofExcept x >>= f).Faultless ↔ ∀ a, x = .ok a → (f a).Faultless := by
  rw [faultless_bind]
  simp only [faultless_ofExcept, true_and, result_ofExcept_eq_ok]

/-! ### Discrete flows -/

theorem faultless_createOrOpenFlow_discrete
    (hformat : mxlIsDiscreteDataFormat parser.format = true) :
    (createOrOpenFlow historyDuration flowDef parser options inode now).Faultless ↔
      HistoryInRange 1000000000 historyDuration parser.grainRate := by
  unfold createOrOpenFlow createOrOpenFlowData
  rw [if_pos hformat, faultless_bind, faultless_bind, createOrOpenDiscreteFlowData,
    faultless_history (by decide)]
  simp only [faultless_ofExcept_bind, faultless_pure, implies_true, and_true]
  constructor
  · intro h
    exact h.1
  · intro h
    refine ⟨h, fun request hrequest => ?_⟩
    obtain ⟨r, -, hr⟩ := result_bind_eq_ok.mp hrequest
    cases hr
    exact faultless_finished _

theorem grainFormat_eq_ok_iff :
    (∃ format, parser.grainFormat = .ok format) ↔
      ∃ totalSlices payloadSize sliceLengths, parser.getTotalPayloadSlices = .ok totalSlices ∧
        parser.getPayloadSize = .ok payloadSize ∧
        parser.getPayloadSliceLengths = .ok sliceLengths := by
  constructor
  · rintro ⟨format, hformat⟩
    obtain ⟨payloadSize, hsize, h⟩ := bind_eq_ok.mp hformat
    obtain ⟨totalSlices, htotal, h⟩ := bind_eq_ok.mp h
    obtain ⟨sliceLengths, hlengths, -⟩ := bind_eq_ok.mp h
    exact ⟨totalSlices, payloadSize, sliceLengths, htotal, hsize, hlengths⟩
  · rintro ⟨totalSlices, payloadSize, sliceLengths, htotal, hsize, hlengths⟩
    exact ⟨_, bind_eq_ok.mpr ⟨payloadSize, hsize, bind_eq_ok.mpr ⟨totalSlices, htotal,
      bind_eq_ok.mpr ⟨sliceLengths, hlengths, rfl⟩⟩⟩⟩

/-- A discrete flow is created unless the parser refuses to say what its grains are, and
    its data file names the number of grains in 32 bits. -/
theorem created_discrete (hformat : mxlIsDiscreteDataFormat parser.format = true)
    (hhistory : HistoryInRange 1000000000 historyDuration parser.grainRate) :
    ((∃ d, (createOrOpenFlow historyDuration flowDef parser options inode now).result = .ok d) ↔
      ∃ format, parser.grainFormat = .ok format) ∧
    ∀ d, (createOrOpenFlow historyDuration flowDef parser options inode now).result = .ok d →
      (storedLength parser.format d : ℤ) =
        exactQuotient 1000000000 historyDuration parser.grainRate % 2 ^ 32 := by
  have hunit := perUnit_ne_zero (by decide) hhistory
  simp only [createOrOpenFlow_discrete_eq_ok hformat, grainFormat_eq_ok_iff]
  constructor
  · constructor
    · rintro ⟨d, -, totalSlices, payloadSize, sliceLengths, htotal, hsize, hlengths, -⟩
      exact ⟨totalSlices, payloadSize, sliceLengths, htotal, hsize, hlengths⟩
    · rintro ⟨totalSlices, payloadSize, sliceLengths, htotal, hsize, hlengths⟩
      obtain ⟨d, hd⟩ := createFlow_discrete (discreteRequest historyDuration flowDef parser options
        totalSlices payloadSize sliceLengths)
      exact ⟨d, hunit, _, _, _, htotal, hsize, hlengths, hd⟩
  · rintro d ⟨-, totalSlices, payloadSize, sliceLengths, -, -, -, hd⟩
    obtain ⟨f, hf, hinit⟩ := (built_of_createFlow hd).flow
    have hcount : f.info.config.discrete.grainCount =
        (ringLength 1000000000 historyDuration parser.grainRate).toUInt32 := by
      rw [hinit.config]
      rfl
    rw [storedLength, if_pos hformat, hf, Option.getD_some, hcount, UInt64.toNat_toUInt32,
      Int.natCast_mod, exactQuotient_eq hhistory]
    rfl

/-! ### Continuous flows -/

theorem faultless_channelBuffersSize {r : ContinuousRequest}
    (hword : r.sampleWordSize = 4 ∨ r.sampleWordSize = 8) :
    (channelBuffersSize r).Faultless ↔
      r.channelCount.toNat % 2 ^ 32 * (r.bufferLength.toNat % 2 ^ 32) < 2 ^ 32 := by
  have hsize : (r.channelCount.toUInt32 * r.bufferLength.toUInt32).toNat *
      r.sampleWordSize.toNat < 2 ^ 64 := by
    have hlt := (r.channelCount.toUInt32 * r.bufferLength.toUInt32).toNat_lt
    have hvalue : r.sampleWordSize.toNat = 4 ∨ r.sampleWordSize.toNat = 8 :=
      hword.imp (congrArg UInt64.toNat) (congrArg UInt64.toNat)
    rcases hvalue with hvalue | hvalue <;> rw [hvalue] <;> omega
  unfold channelBuffersSize
  rw [faultless_bind_of_ok result_multiplyUInt32, faultless_multiplyUInt32, faultless_multiply,
    UInt32.toNat_toUInt64, UInt64.toNat_toUInt32, UInt64.toNat_toUInt32]
  unfold InUInt32 InUInt64
  norm_cast
  exact ⟨fun h => h.1.2, fun h => ⟨⟨Nat.zero_le _, h⟩, Nat.zero_le _, hsize⟩⟩

theorem toNat_bufferLength (hformat : parser.format = .audio) {word : UInt64}
    (hword : parser.getPayloadSize = .ok word)
    (hhistory : HistoryInRange 500000000 historyDuration parser.grainRate) :
    ((alignedLength (ringLength 500000000 historyDuration parser.grainRate) word).toNat : ℤ) =
      exactLength historyDuration parser := by
  have hcases := getPayloadSize_audio hformat hword
  have hpage : 0 < 4096 / word.toNat := by
    rcases hcases with rfl | rfl <;> decide
  have hlength : (ringLength 500000000 historyDuration parser.grainRate).toNat < 2 ^ 62 :=
    ringLength_lt (perUnit_ne_zero (by decide) hhistory)
  have hexact : exactLength historyDuration parser =
      pagedLength (exactQuotient 500000000 historyDuration parser.grainRate)
        (4096 / word.toNat) := by
    rw [exactLength, if_neg (by rw [hformat]; decide), hword]
  rw [toNat_alignedLength hcases hlength, hexact, ← exactQuotient_eq hhistory, pagedLength]
  push_cast [Nat.cast_sub (show 1 ≤ (ringLength 500000000 historyDuration parser.grainRate).toNat +
    4096 / word.toNat by omega)]
  rfl

theorem faultless_continuousFlowData (hformat : parser.format = .audio) :
    (createOrOpenContinuousFlowData historyDuration flowDef parser options).Faultless ↔
      HistoryInRange 500000000 historyDuration parser.grainRate ∧
        ∀ word, parser.getPayloadSize = .ok word → ChannelCountInRange parser.root := by
  unfold createOrOpenContinuousFlowData
  rw [faultless_history (by decide)]
  apply and_congr_right
  intro hhistory
  have hunit : 500000000 * parser.grainRate.denominator.toUInt64 ≠ 0 :=
    perUnit_ne_zero (by decide) hhistory
  rw [faultless_ofExcept_bind]
  apply forall₂_congr
  intro word hword
  have hcases := getPayloadSize_audio hformat hword
  rw [faultless_bind_of_ok ((pageAligned_eq_ok hcases).mpr rfl),
    faultless_bind_of_ok ((defaultBatchSize_eq_ok hunit).mpr rfl), faultless_bind,
    faultless_getChannelCount]
  have hlength : (ringLength 500000000 historyDuration parser.grainRate).toNat < 2 ^ 62 :=
    ringLength_lt hunit
  simp only [faultless_pageAligned hcases hlength, faultless_defaultBatchSize hhistory,
    faultless_pure, implies_true, and_true, true_and]

/-- The number of samples in 32 bits, for the channel buffers of a flow. -/
theorem natCast_samples (hformat : parser.format = .audio)
    (hhistory : HistoryInRange 500000000 historyDuration parser.grainRate) {word : UInt64}
    (hword : parser.getPayloadSize = .ok word) (count : UInt64) :
    ((count.toNat % 2 ^ 32 *
      ((alignedLength (ringLength 500000000 historyDuration parser.grainRate) word).toNat %
        2 ^ 32) : ℕ) : ℤ) =
      (count.toNat % 2 ^ 32) * (exactLength historyDuration parser % 2 ^ 32) := by
  rw [← toNat_bufferLength hformat hword hhistory]
  push_cast
  rfl

theorem faultless_createOrOpenFlow_continuous (hformat : parser.format = .audio) :
    (createOrOpenFlow historyDuration flowDef parser options inode now).Faultless ↔
      HistoryInRange 500000000 historyDuration parser.grainRate ∧
        ∀ word, parser.getPayloadSize = .ok word → ChannelCountInRange parser.root ∧
          ∀ count, (getChannelCount parser.root).result = .ok count →
            (count.toNat % 2 ^ 32 : ℤ) * (exactLength historyDuration parser % 2 ^ 32) <
              2 ^ 32 := by
  have hbuffers : ∀ word, parser.getPayloadSize = .ok word →
      HistoryInRange 500000000 historyDuration parser.grainRate → ∀ count,
      ((createFlow inode now (.continuous (continuousRequest historyDuration flowDef parser options
        word count))).Faultless ↔
      (count.toNat % 2 ^ 32 : ℤ) * (exactLength historyDuration parser % 2 ^ 32) < 2 ^ 32) := by
    intro word hword hhistory count
    have hsize := faultless_channelBuffersSize (getPayloadSize_audio hformat hword)
      (r := continuousRequest historyDuration flowDef parser options word count)
    rw [createFlow, faultless_bind, hsize, ← natCast_samples hformat hhistory hword]
    simp only [faultless_finished, implies_true, and_true]
    norm_cast
  unfold createOrOpenFlow createOrOpenFlowData
  rw [if_neg (by rw [hformat]; decide), if_pos (by rw [hformat]; rfl), faultless_bind,
    faultless_bind, faultless_continuousFlowData hformat]
  simp only [faultless_pure, implies_true, and_true, result_bind_eq_ok, result_pure,
    Except.ok.injEq]
  constructor
  · rintro ⟨⟨hhistory, hchannels⟩, hflow⟩
    refine ⟨hhistory, fun word hword => ⟨hchannels word hword, fun count hcount => ?_⟩⟩
    have hrequest : (createOrOpenContinuousFlowData historyDuration flowDef parser options).result =
        .ok (continuousRequest historyDuration flowDef parser options word count) :=
      (continuousFlowData_eq_ok hformat).mpr ⟨perUnit_ne_zero (by decide) hhistory, word, count, hword, hcount, rfl⟩
    exact (hbuffers word hword hhistory count).mp (hflow _ ⟨_, hrequest, rfl⟩)
  · rintro ⟨hhistory, hrest⟩
    refine ⟨⟨hhistory, fun word hword => (hrest word hword).1⟩, ?_⟩
    rintro _ ⟨r, hr, rfl⟩
    obtain ⟨-, word, count, hword, hcount, rfl⟩ := (continuousFlowData_eq_ok hformat).mp hr
    exact (hbuffers word hword hhistory count).mpr ((hrest word hword).2 count hcount)

/-- A continuous flow is created unless the parser refuses its samples or its channels, or
    the channel buffers have no length. -/
theorem created_continuous (hformat : parser.format = .audio)
    (hhistory : HistoryInRange 500000000 historyDuration parser.grainRate) {word count : UInt64}
    (hword : parser.getPayloadSize = .ok word)
    (hcount : (getChannelCount parser.root).result = .ok count)
    (hproduct : (count.toNat % 2 ^ 32 : ℤ) * (exactLength historyDuration parser % 2 ^ 32) <
      2 ^ 32) :
    (∃ d, (createOrOpenFlow historyDuration flowDef parser options inode now).result = .ok d) ↔
      (0 : ℤ) < (count.toNat % 2 ^ 32) * (exactLength historyDuration parser % 2 ^ 32) := by
  have hne : word ≠ 0 := by
    rcases getPayloadSize_audio hformat hword with rfl | rfl <;> decide
  have hexists := @exists_createFlow_continuous_iff inode now
    (continuousRequest historyDuration flowDef parser options word count) hne
  rw [← natCast_samples hformat hhistory hword] at hproduct ⊢
  have hlength : (Request.continuous (continuousRequest historyDuration flowDef parser options
      word count)).config.buffersLength.toNat = count.toNat % 2 ^ 32 *
        ((alignedLength (ringLength 500000000 historyDuration parser.grainRate) word).toNat %
          2 ^ 32) := by
    rw [buffersLength_toNat, UInt64.toNat_toUInt32, UInt64.toNat_toUInt32]
    exact Nat.mod_eq_of_lt (by exact_mod_cast hproduct)
  rw [Int.natCast_pos, ← hlength]
  constructor
  · rintro ⟨d, hd⟩
    obtain ⟨-, word', count', hword', hcount', hd⟩ :=
      (createOrOpenFlow_continuous_eq_ok hformat).mp hd
    rw [hword] at hword'
    rw [hcount] at hcount'
    cases hword'
    cases hcount'
    exact UInt32.lt_iff_toNat_lt.mp (hexists.mp ⟨d, hd⟩)
  · intro hpos
    obtain ⟨d, hd⟩ := hexists.mpr (UInt32.lt_iff_toNat_lt.mpr hpos)
    exact ⟨d, (createOrOpenFlow_continuous_eq_ok hformat).mpr
      ⟨perUnit_ne_zero (by decide) hhistory, word, count, hword, hcount, hd⟩⟩

theorem storedLength_continuous (hformat : parser.format = .audio)
    (hhistory : HistoryInRange 500000000 historyDuration parser.grainRate)
    (h : (createOrOpenFlow historyDuration flowDef parser options inode now).result = .ok d) :
    (storedLength parser.format d : ℤ) = exactLength historyDuration parser % 2 ^ 32 := by
  obtain ⟨-, word, count, hword, hcount, hd⟩ := (createOrOpenFlow_continuous_eq_ok hformat).mp h
  obtain ⟨f, hf, hinit⟩ := (built_of_createFlow hd).flow
  have hlength : f.info.config.continuous.bufferLength =
      (alignedLength (ringLength 500000000 historyDuration parser.grainRate) word).toUInt32 := by
    rw [hinit.config]
    rfl
  rw [storedLength, if_neg (by rw [hformat]; decide), hf, Option.getD_some, hlength,
    UInt64.toNat_toUInt32, Int.natCast_mod, toNat_bufferLength hformat hword hhistory]
  rfl

end Flow

/-! ### Usable rings -/

/-- The arithmetic of a call divides by zero nowhere and leaves no type, and if it creates
    a flow, the ring has at least one grain or sample, and as many as it should. -/
structure UsableRing (isUuid : String → Bool) (historyDuration : UInt64) (flowDef : String)
    (root : JsonObject) (parser : FlowParser) (options : FlowOptionsParser) (inode : Nat)
    (now : UInt64) : Prop where
  faultless : (parse isUuid root >>= fun parser =>
    createOrOpenFlow historyDuration flowDef parser options inode now).Faultless
  length : ∀ d, (createOrOpenFlow historyDuration flowDef parser options inode now).result = .ok d →
    1 ≤ storedLength parser.format d ∧
      (storedLength parser.format d : ℤ) = exactLength historyDuration parser

/-- The history is in range, and so is the ring of a flow that is not refused anyway: the
    grains of a discrete flow are between 1 and 2^32 - 1, and the samples of the channel
    buffers of a continuous flow are less than 2^32. -/
def RingInRange (historyDuration : UInt64) (parser : FlowParser) : Prop :=
  let rate := parser.grainRate
  let total := historyDuration.toNat * rate.numerator.toInt
  if mxlIsDiscreteDataFormat parser.format then
    HistoryInRange 1000000000 historyDuration rate ∧
      ((∃ format, parser.grainFormat = .ok format) →
        1000000000 * rate.denominator.toInt ≤ total ∧
          total < 2 ^ 32 * (1000000000 * rate.denominator.toInt))
  else
    HistoryInRange 500000000 historyDuration rate ∧
      ∀ sampleWordSize, parser.getPayloadSize = .ok sampleWordSize →
        ChannelCountInRange parser.root ∧
          ∀ channelCount, (getChannelCount parser.root).result = .ok channelCount →
            let samples : ℤ :=
              channelCount.toNat % 2 ^ 32 * (exactLength historyDuration parser % 2 ^ 32)
            samples < 2 ^ 32 ∧ (0 < samples → exactLength historyDuration parser < 2 ^ 32)

section Main

variable {isUuid : String → Bool} {root : JsonObject} {historyDuration : UInt64} {flowDef : String}
  {parser : FlowParser} {options : FlowOptionsParser} {inode : Nat} {now : UInt64}

theorem exactQuotient_nonneg {unit : UInt64} {rate : MxlRational}
    (h : HistoryInRange unit historyDuration rate) :
    0 ≤ exactQuotient unit historyDuration rate := by
  rw [← exactQuotient_eq h]
  exact Int.natCast_nonneg _

theorem discrete_ring_iff (hformat : mxlIsDiscreteDataFormat parser.format = true) :
    ((createOrOpenFlow historyDuration flowDef parser options inode now).Faultless ∧
      ∀ d, (createOrOpenFlow historyDuration flowDef parser options inode now).result = .ok d →
        1 ≤ storedLength parser.format d ∧
          (storedLength parser.format d : ℤ) = exactLength historyDuration parser) ↔
      RingInRange historyDuration parser := by
  rw [faultless_createOrOpenFlow_discrete hformat, RingInRange, if_pos hformat]
  apply and_congr_right
  intro hhistory
  obtain ⟨hexists, hstored⟩ := @created_discrete historyDuration flowDef parser options inode now
    hformat hhistory
  have hunit : (1000000000 : UInt64).toNat = 1000000000 := rfl
  have hpos : 0 < 1000000000 * parser.grainRate.denominator.toInt :=
    Int.mul_pos (by decide) hhistory.2.1
  have hnonneg := exactQuotient_nonneg hhistory
  have hbounds : (1000000000 * parser.grainRate.denominator.toInt ≤
        historyDuration.toNat * parser.grainRate.numerator.toInt ∧
      historyDuration.toNat * parser.grainRate.numerator.toInt <
        2 ^ 32 * (1000000000 * parser.grainRate.denominator.toInt)) ↔
      1 ≤ exactQuotient 1000000000 historyDuration parser.grainRate ∧
        exactQuotient 1000000000 historyDuration parser.grainRate < 2 ^ 32 := by
    rw [exactQuotient, hunit]
    norm_cast
    rw [Int.fdiv_eq_ediv_of_nonneg _ hpos.le, Int.le_ediv_iff_mul_le hpos,
      Int.ediv_lt_iff_lt_mul hpos, one_mul]
  rw [hbounds, exactLength, if_pos hformat]
  constructor
  · intro h hgrains
    obtain ⟨d, hd⟩ := hexists.mpr hgrains
    have hvalue := hstored d hd
    obtain ⟨hone, hexact⟩ := h d hd
    omega
  · intro h d hd
    have hvalue := hstored d hd
    obtain ⟨hone, hlt⟩ := h (hexists.mp ⟨d, hd⟩)
    omega

theorem continuous_ring_iff (hformat : parser.format = .audio) :
    ((createOrOpenFlow historyDuration flowDef parser options inode now).Faultless ∧
      ∀ d, (createOrOpenFlow historyDuration flowDef parser options inode now).result = .ok d →
        1 ≤ storedLength parser.format d ∧
          (storedLength parser.format d : ℤ) = exactLength historyDuration parser) ↔
      RingInRange historyDuration parser := by
  have hother : ¬ mxlIsDiscreteDataFormat parser.format = true := by
    rw [hformat]
    decide
  rw [faultless_createOrOpenFlow_continuous hformat, RingInRange, if_neg hother]
  constructor
  · rintro ⟨⟨hhistory, hrest⟩, hcreated⟩
    refine ⟨hhistory, fun word hword => ⟨(hrest word hword).1, fun count hcount => ?_⟩⟩
    have hproduct := (hrest word hword).2 count hcount
    refine ⟨hproduct, fun hpos => ?_⟩
    obtain ⟨d, hd⟩ := (created_continuous hformat hhistory hword hcount hproduct).mpr hpos
    have hvalue := storedLength_continuous hformat hhistory hd
    have hexact := (hcreated d hd).2
    omega
  · rintro ⟨hhistory, hrest⟩
    refine ⟨⟨hhistory, fun word hword => ⟨(hrest word hword).1, fun count hcount =>
      ((hrest word hword).2 count hcount).1⟩⟩, fun d hd => ?_⟩
    have hvalue := storedLength_continuous hformat hhistory hd
    obtain ⟨-, word, count, hword, hcount, -⟩ := (createOrOpenFlow_continuous_eq_ok hformat).mp hd
    obtain ⟨hproduct, hlt⟩ := (hrest word hword).2 count hcount
    have hpos := (created_continuous hformat hhistory hword hcount hproduct).mp ⟨d, hd⟩
    have hlength := hlt hpos
    have hnonneg : 0 ≤ exactLength historyDuration parser := by
      rw [← toNat_bufferLength hformat hword hhistory]
      exact Int.natCast_nonneg _
    have hne : exactLength historyDuration parser % 2 ^ 32 ≠ 0 := by
      intro hzero
      rw [hzero, Int.mul_zero] at hpos
      exact absurd hpos (by decide)
    omega

end Main

/-- **A usable ring.**  For a definition that the parser lets through, this is the
    condition on its numbers and on the history duration. -/
theorem usable_ring_iff (isUuid : String → Bool) (historyDuration : UInt64) (flowDef : String)
    (root : JsonObject) (parser : FlowParser) (options : FlowOptionsParser) (inode : Nat)
    (now : UInt64) (hparse : FlowParser.parse isUuid root = .ok parser) :
    UsableRing isUuid historyDuration flowDef root parser options inode now ↔
      DefinitionInRange root parser ∧ RingInRange historyDuration parser := by
  have hring : ((createOrOpenFlow historyDuration flowDef parser options inode now).Faultless ∧
      ∀ d, (createOrOpenFlow historyDuration flowDef parser options inode now).result = .ok d →
        1 ≤ storedLength parser.format d ∧
          (storedLength parser.format d : ℤ) = exactLength historyDuration parser) ↔
      RingInRange historyDuration parser := by
    rcases format_of_parse hparse with hformat | hformat
    · exact discrete_ring_iff hformat
    · exact continuous_ring_iff hformat
  have hfaultless := @faultless_bind_of_ok _ _ _ _ (fun parser =>
    createOrOpenFlow historyDuration flowDef parser options inode now) _ (parse_eq_ok.mpr hparse)
  rw [faultless_parse hparse] at hfaultless
  constructor
  · rintro ⟨hall, hlength⟩
    obtain ⟨hdefinition, hflow⟩ := hfaultless.mp hall
    exact ⟨hdefinition, hring.mp ⟨hflow, hlength⟩⟩
  · rintro ⟨hdefinition, hrange⟩
    obtain ⟨hflow, hlength⟩ := hring.mpr hrange
    exact ⟨hfaultless.mpr ⟨hdefinition, hflow⟩, hlength⟩

/-! ### A second of data, and rates that cannot be used -/

def fifty : JsonObject := [("numerator", .number 50)]

def fiftyOverZero : JsonObject := [("numerator", .number 50), ("denominator", .number 0)]

/-- A flow that would have one grain in ten seconds. -/
def tenth : JsonObject := [("numerator", .number 1), ("denominator", .number 10)]

theorem fifty_inRange :
    DefinitionInRange (dataDocument fifty) (dataParser fifty ⟨50, 1⟩) := by
  refine ⟨fun field object hfield hobject => ?_, nofun, nofun⟩
  obtain rfl := Except.ok.inj hfield
  obtain rfl := Except.ok.inj hobject
  refine List.forall_mem_cons.mpr ⟨fun x hx => ?_, List.forall_mem_singleton.mpr nofun⟩
  obtain rfl := Except.ok.inj hx
  decide

/-- Ten grains at 50 grains a second. -/
theorem usable_ring_fifty :
    UsableRing (fun _ => true) 200000000 "data" (dataDocument fifty) (dataParser fifty ⟨50, 1⟩)
      {} 0 0 := by
  refine (usable_ring_iff _ _ _ _ _ _ _ _ (parse_dataDocument rfl)).mpr ⟨fifty_inRange, ?_⟩
  rw [RingInRange, if_pos (dataParser_discrete _ _)]
  exact ⟨⟨by decide, by decide, by decide⟩, fun _ => by decide⟩

/-- A rate of 50/0 is let through and divides by zero; a rate of 1/10 makes a flow
    without grains. -/
theorem no_usable_ring :
    (FlowParser.parse (fun _ => true) (dataDocument fiftyOverZero) =
        .ok (dataParser fiftyOverZero ⟨1, 0⟩) ∧
      ¬ UsableRing (fun _ => true) 200000000 "data" (dataDocument fiftyOverZero)
        (dataParser fiftyOverZero ⟨1, 0⟩) {} 0 0) ∧
    FlowParser.parse (fun _ => true) (dataDocument tenth) =
        .ok (dataParser tenth ⟨1, 10⟩) ∧
      ¬ UsableRing (fun _ => true) 200000000 "data" (dataDocument tenth)
        (dataParser tenth ⟨1, 10⟩) {} 0 0 := by
  have hparse : FlowParser.parse (fun _ => true) (dataDocument fiftyOverZero) =
      .ok (dataParser fiftyOverZero ⟨1, 0⟩) := parse_dataDocument rfl
  have hparse' : FlowParser.parse (fun _ => true) (dataDocument tenth) =
      .ok (dataParser tenth ⟨1, 10⟩) := parse_dataDocument rfl
  refine ⟨⟨hparse, fun h => ?_⟩, hparse', fun h => ?_⟩
  · have hflow := ((faultless_bind_of_ok (parse_eq_ok.mpr hparse)).mp h.faultless).2
    have hhistory := (faultless_createOrOpenFlow_discrete rfl).mp hflow
    exact absurd hhistory.2.1 (by decide)
  · have hflow := ((faultless_bind_of_ok (parse_eq_ok.mpr hparse')).mp h.faultless).2
    have hring := (discrete_ring_iff rfl).mp ⟨hflow, h.length⟩
    rw [RingInRange, if_pos (dataParser_discrete _ _)] at hring
    exact absurd (hring.2 ⟨_, rfl⟩).1 (by decide)

end MediaExchange.FlowSizing
