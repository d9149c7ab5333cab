/-
  MediaExchange/IndexTimestamps.lean
  ==================================
  **Indices and time stamps convert back and forth** (`IndexConversion.hpp`,
  `time.cpp`).

  Both conversions round to the nearest integer, halves upwards: the one divides
  by the numerator of the rate, the other by its denominator in nanoseconds.  For
  rates up to one index per nanosecond the grid of the indices is the coarser one,
  and the lemmas of `NearestQuotient` apply.
-/
import Mathlib.Algebra.Order.Ring.Rat
import Mathlib.Tactic.FieldSimp
import Mathlib.Tactic.NormNum
import Mathlib.Tactic.Positivity
import MediaExchange.IndexConversion
import MediaExchange.Library.NearestQuotient

namespace MediaExchange

open Library

/-! ### The calls of the library -/

/-- `mxlTimestampToIndex`; the pointer may be null. -/
def mxlTimestampToIndex (editRate : Option MxlRational) (timestamp : UInt64) : UInt64 :=
  match editRate with
  | some editRate => timestampToIndex editRate timestamp.toInt64
  | none => MXL_UNDEFINED_INDEX

/-- `mxlIndexToTimestamp`: a time point converts to true when it is not zero. -/
def mxlIndexToTimestamp (editRate : Option MxlRational) (index : UInt64) : UInt64 :=
  match editRate with
  | some editRate =>
    let res := indexToTimestamp editRate index
    if res ≠ 0 ∨ index = 0 then res.toUInt64 else MXL_UNDEFINED_INDEX
  | none => MXL_UNDEFINED_INDEX

/-! ### Ranges -/

/-- A value that an `__int128_t` holds. -/
def InInt128 (x : Int) : Prop := -2 ^ 127 ≤ x ∧ x < 2 ^ 127

/-- The intermediate values of `indexToTimestamp`. -/
def IndexProductsFit (editRate : MxlRational) (index : UInt64) : Prop :=
  InInt128 (index.toNat * editRate.denominator.toInt) ∧
  InInt128 (index.toNat * editRate.denominator.toInt * 1000000000) ∧
  InInt128 (index.toNat * editRate.denominator.toInt * 1000000000 +
    editRate.numerator.toInt.tdiv 2)

/-- The intermediate values of `timestampToIndex`. -/
def TimestampProductsFit (editRate : MxlRational) (timestamp : Timepoint) : Prop :=
  InInt128 (timestamp.toInt * editRate.numerator.toInt) ∧
  InInt128 (500000000 * editRate.denominator.toInt) ∧
  InInt128 (timestamp.toInt * editRate.numerator.toInt +
    500000000 * editRate.denominator.toInt) ∧
  InInt128 (1000000000 * editRate.denominator.toInt)

/-- The denominator of a rate, counted in nanoseconds. -/
def MxlRational.nanoDenominator (editRate : MxlRational) : Int :=
  editRate.denominator.toInt * 1000000000

/-- The time stamp of an index, in integers of any size. -/
def exactTimestamp (editRate : MxlRational) (index : UInt64) : Int :=
  nearest (index.toNat * editRate.nanoDenominator) editRate.numerator.toInt

/-- The time stamp of `index` is a 64-bit nanosecond count. -/
def TimestampFits (editRate : MxlRational) (index : UInt64) : Prop :=
  exactTimestamp editRate index < 2 ^ 63

/-- The duration of one index, in nanoseconds. -/
def MxlRational.period (editRate : MxlRational) : Rat :=
  editRate.nanoDenominator / editRate.numerator.toInt

/-- A positive rate of at most one index per nanosecond. -/
structure MxlRational.Countable (editRate : MxlRational) : Prop where
  denominator_pos : 0 < editRate.denominator.toInt
  numerator_pos : 0 < editRate.numerator.toInt
  numerator_le : editRate.numerator.toInt ≤ 1000000000 * editRate.denominator.toInt

section Countable

variable {editRate : MxlRational} {index : UInt64} {timestamp : Timepoint}

theorem MxlRational.Countable.ne_zero (h : editRate.Countable) :
    editRate.denominator ≠ 0 ∧ editRate.numerator ≠ 0 := by
  have hd := h.denominator_pos
  have hn := h.numerator_pos
  constructor <;> rintro heq <;> simp [heq] at hd hn

theorem MxlRational.Countable.numerator_le_nano (h : editRate.Countable) :
    editRate.numerator.toInt ≤ editRate.nanoDenominator := by
  have hle := h.numerator_le
  unfold MxlRational.nanoDenominator
  omega

theorem MxlRational.Countable.nano_pos (h : editRate.Countable) :
    0 < editRate.nanoDenominator := by
  have hn := h.numerator_pos
  have hle := h.numerator_le_nano
  omega

/-! ### The two conversions as rounded quotients -/

theorem exactTimestamp_nonneg (h : editRate.Countable) : 0 ≤ exactTimestamp editRate index :=
  nearest_nonneg (Int.mul_nonneg (by omega) h.nano_pos.le) h.numerator_pos

/-- The product before the division, bounded by the quotient that fits. -/
theorem TimestampFits.product_lt (h : editRate.Countable) (hfits : TimestampFits editRate index) :
    (index.toNat : Int) * editRate.denominator.toInt * 1000000000 +
      editRate.numerator.toInt / 2 < 2 ^ 126 := by
  have hbounds := nearest_bounds (index.toNat * editRate.nanoDenominator) h.numerator_pos
  have hle : nearest (index.toNat * editRate.nanoDenominator) editRate.numerator.toInt ≤
      2 ^ 63 - 1 := Int.le_sub_one_of_lt hfits
  have hmul := Int.mul_le_mul_of_nonneg_left hle h.numerator_pos.le
  have hlt := editRate.numerator.toInt_lt
  have hassoc : (index.toNat : Int) * editRate.nanoDenominator =
      index.toNat * editRate.denominator.toInt * 1000000000 := by
    rw [MxlRational.nanoDenominator, Int.mul_assoc]
  omega

theorem TimestampFits.productsFit (h : editRate.Countable) (hfits : TimestampFits editRate index) :
    IndexProductsFit editRate index := by
  have hlt := hfits.product_lt h
  have hd := h.denominator_pos
  have hn := h.numerator_pos
  have hnonneg : (0 : Int) ≤ index.toNat * editRate.denominator.toInt :=
    Int.mul_nonneg (by omega) hd.le
  have htdiv : editRate.numerator.toInt.tdiv 2 = editRate.numerator.toInt / 2 :=
    Int.tdiv_eq_ediv_of_nonneg hn.le
  unfold IndexProductsFit InInt128
  rw [htdiv]
  refine ⟨⟨?_, ?_⟩, ⟨?_, ?_⟩, ?_, ?_⟩ <;> omega

theorem toInt_indexToTimestamp (h : editRate.Countable) (hfits : TimestampFits editRate index) :
    (indexToTimestamp editRate index).toInt = exactTimestamp editRate index := by
  have hlt := hfits.product_lt h
  have hn := h.numerator_pos
  have hnonneg : (0 : Int) ≤ index.toNat * editRate.denominator.toInt :=
    Int.mul_nonneg (by omega) h.denominator_pos.le
  have hwrap : toInt128 (index.toNat * editRate.denominator.toInt * 1000000000) =
      index.toNat * editRate.nanoDenominator := by
    rw [toInt128, Int.bmod_eq_of_le (by omega) (by omega), MxlRational.nanoDenominator,
      Int.mul_assoc]
  have hnum : (0 : Int) ≤ index.toNat * editRate.nanoDenominator + editRate.numerator.toInt / 2 := by
    have := h.nano_pos
    have := Int.mul_nonneg (Int.natCast_nonneg index.toNat) h.nano_pos.le
    omega
  have hvalue : ((index.toNat * editRate.nanoDenominator + editRate.numerator.toInt / 2).tdiv
      editRate.numerator.toInt) = exactTimestamp editRate index :=
    Int.tdiv_eq_ediv_of_nonneg hnum
  rw [indexToTimestamp, if_pos h.ne_zero, hwrap, Int.tdiv_eq_ediv_of_nonneg hn.le, hvalue]
  have hexact := @exactTimestamp_nonneg editRate index h
  exact Int64.toInt_ofInt_of_le (by omega) hfits

theorem timestampProductsFit (h : editRate.Countable) (hnonneg : 0 ≤ timestamp.toInt) :
    TimestampProductsFit editRate timestamp := by
  have hd := h.denominator_pos
  have hn := h.numerator_pos
  have hdlt := editRate.denominator.toInt_lt
  have hnlt := editRate.numerator.toInt_lt
  have htlt := timestamp.toInt_lt
  have hprod : 0 ≤ timestamp.toInt * editRate.numerator.toInt := Int.mul_nonneg hnonneg hn.le
  have hle : timestamp.toInt * editRate.numerator.toInt ≤ 2 ^ 63 * 2 ^ 63 :=
    Int.mul_le_mul htlt.le hnlt.le hn.le (by omega)
  unfold TimestampProductsFit InInt128
  refine ⟨⟨?_, ?_⟩, ⟨?_, ?_⟩, ⟨?_, ?_⟩, ?_, ?_⟩ <;> omega

theorem toNat_ofInt_of_range {x : Int} (hx : 0 ≤ x) (hlt : x < 2 ^ 64) :
    ((UInt64.ofInt x).toNat : Int) = x := by
  simp only [UInt64.ofInt, UInt64.toNat_ofNat', Nat.reducePow, Int.reducePow]
  omega

/-- The index of a time stamp after the epoch. -/
theorem toNat_timestampToIndex (h : editRate.Countable) (hnonneg : 0 ≤ timestamp.toInt) :
    ((timestampToIndex editRate timestamp).toNat : Int) =
      nearest (timestamp.toInt * editRate.numerator.toInt) editRate.nanoDenominator := by
  have hhalf : editRate.nanoDenominator / 2 = 500000000 * editRate.denominator.toInt := by
    unfold MxlRational.nanoDenominator
    omega
  have hmul : 1000000000 * editRate.denominator.toInt = editRate.nanoDenominator := mul_comm _ _
  have hprod : 0 ≤ timestamp.toInt * editRate.numerator.toInt :=
    Int.mul_nonneg hnonneg h.numerator_pos.le
  have hnum : 0 ≤ timestamp.toInt * editRate.numerator.toInt +
      500000000 * editRate.denominator.toInt := by
    have := h.denominator_pos
    omega
  have hquot : ((timestamp.toInt * editRate.numerator.toInt +
        500000000 * editRate.denominator.toInt).tdiv (1000000000 * editRate.denominator.toInt)) =
      nearest (timestamp.toInt * editRate.numerator.toInt) editRate.nanoDenominator := by
    rw [Int.tdiv_eq_ediv_of_nonneg hnum, nearest, hhalf, hmul]
  have hrange := nearest_nonneg hprod h.nano_pos
  have hupper : nearest (timestamp.toInt * editRate.numerator.toInt) editRate.nanoDenominator ≤
      2 ^ 63 := by
    -- an index lasts at least as long as a nanosecond
    have hle : timestamp.toInt * editRate.numerator.toInt ≤ 2 ^ 63 * editRate.nanoDenominator :=
      Int.mul_le_mul timestamp.toInt_lt.le h.numerator_le_nano h.numerator_pos.le (by omega)
    have hexact : nearest (2 ^ 63 * editRate.nanoDenominator) editRate.nanoDenominator = 2 ^ 63 :=
      (nearest_eq_iff h.nano_pos).mpr (by have := h.nano_pos; omega)
    exact hexact ▸ nearest_mono h.nano_pos hle
  rw [timestampToIndex, if_pos h.ne_zero, hquot]
  exact toNat_ofInt_of_range hrange (by omega)

/-! ### Inverse conversions -/

theorem timestampToIndex_indexToTimestamp (h : editRate.Countable)
    (hfits : TimestampFits editRate index) :
    timestampToIndex editRate (indexToTimestamp editRate index) = index := by
  have hto := toInt_indexToTimestamp h hfits
  have hnonneg : 0 ≤ (indexToTimestamp editRate index).toInt :=
    hto ▸ exactTimestamp_nonneg h
  have hback := toNat_timestampToIndex h hnonneg
  rw [hto, exactTimestamp, nearest_mul_nearest h.numerator_pos h.numerator_le_nano] at hback
  exact UInt64.toNat_inj.mp (Int.ofNat_inj.mp hback)

/-- No index but the first one has the time stamp 0, so the calls of the library are inverse
    too. -/
theorem mxlTimestampToIndex_mxlIndexToTimestamp (h : editRate.Countable)
    (hfits : TimestampFits editRate index) :
    mxlTimestampToIndex (some editRate) (mxlIndexToTimestamp (some editRate) index) = index := by
  have hback := timestampToIndex_indexToTimestamp h hfits
  have hres : indexToTimestamp editRate index ≠ 0 ∨ index = 0 := by
    by_contra hnot
    obtain ⟨hzero, hindex⟩ := not_or.mp hnot
    have hfrom := toNat_timestampToIndex h (le_refl (0 : Timepoint).toInt)
    rw [not_not.mp hzero] at hback
    have hnearest : nearest ((0 : Timepoint).toInt * editRate.numerator.toInt)
        editRate.nanoDenominator = 0 :=
      (nearest_eq_iff h.nano_pos).mpr (by have := h.nano_pos; simp; omega)
    rw [hback, hnearest] at hfrom
    exact hindex (UInt64.toNat_inj.mp (Int.ofNat_inj.mp hfrom))
  simp only [mxlTimestampToIndex, mxlIndexToTimestamp, if_pos hres]
  exact hback

theorem timestampToIndex_mono (h : editRate.Countable) {timestamp' : Timepoint}
    (hnonneg : 0 ≤ timestamp.toInt) (hle : timestamp.toInt ≤ timestamp'.toInt) :
    timestampToIndex editRate timestamp ≤ timestampToIndex editRate timestamp' := by
  have hfrom := toNat_timestampToIndex h hnonneg
  have hto := @toNat_timestampToIndex editRate timestamp' h (by omega)
  have hmul := Int.mul_le_mul_of_nonneg_right hle h.numerator_pos.le
  have hmono := nearest_mono h.nano_pos hmul
  rw [UInt64.le_iff_toNat_le]
  omega

/-- Half of an index and half of a nanosecond, on the common grid. -/
theorem two_mul_abs_sub_indexToTimestamp_le (h : editRate.Countable)
    (hnonneg : 0 ≤ timestamp.toInt)
    (hfits : TimestampFits editRate (timestampToIndex editRate timestamp)) :
    2 * (editRate.numerator.toInt *
        |timestamp.toInt -
          (indexToTimestamp editRate (timestampToIndex editRate timestamp)).toInt|) ≤
      editRate.numerator.toInt + editRate.nanoDenominator := by
  rw [toInt_indexToTimestamp h hfits, exactTimestamp, toNat_timestampToIndex h hnonneg]
  exact two_mul_abs_sub_nearest_le h.numerator_pos h.nano_pos timestamp.toInt

theorem abs_sub_indexToTimestamp_le (h : editRate.Countable) (hnonneg : 0 ≤ timestamp.toInt)
    (hfits : TimestampFits editRate (timestampToIndex editRate timestamp)) :
    (|timestamp.toInt -
        (indexToTimestamp editRate (timestampToIndex editRate timestamp)).toInt| : Rat) ≤
      editRate.period / 2 + 1 := by
  have hle := two_mul_abs_sub_indexToTimestamp_le h hnonneg hfits
  have hn : (0 : Rat) < editRate.numerator.toInt := by exact_mod_cast h.numerator_pos
  have hcast : (2 : Rat) * (editRate.numerator.toInt *
        |(timestamp.toInt : Rat) -
          (indexToTimestamp editRate (timestampToIndex editRate timestamp)).toInt|) ≤
      editRate.numerator.toInt + editRate.nanoDenominator := by exact_mod_cast hle
  have hperiod : editRate.period * editRate.numerator.toInt = editRate.nanoDenominator := by
    rw [MxlRational.period]
    field_simp
  refine le_of_mul_le_mul_left ?_ hn
  nlinarith

/-- Every index with a time stamp is found again from it, and every time stamp from
    its nearest index up to half of a period and a nanosecond, without overflow. -/
theorem index_timestamp_inverse (editRate : MxlRational)
    (hd : 0 < editRate.denominator.toInt) (hn : 0 < editRate.numerator.toInt)
    (hrate : editRate.numerator.toInt ≤ 10 ^ 9 * editRate.denominator.toInt) :
    (∀ index, TimestampFits editRate index →
      IndexProductsFit editRate index ∧
      TimestampProductsFit editRate (indexToTimestamp editRate index) ∧
      timestampToIndex editRate (indexToTimestamp editRate index) = index) ∧
    (∀ timestamp timestamp' : Timepoint, 0 ≤ timestamp.toInt →
      timestamp.toInt ≤ timestamp'.toInt →
      TimestampProductsFit editRate timestamp ∧
      timestampToIndex editRate timestamp ≤ timestampToIndex editRate timestamp') ∧
    (∀ timestamp : Timepoint, 0 ≤ timestamp.toInt →
      TimestampFits editRate (timestampToIndex editRate timestamp) →
      (|timestamp.toInt -
          (indexToTimestamp editRate (timestampToIndex editRate timestamp)).toInt| : Rat) ≤
        editRate.period / 2 + 1) := by
  have h : editRate.Countable := ⟨hd, hn, hrate⟩
  refine ⟨fun index hfits => ⟨hfits.productsFit h, ?_, ?_⟩, fun timestamp timestamp' hnonneg hle =>
    ⟨timestampProductsFit h hnonneg, timestampToIndex_mono h hnonneg hle⟩,
    fun timestamp hnonneg hfits => abs_sub_indexToTimestamp_le h hnonneg hfits⟩
  · have hto := toInt_indexToTimestamp h hfits
    exact timestampProductsFit h (hto ▸ exactTimestamp_nonneg h)
  · exact timestampToIndex_indexToTimestamp h hfits

/-- The rate 30000/1001 of NTSC. -/
theorem index_timestamp_inverse_ntsc :
    timestampToIndex ⟨30000, 1001⟩ (indexToTimestamp ⟨30000, 1001⟩ 52344567890) = 52344567890 := by
  have hfits : TimestampFits ⟨30000, 1001⟩ 52344567890 := by
    norm_num [TimestampFits, exactTimestamp, nearest, MxlRational.nanoDenominator]
    decide
  exact ((index_timestamp_inverse ⟨30000, 1001⟩ (by decide) (by decide) (by decide)).1 _
    hfits).2.2

end Countable

end MediaExchange
