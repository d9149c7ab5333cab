/-
  MediaExchange/IndexConversion.lean
  ==================================
  **Indices and time stamps** (`IndexConversion.hpp`, `Timing.hpp`,
  `mxl/rational.h`).

  Points in time are 64-bit nanosecond counts.  The conversions go through 128-bit
  integers, whose division truncates; the product in `indexToTimestamp` is the
  only one that may leave their range, and it is taken to wrap there.
-/
import MediaExchange.Status

namespace MediaExchange

abbrev Timepoint := Int64

structure MxlRational where
  numerator : Int64
  denominator : Int64
deriving DecidableEq, Repr

/-- The value of a 128-bit product. -/
def toInt128 (x : Int) : Int := x.bmod (2 ^ 128)

def timestampToIndex (editRate : MxlRational) (timestamp : Timepoint) : UInt64 :=
  if editRate.denominator ≠ 0 ∧ editRate.numerator ≠ 0 then
    UInt64.ofInt
      ((timestamp.toInt * editRate.numerator.toInt + 500000000 * editRate.denominator.toInt).tdiv
        (1000000000 * editRate.denominator.toInt))
  else MXL_UNDEFINED_INDEX

def indexToTimestamp (editRate : MxlRational) (index : UInt64) : Timepoint :=
  if editRate.denominator ≠ 0 ∧ editRate.numerator ≠ 0 then
    Int64.ofInt
      ((toInt128 (index.toNat * editRate.denominator.toInt * 1000000000) +
          editRate.numerator.toInt.tdiv 2).tdiv editRate.numerator.toInt)
  else 0

end MediaExchange
