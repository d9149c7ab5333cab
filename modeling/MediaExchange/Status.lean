/-
  MediaExchange/Status.lean
  =========================
  **Status codes and the constants shared by all flows** (`mxl/mxl.h`,
  `mxl/rational.h`, `mxl/flow.h`).

  The fixed-width integers of the source are Lean's own (`UInt64` for
  `std::uint64_t` and `std::size_t`, `UInt32`, `UInt16`), so that every
  arithmetic expression below wraps exactly where the C++ one does.
-/
import Mathlib.Data.UInt

namespace MediaExchange

inductive MxlStatus where
  | statusOk
  | errUnknown
  | errFlowNotFound
  | errOutOfRangeTooLate
  | errOutOfRangeTooEarly
  | errInvalidFlowReader
  | errInvalidFlowWriter
  | errTimeout
  | errInvalidArg
  | errConflict
  | errPermissionDenied
  | errFlowInvalid
deriving DecidableEq, Repr

/-- `MXL_UNDEFINED_INDEX`, also the writers' mark for "nothing is open". -/
def MXL_UNDEFINED_INDEX : UInt64 := 18446744073709551615

def MXL_GRAIN_FLAG_INVALID : UInt32 := 1

def MXL_GRAIN_VALID_SLICES_ALL : UInt16 := 65535

@[simp] theorem toNat_MXL_UNDEFINED_INDEX : MXL_UNDEFINED_INDEX.toNat = 2 ^ 64 - 1 := rfl

theorem le_MXL_UNDEFINED_INDEX (i : UInt64) : i ≤ MXL_UNDEFINED_INDEX := by
  rw [UInt64.le_iff_toNat_le, toNat_MXL_UNDEFINED_INDEX]
  exact Nat.le_sub_one_of_lt i.toNat_lt

end MediaExchange
