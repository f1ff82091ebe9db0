import Mathlib.Tactic.Ring

/-!
# Two's-complement 64-bit arithmetic on integers

An operation on integers that can overflow reduces its result with `wrap`, so that the absence of
overflow is a statement about the operands.
-/

namespace Wings.MachineInt

def maxInt64 : Int := 9223372036854775807

def minInt64 : Int := -9223372036854775808

def InRange (value : Int) : Prop := minInt64 ≤ value ∧ value ≤ maxInt64

instance (value : Int) : Decidable (InRange value) := inferInstanceAs (Decidable (_ ∧ _))

/-- Reduce an integer to the signed 64-bit range. -/
def wrap (value : Int) : Int :=
  (value + 9223372036854775808) % 18446744073709551616 - 9223372036854775808

theorem wrap_eq_self (inRange : InRange value) : wrap value = value := by
  obtain ⟨lower, upper⟩ := inRange
  simp only [minInt64, maxInt64] at lower upper
  unfold wrap
  omega

theorem inRange_of_nonneg (nonnegative : 0 ≤ value)
    (bounded : value ≤ maxInt64) : InRange value := by
  refine ⟨?_, bounded⟩
  simp only [minInt64]
  omega

theorem wrap_sub_eq_self (nonnegative : 0 ≤ value)
    (bounded : value ≤ maxInt64) (otherNonnegative : 0 ≤ other) (otherBounded : other ≤ maxInt64) :
    wrap (value - other) = value - other := by
  apply wrap_eq_self
  simp only [InRange, minInt64, maxInt64] at bounded otherBounded ⊢
  omega

end Wings.MachineInt
