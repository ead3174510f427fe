import Mathlib
import Dispatch.Scalar
/-!
# Exact arithmetic

The rationals as scalars: every operation is the one of the rationals, and every value is finite.
-/

namespace Dispatch

instance : Scalar Rat where
  decLt := inferInstance
  decLe := inferInstance
  ofNat n := n
  ofDecimal digits places := digits / 10 ^ places
  sumUnit := 0
  abs x := |x|
  max x y := max x y
  totalLE x y := decide (x ≤ y)
  isFinite _ := true
  aboveBottom _ := true
  ceilNat x := min maxCount ⌈x⌉₊

namespace Scalar

@[simp] theorem zero_rat : (zero : Rat) = 0 := Nat.cast_zero

@[simp] theorem one_rat : (one : Rat) = 1 := Nat.cast_one

end Scalar

end Dispatch
