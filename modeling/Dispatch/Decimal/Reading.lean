import Dispatch.Decimal.Numeral
/-!
# Doubles read from JSON

A numeral in a JSON text is read as its leading digits, as many as fit into 64 bits, scaled by a
power of ten. Both the digits and the power are doubles, so beyond fifteen digits or a power of
twenty-two the result may lie next to the nearest double. A numeral above the largest double is
refused.
-/

namespace Dispatch.Decimal

/-- Digits taken so far as a number below `2 ^ 64`, and the power of ten they are short of. -/
structure Significand where
  digits : Nat
  exponent : Int
  /-- No further digit fits. -/
  full : Bool

namespace Significand

/-- Takes a digit before the point. From the first one that does not fit, digits only count. -/
def takeWhole (s : Significand) (c : Char) : Significand :=
  let next := 10 * s.digits + digitValue c
  if s.full || decide (UInt64.size ≤ next) then { s with exponent := s.exponent + 1, full := true }
  else { s with digits := next }

/-- Takes a digit after the point. From the first one that does not fit, digits are dropped. -/
def takeFraction (s : Significand) (c : Char) : Significand :=
  let next := 10 * s.digits + digitValue c
  if s.full || decide (UInt64.size ≤ next) then { s with full := true }
  else { s with digits := next, exponent := s.exponent - 1 }

/-- The leading digits of a numeral. -/
def of (whole fraction : List Char) : Significand :=
  let s := whole.foldl takeWhole ⟨0, 0, false⟩
  fraction.foldl takeFraction { s with full := false }

end Significand

/-- The double nearest to a power of ten. -/
def powerOfTen (e : Nat) : Float := Float.ofScientific 1 false e

/-- Scales by a power of ten. Below `1e-308` the division goes in steps, at most `fuel` of them. -/
def scale (x : Float) : (exponent : Int) → (fuel : Nat) → Option Float
  | _, 0 => some x
  | e, fuel + 1 =>
    if e.natAbs ≤ 308 then
      if 0 ≤ e then
        let y := x * powerOfTen e.natAbs
        if y.isInf then none else some y
      else some (x / powerOfTen e.natAbs)
    else if x == 0.0 then some x
    else if 0 ≤ e then none
    else scale (x / powerOfTen 308) (e + 308) fuel

/-- The largest exponent that is taken at its value. -/
def maxExponent : Nat := 2147483647

/-- The size of a numeral that has a point, an exponent, or too many digits for a whole number. -/
def scaledSize (n : Numeral) : Option Float :=
  let s := Significand.of n.whole n.fraction
  match n.exponent with
  | none => scale (Float.ofNat s.digits) s.exponent 8
  | some e =>
    let value := natOfDigits e.digits
    let down := decide (e.sign = .minus)
    if maxExponent < value then
      if s.digits ≠ 0 ∧ down = false then none else some 0.0
    else scale (Float.ofNat s.digits) (if down then s.exponent - value else s.exponent + value) 8

/-- The double that a numeral in a JSON text stands for. -/
def Numeral.toDouble? (n : Numeral) : Option Float :=
  (scaledSize n).map fun size => if n.negative then -size else size

end Dispatch.Decimal
