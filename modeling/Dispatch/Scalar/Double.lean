import Dispatch.Scalar
/-!
# Binary doubles

A finite double is `m * 2 ^ q` for whole `m` and `q`. `Double.parts` reads them off the bits, so
that rounding up, sorting and printing can be done in exact integer arithmetic.
-/

namespace Dispatch.Double

/-- What a double stands for. -/
inductive Parts where
  | nan
  | infinite (negative : Bool)
  /-- The value `mantissa * 2 ^ exponent`, with its sign. -/
  | finite (negative : Bool) (mantissa : Nat) (exponent : Int)
deriving Repr, DecidableEq

/-- How many fractions there are, `2 ^ 52`. -/
def fractions : Nat := 0x10000000000000

/-- The weight of the sign among the bits, `2 ^ 63`. -/
def signWeight : Nat := 0x8000000000000000

/-- The fraction holds 52 bits, the exponent field 11; the field of the least doubles counts as
1. -/
def parts (x : Float) : Parts :=
  let bits : Nat := x.toBits.toNat
  let negative := decide (signWeight ≤ bits)
  let field : Nat := bits / fractions % 2048
  let fraction : Nat := bits % fractions
  if field = 2047 then
    if fraction = 0 then .infinite negative else .nan
  else if field = 0 then .finite negative fraction (-1074)
  else .finite negative (fractions + fraction) ((field : Int) - 1075)

/-- Position of a double in the order by bits: negative values in reverse, then the others, so
`-0.0` comes right before `0.0` and what is not a number after infinity. -/
def rank (x : Float) : Int :=
  let bits : Nat := x.toBits.toNat
  if bits < signWeight then bits else -((bits - signWeight : Nat) : Int) - 1

/-- The least natural number at or above `m * 2 ^ q`. -/
def ceilScaled (m : Nat) (q : Int) : Nat :=
  if 0 ≤ q then m <<< q.toNat else (m + (1 <<< (-q).toNat) - 1) >>> (-q).toNat

/-- Rounds up to a count: negative values and what is not a number give zero. -/
def ceilNat (x : Float) : Nat :=
  match parts x with
  | .nan => 0
  | .infinite negative => if negative then 0 else maxCount
  | .finite negative m q => if negative then 0 else min maxCount (ceilScaled m q)

/-- The square root of `n`, correctly rounded. The root of `n * 4 ^ 64` is taken whole, so that it
has more than 54 bits; a remainder is kept as one further odd bit. -/
def sqrt (n : Nat) : Float :=
  let scaled := n <<< 128
  let root := isqrt scaled
  let sticky := if root * root = scaled then 2 * root else 2 * root + 1
  (Float.ofNat sticky).scaleB (-65)
where
  /-- The largest whole number whose square is at most `n`. -/
  isqrt (n : Nat) : Nat := search n (n.log2 + 1) 0
  /-- Decides the bits of the root one by one, the highest first. -/
  search (n : Nat) : Nat → Nat → Nat
    | 0, root => root
    | bit + 1, root =>
      let next := root + 1 <<< bit
      search n bit (if next * next ≤ n then next else root)

end Dispatch.Double

namespace Dispatch

instance : Scalar Float where
  decLt := inferInstance
  decLe := inferInstance
  ofNat := Float.ofNat
  ofDecimal digits places := Float.ofScientific digits true places
  sumUnit := -0.0
  abs := Float.abs
  max x y := if x.isNaN then y else if y.isNaN then x else if x < y then y else x
  totalLE x y := decide (Double.rank x ≤ Double.rank y)
  isFinite := Float.isFinite
  aboveBottom x := decide (-(1.0 / 0.0) < x)
  ceilNat := Double.ceilNat

end Dispatch
