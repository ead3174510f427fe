import Dispatch.Scalar.Double
/-!
# The fewest digits that read back

Every real number between the two midpoints around a finite double rounds to that double; the
midpoints themselves do so when the double's mantissa is even. `Decimal.shortest` looks for the
coarsest decimal grid with a point in that interval, tests on each grid the two points next to
the double, and takes the nearer of two hits.
-/

namespace Dispatch.Decimal

/-- The value `digits * 10 ^ exponent`. -/
structure Digits where
  digits : Nat
  exponent : Int
deriving Repr, DecidableEq

/-- Which of two equally near decimals is taken. -/
inductive Tie where
  | up
  | toEven
deriving Repr, DecidableEq

/-- A positive fraction `num / den` of whole numbers. -/
structure Fraction where
  num : Nat
  den : Nat

/-- The fraction `m * 2 ^ q`. -/
def Fraction.ofScaled (m : Nat) (q : Int) : Fraction :=
  if 0 ≤ q then ⟨m <<< q.toNat, 1⟩ else ⟨m, 1 <<< (-q).toNat⟩

/-- The number `10 ^ k`. -/
def tenTo (k : Nat) : Nat := Nat.pow 10 k

/-- The same value on the grid of step `10 ^ e`. -/
def Fraction.overPowerOfTen (x : Fraction) (e : Int) : Fraction :=
  if 0 ≤ e then ⟨x.num, x.den * tenTo e.toNat⟩ else ⟨x.num * tenTo (-e).toNat, x.den⟩

def digitCount (n : Nat) : Nat := (Nat.toDigits 10 n).length

/-- The exponent of the leading digit: `10 ^ e ≤ x < 10 ^ (e + 1)`. -/
def Fraction.leadingExponent (x : Fraction) : Int :=
  let guess : Int := (digitCount x.num : Int) - digitCount x.den
  let scaled := x.overPowerOfTen guess
  if scaled.den ≤ scaled.num then guess else guess - 1

/-- Drops trailing zeros of at most `fuel` places. -/
def Digits.trim : Nat → Digits → Digits
  | 0, d => d
  | fuel + 1, d =>
    if d.digits ≠ 0 ∧ d.digits % 10 = 0 then trim fuel ⟨d.digits / 10, d.exponent + 1⟩ else d

/-- The interval of reals that round to `m * 2 ^ q`, in units of a quarter of the last place. The
gap below a power of two is half as wide as the one above. -/
structure Rounding where
  low : Nat
  high : Nat
  closed : Bool

def Rounding.of (m : Nat) (q : Int) : Rounding :=
  ⟨if m = Double.fractions ∧ -1074 < q then 4 * m - 1 else 4 * m - 2, 4 * m + 2, m % 2 = 0⟩

/-- The point `k * 10 ^ e` lies in the interval, whose unit is `2 ^ (q - 2)`. -/
def Rounding.contains (r : Rounding) (q e : Int) (k : Nat) : Bool :=
  let unit := (Fraction.ofScaled 1 (q - 2)).overPowerOfTen e
  let point := k * unit.den
  let low := r.low * unit.num
  let high := r.high * unit.num
  if r.closed then decide (low ≤ point) && decide (point ≤ high)
  else decide (low < point) && decide (point < high)

/-- The point of the grid of step `10 ^ e` that stands for `m * 2 ^ q`, if one of its two
neighbours rounds back. -/
def onGrid (tie : Tie) (m : Nat) (q e : Int) : Option Nat :=
  let value := (Fraction.ofScaled m q).overPowerOfTen e
  let below := value.num / value.den
  let rest := value.num % value.den
  let interval := Rounding.of m q
  match interval.contains q e below, interval.contains q e (below + 1) with
  | false, false => none
  | true, false => some below
  | false, true => some (below + 1)
  | true, true =>
    if 2 * rest < value.den then some below
    else if value.den < 2 * rest then some (below + 1)
    else match tie with
      | .up => some (below + 1)
      | .toEven => some (if below % 2 = 0 then below else below + 1)

/-- Tries grids of ever more digits. Seventeen always suffice; with none left the digits of the
last grid's lower neighbour stand. -/
def search (tie : Tie) (m : Nat) (q e : Int) : Nat → Digits
  | 0 =>
    let value := (Fraction.ofScaled m q).overPowerOfTen e
    ⟨value.num / value.den, e⟩
  | grids + 1 =>
    match onGrid tie m q e with
    | some k => ⟨k, e⟩
    | none => search tie m q (e - 1) grids

/-- The decimal with the fewest digits that rounds to `m * 2 ^ q`, and the nearest of those. -/
def shortest (tie : Tie) (m : Nat) (q : Int) : Digits :=
  if m = 0 then ⟨0, 0⟩
  else
    let leading := (Fraction.ofScaled m q).leadingExponent
    Digits.trim 20 (search tie m q leading 17)

end Dispatch.Decimal
