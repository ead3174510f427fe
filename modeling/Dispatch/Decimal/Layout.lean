import Dispatch.Decimal.Numeral
import Dispatch.Decimal.Shortest
/-!
# How numbers are written

A layout says where a shortest decimal is written positionally and what surrounds it. Three are
in use: `plain` in messages and log lines, `exact` in listings, and `json` in JSON texts.
`fixed` writes a chosen number of decimal places instead.
-/

namespace Dispatch.Decimal

/-- The choices of one written form. -/
structure Layout where
  /-- Which of two equally near shortest decimals is written. -/
  tie : Tie
  /-- Least and greatest exponent of the leading digit written positionally; no bound if none. -/
  least : Option Int
  greatest : Option Int
  /-- A whole positional number ends in `.0`. -/
  wholePoint : Bool
  /-- What stands before a positive exponent. -/
  positive : ExponentSign

/-- Never an exponent, and no point on whole numbers. -/
def plain : Layout := ⟨.up, none, none, false, .none⟩

/-- Positional from `1e-4` to below `1e16`, always with a point. -/
def exact : Layout := ⟨.up, some (-4), some 15, true, .none⟩

/-- Positional from `1e-5` to below `1e16`, always with a point; `1e+16` above. -/
def json : Layout := ⟨.toEven, some (-5), some 15, true, .plus⟩

def zeros (n : Nat) : List Char := List.replicate n '0'

namespace Layout

def isPositional (l : Layout) (leading : Int) : Bool :=
  (match l.least with | none => true | some e => decide (e ≤ leading)) &&
  (match l.greatest with | none => true | some e => decide (leading ≤ e))

/-- A decimal written out in full. -/
def positional (l : Layout) (negative : Bool) (d : Digits) : Numeral :=
  let digits := (toString d.digits).toList
  if 0 ≤ d.exponent then
    ⟨negative, digits ++ zeros d.exponent.toNat, if l.wholePoint then ['0'] else [], none⟩
  else
    let places := (-d.exponent).toNat
    let padded := zeros (places + 1 - digits.length) ++ digits
    let cut := padded.length - places
    ⟨negative, padded.take cut, padded.drop cut, none⟩

/-- A decimal with one digit before the point and an exponent. -/
def scientific (l : Layout) (negative : Bool) (d : Digits) (leading : Int) : Numeral :=
  let digits := (toString d.digits).toList
  let sign := if leading < 0 then .minus else l.positive
  ⟨negative, digits.take 1, digits.drop 1, some ⟨sign, (toString leading.natAbs).toList⟩⟩

/-- The numeral of `m * 2 ^ q`. Zero is positional in every layout. -/
def numeral (l : Layout) (negative : Bool) (m : Nat) (q : Int) : Numeral :=
  let d := shortest l.tie m q
  let leading : Int := d.exponent + digitCount d.digits - 1
  if m = 0 || l.isPositional leading then l.positional negative d
  else l.scientific negative d leading

/-- The numeral of a double, if it is finite. -/
def numeral? (l : Layout) (x : Float) : Option Numeral :=
  match Double.parts x with
  | .finite negative m q => some (l.numeral negative m q)
  | _ => none

/-- Writes a double in the layout. -/
def write (l : Layout) (x : Float) : String :=
  match Double.parts x with
  | .nan => "NaN"
  | .infinite negative => if negative then "-inf" else "inf"
  | .finite negative m q => (l.numeral negative m q).text

end Layout

/-- The quotient `num / den` rounded to the nearest whole number, a half going to the even one. -/
def roundDiv (num den : Nat) : Nat :=
  let below := num / den
  let rest := num % den
  if 2 * rest < den then below
  else if den < 2 * rest then below + 1
  else if below % 2 = 0 then below else below + 1

/-- Writes a number with `places` decimal places, rounding its exact value; a zero keeps its
sign. -/
def fixed (places : Nat) (x : Float) : String :=
  match Double.parts x with
  | .nan => "NaN"
  | .infinite negative => if negative then "-inf" else "inf"
  | .finite negative m q =>
    let scaled := (Fraction.ofScaled m q).overPowerOfTen (-(places : Int))
    (plain.positional negative ⟨roundDiv scaled.num scaled.den, -(places : Int)⟩).text

end Dispatch.Decimal
