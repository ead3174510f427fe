/-!
# Written numbers

A numeral is a number as it is written: a sign, whole digits, digits after a point, an exponent.
`Numeral.scan` reads one from the front of a text, `Numeral.text` writes it.
-/

namespace Dispatch.Decimal

/-- The sign in front of an exponent. -/
inductive ExponentSign where
  | none
  | plus
  | minus
deriving DecidableEq, Repr

/-- The part after the letter `e`. -/
structure Exponent where
  sign : ExponentSign
  digits : List Char
deriving DecidableEq, Repr

/-- A number as it is written. -/
structure Numeral where
  negative : Bool
  whole : List Char
  /-- Empty when there is no point. -/
  fraction : List Char
  exponent : Option Exponent
deriving DecidableEq, Repr

def digitValue (c : Char) : Nat := c.toNat - '0'.toNat

/-- The value of a list of digits. -/
def natOfDigits (digits : List Char) : Nat := digits.foldl (fun n c => 10 * n + digitValue c) 0

namespace Numeral

def ofNat (n : Nat) : Numeral := ⟨false, (toString n).toList, [], none⟩

def ofInt (n : Int) : Numeral := ⟨decide (n < 0), (toString n.natAbs).toList, [], none⟩

/-! ## Writing -/

def exponentText (e : Exponent) : List Char :=
  'e' :: (match e.sign with
    | .none => []
    | .plus => ['+']
    | .minus => ['-']) ++ e.digits

def chars (n : Numeral) : List Char :=
  (if n.negative then ['-'] else []) ++ n.whole ++
    (if n.fraction.isEmpty then [] else '.' :: n.fraction) ++
    (match n.exponent with
      | some e => exponentText e
      | none => [])

def text (n : Numeral) : String := String.ofList n.chars

/-! ## Reading -/

/-- The digits in front, and the rest. -/
def scanDigits (cs : List Char) : List Char × List Char := cs.span Char.isDigit

/-- Whole digits: a single zero, or digits that do not start with zero. -/
def scanWhole : List Char → Option (List Char × List Char)
  | '0' :: rest => some (['0'], rest)
  | cs =>
    match scanDigits cs with
    | ([], _) => none
    | found => some found

/-- A point needs a digit after it. -/
def scanFraction : List Char → Option (List Char × List Char)
  | '.' :: rest =>
    match scanDigits rest with
    | ([], _) => none
    | found => some found
  | cs => some ([], cs)

def scanSign : List Char → ExponentSign × List Char
  | '+' :: rest => (.plus, rest)
  | '-' :: rest => (.minus, rest)
  | cs => (.none, cs)

/-- The letter `e`, small or capital, needs a digit after it and its sign. -/
def scanExponent : List Char → Option (Option Exponent × List Char)
  | c :: rest =>
    if c = 'e' ∨ c = 'E' then
      let (sign, rest) := scanSign rest
      match scanDigits rest with
      | ([], _) => none
      | (digits, rest) => some (some ⟨sign, digits⟩, rest)
    else some (none, c :: rest)
  | [] => some (none, [])

/-- Reads a numeral off the front. -/
def scan (cs : List Char) : Option (Numeral × List Char) :=
  let (negative, cs) := match cs with
    | '-' :: rest => (true, rest)
    | cs => (false, cs)
  match scanWhole cs with
  | none => none
  | some (whole, cs) =>
    match scanFraction cs with
    | none => none
    | some (fraction, cs) =>
      match scanExponent cs with
      | none => none
      | some (exponent, cs) => some (⟨negative, whole, fraction, exponent⟩, cs)

/-! ## Values -/

/-- A numeral without point and exponent. -/
def isWhole (n : Numeral) : Bool := n.fraction.isEmpty && n.exponent.isNone

/-- The value of a whole numeral without sign. -/
def toNat? (n : Numeral) : Option Nat :=
  if n.isWhole && !n.negative then some (natOfDigits n.whole) else none

/-- The value of a whole numeral; zero with a sign is not one. -/
def toInt? (n : Numeral) : Option Int :=
  if n.isWhole then
    match n.negative, natOfDigits n.whole with
    | true, 0 => none
    | true, k => some (-(k : Int))
    | false, k => some k
  else none

def exponentValue (n : Numeral) : Int :=
  match n.exponent with
  | none => 0
  | some ⟨.minus, digits⟩ => -(natOfDigits digits : Int)
  | some ⟨_, digits⟩ => natOfDigits digits

/-- The double nearest to the value. -/
def nearest (n : Numeral) : Float :=
  let e := n.exponentValue - n.fraction.length
  let size := Float.ofScientific (natOfDigits (n.whole ++ n.fraction)) (decide (e < 0)) e.natAbs
  if n.negative then -size else size

end Numeral

end Dispatch.Decimal
