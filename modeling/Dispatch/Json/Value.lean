import Dispatch.Decimal.Numeral
/-!
# JSON values

A JSON value as it is written: numbers are numerals, members of an object keep their order and may
repeat, and a text may fail to stand for a string.
-/

namespace Dispatch

/-- A text between quotes. -/
structure JsonText where
  /-- The string it stands for; none if it holds an unpaired surrogate. -/
  content : Option String
  /-- It is written without escapes. -/
  bare : Bool
deriving DecidableEq, Repr

def JsonText.ofString (s : String) : JsonText := ⟨some s, true⟩

/-- A JSON value. -/
inductive Json where
  | null
  | bool (b : Bool)
  | number (n : Decimal.Numeral)
  | text (t : JsonText)
  | array (items : List Json)
  | object (members : List (JsonText × Json))
deriving Repr, Inhabited

namespace Json

def ofString (s : String) : Json := text (.ofString s)

def ofNat (n : Nat) : Json := number (.ofNat n)

def ofInt (n : Int) : Json := number (.ofInt n)

/-- An object with plain keys. -/
def record (members : List (String × Json)) : Json :=
  object (members.map fun m => (.ofString m.1, m.2))

/-- Null for nothing. -/
def ofOption {β : Type} (write : β → Json) : Option β → Json
  | some x => write x
  | none => null

end Json

end Dispatch
