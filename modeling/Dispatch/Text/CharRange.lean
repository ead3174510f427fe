/-!
# Ranges of characters

Tables of characters are lists of ranges of code points in ascending order.
-/

namespace Dispatch.Text

/-- The characters from one code point to another, both included. -/
structure CharRange where
  first : Nat
  last : Nat
deriving DecidableEq, Repr

namespace CharRange

def contains (r : CharRange) (c : Char) : Bool :=
  decide (r.first ≤ c.toNat) && decide (c.toNat ≤ r.last)

/-- Some range of a table has the character. -/
def anyContains (table : List CharRange) (c : Char) : Bool := table.any fun r => r.contains c

end CharRange

end Dispatch.Text
