import Dispatch.Scalar
/-!
# Settings of drawn scenarios

How many areas, brigades and fires a drawn scenario has, and from which ranges it is drawn.
-/

namespace Dispatch.City

variable {α : Type} [Scalar α]

/-- How to draw a scenario. -/
structure Generation (α : Type) where
  areas : Nat
  brigades : Nat
  fires : Nat
  /-- Least coordinate, and the one above the greatest, in meters. -/
  extent : Option (Int32 × Int32)
  intensityRange : Option (α × α)
  /-- The seed to draw from; any if none. -/
  seed : Option UInt64
deriving DecidableEq, Repr

def Generation.default : Generation α := ⟨20, 6, 4, none, none, none⟩

end Dispatch.City
