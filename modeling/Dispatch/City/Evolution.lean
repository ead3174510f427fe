import Dispatch.Assignment
import Dispatch.City.Scenario
/-!
# One tick of the city

Every burning fire grows by a fraction of itself and loses what its brigades take from it; every
brigade with a fire moves there.
-/

namespace Dispatch.City

variable {α : Type} [Scalar α]

namespace Fire

/-- The fire after a tick with so many brigades. It never falls below zero. -/
def evolve (capacity growth : α) (crew : Nat) (f : Fire α) : Fire α :=
  if f.isBurning then
    let left := f.intensity * (Scalar.one + growth) - capacity * Scalar.ofNat crew
    ⟨f.id, f.area, Scalar.max left Scalar.zero⟩
  else f

end Fire

namespace Scenario

/-- The area of each fire. -/
def fireAreas (s : Scenario α) : SortedMap EntityId EntityId :=
  .ofList (s.fires.map fun f => (f.id, f.area))

/-- Where a brigade goes: to its fire, or nowhere. -/
def move (s : Scenario α) (x : Assignment) (b : Brigade) : Brigade :=
  match (x.get? b.id).bind s.fireAreas.get? with
  | some area => { b with area }
  | none => b

/-- The city after a tick under an assignment. -/
def evolve (s : Scenario α) (x : Assignment) (capacity growth : α) : Scenario α where
  areas := s.areas
  brigades := s.brigades.map (s.move x)
  fires := s.fires.map fun f => f.evolve capacity growth (x.count f.id)

end Scenario

end Dispatch.City
