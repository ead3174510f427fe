import Dispatch.Error
import Dispatch.Problem
/-!
# Scenarios

A city of areas, brigades that stand in them, and fires that burn there. A fire is out when its
intensity is zero. At every tick the brigades and the burning fires make up one problem.
-/

namespace Dispatch.City

variable {α : Type} [Scalar α]

/-- A cell of the city map, with its coordinates in meters. -/
structure Area where
  id : EntityId
  x : Int32
  y : Int32
deriving DecidableEq, Repr, Inhabited

structure Brigade where
  id : EntityId
  /-- The area it stands in. -/
  area : EntityId
deriving DecidableEq, Repr

instance : ToString Brigade := ⟨fun b => "B" ++ toString b.id⟩

structure Fire (α : Type) where
  id : EntityId
  area : EntityId
  intensity : α
deriving DecidableEq, Repr

namespace Fire

/-- A fire of finite, non-negative intensity. -/
def new (id area : EntityId) (intensity : α) : Except (Error α) (Fire α) :=
  if Scalar.IsAmount intensity then .ok ⟨id, area, intensity⟩
  else .error (.validation (.fireIntensity id intensity))

def isBurning (f : Fire α) : Bool := decide (Scalar.zero < f.intensity)

instance : ToString (Fire α) := ⟨fun f => "F" ++ toString f.id⟩

/-- The same fire at the same intensity. Zeros of either sign are the same; what is not a number
is never the same as anything. -/
def same (f g : Fire α) : Bool :=
  decide (f.id = g.id) && decide (f.area = g.area) && decide (f.intensity ≤ g.intensity) &&
    decide (g.intensity ≤ f.intensity)

end Fire

/-- The city at one tick. -/
structure Scenario (α : Type) where
  areas : List Area
  brigades : List Brigade
  fires : List (Fire α)
deriving DecidableEq, Repr

namespace Scenario

/-- The first area of that number. -/
def area? (s : Scenario α) (id : EntityId) : Option Area := s.areas.find? fun a => a.id = id

def burning (s : Scenario α) : List (Fire α) := s.fires.filter Fire.isBurning

def burningIntensity (s : Scenario α) : α := Scalar.sum (s.burning.map (·.intensity))

/-- Every brigade against every burning fire. -/
def toInstance (s : Scenario α) : Instance where
  agents := s.brigades.map (·.id)
  targets := s.burning.map (·.id)
  locations := .ofList (s.brigades.map fun b => (b.id, b.area))

/-- The places of the brigades, then those of the fires. -/
def places (s : Scenario α) : List EntityId := s.brigades.map (·.area) ++ s.fires.map (·.area)

/-- Every brigade and every fire is in a known area; the first one that is not decides. -/
def validate (s : Scenario α) : Except (Error α) Unit :=
  match s.places.find? fun id => (s.area? id).isNone with
  | some id => .error (.invalidIdentifier id)
  | none => .ok ()

/-- The same areas, brigades and fires in the same order. -/
def same (s t : Scenario α) : Bool :=
  decide (s.areas = t.areas) && decide (s.brigades = t.brigades) &&
    decide (s.fires.length = t.fires.length) && (List.zipWith Fire.same s.fires t.fires).all id

end Scenario

end Dispatch.City
