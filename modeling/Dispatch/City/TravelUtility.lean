import Dispatch.City.Scenario
import Dispatch.Scalar.Double
/-!
# What a fire is worth to a brigade

The utility of a fire is its intensity, reduced by the way there: at a hundred meters it is worth
half. A fire needs as many brigades as take its intensity in one tick; that it grows is not counted.

Ways are measured by the differences of 32-bit coordinates. Where these are checked, one that
overflows is a failure (`TravelUtility.overflows`); where they are not, it wraps around.
-/

namespace Dispatch.City

variable {α : Type} [Scalar α]

/-- How ways are measured. -/
structure Metric (α : Type) where
  /-- How far two areas are apart, in meters. -/
  way : Area → Area → α
  /-- Whether a difference of coordinates that overflows is a failure. -/
  overflowChecks : Bool

instance : CoeFun (Metric α) fun _ => Area → Area → α := ⟨Metric.way⟩

/-- The straight distance in doubles, correctly rounded. Differences of coordinates wrap around. -/
def straightLine : Metric Float where
  way a b :=
    let dx := (a.x - b.x).toInt
    let dy := (a.y - b.y).toInt
    Double.sqrt (dx * dx + dy * dy).toNat
  overflowChecks := false

/-- Whether a coordinate of `b` cannot be taken from that of `a` in 32 bits. -/
def Area.overflows (a b : Area) : Bool :=
  BitVec.ssubOverflow a.x.toBitVec b.x.toBitVec || BitVec.ssubOverflow a.y.toBitVec b.y.toBitVec

/-- What an oracle knows of a scenario. -/
structure TravelUtility (α : Type) where
  /-- The way of each brigade to each burning fire. -/
  distances : SortedMap (EntityId × EntityId) α
  /-- The intensities of the burning fires. -/
  intensities : SortedMap EntityId α
  /-- The intensity one brigade takes from a fire in one tick. -/
  capacity : α

namespace TravelUtility

/-- The ways to a fire from where the brigades stand; none from or to an unknown area. -/
def ways {β : Type} (measure : Area → Area → β) (s : Scenario α) (f : Fire α) :
    List ((EntityId × EntityId) × β) :=
  match s.area? f.area with
  | none => []
  | some there => s.brigades.filterMap fun b =>
    (s.area? b.area).map fun here => ((b.id, f.id), measure here there)

/-- Whether measuring the ways to the burning fires fails. -/
def overflows (metric : Metric α) (s : Scenario α) : Bool :=
  metric.overflowChecks && (s.burning.flatMap (ways Area.overflows s)).any (·.2)

/-- What is known of a scenario whose ways can be measured. -/
def ofScenario (metric : Metric α) (s : Scenario α) (capacity : α) : TravelUtility α where
  distances := .ofList (s.burning.flatMap (ways metric s))
  intensities := .ofList (s.burning.map fun f => (f.id, f.intensity))
  capacity := capacity

/-- Zero for a fire that does not burn and for a way that is not known. -/
def utility (u : TravelUtility α) (brigade fire : EntityId) : α :=
  match u.distances.get? (brigade, fire), u.intensities.get? fire with
  | some d, some intensity => intensity * Scalar.ofNat 100 / (Scalar.ofNat 100 + d)
  | _, _ => Scalar.zero

/-- None for a fire that does not burn. -/
def need (u : TravelUtility α) (fire : EntityId) : Nat :=
  match u.intensities.get? fire with
  | some intensity =>
    if Scalar.zero < u.capacity then Scalar.ceilNat (intensity / u.capacity) else 0
  | none => 0

def oracle (u : TravelUtility α) : Oracle α := ⟨u.utility, u.need⟩

end TravelUtility

end Dispatch.City
