import Dispatch.City.Failure
import Dispatch.City.Scenario
import Dispatch.Random.Draws
/-!
# Drawn scenarios

Areas, brigades and fires are numbered from one. Each area draws its two coordinates, each brigade
its area, each fire its area and then its intensity.
-/

namespace Dispatch.City

variable {α β γ : Type} [Scalar α]

/-- One draw for each of `count` numbers from `first` on. -/
def drawEach (draw : EntityId → γ → β × γ) : (first count : Nat) → γ → List β × γ
  | _, 0, source => ([], source)
  | first, count + 1, source =>
    let (x, source) := draw (.ofNat first) source
    let (rest, source) := drawEach draw (first + 1) count source
    (x :: rest, source)

def drawArea (draws : Draws α γ) (extent : Int32 × Int32) (id : EntityId) (source : γ) :
    Area × γ :=
  let (x, source) := draws.coordinate extent.1 extent.2 source
  let (y, source) := draws.coordinate extent.1 extent.2 source
  (⟨id, x, y⟩, source)

/-- One of the areas. -/
def drawPlace (draws : Draws α γ) (areas : List Area) (source : γ) : EntityId × γ :=
  let (i, source) := draws.index areas.length source
  ((areas.getD i default).id, source)

def drawBrigade (draws : Draws α γ) (areas : List Area) (id : EntityId) (source : γ) :
    Brigade × γ :=
  let (area, source) := drawPlace draws areas source
  (⟨id, area⟩, source)

/-- Fires until one cannot be drawn. Bounds that do not compare are found when the first is. -/
def drawFires (draws : Draws α γ) (areas : List Area) (range : α × α) :
    (first count : Nat) → γ → Except (Failure α) (List (Fire α))
  | _, 0, _ => .ok []
  | first, count + 1, source =>
    let (area, source) := drawPlace draws areas source
    if ¬ range.1 < range.2 then .error .incomparableIntensities
    else match draws.intensity range.1 range.2 source with
      | none => .error .unboundedIntensity
      | some (intensity, source) =>
        match Fire.new (.ofNat first) area intensity with
        | .error e => .error (.engine e)
        | .ok fire => (drawFires draws areas range (first + 1) count source).map (fire :: ·)

namespace Generation

def extentOrDefault (g : Generation α) : Int32 × Int32 := g.extent.getD (0, 1000)

def intensityOrDefault (g : Generation α) : α × α :=
  g.intensityRange.getD (Scalar.one, Scalar.ofNat 10)

/-- Draws a scenario, from `anySeed` if the settings fix none. -/
def draw (g : Generation α) (draws : Draws α γ) (anySeed : UInt64) :
    Except (Failure α) (Scenario α) :=
  let extent := g.extentOrDefault
  let range := g.intensityOrDefault
  if extent.2 ≤ extent.1 ∨ range.2 ≤ range.1 then .error (.emptyRange g)
  else if g.areas = 0 ∧ (0 < g.brigades ∨ 0 < g.fires) then .error .noAreas
  else
    let source := draws.ofSeed (g.seed.getD anySeed)
    let (areas, source) := drawEach (drawArea draws extent) 1 g.areas source
    let (brigades, source) := drawEach (drawBrigade draws areas) 1 g.brigades source
    (drawFires draws areas range 1 g.fires source).map fun fires => ⟨areas, brigades, fires⟩

end Generation

end Dispatch.City
