import Dispatch.City.Evolution
import Dispatch.City.Settings
import Dispatch.City.TravelUtility
import Dispatch.Solver
/-!
# Simulations

Tick by tick, a simulation solves the problem that the city poses and then lets the city evolve
under the assignment found, until no fire burns or the ticks are used up.
-/

namespace Dispatch.City

variable {α : Type} [Scalar α]

/-- What a brigade did in a tick. -/
structure BrigadeRecord where
  brigade : EntityId
  area : EntityId
  fire : Option EntityId
deriving DecidableEq, Repr

/-- What a tick decided, and the city it was decided for. -/
structure TickRecord (α : Type) where
  tick : Nat
  burningFires : Nat
  burningIntensity : α
  solveMs : α
  brigades : List BrigadeRecord
  stats : Stats α

def TickRecord.of (tick : Nat) (s : Scenario α) (solution : Solution α) (solveMs : α) :
    TickRecord α where
  tick := tick
  burningFires := s.burning.length
  burningIntensity := s.burningIntensity
  solveMs := solveMs
  brigades := s.brigades.map fun b => ⟨b.id, b.area, solution.assignment.get? b.id⟩
  stats := solution.stats

/-- What a simulation cannot decide itself. -/
structure World (α : Type) where
  metric : Metric α
  coins : Dsa.Coins α
  /-- What surrounds the solve of each tick. -/
  surroundings : Nat → Surroundings α
  /-- Milliseconds the solve of each tick took. -/
  solveMs : Nat → α

/-- A simulation that ended or failed: the city then, the statistics handed to the recorder, the
events, and the logs or the failure. -/
structure Run (α : Type) where
  scenario : Scenario α
  reported : List (Stats α)
  events : List (Event α)
  answer : Except (Failure α) (List (TickRecord α))

/-- A tick solved or not, and what was reported on the way. -/
structure TickOutcome (α : Type) where
  events : List (Event α)
  answer : Except (Failure α) (Solution α)

namespace Settings

/-- Solves the problem that the city poses at a tick. -/
def solveCity (settings : Settings α) (world : World α) (tick : Nat) (s : Scenario α) : Outcome α :=
  Solver.solveBuiltIn world.coins settings.solver
    (some (TravelUtility.ofScenario world.metric s settings.capacity).oracle)
    (world.surroundings tick) s.toInstance

/-- Measures the ways in the city, and then solves its problem. -/
def solveTick (settings : Settings α) (world : World α) (tick : Nat) (s : Scenario α) :
    TickOutcome α :=
  if TravelUtility.overflows world.metric s then ⟨[], .error .coordinateOverflow⟩
  else
    let outcome := settings.solveCity world tick s
    ⟨outcome.events, outcome.answer.mapError (.tick tick)⟩

/-- Up to `remaining` ticks, the next of which has the given number. With a recorder, the
statistics of each tick are handed to it and summed up in the log. -/
def runTicks (settings : Settings α) (world : World α) (recording : Bool) (tick : Nat)
    (s : Scenario α) : (remaining : Nat) → Run α
  | 0 => ⟨s, [], [], .ok []⟩
  | remaining + 1 =>
    if s.burning.isEmpty then ⟨s, [], [.extinguished tick], .ok []⟩
    else
      let outcome := settings.solveTick world tick s
      match outcome.answer with
      | .error e => ⟨s, [], outcome.events, .error e⟩
      | .ok solution =>
        let rest := runTicks settings world recording (tick + 1)
          (s.evolve solution.assignment settings.capacity settings.growth) remaining
        let report := if recording then [solution.stats] else []
        ⟨rest.scenario, report ++ rest.reported,
          outcome.events ++ report.map .summary ++
            .tick tick s.burning.length s.burningIntensity solution.stats.finalUtility ::
            rest.events,
          rest.answer.map (.of tick s solution (world.solveMs tick) :: ·)⟩

/-- Simulates from a scenario, after checking settings and scenario. -/
def simulate (settings : Settings α) (world : World α) (recording : Bool) (s : Scenario α) :
    Run α :=
  match settings.validate with
  | .error e => ⟨s, [], [], .error e⟩
  | .ok () =>
    match s.validate with
    | .error e => ⟨s, [], [], .error (.engine e)⟩
    | .ok () => settings.runTicks world recording 1 s settings.ticks

end Settings

end Dispatch.City
