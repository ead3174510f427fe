import Dispatch.Solver.Selection
/-!
# Solving

A solver peoples a problem with agents, drives them through their rounds, and returns an
assignment with the statistics of the run.
-/

namespace Dispatch

variable {α σ : Type} [Scalar α]

/-- What is returned for one problem. -/
structure Solution (α : Type) where
  assignment : Assignment
  stats : Stats α

/-- A problem solved or not, and what was reported on the way. -/
structure Outcome (α : Type) where
  events : List (Event α)
  answer : Except (Error α) (Solution α)

namespace Solver
variable [Agent α σ]

/-! ## Populations -/

/-- The first agent that is not the one the matrix has at its place. -/
def misplaced (agents : List σ) (matrix : UtilityMatrix α) : Option (EntityId × EntityId) :=
  (List.zip (agents.map Agent.id) matrix.agents).find? fun p => p.1 ≠ p.2

/-- One agent per agent of the matrix, in the same order. -/
def matchPopulation (agents : List σ) (matrix : UtilityMatrix α) : Except (Error α) Unit :=
  if agents.length ≠ matrix.agents.length then
    .error (.validation (.populationSize agents.length matrix.agents.length))
  else match misplaced agents matrix with
    | some (built, expected) => .error (.validation (.wrongAgent built expected))
    | none => .ok ()

/-- Matrix and agents of a solve, or what stands in its way. -/
def setUp (factory : Factory α σ) (settings : Solver.Settings α) (oracle : Option (Oracle α))
    (inst : Instance) : Except (Error α) (UtilityMatrix α × List σ) := do
  let some oracle := oracle | .error .oracleUnavailable
  settings.validate
  let matrix ← UtilityMatrix.build inst oracle settings.congestionPenalty
  let agents ← factory.build matrix
  matchPopulation agents matrix
  return (matrix, agents)

/-- Solves a problem with agents from a factory. -/
def solve (factory : Factory α σ) (settings : Solver.Settings α) (oracle : Option (Oracle α))
    (surroundings : Surroundings α) (inst : Instance) : Outcome α :=
  match setUp factory settings oracle inst with
  | .error e => ⟨[], .error e⟩
  | .ok (matrix, agents) =>
    let start := .started factory.name matrix.agents.length matrix.targets.length
    let course := play settings surroundings matrix 1 agents settings.maxRounds
    match course.ending with
    | .error e => ⟨start :: course.events, .error e⟩
    | .ok (termination, last) =>
      let final := finalBranch matrix course.records
      let best := bestBranch matrix course.records
      let assignment := select settings final best
      ⟨start :: course.events ++ final.events ++ best.events ++ tableEvents matrix assignment,
        .ok ⟨assignment, stats factory.name matrix course.records termination last final best
          surroundings.totalMs⟩⟩

/-- Solves a problem with the algorithm of the settings. -/
def solveBuiltIn (coins : Dsa.Coins α) (settings : Solver.Settings α) (oracle : Option (Oracle α))
    (surroundings : Surroundings α) (inst : Instance) : Outcome α :=
  solve (settings.algorithm.factory coins) settings oracle surroundings inst

end Solver

end Dispatch
