import Dispatch.Algorithm
import Dispatch.Round.Schedule
/-!
# Settings of a solver

How many rounds a solve may take, which assignment it returns, and which algorithm it runs. What a
solve cannot decide itself, the clock and the course of concurrent rounds, are its surroundings.
-/

namespace Dispatch

variable {α : Type} [Scalar α]

/-- Settings of a solver. -/
structure Solver.Settings (α : Type) where
  /-- The most rounds a solve may take. -/
  maxRounds : Nat
  /-- Return the best round's assignment, not the last one's. -/
  anytime : Bool
  /-- Return the repaired assignment. -/
  repair : Bool
  /-- Milliseconds after which no further round starts. -/
  timeBudgetMs : Option Nat
  /-- Let the agents of a round run concurrently. -/
  parallel : Bool
  /-- Utility lost per agent beyond a target's need. -/
  congestionPenalty : α
  algorithm : Algorithm α
deriving DecidableEq, Repr

namespace Solver.Settings

def default : Solver.Settings α := ⟨100, false, false, none, false, Scalar.ofNat 10, .default⟩

def validate (settings : Solver.Settings α) : Except (Error α) Unit :=
  if settings.maxRounds = 0 then .error (.configuration .noRounds)
  else if ¬ Scalar.IsAmount settings.congestionPenalty then
    .error (.configuration (.solverPenalty settings.congestionPenalty))
  else settings.algorithm.validate

end Solver.Settings

/-- What a solve cannot decide itself: what the clock shows and how concurrent rounds run. -/
structure Surroundings (α : Type) where
  /-- Nanoseconds since the start, as seen before a round. -/
  elapsed : Nat → Nat
  /-- Milliseconds the whole solve took. -/
  totalMs : α
  /-- The course of each concurrent round. -/
  schedule : Nat → Schedule

/-- A clock that stands still and rounds that go in turn. -/
def Surroundings.still : Surroundings α := ⟨fun _ => 0, Scalar.zero, fun _ => .inTurn⟩

end Dispatch
