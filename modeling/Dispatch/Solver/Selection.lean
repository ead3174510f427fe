import Dispatch.Repair
import Dispatch.Solver.Course
/-!
# What a solve returns

The last round and the earliest best one are the two candidates. Each is repaired; a repair that
lowers the utility is discarded. The settings say which of the four assignments is returned, and
the statistics report on both branches whatever they say.
-/

namespace Dispatch.Solver

variable {α σ : Type} [Scalar α] [Agent α σ]

/-- What the last round left; nobody has a target before the first. -/
def lastAssignment (records : List (RoundRecord α)) : Assignment :=
  match records.getLast? with
  | some r => r.assignment
  | none => .empty

/-- Keeps the round of strictly higher utility. -/
def betterRound (best : Option (RoundRecord α)) (r : RoundRecord α) : Option (RoundRecord α) :=
  match best with
  | some b => if b.utility < r.utility then some r else some b
  | none => some r

/-- The earliest round of highest utility. -/
def bestRound (records : List (RoundRecord α)) : Option (RoundRecord α) :=
  records.foldl betterRound none

/-- A candidate for the result, with what repair made of it. -/
structure Branch (α : Type) where
  assignment : Assignment
  utility : α
  /-- The repaired assignment, or the unrepaired one if repair lowered the utility. -/
  repaired : Assignment
  /-- The utility that repair reached, kept or not. -/
  repairedUtility : α
  regressed : Bool
  events : List (Event α)

def branch (matrix : UtilityMatrix α) (name : String) (x : Assignment) (utility : α) : Branch α :=
  let swept := sweep matrix x
  let reached := matrix.totalUtility swept.assignment
  let moves := swept.switches.map fun s => .switched s.agent s.old s.oldScore s.new s.newScore
  if reached < utility then
    ⟨x, utility, x, reached, true, moves ++ [.repairLowered name utility reached]⟩
  else ⟨x, utility, swept.assignment, reached, false, moves⟩

/-- The branch of the last round. -/
def finalBranch (matrix : UtilityMatrix α) (records : List (RoundRecord α)) : Branch α :=
  let x := lastAssignment records
  branch matrix "final" x (matrix.totalUtility x)

/-- The branch of the best round. -/
def bestBranch (matrix : UtilityMatrix α) (records : List (RoundRecord α)) : Branch α :=
  match bestRound records with
  | some r => branch matrix "best" r.assignment r.utility
  | none =>
    let x := lastAssignment records
    branch matrix "best" x (matrix.totalUtility x)

/-- Which assignment the settings ask for. -/
def select (settings : Solver.Settings α) (final best : Branch α) : Assignment :=
  match settings.anytime, settings.repair with
  | true, true => best.repaired
  | true, false => best.assignment
  | false, true => final.repaired
  | false, false => final.assignment

/-- The lines that list who works on each target. -/
def tableEvents (matrix : UtilityMatrix α) (x : Assignment) : List (Event α) :=
  .finalAssignment :: matrix.targets.map fun t =>
    .targetCrew t ((x.toList.filter fun p => p.2 = t).map (·.1)) (matrix.need t)

def stats (name : String) (matrix : UtilityMatrix α) (records : List (RoundRecord α))
    (termination : Termination) (agents : List σ) (final best : Branch α) (elapsedMs : α) :
    Stats α where
  solver := name
  agentCount := matrix.agents.length
  targetCount := matrix.targets.length
  rounds := records.length
  termination := termination
  constraintChecks := total (records.map (·.checks))
  messages := total (records.map (·.messages))
  messageBytes := total (records.map (·.bytes))
  otherMessages := total (agents.map Agent.otherMessages)
  otherMessageBytes := total (agents.map Agent.otherBytes)
  utilities := records.map (·.utility)
  finalUtility := final.utility
  finalRepairedUtility := final.repairedUtility
  bestUtility := best.utility
  bestRepairedUtility := best.repairedUtility
  repairRegressions := final.regressed.toNat + best.regressed.toNat
  elapsedMs := elapsedMs

end Dispatch.Solver
