import Dispatch.Json.Decode
import Dispatch.Stats
/-!
# JSON forms of statistics

What the record of a solve looks like in JSON.
-/

namespace Dispatch

open Json

namespace Termination

def name : Termination → String
  | converged => "converged"
  | roundLimit => "round_limit"
  | timeBudget => "time_budget"

def ofJson? (j : Json) : Option Termination :=
  j.unitVariant?.bind fun name => [converged, roundLimit, timeBudget].find? fun t => t.name = name

def toJson (t : Termination) : Json := ofString t.name

end Termination

namespace Stats

def fieldNames : List String :=
  ["solver", "agent_count", "target_count", "rounds", "termination", "constraint_checks",
    "messages", "message_bytes", "other_messages", "other_message_bytes", "utilities",
    "final_utility", "final_repaired_utility", "best_utility", "best_repaired_utility",
    "repair_regressions", "elapsed_ms"]

def ofJson? (j : Json) : Option (Stats Float) := do
  match ← j.fields? fieldNames with
  | [solver, agents, targets, rounds, termination, checks, messages, bytes, others, otherBytes,
      utilities, final, finalRepaired, best, bestRepaired, regressions, elapsed] =>
    return ⟨← required toString? solver, ← required toCount? agents, ← required toCount? targets,
      ← required toCount? rounds, ← required Termination.ofJson? termination,
      ← required toCount? checks, ← required toCount? messages, ← required toCount? bytes,
      ← required toCount? others, ← required toCount? otherBytes,
      ← required (toList? toDouble?) utilities, ← required toDouble? final,
      ← required toDouble? finalRepaired, ← required toDouble? best,
      ← required toDouble? bestRepaired, ← required toCount? regressions,
      ← required toDouble? elapsed⟩
  | _ => none

def toJson (s : Stats Float) : Json :=
  record [("solver", ofString s.solver), ("agent_count", ofNat s.agentCount),
    ("target_count", ofNat s.targetCount), ("rounds", ofNat s.rounds),
    ("termination", s.termination.toJson), ("constraint_checks", ofNat s.constraintChecks),
    ("messages", ofNat s.messages), ("message_bytes", ofNat s.messageBytes),
    ("other_messages", ofNat s.otherMessages), ("other_message_bytes", ofNat s.otherMessageBytes),
    ("utilities", array (s.utilities.map ofDouble)), ("final_utility", ofDouble s.finalUtility),
    ("final_repaired_utility", ofDouble s.finalRepairedUtility),
    ("best_utility", ofDouble s.bestUtility),
    ("best_repaired_utility", ofDouble s.bestRepairedUtility),
    ("repair_regressions", ofNat s.repairRegressions), ("elapsed_ms", ofDouble s.elapsedMs)]

end Stats

end Dispatch
