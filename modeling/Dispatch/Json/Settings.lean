import Dispatch.Json.Decode
import Dispatch.Solver.Settings
/-!
# JSON forms of settings

What algorithms and the settings of a solver look like in JSON. Fields that are left out have
their default.
-/

namespace Dispatch

open Json

namespace MaxSum.Settings

def ofJson? (j : Json) : Option (Settings Float) := do
  match ← j.fields? ["damping", "max_targets"] with
  | [damping, limit] =>
    let d : Settings Float := default
    return ⟨← orElse d.damping toDouble? damping, ← orElse none (toOption? toCount?) limit⟩
  | _ => none

def members (settings : Settings Float) : List (String × Json) :=
  [("damping", ofDouble settings.damping), ("max_targets", ofOption ofNat settings.maxTargets)]

end MaxSum.Settings

namespace Dsa.Settings

def ofJson? (j : Json) : Option (Settings Float) := do
  match ← j.fields? ["probability", "seed"] with
  | [probability, seed] =>
    let d : Settings Float := default
    return ⟨← orElse d.probability toDouble? probability, ← orElse d.seed toSeed? seed⟩
  | _ => none

def members (settings : Settings Float) : List (String × Json) :=
  [("probability", ofDouble settings.probability), ("seed", ofNat settings.seed.toNat)]

end Dsa.Settings

namespace Algorithm

/-- How deep a value with brackets may lie in a text that holds an algorithm. -/
def maxDepth : Nat := 127

mutual

/-- The settings of an algorithm are taken in before the algorithm is known: all numbers have to
be in range, all texts have to be strings, and no value may lie too deep. -/
def isSound (depth : Nat) : Json → Bool
  | .number n => n.toDouble?.isSome
  | .text t => t.content.isSome
  | .array items => decide (depth < maxDepth) && areSound (depth + 1) items
  | .object members => decide (depth < maxDepth) && membersAreSound (depth + 1) members
  | _ => true

def areSound (depth : Nat) : List Json → Bool
  | [] => true
  | item :: rest => isSound depth item && areSound depth rest

def membersAreSound (depth : Nat) : List (JsonText × Json) → Bool
  | [] => true
  | (key, item) :: rest => key.content.isSome && isSound depth item && membersAreSound depth rest

end

/-- Reads the settings of the named method. -/
def ofMethod? (method : String) (settings : Json) : Option (Algorithm Float) :=
  if method = "max_sum" then (MaxSum.Settings.ofJson? settings).map .maxSum
  else if method = "dsa" then (Dsa.Settings.ofJson? settings).map .dsa
  else none

/-- The method stands among the settings, or in front of them. `depth` counts the brackets around
the value. -/
def ofJson? (depth : Nat) (j : Json) : Option (Algorithm Float) :=
  if isSound depth j then
    match j with
    | .object members => do
      let method ← (← memberNamed? members "method")
      ofMethod? (← method.toString?) (.object (members.filter fun m => m.1.content ≠ some "method"))
    | .array (method :: settings) => do ofMethod? (← method.toString?) (.array settings)
    | _ => none
  else none

def toJson : Algorithm Float → Json
  | maxSum settings => record (("method", ofString "max_sum") :: settings.members)
  | dsa settings => record (("method", ofString "dsa") :: settings.members)

end Algorithm

namespace Solver.Settings

def fieldNames : List String :=
  ["max_rounds", "anytime", "greedy_repair", "time_budget_ms", "parallel", "congestion_penalty",
    "algorithm"]

/-- Fields that are left out have their default. `depth` counts the brackets around the value. -/
def ofJson? (depth : Nat) (j : Json) : Option (Solver.Settings Float) := do
  match ← j.fields? fieldNames with
  | [rounds, anytime, repair, budget, parallel, penalty, algorithm] =>
    let d : Solver.Settings Float := default
    return ⟨← orElse d.maxRounds toCount? rounds, ← orElse d.anytime toBool? anytime,
      ← orElse d.repair toBool? repair, ← orElse none (toOption? toCount?) budget,
      ← orElse d.parallel toBool? parallel, ← orElse d.congestionPenalty toDouble? penalty,
      ← orElse d.algorithm (Algorithm.ofJson? (depth + 1)) algorithm⟩
  | _ => none

def toJson (settings : Solver.Settings Float) : Json :=
  record [("max_rounds", ofNat settings.maxRounds), ("anytime", bool settings.anytime),
    ("greedy_repair", bool settings.repair),
    ("time_budget_ms", ofOption ofNat settings.timeBudgetMs),
    ("parallel", bool settings.parallel),
    ("congestion_penalty", ofDouble settings.congestionPenalty),
    ("algorithm", settings.algorithm.toJson)]

end Solver.Settings

end Dispatch
