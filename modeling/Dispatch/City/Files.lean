import Dispatch.City.Drawing
import Dispatch.City.Json
import Dispatch.Json.Parser
/-!
# Files of settings and scenarios

A file is read through a function from names to contents, so nothing here depends on a disk.
-/

namespace Dispatch.City

open Json

/-- The contents of the files that can be read. -/
abbrev Files := String → Option String

/-- The parts of a name between slashes, but for empty ones and those that lead nowhere else. -/
def pathParts (name : String) : List String :=
  (name.splitOn "/").filter fun part => part ≠ "" ∧ part ≠ "."

/-- The last part of a name, if it names something. -/
def fileName? (name : String) : Option String := (pathParts name).getLast?.filter (· ≠ "..")

/-- What stands after the last point of a file name. A point in front starts no extension. -/
def extension? (name : String) : Option String := do
  let file ← fileName? name
  let reversed := file.toList.reverse
  let stem := (reversed.dropWhile (· ≠ '.')).drop 1
  if stem.isEmpty then none else some (String.ofList (reversed.takeWhile (· ≠ '.')).reverse)

/-- Reads settings from a JSON file. -/
def readSettings {β : Type} (read : Json → Option β) (files : Files) (name : String) :
    Except (Failure Float) β :=
  if extension? name = some "json" then
    match files name with
    | none => .error (.unreadableSettings name)
    | some contents =>
      match (Json.parse contents).bind read with
      | some settings => .ok settings
      | none => .error .malformedSettings
  else .error (.unsupportedFormat (extension? name) name)

/-- Reads a scenario from a file and checks it. -/
def readScenario (files : Files) (name : String) : Except (Failure Float) (Scenario Float) :=
  match files name with
  | none => .error .unreadableScenario
  | some contents =>
    match (Json.parse contents).bind Scenario.ofJson? with
    | none => .error .malformedScenario
    | some s =>
      match s.validate with
      | .error e => .error (.engine e)
      | .ok () => .ok s

/-- The first scenario of a simulation: drawn, from `anySeed` if the settings fix none, or read. -/
def Settings.firstScenario (settings : Settings Float) (files : Files) (anySeed : UInt64) :
    Except (Failure Float) (Scenario Float) :=
  match settings.source with
  | .random => settings.generation.draw Random.Source.draws anySeed
  | .file =>
    match settings.scenarioPath with
    | none => .error .missingScenarioPath
    | some path => readScenario files path

end Dispatch.City
