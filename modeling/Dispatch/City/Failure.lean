import Dispatch.City.Generation
import Dispatch.Error
import Dispatch.Text.Quoted
/-!
# Failures around a simulation

Settings that no simulation accepts, scenarios that cannot be drawn, read or measured, and failures
of the engine underneath. `Failure.message` words them.
-/

namespace Dispatch.City

variable {α : Type}

/-- What can go wrong around a simulation. -/
inductive Failure (α : Type) where
  | capacity (value : α)
  | growth (value : α)
  | emptyRange (generation : Generation α)
  | noAreas
  /-- The range of intensities is wider than the largest scalar. -/
  | unboundedIntensity
  /-- A bound of the intensities is not a number. -/
  | incomparableIntensities
  /-- A difference of coordinates that 32 bits do not hold. -/
  | coordinateOverflow
  | missingScenarioPath
  | unreadableScenario
  | malformedScenario
  | unwritableScenario
  | unreadableSettings (name : String)
  | malformedSettings
  /-- A file name with another extension, or without any. -/
  | unsupportedFormat (extension : Option String) (name : String)
  | engine (cause : Error α)
  | tick (tick : Nat) (cause : Error α)
deriving DecidableEq, Repr

namespace Failure

/-- The failure of the engine underneath, if there is one. -/
def cause? : Failure α → Option (Error α)
  | engine e | tick _ e => some e
  | _ => none

/-! ## Wording -/

def listing (x : Float) : String := Decimal.exact.write x

def optionText (text : α → String) : Option α → String
  | some x => "Some(" ++ text x ++ ")"
  | none => "None"

def generationText (g : Generation Float) : String :=
  s!"ScenarioGenParams \x7b areas: {g.areas}, brigades: {g.brigades}, fires: {g.fires}, extent: " ++
    optionText (fun r => s!"({r.1}, {r.2})") g.extent ++ ", intensity_range: " ++
    optionText (fun r => "(" ++ listing r.1 ++ ", " ++ listing r.2 ++ ")") g.intensityRange ++
    ", seed: " ++ optionText toString g.seed ++ " \x7d"

def message : Failure Float → String
  | capacity x => "capacity must be positive, got " ++ amount x
  | growth x => "growth must be non-negative, got " ++ amount x
  | emptyRange g => "Empty generation range in " ++ generationText g
  | noAreas => "Cannot place brigades or fires without areas"
  | unboundedIntensity => "called \x60Result::unwrap()\x60 on an \x60Err\x60 value: NonFinite"
  | incomparableIntensities => "cannot sample empty range"
  | coordinateOverflow => "attempt to subtract with overflow"
  | missingScenarioPath => "Missing scenario_path for file source"
  | unreadableScenario => "Failed to read scenario file"
  | malformedScenario => "Failed to parse scenario json"
  | unwritableScenario => "Failed to write scenario file"
  | unreadableSettings name => "Failed to read config " ++ name
  | malformedSettings => "Failed to parse config json"
  | unsupportedFormat extension name =>
    "Unsupported config format " ++ optionText Text.quoted extension ++ " for " ++ name
  | engine e => e.message
  | tick n _ => s!"Solve failed at tick {n}"

end Failure

end Dispatch.City
