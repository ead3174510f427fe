import Dispatch.City.Failure
import Dispatch.Solver.Settings
/-!
# Settings of a simulation

How long to simulate, how strong the brigades are, how fast fires grow, and where the first
scenario comes from.
-/

namespace Dispatch.City

variable {α : Type} [Scalar α]

/-- Where the first scenario comes from. -/
inductive Source where
  | random
  | file
deriving DecidableEq, Repr

/-- Settings of a simulation. -/
structure Settings (α : Type) where
  /-- The most ticks it may take. -/
  ticks : Nat
  /-- The intensity one brigade takes from a fire in one tick. -/
  capacity : α
  /-- The fraction by which a fire grows in one tick. -/
  growth : α
  source : Source
  scenarioPath : Option String
  generation : Generation α
  solver : Solver.Settings α
deriving DecidableEq, Repr

def Settings.default : Settings α :=
  ⟨20, Scalar.ofNat 2, Scalar.ofDecimal 1 1, .random, none, .default, .default⟩

namespace Settings

def validate (settings : Settings α) : Except (Failure α) Unit :=
  if ¬ (Scalar.isFinite settings.capacity = true ∧ ¬ settings.capacity ≤ Scalar.zero) then
    .error (.capacity settings.capacity)
  else if ¬ Scalar.IsAmount settings.growth then .error (.growth settings.growth)
  else match settings.solver.validate with
    | .error e => .error (.engine e)
    | .ok () => .ok ()

end Settings

end Dispatch.City
