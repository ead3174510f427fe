import Dispatch.City.Simulation
import Dispatch.StableSort
/-!
# Reports

The summary of a simulation: its ticks, what is left of the fires, and how long it took.
-/

namespace Dispatch.City

variable {α : Type} [Scalar α]

/-- What is left of a fire. -/
structure FinalFire (α : Type) where
  fire : EntityId
  intensity : α
deriving DecidableEq, Repr

/-- The summary of a simulation. -/
structure Report (α : Type) where
  ticks : List (TickRecord α)
  /-- By ascending number. -/
  finalFires : List (FinalFire α)
  extinguished : Bool
  totalDurationMs : α
  timePerTickMs : α
  brigadeCount : Nat
  fireCount : Nat

/-- Sums up ticks that ended in a scenario. -/
def Report.of (s : Scenario α) (ticks : List (TickRecord α)) (totalMs : α) : Report α where
  ticks := ticks
  finalFires := sortBy (fun a b => decide (a.fire.toNat ≤ b.fire.toNat))
    (s.fires.map fun f => ⟨f.id, f.intensity⟩)
  extinguished := s.burning.isEmpty
  totalDurationMs := totalMs
  timePerTickMs := if ticks.isEmpty then Scalar.zero else totalMs / Scalar.ofNat ticks.length
  brigadeCount := s.brigades.length
  fireCount := s.fires.length

end Dispatch.City
