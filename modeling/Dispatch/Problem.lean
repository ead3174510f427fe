import Dispatch.Scalar
import Dispatch.SortedMap
/-!
# Problems

A problem names the agents and the targets. An oracle tells what each pair is worth and how many
agents each target needs.
-/

namespace Dispatch

/-- The agents and targets of one solve, in the order that decides ties. -/
structure Instance where
  agents : List EntityId
  targets : List EntityId
  /-- Where the agents stand. -/
  locations : SortedMap EntityId EntityId
deriving DecidableEq, Inhabited

/-- Scores pairs of agent and target, and says how many agents a target needs. -/
structure Oracle (α : Type) where
  utility : EntityId → EntityId → α
  need : EntityId → Nat

/-- An oracle written out pair by pair. -/
structure UtilityTable (α : Type) where
  utilities : SortedMap (EntityId × EntityId) α
  needs : SortedMap EntityId Nat
  /-- The need of a target that `needs` does not list. -/
  defaultNeed : Nat

namespace UtilityTable
variable {α : Type} [Scalar α]

/-- Zero for a pair that is not listed. -/
def utility (table : UtilityTable α) (agent target : EntityId) : α :=
  table.utilities.getD (agent, target) Scalar.zero

def need (table : UtilityTable α) (target : EntityId) : Nat :=
  table.needs.getD target table.defaultNeed

def oracle (table : UtilityTable α) : Oracle α := ⟨table.utility, table.need⟩

end UtilityTable

end Dispatch
