import Dispatch.Matrix
/-!
# What an agent sees of the targets

To an agent a target is worth its own utility there, lowered once the other agents on it meet its
need; having no target scores below every target. `Outlook.bestResponse` picks the choice of
highest score, and keeps the current one on ties.
-/

namespace Dispatch

variable {α : Type} [Scalar α]

/-- How many agents work on each target. -/
abbrev Counts := SortedMap EntityId Nat

namespace Counts

def of (counts : Counts) (target : EntityId) : Nat := counts.getD target 0

def increase (counts : Counts) (target : EntityId) : Counts :=
  counts.insert target (counts.of target + 1)

/-- One less, for a target that has been counted; zero stays zero. -/
def decrease (counts : Counts) (target : EntityId) : Counts :=
  match counts.get? target with
  | some n => counts.insert target (n - 1)
  | none => counts

/-- Counts the targets of a list. -/
def ofTargets (targets : List EntityId) : Counts := targets.foldl increase .empty

end Counts

/-- What one agent sees of the targets: how many others work on each. -/
structure Outlook (α : Type) [Scalar α] where
  agent : EntityId
  matrix : UtilityMatrix α
  others : Counts

/-- A score; none is minus infinity, the score of having no target. -/
abbrev Score (α : Type) := Option α

/-- Whether a target's score is strictly above another score. -/
def Score.exceeds (x : α) : Score α → Bool
  | some y => decide (y < x)
  | none => Scalar.aboveBottom x

namespace Outlook

/-- The score of working on the target as one more agent. -/
def worth (s : Outlook α) (target : EntityId) : α :=
  s.matrix.utility s.agent target + s.matrix.congestion target (s.others.of target + 1)

def score (s : Outlook α) (choice : Option EntityId) : Score α := choice.map s.worth

/-- Replaces the best choice so far by a target of strictly higher score. -/
def better (s : Outlook α) (best : Option EntityId × Score α) (target : EntityId) :
    Option EntityId × Score α :=
  if Score.exceeds (s.worth target) best.2 then (some target, some (s.worth target))
  else best

/-- The best choice for the agent. The current one wins every tie, then the earliest target. -/
def bestResponse (s : Outlook α) (current : Option EntityId) : Option EntityId :=
  (s.matrix.targets.foldl s.better (current, s.score current)).1

end Outlook

end Dispatch
