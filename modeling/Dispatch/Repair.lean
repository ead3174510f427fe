import Dispatch.Outlook
/-!
# Greedy repair

One sweep of best responses: every agent in turn moves to the target of strictly highest score,
given where all others stand then. `sweep` keeps the moves it made with the scores it compared.
-/

namespace Dispatch

variable {α : Type} [Scalar α]

/-- One agent's move during a repair, with the scores it compared. -/
structure Switch (α : Type) where
  agent : EntityId
  old : Option EntityId
  oldScore : Score α
  new : Option EntityId
  newScore : Score α

/-- Where a repair sweep stands: the assignment, its counts, and the moves made so far. -/
structure Sweep (α : Type) where
  assignment : Assignment
  counts : Counts
  switches : List (Switch α)

namespace Sweep

/-- What the agent sees: everybody but itself. -/
def view (m : UtilityMatrix α) (s : Sweep α) (agent : EntityId) : Outlook α :=
  ⟨agent, m, match s.assignment.get? agent with
    | some target => s.counts.decrease target
    | none => s.counts⟩

/-- Lets the agent move to its best response. -/
def step (m : UtilityMatrix α) (s : Sweep α) (agent : EntityId) : Sweep α :=
  let current := s.assignment.get? agent
  let outlook := s.view m agent
  match outlook.bestResponse current with
  | none => s
  | some target =>
    if current = some target then s
    else {
      assignment := s.assignment.assign agent target
      counts := (match current with
        | some old => s.counts.decrease old
        | none => s.counts).increase target
      switches := s.switches ++
        [⟨agent, current, outlook.score current, some target, outlook.score (some target)⟩] }

def start (x : Assignment) : Sweep α := ⟨x, .ofTargets (x.toList.map (·.2)), []⟩

end Sweep

/-- Lets every agent of the matrix move once, in matrix order. -/
def sweep (m : UtilityMatrix α) (x : Assignment) : Sweep α :=
  m.agents.foldl (Sweep.step m) (.start x)

/-- The assignment after one sweep of best responses. -/
def repaired (m : UtilityMatrix α) (x : Assignment) : Assignment := (sweep m x).assignment

end Dispatch
