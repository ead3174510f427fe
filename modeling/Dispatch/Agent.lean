import Dispatch.Error
import Dispatch.Event
/-!
# Agents

A solver drives agents it knows nothing else about: in every round an agent first sends, then
receives what was sent to it, then improves its choice. Each answer comes with the agent as it is
afterwards, also when it is a failure.
-/

namespace Dispatch

/-- What the sending half of a round makes of an agent. -/
structure Outgoing (α σ : Type) where
  agent : σ
  notes : List (Event α)
  /-- The messages it posts, in order. -/
  posts : List (Message α)
  /-- The messages it accounts for, or the reason why it gives up after posting. -/
  reported : Except (Error α) (List (Message α))

/-- What another phase makes of an agent. -/
structure Reply (α σ β : Type) where
  agent : σ
  notes : List (Event α)
  answer : Except (Error α) β

/-- A state that takes part in rounds. -/
class Agent (α : outParam Type) (σ : Type) where
  id : σ → EntityId
  /-- The target it prefers, if any. -/
  target : σ → Option EntityId
  send : σ → Outgoing α σ
  receive : σ → List (Message α) → Reply α σ Unit
  /-- Reconsiders the target; the answer says whether the agent asks for another round. -/
  improve : σ → Reply α σ Bool
  /-- Constraint checks made so far. -/
  checks : σ → Nat
  /-- Messages exchanged outside the mailbox, and their bytes. -/
  otherMessages : σ → Nat
  otherBytes : σ → Nat

namespace Agent
variable {α σ : Type} [Agent α σ]

/-- Receives an inbox, then improves. -/
def step (agent : σ) (inbox : List (Message α)) : Reply α σ Bool :=
  let received := Agent.receive agent inbox
  match received.answer with
  | .error e => ⟨received.agent, received.notes, .error e⟩
  | .ok () =>
    let improved := Agent.improve received.agent
    ⟨improved.agent, received.notes ++ improved.notes, improved.answer⟩

end Agent

end Dispatch
