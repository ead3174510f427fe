import Dispatch.Dsa.Agent
import Dispatch.MaxSum.Agent
/-!
# Algorithms

The built-in algorithms, and the factories that people a solve with agents.
-/

namespace Dispatch

variable {α : Type} [Scalar α]

/-- Peoples a solve: one agent per agent of the matrix, in the same order. -/
structure Factory (α σ : Type) [Scalar α] where
  name : String
  build : UtilityMatrix α → Except (Error α) (List σ)

/-- A built-in algorithm with its settings. -/
inductive Algorithm (α : Type) where
  | maxSum (settings : MaxSum.Settings α)
  | dsa (settings : Dsa.Settings α)
deriving DecidableEq, Repr

namespace Algorithm

def default : Algorithm α := maxSum .default

def name : Algorithm α → String
  | maxSum _ => "MaxSum"
  | dsa _ => "DSA"

def validate : Algorithm α → Except (Error α) Unit
  | maxSum settings => settings.validate
  | dsa settings => settings.validate

/-- An agent of either built-in algorithm. -/
inductive Agent (α : Type) [Scalar α] where
  | maxSum (agent : MaxSum.Agent α)
  | dsa (agent : Dsa.Agent α)

namespace Agent

def id : Agent α → EntityId
  | maxSum a => a.id
  | dsa a => a.id

def target : Agent α → Option EntityId
  | maxSum a => a.target
  | dsa a => a.target

def checks : Agent α → Nat
  | maxSum a => a.checks
  | dsa a => a.checks

def send : Agent α → Outgoing α (Agent α)
  | maxSum a => let out := a.send; ⟨maxSum out.agent, out.notes, out.posts, out.reported⟩
  | dsa a => let out := a.send; ⟨dsa out.agent, out.notes, out.posts, out.reported⟩

def receive : Agent α → List (Message α) → Reply α (Agent α) Unit
  | maxSum a, inbox => let r := a.receive inbox; ⟨maxSum r.agent, r.notes, r.answer⟩
  | dsa a, inbox => let r := a.receive inbox; ⟨dsa r.agent, r.notes, r.answer⟩

def improve : Agent α → Reply α (Agent α) Bool
  | maxSum a => let r := a.improve; ⟨maxSum r.agent, r.notes, r.answer⟩
  | dsa a => let r := a.improve; ⟨dsa r.agent, r.notes, r.answer⟩

instance : Dispatch.Agent α (Agent α) where
  id := id
  target := target
  send := send
  receive := receive
  improve := improve
  checks := checks
  otherMessages _ := 0
  otherBytes _ := 0

end Agent

/-- The agents of a matrix, once the settings have been checked. -/
def agents (coins : Dsa.Coins α) (algorithm : Algorithm α) (matrix : UtilityMatrix α) :
    Except (Error α) (List (Agent α)) :=
  match algorithm.validate with
  | .error e => .error e
  | .ok () => .ok (match algorithm with
    | maxSum settings => (MaxSum.agents settings matrix).map .maxSum
    | dsa settings => (Dsa.agents coins settings matrix).map .dsa)

def factory (coins : Dsa.Coins α) (algorithm : Algorithm α) : Factory α (Agent α) :=
  ⟨algorithm.name, algorithm.agents coins⟩

end Algorithm

end Dispatch
