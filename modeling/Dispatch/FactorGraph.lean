import Dispatch.Matrix
/-!
# Factor graphs

Every agent is linked to the targets it considers. A target with at least one link has a function
node, which one of the linked agents hosts: the one of highest utility for the target, the
earliest on ties.
-/

namespace Dispatch

variable {α : Type} [Scalar α]

/-- The function node of a target, the agents linked to it in matrix order, and its host. -/
structure FunctionNode where
  target : EntityId
  neighbours : List EntityId
  owner : EntityId
deriving DecidableEq, Repr

/-- The links between agents and targets. -/
structure FactorGraph where
  /-- The targets each agent considers. -/
  candidates : SortedMap EntityId (List EntityId)
  /-- The function nodes, in matrix order of their targets. -/
  functions : List FunctionNode

namespace FactorGraph

/-- The targets an agent considers: all of them, or the best few. -/
def considered (m : UtilityMatrix α) (limit : Option Nat) (agent : EntityId) : List EntityId :=
  match limit with
  | some n => m.topTargets agent n
  | none => m.targets

/-- Keeps the agent of higher utility, the earlier one on ties. -/
def fitter (m : UtilityMatrix α) (target : EntityId) (best agent : EntityId) : EntityId :=
  if m.utility best target < m.utility agent target then agent else best

/-- The function node of a target, if anybody considers it. -/
def functionNode? (m : UtilityMatrix α) (limit : Option Nat) (target : EntityId) :
    Option FunctionNode :=
  match m.agents.filter fun a => target ∈ considered m limit a with
  | [] => none
  | first :: rest => some ⟨target, first :: rest, rest.foldl (fitter m target) first⟩

/-- The graph of a matrix in which each agent considers at most `limit` targets. -/
def build (m : UtilityMatrix α) (limit : Option Nat) : FactorGraph where
  candidates := .ofList (m.agents.map fun a => (a, considered m limit a))
  functions := m.targets.filterMap (functionNode? m limit)

/-- The targets linked to an agent. -/
def candidatesOf (g : FactorGraph) (agent : EntityId) : List EntityId := g.candidates.getD agent []

def functionOf? (g : FactorGraph) (target : EntityId) : Option FunctionNode :=
  g.functions.find? fun f => f.target = target

/-- The agents linked to a target, in matrix order. -/
def neighboursOf (g : FactorGraph) (target : EntityId) : List EntityId :=
  match g.functionOf? target with
  | some f => f.neighbours
  | none => []

/-- The agent that hosts the function node of a target. -/
def owner? (g : FactorGraph) (target : EntityId) : Option EntityId :=
  (g.functionOf? target).map (·.owner)

/-- The targets whose function nodes the agent hosts, in matrix order. -/
def hostedBy (g : FactorGraph) (agent : EntityId) : List EntityId :=
  (g.functions.filter fun f => f.owner = agent).map (·.target)

/-- The agent that hosts a node. Agents host their own variables. -/
def host? (g : FactorGraph) : Node → Option EntityId
  | .ofAgent agent => some agent
  | .ofTarget target => g.owner? target

def linkCount (g : FactorGraph) : Nat := total (g.candidates.values.map List.length)

end FactorGraph

end Dispatch
