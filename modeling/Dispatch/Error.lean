import Dispatch.Message
import Dispatch.Decimal.Layout
/-!
# Failures

What can go wrong while a problem is set up or solved. A failure is its cause and the data that
show it; `Error.message` is the only place that words it.
-/

namespace Dispatch

/-- A setting that no solve accepts. -/
inductive Misconfiguration (α : Type) where
  /-- The penalty handed to a utility matrix. -/
  | matrixPenalty (penalty : α)
  | noRounds
  /-- The penalty of a solver. -/
  | solverPenalty (penalty : α)
  | damping (damping : α)
  | noTargets
  | probability (probability : α)
deriving DecidableEq, Repr

/-- A value or a population that does not fit the problem. -/
inductive Misfit (α : Type) where
  | populationSize (built expected : Nat)
  | wrongAgent (built expected : EntityId)
  | fireIntensity (fire : EntityId) (intensity : α)
  /-- An objection in words, raised by an agent or a factory from outside the library. -/
  | objection (text : String)
deriving DecidableEq, Repr

/-- Why a problem could not be set up or solved. -/
inductive Error (α : Type) where
  | oracleUnavailable
  | nonFiniteUtility (agent target : EntityId) (value : α)
  | nonFiniteMessage (sender recipient : EntityId) (value : α)
  | divergentFactorGraph (edge : Edge) (value : α)
  | invalidIdentifier (id : EntityId)
  | configuration (cause : Misconfiguration α)
  | validation (cause : Misfit α)
deriving DecidableEq, Repr

/-- Numbers in messages and log lines. -/
def amount (x : Float) : String := Decimal.plain.write x

def Misconfiguration.message : Misconfiguration Float → String
  | matrixPenalty x => "congestion penalty must be finite and non-negative, got " ++ amount x
  | noRounds => "max_rounds must be positive"
  | solverPenalty x => "congestion_penalty must be finite and non-negative, got " ++ amount x
  | damping x => "max-sum damping must be in [0, 1), got " ++ amount x
  | noTargets => "max-sum max_targets must be positive"
  | probability x => "dsa probability must be in [0, 1], got " ++ amount x

def Misfit.message : Misfit Float → String
  | populationSize built expected => s!"factory built {built} agents for {expected} agent ids"
  | wrongAgent built expected => s!"factory built agent {built} where agent {expected} was expected"
  | fireIntensity fire x =>
    s!"fire {fire} intensity must be finite and non-negative, got " ++ amount x
  | objection text => text

def Error.message : Error Float → String
  | oracleUnavailable => "Utility oracle has not been configured"
  | nonFiniteUtility agent target x =>
    "Oracle returned non-finite utility " ++ amount x ++ s!" for agent {agent} and target {target}"
  | nonFiniteMessage sender recipient x =>
    s!"Agent {sender} tried to send non-finite value " ++ amount x ++ s!" to {recipient}"
  | divergentFactorGraph edge x =>
    "Factor " ++ toString edge.source ++ " tried to send " ++ amount x ++ " to factor " ++
      toString edge.dest
  | invalidIdentifier id => s!"Invalid entity identifier: {id}"
  | configuration cause => "Configuration error: " ++ cause.message
  | validation cause => "Validation error: " ++ cause.message

end Dispatch
