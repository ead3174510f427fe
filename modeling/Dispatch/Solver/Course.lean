import Dispatch.Solver.Settings
/-!
# The rounds of a solve

Rounds follow each other until no agent asks for another, the rounds are used up, or the time is.
The course of a solve lists what each round came to.
-/

namespace Dispatch

variable {α σ : Type} [Scalar α]

/-- What one round came to. -/
structure RoundRecord (α : Type) where
  /-- The targets the agents held after it. -/
  assignment : Assignment
  utility : α
  messages : Nat
  bytes : Nat
  /-- The most checks any agent made in it. -/
  checks : Nat
  /-- Some agent asked for another round. -/
  restless : Bool

/-- The rounds of a solve. -/
structure Course (α σ : Type) where
  records : List (RoundRecord α)
  events : List (Event α)
  /-- Why the rounds ended and the agents then, or the failure that broke them off. -/
  ending : Except (Error α) (Termination × List σ)

namespace Course

/-- Puts a round in front. -/
def cons (record : RoundRecord α) (events : List (Event α)) (rest : Course α σ) : Course α σ :=
  ⟨record :: rest.records, events ++ rest.events, rest.ending⟩

end Course

namespace Solver
variable [Agent α σ]

/-- The targets the agents hold. -/
def held (agents : List σ) : Assignment :=
  .ofList (agents.filterMap fun a => (Agent.target a).map fun t => (Agent.id a, t))

/-- The most checks any agent made since the agents were as in `before`. -/
def roundChecks (before after : List σ) : Nat :=
  (List.zipWith (fun b a => Agent.checks a - Agent.checks b) before after).foldl max 0

def summarise (matrix : UtilityMatrix α) (before after : List σ) (outcome : Round.Outcome α) :
    RoundRecord α :=
  let assignment := held after
  { assignment
    utility := matrix.totalUtility assignment
    messages := outcome.1.flatten.length
    bytes := total (outcome.1.flatten.map Message.bytes)
    checks := roundChecks before after
    restless := outcome.2.any fun again => again }

/-- The lines that close a round in the log. -/
def roundEvents (round : Nat) (agents : List σ) (r : RoundRecord α) : List (Event α) :=
  .roundEnded round r.utility (!r.restless) ::
    agents.map fun a => .agentStatus (Agent.id a) (Agent.target a) (Agent.checks a)

/-- The time budget, if it is used up before a round. The first round always starts. -/
def outOfTime (settings : Solver.Settings α) (surroundings : Surroundings α) (round : Nat) :
    Option Nat :=
  match settings.timeBudgetMs with
  | some budget =>
    if 1 < round ∧ budget * 1000000 ≤ surroundings.elapsed round then some budget else none
  | none => none

def playRound (settings : Solver.Settings α) (surroundings : Surroundings α) (round : Nat)
    (agents : List σ) : Progress α σ (Round.Outcome α) :=
  if settings.parallel then Round.runConcurrent (surroundings.schedule round) agents
  else Round.run agents

/-- Up to `remaining` rounds, the next of which has the given number. -/
def play (settings : Solver.Settings α) (surroundings : Surroundings α) (matrix : UtilityMatrix α)
    (round : Nat) (agents : List σ) : (remaining : Nat) → Course α σ
  | 0 => ⟨[], [], .ok (.roundLimit, agents)⟩
  | remaining + 1 =>
    match outOfTime settings surroundings round with
    | some budget => ⟨[], [.outOfTime budget round], .ok (.timeBudget, agents)⟩
    | none =>
      let progress := playRound settings surroundings round agents
      match progress.answer with
      | .error e => ⟨[], progress.events, .error e⟩
      | .ok outcome =>
        let r := summarise matrix agents progress.agents outcome
        let events := progress.events ++ roundEvents round progress.agents r
        if r.restless then
          (play settings surroundings matrix (round + 1) progress.agents remaining).cons r events
        else ⟨[r], events, .ok (.converged, progress.agents)⟩

end Solver

end Dispatch
