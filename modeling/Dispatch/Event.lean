import Dispatch.Decimal.Layout
import Dispatch.Message
import Dispatch.Stats
/-!
# Events

What a run reports while it goes on. An event is the data of one log line; `Event.text` words it
and `Event.level` says how severe it is.
-/

namespace Dispatch

/-- How severe an event is, the most severe first. -/
inductive Level where
  | error
  | warn
  | info
  | debug
  | trace
deriving DecidableEq, Repr

namespace Level

def rank : Level → Nat
  | error => 0
  | warn => 1
  | info => 2
  | debug => 3
  | trace => 4

/-- A listener at `threshold` hears events that are at least as severe. -/
def heardAt (l threshold : Level) : Bool := decide (l.rank ≤ threshold.rank)

instance : ToString Level where
  toString
    | error => "ERROR"
    | warn => "WARN"
    | info => "INFO"
    | debug => "DEBUG"
    | trace => "TRACE"

end Level

/-- Something worth a log line. -/
inductive Event (α : Type) where
  | started (solver : String) (agents targets : Nat)
  | posted (message : Message α)
  | refused (sender recipient : EntityId) (value : α)
  | emitted (edge : Edge) (value : α)
  | diverged (edge : Edge) (value : α)
  | hostless (agent : EntityId) (node : Node)
  | ignored (agent : EntityId) (message : Message α)
  | prefers (agent : EntityId) (target : Option EntityId)
  | moved (agent : EntityId) (old new : Option EntityId)
  | switched (agent : EntityId) (old : Option EntityId) (oldScore : Option α)
      (new : Option EntityId) (newScore : Option α)
  | outOfTime (budgetMs round : Nat)
  | roundEnded (round : Nat) (utility : α) (stable : Bool)
  | agentStatus (agent : EntityId) (target : Option EntityId) (checks : Nat)
  | repairLowered (branch : String) (utility repaired : α)
  | finalAssignment
  | targetCrew (target : EntityId) (crew : List EntityId) (need : Nat)
  | summary (stats : Stats α)
  | extinguished (tick : Nat)
  | tick (tick burning : Nat) (intensity utility : α)

namespace Event
variable {α : Type}

def level : Event α → Level
  | refused .. | diverged .. | repairLowered .. => .error
  | hostless .. | ignored .. => .warn
  | started .. | roundEnded .. | finalAssignment | targetCrew .. | summary .. | extinguished ..
  | tick .. => .info
  | switched .. | outOfTime .. | agentStatus .. => .debug
  | posted .. | emitted .. | prefers .. | moved .. => .trace

/-! ## Wording -/

/-- An identifier in a listing. -/
def idText (id : EntityId) : String := s!"EntityId({id})"

def choiceText : Option EntityId → String
  | some id => s!"Some({idText id})"
  | none => "None"

def nodeText : Node → String
  | .ofAgent id => s!"Variable({idText id})"
  | .ofTarget id => s!"Function({idText id})"

def payloadText : Payload Float → String
  | .value v => "Value(" ++ Decimal.exact.write v ++ ")"
  | .choice target => s!"Assignment({choiceText target})"
  | .factor edge v =>
    "Factor \x7b from: " ++ nodeText edge.source ++ ", to: " ++ nodeText edge.dest ++ ", value: " ++
      Decimal.exact.write v ++ " \x7d"

def amountText (x : Float) : String := Decimal.plain.write x

def scoreText : Option Float → String
  | some x => amountText x
  | none => "-inf"

def terminationText : Termination → String
  | .converged => "Converged"
  | .roundLimit => "RoundLimit"
  | .timeBudget => "TimeBudget"

def summaryText (s : Stats Float) : String :=
  s.solver ++ " solved " ++ toString s.agentCount ++ "x" ++ toString s.targetCount ++ " in " ++
    toString s.rounds ++ " rounds (" ++ terminationText s.termination ++ "): nccc=" ++
    toString s.constraintChecks ++ " messages=" ++ toString s.messages ++ " (" ++
    toString s.messageBytes ++ " bytes) final=" ++ Decimal.fixed 3 s.finalUtility ++ " best=" ++
    Decimal.fixed 3 s.bestUtility ++ " best_greedy=" ++ Decimal.fixed 3 s.bestRepairedUtility

def text : Event Float → String
  | started solver agents targets =>
    s!"Starting {solver} with {agents} agents and {targets} targets"
  | posted m => s!"Message from {m.sender} to {m.recipient} : " ++ payloadText m.payload
  | refused sender recipient x =>
    s!"Agent {sender} tried to send " ++ amountText x ++ s!" to agent {recipient}!"
  | emitted e x =>
    "Message from " ++ toString e.source ++ " to " ++ toString e.dest ++ " : " ++ amountText x
  | diverged e x =>
    "Factor " ++ toString e.source ++ " tried to send " ++ amountText x ++ " to factor " ++
      toString e.dest ++ "!"
  | hostless agent node => s!"Agent {agent} has no host for node {node}, dropping message"
  | ignored agent m =>
    s!"Agent {agent} ignoring unexpected message from " ++ toString m.sender ++ ": " ++
      payloadText m.payload
  | prefers agent target => s!"Agent {agent} now prefers {choiceText target}"
  | moved agent old new => s!"Agent {agent} moves {choiceText old} -> {choiceText new}"
  | switched agent old oldScore new newScore =>
    s!"Agent {agent} switch: {choiceText old} ({scoreText oldScore}) -> " ++
      s!"{choiceText new} ({scoreText newScore})"
  | outOfTime budget round => s!"Time budget of {budget}ms exhausted before round {round}"
  | roundEnded round x stable =>
    s!"Round {round}: utility " ++ Decimal.fixed 3 x ++ (if stable then " (stable)" else "")
  | agentStatus agent (some target) checks => s!"  A{agent} -> T{target} (checks: {checks})"
  | agentStatus agent none _ => s!"  A{agent} unassigned"
  | repairLowered branch x repaired =>
    s!"Greedy repair lowered the {branch} utility from {amountText x} to {amountText repaired}, " ++
      "keeping the unrepaired assignment"
  | finalAssignment => "Final assignment:"
  | targetCrew target [] _ => s!"T{target}: None"
  | targetCrew target crew need =>
    s!"T{target}: [" ++ ", ".intercalate (crew.map fun a => s!"A{a}") ++ s!"] (required {need})"
  | summary s => summaryText s
  | extinguished n => s!"All fires extinguished before tick {n}"
  | tick n burning intensity x =>
    s!"Tick {n}: {burning} fires burning, total intensity " ++ Decimal.fixed 2 intensity ++
      ", utility " ++ Decimal.fixed 3 x

end Event

end Dispatch
