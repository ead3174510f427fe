import Dispatch.Agent
import Dispatch.Outlook
/-!
# DSA agents

An agent of the Distributed Stochastic Algorithm announces its target to everybody else and then
looks for its best response to what was announced. An agent without a target takes it at once;
any other moves only if a coin says so. It asks for another round whenever it found something
strictly better, moved or not.
-/

namespace Dispatch.Dsa

variable {α : Type} [Scalar α]

/-- Settings of the agents. -/
structure Settings (α : Type) where
  /-- Chance that an agent with something better in sight moves. -/
  probability : α
  /-- Seed of the first agent; each next one adds one. -/
  seed : UInt64
deriving DecidableEq, Repr

namespace Settings

def default : Settings α := ⟨Scalar.ofDecimal 6 1, 0⟩

def validate (settings : Settings α) : Except (Error α) Unit :=
  if ¬ (Scalar.zero ≤ settings.probability ∧ settings.probability ≤ Scalar.one) then
    .error (.configuration (.probability settings.probability))
  else .ok ()

end Settings

/-- The coins of a population: the outcome of the `n`-th toss of an agent that draws from a
seed. -/
abbrev Coins (α : Type) := (seed : UInt64) → (probability : α) → (n : Nat) → Bool

/-- One agent. -/
structure Agent (α : Type) [Scalar α] where
  id : EntityId
  matrix : UtilityMatrix α
  coin : Nat → Bool
  /-- How many tosses it has made. -/
  tosses : Nat
  target : Option EntityId
  /-- The last announcement of each other agent. -/
  neighbours : SortedMap EntityId (Option EntityId)
  checks : Nat

namespace Agent

def new (id : EntityId) (matrix : UtilityMatrix α) (coin : Nat → Bool) : Agent α :=
  ⟨id, matrix, coin, 0, none, .empty, 0⟩

/-- Announces the target to every other agent. -/
def send (a : Agent α) : Outgoing α (Agent α) :=
  let others := a.matrix.agents.filter (· ≠ a.id)
  let messages := others.map fun other => ⟨a.id, other, .choice a.target⟩
  ⟨a, [], messages, .ok messages⟩

/-- Takes in one announcement and ignores any other message. -/
def take (a : Agent α) (m : Message α) : Agent α × List (Event α) :=
  match m.payload with
  | .choice target => ({ a with neighbours := a.neighbours.insert m.sender target }, [])
  | _ => (a, [.ignored a.id m])

/-- Takes in messages in order. -/
def takeAll (a : Agent α) : List (Message α) → Agent α × List (Event α)
  | [] => (a, [])
  | m :: rest =>
    let (next, notes) := a.take m
    let (last, more) := next.takeAll rest
    (last, notes ++ more)

def receive (a : Agent α) (inbox : List (Message α)) : Reply α (Agent α) Unit :=
  let (next, notes) := a.takeAll inbox
  ⟨next, notes, .ok ()⟩

/-- What the agent sees of the targets, going by the announcements. -/
def outlook (a : Agent α) : Outlook α :=
  ⟨a.id, a.matrix, .ofTargets (a.neighbours.values.filterMap fun announced => announced)⟩

/-- Takes the best response at once, or moves to it if the coin says so. Every target costs one
check. -/
def improve (a : Agent α) : Reply α (Agent α) Bool :=
  let checked := { a with checks := a.checks + a.matrix.targets.length }
  let best := a.outlook.bestResponse a.target
  if best = a.target then ⟨checked, [], .ok false⟩
  else if a.target.isNone then
    ⟨{ checked with target := best }, [.moved a.id a.target best], .ok true⟩
  else if a.coin a.tosses then
    ⟨{ checked with target := best, tosses := a.tosses + 1 }, [.moved a.id a.target best], .ok true⟩
  else ⟨{ checked with tosses := a.tosses + 1 }, [], .ok true⟩

instance : Dispatch.Agent α (Agent α) where
  id := id
  target := target
  send := send
  receive := receive
  improve := improve
  checks := checks
  otherMessages _ := 0
  otherBytes _ := 0

end Agent

/-- One agent per agent of the matrix; the one at position `i` draws from the seed plus `i`. -/
def agents (coins : Coins α) (settings : Settings α) (matrix : UtilityMatrix α) : List (Agent α) :=
  matrix.agents.mapIdx fun i id =>
    .new id matrix (coins (settings.seed + i.toUInt64) settings.probability)

end Dispatch.Dsa
