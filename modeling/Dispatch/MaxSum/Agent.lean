import Dispatch.Agent
import Dispatch.FactorGraph
import Dispatch.FactorGraph.Gains
import Dispatch.MaxSum.Outbox
/-!
# Max-Sum agents

An agent hosts its own variable and the functions of the targets it owns. In every round its
variable tells each candidate's function, and each function its neighbours, how much better taking
is than not taking, as far as the values of the round before tell. The agent prefers the candidate
of highest utility plus last function value.
-/

namespace Dispatch.MaxSum

variable {α : Type} [Scalar α]

/-- Settings of the agents. -/
structure Settings (α : Type) where
  /-- Weight of an edge's previous value, from zero to below one; zero smoothes nothing. -/
  damping : α
  /-- How many of its best targets an agent considers; all of them if none. -/
  maxTargets : Option Nat
deriving DecidableEq, Repr

namespace Settings

def default : Settings α := ⟨Scalar.zero, none⟩

def validate (settings : Settings α) : Except (Error α) Unit :=
  if ¬ (Scalar.zero ≤ settings.damping ∧ settings.damping < Scalar.one) then
    .error (.configuration (.damping settings.damping))
  else if settings.maxTargets = some 0 then .error (.configuration .noTargets)
  else .ok ()

end Settings

/-- One agent with the nodes it hosts. -/
structure Agent (α : Type) [Scalar α] where
  id : EntityId
  settings : Settings α
  matrix : UtilityMatrix α
  graph : FactorGraph
  /-- What the function of each candidate last said. -/
  fromFunctions : SortedMap EntityId α
  /-- What each variable last said to a hosted function, by target and agent. -/
  toFunctions : SortedMap (EntityId × EntityId) α
  outbox : Outbox α
  target : Option EntityId
  checks : Nat

namespace Agent

def new (id : EntityId) (settings : Settings α) (matrix : UtilityMatrix α) (graph : FactorGraph) :
    Agent α :=
  ⟨id, settings, matrix, graph, .empty, .empty, .empty, none, 0⟩

/-- The targets linked to the agent. -/
def candidates (a : Agent α) : List EntityId := a.graph.candidatesOf a.id

/-- The targets whose functions the agent hosts. -/
def owned (a : Agent α) : List EntityId := a.graph.hostedBy a.id

def isSettled (a : Agent α) : Bool := a.outbox.settled

/-! ## Sending -/

/-- The envelope of an edge value, or a note that its node has no host. -/
def address (a : Agent α) (v : EdgeValue α) : Message α ⊕ Event α :=
  match a.graph.host? v.edge.dest with
  | some recipient => .inl ⟨a.id, recipient, .factor v.edge v.value⟩
  | none => .inr (.hostless a.id v.edge.dest)

/-- Sends the values queued by the round before. -/
def send (a : Agent α) : Outgoing α (Agent α) :=
  let (batch, outbox) := a.outbox.flush
  let addressed := batch.map a.address
  let messages := addressed.filterMap Sum.getLeft?
  ⟨{ a with outbox }, addressed.filterMap Sum.getRight?, messages, .ok messages⟩

/-! ## Receiving -/

/-- Takes in one message. A value counts if it is for the agent's own variable or for a function
it hosts; anything else is ignored. -/
def take (a : Agent α) (m : Message α) : Agent α × List (Event α) :=
  match m.payload with
  | .factor ⟨.ofTarget target, .ofAgent agent⟩ v =>
    if agent = a.id then ({ a with fromFunctions := a.fromFunctions.insert target v }, [])
    else (a, [.ignored a.id m])
  | .factor ⟨.ofAgent agent, .ofTarget target⟩ v =>
    if a.graph.owner? target = some a.id then
      ({ a with toFunctions := a.toFunctions.insert (target, agent) v }, [])
    else (a, [.ignored a.id m])
  | _ => (a, [.ignored a.id m])

/-- Takes in messages in order. -/
def takeAll (a : Agent α) : List (Message α) → Agent α × List (Event α)
  | [] => (a, [])
  | m :: rest =>
    let (next, notes) := a.take m
    let (last, more) := next.takeAll rest
    (last, notes ++ more)

def receive (a : Agent α) (inbox : List (Message α)) : Reply α (Agent α) Unit :=
  let (next, notes) := a.takeAll inbox
  ⟨next, notes, .ok ()⟩

/-! ## Improving -/

/-- What the function of a candidate last said; zero before it has said anything. -/
def functionValue (a : Agent α) (target : EntityId) : α := a.fromFunctions.getD target Scalar.zero

/-- What a variable last said to a hosted function; zero before it has said anything. -/
def variableValue (a : Agent α) (target agent : EntityId) : α :=
  a.toFunctions.getD (target, agent) Scalar.zero

/-- What the agent's variable says to each candidate's function, before damping. -/
def variableGains (a : Agent α) : List (EdgeValue α) :=
  let candidates := a.candidates
  let utilities := candidates.map (a.matrix.utility a.id)
  let values := choiceGains utilities (candidates.map a.functionValue)
  List.zipWith (fun target v => ⟨⟨.ofAgent a.id, .ofTarget target⟩, v⟩) candidates values

/-- What a hosted function says to each neighbour's variable, before damping. -/
def functionGains (a : Agent α) (target : EntityId) : List (EdgeValue α) :=
  let neighbours := a.graph.neighboursOf target
  let values := loadGains (neighbours.map (a.variableValue target)) (a.matrix.congestion target)
  List.zipWith (fun agent v => ⟨⟨.ofTarget target, .ofAgent agent⟩, v⟩) neighbours values

/-- Mixes a value with the previous one of its edge. -/
def damp (a : Agent α) (v : EdgeValue α) : EdgeValue α :=
  match a.outbox.previous v.edge with
  | some old =>
    if Scalar.zero < a.settings.damping then
      ⟨v.edge, a.settings.damping * old + (Scalar.one - a.settings.damping) * v.value⟩
    else v
  | none => v

/-- The update of one hosted node: the checks it costs and the values it sends. -/
structure NodeUpdate (α : Type) where
  checks : Nat
  values : List (EdgeValue α)

/-- The updates of one round: the variable, then the hosted functions in matrix order. A variable
makes one check per candidate, a function one per pair of neighbours. -/
def updates (a : Agent α) : List (NodeUpdate α) :=
  ⟨a.candidates.length, a.variableGains.map a.damp⟩ ::
    a.owned.map fun target =>
      let n := (a.graph.neighboursOf target).length
      ⟨n * n, (a.functionGains target).map a.damp⟩

/-- Queues values in order. A value that is not finite stops it; those before it stay queued. -/
def emit (outbox : Outbox α) : List (EdgeValue α) → Reply α (Outbox α) Unit
  | [] => ⟨outbox, [], .ok ()⟩
  | v :: rest =>
    let note := Outbox.sendEvents v.edge v.value
    match outbox.send v.edge v.value with
    | .error e => ⟨outbox, note, .error e⟩
    | .ok next =>
      let tail := emit next rest
      ⟨tail.agent, note ++ tail.notes, tail.answer⟩

/-- Carries out updates in order, up to the first value that is not finite. -/
def runUpdates (a : Agent α) : List (NodeUpdate α) → Reply α (Agent α) Unit
  | [] => ⟨a, [], .ok ()⟩
  | u :: rest =>
    let sent := emit a.outbox u.values
    let next := { a with outbox := sent.agent, checks := a.checks + u.checks }
    match sent.answer with
    | .error e => ⟨next, sent.notes, .error e⟩
    | .ok () =>
      let tail := next.runUpdates rest
      ⟨tail.agent, sent.notes ++ tail.notes, tail.answer⟩

/-- How good the agent finds a candidate: its utility and what the candidate's function last
said. -/
def belief (a : Agent α) (target : EntityId) : α :=
  a.matrix.utility a.id target + a.functionValue target

/-- Keeps the candidate of higher belief, the earlier one on ties. -/
def preferred (a : Agent α) (best target : EntityId) : EntityId :=
  if a.belief best < a.belief target then target else best

/-- The earliest candidate of highest belief. -/
def favourite (a : Agent α) : Option EntityId :=
  match a.candidates with
  | [] => none
  | first :: rest => some (rest.foldl a.preferred first)

/-- Updates the hosted nodes, then the preference. Another round is needed while the preference
changes or some value does not repeat. -/
def improve (a : Agent α) : Reply α (Agent α) Bool :=
  let updated := a.runUpdates a.updates
  match updated.answer with
  | .error e => ⟨updated.agent, updated.notes, .error e⟩
  | .ok () =>
    let best := updated.agent.favourite
    let changed := decide (best ≠ a.target)
    ⟨{ updated.agent with target := best },
      updated.notes ++ (if changed then [.prefers a.id best] else []),
      .ok (changed || !updated.agent.isSettled)⟩

instance : Dispatch.Agent α (Agent α) where
  id := id
  target := target
  send := send
  receive := receive
  improve := improve
  checks := checks
  otherMessages _ := 0
  otherBytes _ := 0

end Agent

/-- One agent per agent of the matrix, over their common graph. -/
def agents (settings : Settings α) (matrix : UtilityMatrix α) : List (Agent α) :=
  let graph := FactorGraph.build matrix settings.maxTargets
  matrix.agents.map fun id => .new id settings matrix graph

end Dispatch.MaxSum
