import Dispatch.Error
import Dispatch.Event
import Dispatch.SortedMap
/-!
# Outgoing edge values

An outbox queues the values that one agent's nodes send along their edges. It remembers the last
value of every edge across batches, and notices whether a batch repeated it.
-/

namespace Dispatch

variable {α : Type} [Scalar α]

/-- A value on its way along an edge. -/
structure EdgeValue (α : Type) where
  edge : Edge
  value : α
deriving DecidableEq, Repr

/-- The queue of one agent's nodes. -/
structure Outbox (α : Type) where
  queue : List (EdgeValue α)
  /-- The last value sent on each edge. -/
  memory : SortedMap Edge α
  /-- Every value of this batch repeated the one before it on its edge. -/
  settled : Bool

namespace Outbox

def empty : Outbox α := ⟨[], .empty, true⟩

/-- Two values too far apart to count as a repetition. -/
def differ (x y : α) : Bool := decide (Scalar.epsilon < Scalar.abs (x - y))

/-- The last value sent on the edge. -/
def previous (o : Outbox α) (edge : Edge) : Option α := o.memory.get? edge

/-- The value on the edge repeats the one before it. -/
def repeats (o : Outbox α) (edge : Edge) (v : α) : Bool :=
  match o.previous edge with
  | some old => !differ old v
  | none => false

/-- Queues a value. One that is not finite is refused and changes nothing. -/
def send (o : Outbox α) (edge : Edge) (v : α) : Except (Error α) (Outbox α) :=
  if Scalar.isFinite v then
    .ok ⟨o.queue ++ [⟨edge, v⟩], o.memory.insert edge v, o.settled && o.repeats edge v⟩
  else .error (.divergentFactorGraph edge v)

/-- Hands over the batch and starts the next one. -/
def flush (o : Outbox α) : List (EdgeValue α) × Outbox α := (o.queue, ⟨[], o.memory, true⟩)

def size (o : Outbox α) : Nat := o.queue.length

/-- The lines that sending a value leaves in the log. -/
def sendEvents (edge : Edge) (v : α) : List (Event α) :=
  if Scalar.isFinite v then [.emitted edge v] else [.emitted edge v, .diverged edge v]

end Outbox

end Dispatch
