import Dispatch.Scalar
import Dispatch.EntityId
/-!
# Messages

The factor graph has a node for the choice of each agent and a node for the load of each target.
A message goes from agent to agent; its payload may be a value that travels along one directed
edge of the graph.
-/

namespace Dispatch

/-- A node of the factor graph. -/
inductive Node where
  /-- The variable that holds an agent's choice. -/
  | ofAgent (agent : EntityId)
  /-- The function that prices the load of a target. -/
  | ofTarget (target : EntityId)
deriving DecidableEq, Repr

namespace Node

def number : Node → Nat
  | ofAgent id => 2 * id.toNat
  | ofTarget id => 2 * id.toNat + 1

theorem number_lt (n : Node) : n.number < 2 * UInt32.size := by
  cases n with
  | ofAgent id => have := id.toNat_lt; simp only [number]; omega
  | ofTarget id => have := id.toNat_lt; simp only [number]; omega

theorem number_inj {m n : Node} (h : m.number = n.number) : m = n := by
  cases m <;> cases n <;> simp only [number] at h
  · exact congrArg _ (EntityId.toNat_inj.1 (by omega))
  · omega
  · omega
  · exact congrArg _ (EntityId.toNat_inj.1 (by omega))

instance : Ranked Node := ⟨number, number_inj⟩

/-- Written as `V` and the agent, or `F` and the target. -/
instance : ToString Node where
  toString
    | ofAgent id => "V" ++ toString id
    | ofTarget id => "F" ++ toString id

end Node

/-- A directed edge of the factor graph. -/
structure Edge where
  source : Node
  dest : Node
deriving DecidableEq, Repr

instance : Ranked Edge where
  rank e := e.source.number * (2 * UInt32.size) + e.dest.number
  rank_inj {a b} h := by
    have ha := a.dest.number_lt
    have hb := b.dest.number_lt
    simp only [UInt32.size] at h ha hb
    have h1 : a.source = b.source := Node.number_inj (by omega)
    have h2 : a.dest = b.dest := Node.number_inj (by omega)
    cases a; cases b; simp_all

/-- What a message carries. -/
inductive Payload (α : Type) where
  | value (v : α)
  /-- The target the sender has chosen, if any. -/
  | choice (target : Option EntityId)
  /-- A value on an edge of the factor graph. -/
  | factor (edge : Edge) (v : α)
deriving DecidableEq, Repr

namespace Payload
variable {α : Type}

def value? : Payload α → Option α
  | value v => some v
  | factor _ v => some v
  | choice _ => none

/-- A value counts eight bytes, an identifier four, a node five. -/
def bytes : Payload α → Nat
  | value _ => 8
  | choice _ => 4
  | factor _ _ => 2 * 5 + 8

end Payload

/-- A payload on its way from one agent to another. -/
structure Message (α : Type) where
  sender : EntityId
  recipient : EntityId
  payload : Payload α
deriving DecidableEq, Repr

namespace Message
variable {α : Type}

/-- Both identifiers and the payload. -/
def bytes (m : Message α) : Nat := 2 * 4 + m.payload.bytes

/-- A message without a value is finite. -/
def isFinite [Scalar α] (m : Message α) : Bool :=
  match m.payload.value? with
  | some v => Scalar.isFinite v
  | none => true

end Message

end Dispatch
