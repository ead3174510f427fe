import Dispatch.Error
import Dispatch.Event
import Dispatch.StableSort
/-!
# The mailbox of a round

Messages wait here between the sending and the receiving half of a round. A message with a value
that is not finite is refused and leaves the mailbox as it was.
-/

namespace Dispatch

variable {α : Type} [Scalar α]

/-- The messages posted and not yet taken out, oldest first. -/
structure Mailbox (α : Type) where
  pending : List (Message α)
deriving DecidableEq, Repr

namespace Mailbox

def empty : Mailbox α := ⟨[]⟩

def post (box : Mailbox α) (m : Message α) : Except (Error α) (Mailbox α) :=
  match m.payload.value? with
  | some v =>
    if Scalar.isFinite v then .ok ⟨box.pending ++ [m]⟩
    else .error (.nonFiniteMessage m.sender m.recipient v)
  | none => .ok ⟨box.pending ++ [m]⟩

/-- The line that a post leaves in the log. -/
def postEvent (m : Message α) : Event α :=
  match m.payload.value? with
  | some v => if Scalar.isFinite v then .posted m else .refused m.sender m.recipient v
  | none => .posted m

/-- Posts in order up to the first refusal; what was posted before it stays. -/
def postAll (box : Mailbox α) : List (Message α) → Mailbox α × Except (Error α) Unit
  | [] => (box, .ok ())
  | m :: rest =>
    match box.post m with
    | .ok next => next.postAll rest
    | .error e => (box, .error e)

/-- Takes out the messages to a recipient, by ascending sender; those of one sender keep their
order. -/
def drain (box : Mailbox α) (recipient : EntityId) : List (Message α) × Mailbox α :=
  (sortBy (fun a b => decide (a.sender.toNat ≤ b.sender.toNat))
      (box.pending.filter fun m => m.recipient = recipient),
    ⟨box.pending.filter fun m => m.recipient ≠ recipient⟩)

def size (box : Mailbox α) : Nat := box.pending.length

end Mailbox

end Dispatch
