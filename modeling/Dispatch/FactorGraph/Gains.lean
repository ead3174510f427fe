import Dispatch.Scalar
import Dispatch.StableSort
/-!
# What the nodes of a factor graph say

Each edge joins an agent's variable with a target's function and carries one number each way: how
much better the sender finds it that the agent takes the target than that it does not.

`choiceGains` is the side of a variable, which takes exactly one of its candidates;
`loadGains` that of a function, whose worth depends on how many take it.
-/

namespace Dispatch

variable {α : Type} [Scalar α]

/-! ## Variables -/

/-- The highest value seen so far, where it was, and the second highest. -/
structure Lead (α : Type) where
  index : Nat
  value : α
  runnerUp : Option α

/-- Takes in the value at an index. A value at most as high as the lead only competes for the
second place; any other demotes the lead. -/
def Lead.update (lead : Option (Lead α)) (index : Nat) (v : α) : Option (Lead α) :=
  match lead with
  | none => some ⟨index, v, none⟩
  | some l =>
    if v ≤ l.value then
      some { l with runnerUp := some (match l.runnerUp with
        | some r => Scalar.max r v
        | none => v) }
    else some ⟨index, v, some l.value⟩

/-- The lead among the values from an index on. -/
def Lead.scan (lead : Option (Lead α)) (index : Nat) : List α → Option (Lead α)
  | [] => lead
  | v :: rest => Lead.scan (Lead.update lead index v) (index + 1) rest

/-- The best value among all candidates but one. -/
def Lead.alternative (lead : Option (Lead α)) (index : Nat) : α :=
  match lead with
  | none => Scalar.zero
  | some l => if l.index = index then l.runnerUp.getD Scalar.zero else l.value

/-- The gain of each candidate over the best other one, which counts with its utility and what its
function last said. An only candidate is compared with zero. -/
def choiceGains (utilities incoming : List α) : List α :=
  let lead := Lead.scan none 0 (List.zipWith (· + ·) utilities incoming)
  utilities.mapIdx fun i u => u - Lead.alternative lead i

/-! ## Functions -/

/-- Best worth with and without one more agent, over the loads tried so far. -/
structure Best (α : Type) where
  inside : α
  outside : α
  /-- What the agents taken so far bring. -/
  total : α
  load : Nat

/-- Takes one more of the other agents on board. -/
def Best.add (potential : Nat → α) (b : Best α) (v : α) : Best α :=
  let total := b.total + v
  let load := b.load + 1
  ⟨Scalar.max b.inside (potential (load + 1) + total),
    Scalar.max b.outside (potential load + total), total, load⟩

/-- The message to one neighbour, from the values of the others in descending order: the best
worth with it less the best worth without it. -/
def loadGain (potential : Nat → α) (others : List α) : α :=
  let best := others.foldl (Best.add potential) ⟨potential 1, potential 0, Scalar.zero, 0⟩
  best.inside - best.outside

/-- The positions of a list with their values, by descending value; ties keep their order. -/
def descending (incoming : List α) : List (Nat × α) :=
  sortBy (fun a b => Scalar.totalLE b.2 a.2) (incoming.mapIdx fun i v => (i, v))

/-- The messages of a function to all its neighbours, where `potential k` is its worth under `k`
agents. -/
def loadGains (incoming : List α) (potential : Nat → α) : List α :=
  let order := descending incoming
  incoming.mapIdx fun i _ =>
    loadGain potential ((order.filter fun e => e.1 ≠ i).map (·.2))

end Dispatch
