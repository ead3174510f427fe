import Dispatch.SortedMap
/-!
# Assignments

An assignment gives some agents a target each; an agent without a target is absent. Two
assignments are equal when they give the same agents the same targets.
-/

namespace Dispatch

/-- Which target each assigned agent works on. -/
structure Assignment where
  targets : SortedMap EntityId EntityId
deriving DecidableEq, Inhabited

namespace Assignment

def empty : Assignment := ⟨.empty⟩

/-- Of pairs with one agent the last one counts. -/
def ofList (pairs : List (EntityId × EntityId)) : Assignment := ⟨.ofList pairs⟩

/-- The pairs of agent and target, by ascending agent. -/
def toList (x : Assignment) : List (EntityId × EntityId) := x.targets.toList

def assign (x : Assignment) (agent target : EntityId) : Assignment :=
  ⟨x.targets.insert agent target⟩

def unassign (x : Assignment) (agent : EntityId) : Assignment :=
  ⟨x.targets.erase agent⟩

def get? (x : Assignment) (agent : EntityId) : Option EntityId := x.targets.get? agent

def agents (x : Assignment) : List EntityId := x.targets.keys

/-- Number of agents on a target. -/
def count (x : Assignment) (target : EntityId) : Nat := x.targets.values.count target

def size (x : Assignment) : Nat := x.targets.size

def isEmpty (x : Assignment) : Bool := x.toList.isEmpty

theorem get?_assign (x : Assignment) (a b t : EntityId) :
    (x.assign a t).get? b = if a = b then some t else x.get? b := by
  simp only [get?, assign, SortedMap.get?_insert, rank_eq_iff]

theorem get?_unassign (x : Assignment) (a b : EntityId) :
    (x.unassign a).get? b = if a = b then none else x.get? b := by
  simp only [get?, unassign, SortedMap.get?_erase, rank_eq_iff]

/-- Lookups determine an assignment. -/
theorem ext_get? {x y : Assignment} (h : ∀ a, x.get? a = y.get? a) : x = y := by
  cases x; cases y
  exact congrArg _ (SortedMap.ext_get? h)

end Assignment

end Dispatch
