import Dispatch.Assignment
import Dispatch.Error
import Dispatch.Problem
import Dispatch.StableSort
/-!
# Utility matrices

A matrix holds what the oracle says about every pair of one problem, row by row, so that a solve
asks the oracle once. `UtilityMatrix.build` refuses a penalty, an identifier or a utility that the
algorithms cannot work with; what it accepts is recorded in the type.
-/

namespace Dispatch

/-! ## Repeated identifiers -/

/-- The first identifier that occurs in `seen` or earlier in the list. -/
def firstRepeatFrom (seen : List EntityId) : List EntityId → Option EntityId
  | [] => none
  | id :: rest => if id ∈ seen then some id else firstRepeatFrom (id :: seen) rest

/-- The first identifier of the list that occurs a second time. -/
def firstRepeat (ids : List EntityId) : Option EntityId := firstRepeatFrom [] ids

theorem firstRepeatFrom_eq_none {seen ids : List EntityId} :
    firstRepeatFrom seen ids = none ↔ ids.Nodup ∧ ∀ id ∈ ids, id ∉ seen := by
  induction ids generalizing seen with
  | nil => simp [firstRepeatFrom]
  | cons id rest ih =>
    rw [firstRepeatFrom]
    split
    · rename_i h
      simp only [reduceCtorEq, false_iff, not_and]
      exact fun _ hall => hall id List.mem_cons_self h
    · rename_i h
      rw [ih, List.nodup_cons]
      constructor
      · rintro ⟨hn, hall⟩
        refine ⟨⟨fun hm => hall id hm List.mem_cons_self, hn⟩, fun x hx => ?_⟩
        rcases List.mem_cons.1 hx with rfl | hx
        · exact h
        · exact fun hs => hall x hx (List.mem_cons_of_mem _ hs)
      · rintro ⟨⟨hm, hn⟩, hall⟩
        refine ⟨hn, fun x hx hs => ?_⟩
        rcases List.mem_cons.1 hs with rfl | hs
        · exact hm hx
        · exact hall x (List.mem_cons_of_mem _ hx) hs

theorem firstRepeat_eq_none {ids : List EntityId} : firstRepeat ids = none ↔ ids.Nodup := by
  simp [firstRepeat, firstRepeatFrom_eq_none]

/-! ## The matrix -/

/-- Every pair of agent and target, agent by agent. -/
def Instance.pairs (inst : Instance) : List (EntityId × EntityId) :=
  inst.agents.flatMap fun a => inst.targets.map fun t => (a, t)

theorem Instance.length_pairs (inst : Instance) :
    inst.pairs.length = inst.agents.length * inst.targets.length := by
  unfold Instance.pairs
  induction inst.agents with
  | nil => simp
  | cons a rest ih => simp [Nat.add_mul, ih, Nat.add_comm]

/-- The utilities, needs and penalty of one solve. -/
structure UtilityMatrix (α : Type) [Scalar α] where
  agents : List EntityId
  targets : List EntityId
  locations : SortedMap EntityId EntityId
  /-- One row per agent, one entry per target. -/
  values : Array α
  /-- How many agents each target needs. -/
  needs : Array Nat
  /-- Utility lost per agent beyond a target's need. -/
  penalty : α
  agents_nodup : agents.Nodup
  targets_nodup : targets.Nodup
  values_size : values.size = agents.length * targets.length
  needs_size : needs.size = targets.length
  values_finite : ∀ x ∈ values, Scalar.isFinite x = true
  penalty_finite : Scalar.isFinite penalty = true
  penalty_nonneg : ¬ penalty < Scalar.zero

namespace UtilityMatrix
variable {α : Type} [Scalar α]

/-- Asks the oracle for every pair. The penalty is looked at first, then the agents, then the
targets, then the utilities agent by agent; the first fault is the answer. -/
def build (inst : Instance) (oracle : Oracle α) (penalty : α) :
    Except (Error α) (UtilityMatrix α) :=
  if hp : Scalar.IsAmount penalty then
    match ha : firstRepeat inst.agents with
    | some id => .error (.invalidIdentifier id)
    | none =>
      match ht : firstRepeat inst.targets with
      | some id => .error (.invalidIdentifier id)
      | none =>
        match hv : inst.pairs.find? fun p => !Scalar.isFinite (oracle.utility p.1 p.2) with
        | some p => .error (.nonFiniteUtility p.1 p.2 (oracle.utility p.1 p.2))
        | none =>
          .ok {
            agents := inst.agents
            targets := inst.targets
            locations := inst.locations
            values := (inst.pairs.map fun p => oracle.utility p.1 p.2).toArray
            needs := (inst.targets.map oracle.need).toArray
            penalty := penalty
            agents_nodup := firstRepeat_eq_none.1 ha
            targets_nodup := firstRepeat_eq_none.1 ht
            values_size := by simp [Instance.length_pairs]
            needs_size := by simp
            values_finite := by
              intro x hx
              simp only [List.mem_toArray, List.mem_map] at hx
              obtain ⟨p, hp, rfl⟩ := hx
              simpa using List.find?_eq_none.1 hv p hp
            penalty_finite := hp.1
            penalty_nonneg := hp.2 }
  else .error (.configuration (.matrixPenalty penalty))

/-- Utility of a pair; zero when the problem lacks either. -/
def utility (m : UtilityMatrix α) (agent target : EntityId) : α :=
  match m.agents.idxOf? agent, m.targets.idxOf? target with
  | some i, some j => m.values[i * m.targets.length + j]?.getD Scalar.zero
  | _, _ => Scalar.zero

/-- How many agents the target needs; none when the problem lacks it. -/
def need (m : UtilityMatrix α) (target : EntityId) : Nat :=
  match m.targets.idxOf? target with
  | some j => m.needs[j]?.getD 0
  | none => 0

/-- What a load of `assigned` agents adds to a target: nothing up to its need, the penalty less
for each agent beyond. -/
def congestion (m : UtilityMatrix α) (target : EntityId) (assigned : Nat) : α :=
  -m.penalty * Scalar.ofNat (assigned - m.need target)

/-- Total utility of the assigned agents. Congestion does not count. -/
def totalUtility (m : UtilityMatrix α) (x : Assignment) : α :=
  Scalar.sum (x.toList.map fun p => m.utility p.1 p.2)

/-! ## Rankings -/

/-- Orders candidates by descending score; ties keep their order. -/
def ranked (score : EntityId → α) (ids : List EntityId) : List EntityId :=
  (sortBy (fun a b => Scalar.totalLE b.2 a.2) (ids.map fun id => (id, score id))).map (·.1)

/-- The `n` targets of highest utility for the agent, best first. -/
def topTargets (m : UtilityMatrix α) (agent : EntityId) (n : Nat) : List EntityId :=
  (ranked (m.utility agent) m.targets).take n

/-- The `n` agents of highest utility for the target, best first. -/
def topAgents (m : UtilityMatrix α) (target : EntityId) (n : Nat) : List EntityId :=
  (ranked (m.utility · target) m.agents).take n

/-- The target of highest utility; ties keep the earliest. -/
def favourite? (m : UtilityMatrix α) (agent : EntityId) : Option EntityId :=
  (m.topTargets agent 1).head?

end UtilityMatrix

end Dispatch
