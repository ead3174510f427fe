import Mathlib
import Dispatch.Proofs.Accounts
import Dispatch.Proofs.Recurrence
/-!
# Factor graphs are well formed

The two sides of a factor graph are filled one after the other: the agents first choose the targets
they consider, then each target gathers the agents that chose it and settles on one of them as its
host. `FactorGraph.WellFormed` is what the algorithms need of the result, that both sides know the
same links and that the hosts share the linked targets out, and `FactorGraph.build_wellFormed` says
that the graph of any matrix has it, under any limit.
-/

namespace Dispatch

variable {α : Type} [Scalar α]

theorem UtilityMatrix.length_ranked (score : EntityId → α) (ids : List EntityId) :
    (ranked score ids).length = ids.length :=
  (ranked_perm score ids).length_eq

namespace FactorGraph

/-- How many of `count` targets an agent considers: as many as it may, or all. -/
def share (limit : Option Nat) (count : Nat) : Nat :=
  match limit with
  | some n => min n count
  | none => count

variable {m : UtilityMatrix α} {limit : Option Nat}

theorem length_considered (a : EntityId) :
    (considered m limit a).length = share limit m.targets.length := by
  cases limit with
  | none => rfl
  | some n =>
    rw [considered, UtilityMatrix.topTargets, List.length_take, UtilityMatrix.length_ranked, share]

/-! ## Hosts -/

/-- The host of a target is the earliest of those linked to it for whom it is worth most. -/
theorem owner?_best [OrderedScalar α] (t : EntityId) :
    MaxSum.EarliestBest (fun a => m.utility a t) ((build m limit).neighboursOf t)
      ((build m limit).owner? t) := by
  cases howner : (build m limit).owner? t with
  | none =>
    -- a neighbour would bring along a host
    refine List.eq_nil_iff_forall_not_mem.2 fun a ha => ?_
    obtain ⟨o, ho⟩ := exists_owner (mem_neighboursOf.1 ha)
    cases howner.symm.trans ho
  | some o =>
    obtain ⟨f, hf, rfl, rfl⟩ := owner?_eq_some.1 howner
    have hnode := (mem_functions.1 hf).2
    rw [neighboursOf_build]
    unfold functionNode? at hnode
    split at hnode
    · cases hnode
    · rename_i first rest hlinked
      rw [hlinked, ← Option.some.inj hnode]
      have hnumber : ∀ a ∈ rest, Scalar.IsNumber (m.utility a f.target) := fun a _ =>
        OrderedScalar.isNumber_of_isFinite (m.isFinite_utility a f.target)
      exact MaxSum.earliestBest_scan hnumber

theorem isSome_owner?_iff (t : EntityId) :
    ((build m limit).owner? t).isSome = true ↔ (build m limit).neighboursOf t ≠ [] := by
  rw [Option.isSome_iff_exists]
  constructor
  · rintro ⟨o, ho⟩
    exact List.ne_nil_of_mem (mem_neighboursOf_of_owner ho)
  · intro h
    obtain ⟨a, ha⟩ := List.exists_mem_of_ne_nil _ h
    exact exists_owner (mem_neighboursOf.1 ha)

/-- Every linked target is hosted once. -/
theorem hostedBy_perm :
    (m.agents.flatMap (build m limit).hostedBy).Perm
      (m.targets.filter fun t => (build m limit).neighboursOf t ≠ []) := by
  have hdisjoint : (m.agents.flatMap (build m limit).hostedBy).Nodup := by
    refine List.nodup_flatMap.2 ⟨fun a _ => nodup_hostedBy a,
      m.agents_nodup.imp fun {a b} hne t ha hb => hne ?_⟩
    exact Option.some.inj ((mem_hostedBy.1 ha).symm.trans (mem_hostedBy.1 hb))
  rw [List.perm_ext_iff_of_nodup hdisjoint (m.targets_nodup.filter _)]
  intro t
  simp only [List.mem_flatMap, mem_hostedBy, List.mem_filter, decide_eq_true_eq]
  constructor
  · rintro ⟨o, -, howner⟩
    have hlink := mem_neighboursOf_of_owner howner
    exact ⟨mem_targets_of_candidatesOf (mem_neighboursOf.1 hlink), List.ne_nil_of_mem hlink⟩
  · rintro ⟨-, hlinked⟩
    obtain ⟨o, ho⟩ := Option.isSome_iff_exists.1 ((isSome_owner?_iff t).2 hlinked)
    have hlink := mem_neighboursOf_of_owner ho
    exact ⟨o, (mem_candidatesOf.1 (mem_neighboursOf.1 hlink)).1, ho⟩

/-! ## Counting links -/

/-- The links as counted by the agents. -/
theorem linkCount_eq_sum_candidatesOf :
    (build m limit).linkCount =
      (m.agents.map fun a => ((build m limit).candidatesOf a).length).sum := by
  have hperm : (build m limit).candidates.toList.Perm
      (m.agents.map fun a => (a, (build m limit).candidatesOf a)) := by
    refine SortedMap.toList_perm _ ?_ fun a ts => ?_
    · rw [List.map_map]
      exact (List.map_id _).symm ▸ m.agents_nodup
    · rw [get?_candidates, List.mem_map]
      constructor
      · rintro ⟨ha, rfl⟩
        exact ⟨a, ha, by rw [candidatesOf_build ha]⟩
      · rintro ⟨b, hb, heq⟩
        obtain ⟨rfl, rfl⟩ := Prod.mk.inj heq
        exact ⟨hb, candidatesOf_build hb⟩
  rw [linkCount_eq_sum, (hperm.map _).sum_eq, List.map_map]
  rfl

/-- The links as counted by the targets. Of the edges, which are twice as many, the variables send
one for each link, and the functions send the others wherever they are hosted. -/
theorem linkCount_eq_sum_neighboursOf :
    (build m limit).linkCount =
      (m.targets.map fun t => ((build m limit).neighboursOf t).length).sum := by
  have hedges : (m.agents.map fun a => ((build m limit).edgesFrom a).length).sum =
      2 * (build m limit).linkCount := by
    rw [← List.length_flatMap, edges_perm.length_eq, length_edges]
  have hsplit : ∀ a, ((build m limit).edgesFrom a).length =
      ((build m limit).candidatesOf a).length +
        ((build m limit).hostedBy a |>.flatMap (build m limit).neighboursOf).length := by
    intro a
    rw [edgesFrom, List.length_append, List.length_map, List.length_flatMap, List.length_flatMap]
    simp only [List.length_map]
  have hhosted : (m.agents.map fun a =>
        ((build m limit).hostedBy a |>.flatMap (build m limit).neighboursOf).length).sum =
      (m.targets.map fun t => ((build m limit).neighboursOf t).length).sum := by
    rw [← List.length_flatMap, ← List.flatMap_assoc, List.length_flatMap,
      (hostedBy_perm.map _).sum_eq]
    exact sum_map_filter_of_zero fun t _ hnone => by simpa using hnone
  simp only [hsplit, List.sum_map_add, hhosted, ← linkCount_eq_sum_candidatesOf] at hedges
  omega

/-! ## The graph as a whole -/

/-- Agents linked to targets, as the factor graph of a matrix should be. -/
structure WellFormed (m : UtilityMatrix α) (limit : Option Nat) (g : FactorGraph) : Prop where
  /-- Both ends know of a link. -/
  mem_neighboursOf : ∀ a t, a ∈ g.neighboursOf t ↔ t ∈ g.candidatesOf a
  nodup_candidatesOf : ∀ a, (g.candidatesOf a).Nodup
  nodup_neighboursOf : ∀ t, (g.neighboursOf t).Nodup
  candidatesOf_subset : ∀ a, g.candidatesOf a ⊆ m.targets
  length_candidatesOf : ∀ a ∈ m.agents, (g.candidatesOf a).length = share limit m.targets.length
  candidatesOf_eq : limit = none → ∀ a ∈ m.agents, g.candidatesOf a = m.targets
  /-- The agents of a target stand in the order of the matrix. -/
  neighboursOf_sublist : ∀ t, (g.neighboursOf t).Sublist m.agents
  isSome_owner? : ∀ t, (g.owner? t).isSome = true ↔ g.neighboursOf t ≠ []
  owner?_best : ∀ t,
    MaxSum.EarliestBest (fun a => m.utility a t) (g.neighboursOf t) (g.owner? t)
  /-- The agents share the functions of the linked targets out among them. -/
  hostedBy_perm : (m.agents.flatMap g.hostedBy).Perm
    (m.targets.filter fun t => g.neighboursOf t ≠ [])
  /-- At both ends of a link there is an agent of the matrix to receive messages. -/
  exists_host : ∀ a t, t ∈ g.candidatesOf a →
    (∃ h ∈ m.agents, g.host? (.ofAgent a) = some h) ∧ ∃ h ∈ m.agents, g.host? (.ofTarget t) = some h
  linkCount_eq : g.linkCount = (m.targets.map fun t => (g.neighboursOf t).length).sum

/-- The graph of a matrix is well formed, whatever the utilities and however many targets each agent
considers. -/
theorem build_wellFormed [OrderedScalar α] (m : UtilityMatrix α) (limit : Option Nat) :
    (build m limit).WellFormed m limit where
  mem_neighboursOf _ _ := mem_neighboursOf
  nodup_candidatesOf := nodup_candidatesOf
  nodup_neighboursOf := nodup_neighboursOf
  candidatesOf_subset _ _ := mem_targets_of_candidatesOf
  length_candidatesOf a ha := by rw [candidatesOf_build ha, length_considered]
  candidatesOf_eq hlimit a ha := by rw [candidatesOf_build ha, hlimit, considered]
  neighboursOf_sublist t := by
    rw [neighboursOf_build]
    exact List.filter_sublist
  isSome_owner? := isSome_owner?_iff
  owner?_best := owner?_best
  hostedBy_perm := hostedBy_perm
  exists_host _ _ ht := mem_agents_of_host (toTarget_mem_edges.2 ht)
  linkCount_eq := linkCount_eq_sum_neighboursOf

/-- Four agents of which each prefers one of two targets. Nobody wants the third. -/
def choosy : UtilityMatrix Float where
  agents := [.ofNat 11, .ofNat 12, .ofNat 13, .ofNat 14]
  targets := [.ofNat 20, .ofNat 30, .ofNat 40]
  locations := .empty
  values := #[5, 1, 0, 5, 4, 0, 2, 7, 0, 1, 8, 0]
  needs := #[1, 1, 1]
  penalty := 1
  agents_nodup := by decide
  targets_nodup := by decide
  values_size := rfl
  needs_size := rfl
  values_finite := by decide +kernel
  penalty_finite := by decide +kernel
  penalty_nonneg := by decide +kernel

/-- With one target each, the first of two equal agents hosts one target and the better of two the
other. The third target has no function. -/
theorem choosy_build_wellFormed :
    let g := build choosy (some 1)
    g.WellFormed choosy (some 1) ∧ g.neighboursOf (.ofNat 20) = [.ofNat 11, .ofNat 12] ∧
      g.owner? (.ofNat 20) = some (.ofNat 11) ∧ g.owner? (.ofNat 30) = some (.ofNat 14) ∧
      g.owner? (.ofNat 40) = none ∧ g.linkCount = 4 := by
  intro g
  refine ⟨build_wellFormed choosy (some 1), ?_⟩
  decide +kernel

end FactorGraph

end Dispatch
