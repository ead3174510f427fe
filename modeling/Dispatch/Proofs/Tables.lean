import Mathlib
import Dispatch.Proofs.Convergence
import Dispatch.Proofs.Optimality
/-!
# What a matrix answers

A matrix answers for the pairs of its problem as the oracle did (`UtilityMatrix.utility_build`,
`need_build`), and with zero for any other; it never reads beyond its tables (`getElem?_values`,
`getElem?_needs`). `UtilityMatrix.builds_or_names_first_fault` adds when there is a matrix at all. An
assignment is worth what the agents of the matrix get in it (`totalUtility_eq_sum_agents`), whatever
else it lists and in whatever order.
-/

namespace Dispatch

/-- Row by row, every pair stands where its agent and its target say. -/
theorem Instance.getElem?_pairs {inst : Instance} {i j : Nat} {a t : EntityId}
    (ha : inst.agents[i]? = some a) (ht : inst.targets[j]? = some t) :
    inst.pairs[i * inst.targets.length + j]? = some (a, t) := by
  obtain ⟨hj, -⟩ := List.getElem?_eq_some_iff.1 ht
  unfold pairs
  generalize inst.agents = agents at ha ⊢
  induction agents generalizing i with
  | nil => cases ha
  | cons b rest ih =>
    rw [List.flatMap_cons]
    cases i with
    | zero =>
      obtain rfl := Option.some.inj ha
      rw [Nat.zero_mul, Nat.zero_add, List.getElem?_append_left (by rwa [List.length_map]),
        List.getElem?_map, ht]
      rfl
    | succ i =>
      rw [List.getElem?_append_right (by rw [List.length_map, Nat.succ_mul]; omega),
        List.length_map, Nat.succ_mul, Nat.add_right_comm, Nat.add_sub_cancel]
      exact ih ha

namespace UtilityMatrix
variable {α : Type} [Scalar α] {inst : Instance} {oracle : Oracle α} {penalty : α}
  {m : UtilityMatrix α}

theorem utility_of_not_mem {a t : EntityId} (h : ¬ (a ∈ m.agents ∧ t ∈ m.targets)) :
    m.utility a t = Scalar.zero := by
  unfold utility
  split
  · rename_i i j hi hj
    exact absurd ⟨List.isSome_idxOf?.1 (Option.isSome_of_eq_some hi),
      List.isSome_idxOf?.1 (Option.isSome_of_eq_some hj)⟩ h
  · rfl

/-- The utilities of a matrix are those of the oracle, for the pairs of its problem. -/
theorem utility_build (h : build inst oracle penalty = .ok m) (a t : EntityId) :
    m.utility a t =
      if a ∈ inst.agents ∧ t ∈ inst.targets then oracle.utility a t else Scalar.zero := by
  obtain ⟨hagents, htargets⟩ := build_eq_ok h
  have hvalues := (tabulates_of_build h).values_eq
  rw [← hagents, ← htargets]
  split
  · rename_i hin
    obtain ⟨i, hi⟩ := Option.isSome_iff_exists.1 (List.isSome_idxOf?.2 hin.1)
    obtain ⟨j, hj⟩ := Option.isSome_iff_exists.1 (List.isSome_idxOf?.2 hin.2)
    obtain ⟨hi', ha, -⟩ := List.idxOf?_eq_some_iff.1 hi
    obtain ⟨hj', ht, -⟩ := List.idxOf?_eq_some_iff.1 hj
    have hpair : inst.pairs[i * m.targets.length + j]? = some (a, t) :=
      htargets ▸ Instance.getElem?_pairs (by rw [← hagents, List.getElem?_eq_getElem hi', ha])
        (by rw [← htargets, List.getElem?_eq_getElem hj', ht])
    simp only [utility, hi, hj, hvalues, List.getElem?_toArray, List.getElem?_map, hpair,
      Option.map_some, Option.getD_some]
  · rename_i hout
    exact utility_of_not_mem hout

/-- So are the needs. -/
theorem need_build (h : build inst oracle penalty = .ok m) (t : EntityId) :
    m.need t = if t ∈ inst.targets then oracle.need t else 0 := by
  obtain ⟨-, htargets⟩ := build_eq_ok h
  have hneeds := (tabulates_of_build h).needs_eq
  rw [← htargets, need]
  split
  · rename_i j hj
    obtain ⟨hj', ht, -⟩ := List.idxOf?_eq_some_iff.1 hj
    have hin : m.targets[j]? = some t := by rw [List.getElem?_eq_getElem hj', ht]
    rw [if_pos (List.mem_of_getElem? hin), hneeds, List.getElem?_toArray, List.getElem?_map,
      ← htargets, hin]
    rfl
  · rename_i hj
    rw [if_neg (List.idxOf?_eq_none_iff.1 hj)]

/-! ## Places in the tables -/

/-- The place of a pair is one of the values. -/
theorem getElem?_values (m : UtilityMatrix α) {a t : EntityId} {i j : Nat}
    (hi : m.agents.idxOf? a = some i) (hj : m.targets.idxOf? t = some j) :
    m.values[i * m.targets.length + j]? = some (m.utility a t) := by
  obtain ⟨hrow, -⟩ := List.idxOf?_eq_some_iff.1 hi
  obtain ⟨hcolumn, -⟩ := List.idxOf?_eq_some_iff.1 hj
  have hlt : i * m.targets.length + j < m.values.size :=
    calc i * m.targets.length + j
      _ < (i + 1) * m.targets.length := by rw [Nat.succ_mul]; omega
      _ ≤ m.agents.length * m.targets.length := Nat.mul_le_mul_right _ hrow
      _ = m.values.size := m.values_size.symm
  simp only [utility, hi, hj, Array.getElem?_eq_getElem hlt, Option.getD_some]

/-- The place of a target is one of the needs. -/
theorem getElem?_needs (m : UtilityMatrix α) {t : EntityId} {j : Nat}
    (hj : m.targets.idxOf? t = some j) : m.needs[j]? = some (m.need t) := by
  obtain ⟨hcolumn, -⟩ := List.idxOf?_eq_some_iff.1 hj
  have hlt : j < m.needs.size := by rwa [m.needs_size]
  simp only [need, hj, Array.getElem?_eq_getElem hlt, Option.getD_some]

/-- A matrix is built exactly of problems that admit one: the penalty is an amount, no agent and no
target is listed twice, and all utilities are finite. Otherwise the failure names the first fault,
in this order. The matrix answers for its agents and targets as the oracle does and with zero for
all others, and every place that it looks at is in its tables. -/
theorem builds_or_names_first_fault (inst : Instance) (oracle : Oracle α) (penalty : α) :
    ((∃ m, build inst oracle penalty = .ok m) ↔ Admits inst oracle penalty) ∧
    (∀ e, build inst oracle penalty = .error e ↔ Fault inst oracle penalty e) ∧
    ∀ m, build inst oracle penalty = .ok m →
      (∀ a t, m.utility a t =
        if a ∈ inst.agents ∧ t ∈ inst.targets then oracle.utility a t else Scalar.zero) ∧
      (∀ t, m.need t = if t ∈ inst.targets then oracle.need t else 0) ∧
      (∀ a i t j, m.agents.idxOf? a = some i → m.targets.idxOf? t = some j →
        m.values[i * m.targets.length + j]? = some (m.utility a t)) ∧
      ∀ t j, m.targets.idxOf? t = some j → m.needs[j]? = some (m.need t) := by
  refine ⟨build_succeeds_iff, fun e => build_eq_error_iff, fun m h => ?_⟩
  refine ⟨utility_build h, need_build h, fun a i t j hi hj => ?_, fun t j hj => ?_⟩
  · exact m.getElem?_values hi hj
  · exact m.getElem?_needs hj

/-- Every utility tells its pair, but one is infinite. -/
def telltale : Oracle Float where
  utility a t :=
    if a = .ofNat 3 ∧ t = .ofNat 7 then 1 / 0 else Float.ofNat (10 * a.toNat + t.toNat)
  need t := t.toNat

/-- More targets than agents, two of them with the numbers of agents; and two problems with two
faults each. -/
theorem telltale_builds_or_fails :
    (∃ m, build ⟨[.ofNat 1, .ofNat 2], [.ofNat 2, .ofNat 7, .ofNat 1], .empty⟩ telltale 5 = .ok m ∧
      m.utility (.ofNat 1) (.ofNat 7) = telltale.utility (.ofNat 1) (.ofNat 7) ∧
      m.utility (.ofNat 7) (.ofNat 1) = Scalar.zero ∧ m.need (.ofNat 9) = 0) ∧
    build ⟨[.ofNat 1, .ofNat 2, .ofNat 3, .ofNat 2, .ofNat 1], [.ofNat 7], .empty⟩ telltale 5 =
      .error (.invalidIdentifier (.ofNat 2)) ∧
    build ⟨[.ofNat 1, .ofNat 3], [.ofNat 2, .ofNat 7], .empty⟩ telltale 5 =
      .error (.nonFiniteUtility (.ofNat 3) (.ofNat 7)
        (telltale.utility (.ofNat 3) (.ofNat 7))) := by
  have hpenalty : Scalar.IsAmount (5 : Float) := by decide
  refine ⟨?_, ?_, ?_⟩
  · obtain ⟨hok, -, hanswers⟩ := builds_or_names_first_fault
      ⟨[.ofNat 1, .ofNat 2], [.ofNat 2, .ofNat 7, .ofNat 1], .empty⟩ telltale 5
    obtain ⟨m, hbuild⟩ := hok.2 ⟨hpenalty, by decide, by decide, by decide +kernel⟩
    obtain ⟨hutility, hneed, -⟩ := hanswers m hbuild
    exact ⟨m, hbuild, (hutility _ _).trans (if_pos (by decide)),
      (hutility _ _).trans (if_neg (by decide)), (hneed _).trans (if_neg (by decide))⟩
  · obtain ⟨-, hfault, -⟩ := builds_or_names_first_fault
      ⟨[.ofNat 1, .ofNat 2, .ofNat 3, .ofNat 2, .ofNat 1], [.ofNat 7], .empty⟩ telltale 5
    exact (hfault _).2 (.agent hpenalty
      ⟨[.ofNat 1, .ofNat 2, .ofNat 3], [.ofNat 1], rfl, by decide, by decide⟩)
  · obtain ⟨-, hfault, -⟩ := builds_or_names_first_fault
      ⟨[.ofNat 1, .ofNat 3], [.ofNat 2, .ofNat 7], .empty⟩ telltale 5
    exact (hfault _).2 (.utility hpenalty (by decide) (by decide)
      ⟨[.ofNat 1], [], [.ofNat 2], [], rfl, rfl, by decide +kernel, by decide +kernel,
        by decide +kernel⟩)

end UtilityMatrix

/-! ## Exact totals -/

namespace UtilityMatrix

/-- What an agent gets in an assignment. -/
def earnings (m : UtilityMatrix Rat) (x : Assignment) (agent : EntityId) : Rat :=
  match x.get? agent with
  | some target => m.utility agent target
  | none => 0

/-- An assignment is worth what the agents of the matrix get in it. -/
theorem totalUtility_eq_sum_agents (m : UtilityMatrix Rat) (x : Assignment) :
    m.totalUtility x = (m.agents.map (m.earnings x)).sum := by
  have hentry : ∀ p ∈ x.toList, m.utility p.1 p.2 = m.earnings x p.1 := by
    intro p hp
    rw [earnings, Assignment.mem_toList.1 hp]
  have hagents : m.totalUtility x = ((x.toList.map Prod.fst).map (m.earnings x)).sum := by
    rw [totalUtility_eq, List.map_congr_left hentry, List.map_map]
    rfl
  rw [hagents, ← List.sum_toFinset _ x.nodup_agents, ← List.sum_toFinset _ m.agents_nodup]
  -- whoever is missing on either side gets nothing
  have hnone : ∀ a, a ∉ (x.toList.map Prod.fst).toFinset → m.earnings x a = 0 := by
    intro a ha
    cases hget : x.get? a with
    | none => rw [earnings, hget]
    | some t =>
      refine absurd (List.mem_toFinset.2 ?_) ha
      exact List.mem_map.2 ⟨(a, t), Assignment.mem_toList.2 hget, rfl⟩
  have hstranger : ∀ a, a ∉ m.agents.toFinset → m.earnings x a = 0 := by
    intro a ha
    unfold earnings
    split
    · exact (utility_of_not_mem fun hin => ha (List.mem_toFinset.2 hin.1)).trans Scalar.zero_rat
    · rfl
  rw [Finset.sum_subset Finset.subset_union_left fun a _ => hnone a,
    ← Finset.sum_subset Finset.subset_union_right fun a _ => hstranger a]

end UtilityMatrix

end Dispatch
