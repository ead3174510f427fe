import Mathlib
import Dispatch.Proofs.Prices
import Dispatch.Proofs.Simulation
/-!
# Optimality of Max-Sum

In exact arithmetic a run of Max-Sum whose values repeat has reached a fixed point of the
recurrence. If its agents then have no ties to break, what they hold is worth most among all
assignments that give every agent one of its candidates (`repeated_round_is_optimal`).
-/

namespace Dispatch

/-! ## What assignments are worth -/

namespace UtilityMatrix

/-- What the agents of an assignment earn and what the loads of the targets cost. -/
def welfare (m : UtilityMatrix Rat) (x : Assignment) : Rat :=
  m.totalUtility x + (m.targets.map fun t => m.congestion t (x.count t)).sum

/-- Every agent of the matrix has one of its candidates, and nobody else has a target. -/
structure Feasible (m : UtilityMatrix Rat) (limit : Option Nat) (x : Assignment) : Prop where
  candidate : ∀ a ∈ m.agents,
    ∃ t ∈ (FactorGraph.build m limit).candidatesOf a, x.get? a = some t
  mem_agents : ∀ a t, x.get? a = some t → a ∈ m.agents

theorem totalUtility_eq (m : UtilityMatrix Rat) (x : Assignment) :
    m.totalUtility x = (x.toList.map fun p => m.utility p.1 p.2).sum :=
  List.sum_eq_foldl.symm

/-- An assignment is worth what its choices are. -/
theorem Feasible.welfare_eq {m : UtilityMatrix Rat} {limit : Option Nat} {x : Assignment}
    (h : m.Feasible limit x) {choice : EntityId → EntityId}
    (hchoice : ∀ a ∈ m.agents, x.get? a = some (choice a)) :
    m.welfare x = MaxSum.worth m choice := by
  have hperm : x.toList.Perm (m.agents.map fun a => (a, choice a)) := by
    refine SortedMap.toList_perm _ ?_ fun a t => ?_
    · rw [List.map_map]
      exact (List.map_id m.agents).symm ▸ m.agents_nodup
    · change x.get? a = some t ↔ _
      rw [List.mem_map]
      constructor
      · intro hget
        have ha := h.mem_agents a t hget
        refine ⟨a, ha, ?_⟩
        rw [Option.some.inj ((hchoice a ha).symm.trans hget)]
      · rintro ⟨b, hb, heq⟩
        obtain ⟨rfl, rfl⟩ := Prod.mk.inj heq
        exact hchoice b hb
  have hcount : ∀ t, x.count t = (MaxSum.crewOf m choice t).card := by
    intro t
    have hcrew : MaxSum.crewOf m choice t = (m.agents.filter fun a => choice a == t).toFinset := by
      ext a
      simp [MaxSum.crewOf]
    rw [x.count_eq, (hperm.map Prod.snd).count_eq, List.map_map, hcrew,
      List.toFinset_card_of_nodup (m.agents_nodup.filter _), ← List.countP_eq_length_filter,
      List.count, List.countP_map]
    rfl
  rw [welfare, m.totalUtility_eq, (hperm.map _).sum_eq, List.map_map, MaxSum.worth,
    List.sum_toFinset _ m.agents_nodup, List.sum_toFinset _ m.targets_nodup]
  simp only [hcount]
  rfl

end UtilityMatrix

namespace MaxSum

/-! ## Repeated rounds -/

/-- Mixing with damping below one rests only where there is nothing new. -/
theorem values_repeat {settings : Settings Rat} (hdamping : settings.damping < 1)
    {m : UtilityMatrix Rat} {n : Nat} {e : Edge}
    (h : values settings m (n + 1) e = values settings m n e) :
    values settings m n e =
      reply m (.build m settings.maxTargets) (values settings m n) e := by
  rw [values] at h
  split at h
  · -- the old value cancels, and what is left is a multiple of what is new
    rw [Scalar.one_rat] at h
    have hne : (1 : Rat) - settings.damping ≠ 0 := by linarith
    have hzero : (1 - settings.damping) *
        (values settings m n e - reply m (.build m settings.maxTargets) (values settings m n) e) =
          0 := by
      linear_combination -h
    linarith [(mul_eq_zero.1 hzero).resolve_left hne]
  · exact h.symm

/-- A candidate that promises more than all others is the earliest best one. -/
theorem EarliestBest.eq_of_forall_lt {score : EntityId → Rat} {candidates : List EntityId}
    {choice : Option EntityId} (h : EarliestBest score candidates choice) {t : EntityId}
    (ht : t ∈ candidates) (hbest : ∀ s ∈ candidates, s ≠ t → score s < score t) :
    choice = some t := by
  cases choice with
  | none =>
    obtain rfl : candidates = [] := h
    cases ht
  | some u =>
    obtain ⟨before, after, rfl, hbefore, hafter⟩ := h
    by_contra hne
    have hut : score u < score t := hbest u (by simp) fun e => hne (e ▸ rfl)
    rcases List.mem_append.1 ht with hin | hin
    · exact lt_asymm hut (hbefore t hin)
    · rcases List.mem_cons.1 hin with rfl | hin
      · exact hne rfl
      · exact hafter t hin hut

section Runs
variable {settings : Settings Rat} {m : UtilityMatrix Rat} {solver : Solver.Settings Rat}
  {surroundings : Surroundings Rat} {n : Nat}

open Solver

theorem population_exact (settings : Settings Rat) (m : UtilityMatrix Rat)
    (solver : Solver.Settings Rat) (surroundings : Surroundings Rat) (n : Nat) :
    Population settings m n (after solver surroundings (agents settings m) n) :=
  population_after fun k _ => rounds_succeed (fun _ => rfl) k

/-- If every value sent in a round was sent in the round before, that was a fixed point. -/
theorem fixed_of_repeated (hdamping : settings.damping < 1) (hn : n ≠ 0)
    (hrepeat : ∀ v ∈ sent (after solver surroundings (agents settings m) (n + 1)),
      v ∈ sent (after solver surroundings (agents settings m) n)) :
    Fixed m settings.maxTargets (values settings m n) := by
  intro e he
  have hnew : (⟨e, values settings m (n + 1) e⟩ : EdgeValue Rat) ∈
      sent (after solver surroundings (agents settings m) (n + 1)) :=
    ((population_exact settings m solver surroundings (n + 1)).sent_perm n.succ_ne_zero).mem_iff.2
      (List.mem_map.2 ⟨e, he, rfl⟩)
  have hold := ((population_exact settings m solver surroundings n).sent_perm hn).mem_iff.1
    (hrepeat _ hnew)
  obtain ⟨f, -, heq⟩ := List.mem_map.1 hold
  obtain ⟨rfl, hvalue⟩ := EdgeValue.mk.inj heq
  exact values_repeat hdamping hvalue.symm

/-- An agent that believes one candidate best holds the one that promises it most. -/
theorem held_of_unique {a : Agent Rat}
    (ha : a ∈ after solver surroundings (agents settings m) (n + 1)) {t : EntityId}
    (ht : t ∈ a.candidates) (hlt : ∀ s ∈ a.candidates, s ≠ t → a.belief s < a.belief t) :
    (held (after solver surroundings (agents settings m) (n + 1))).get? a.id = some t ∧
      t ∈ (FactorGraph.build m settings.maxTargets).candidatesOf a.id ∧
      ∀ s ∈ (FactorGraph.build m settings.maxTargets).candidatesOf a.id, s ≠ t →
        promise m (values settings m n) a.id s < promise m (values settings m n) a.id t := by
  have hpop := population_exact settings m solver surroundings (n + 1)
  have htracks := hpop.tracks a ha
  have hbelief : ∀ s ∈ a.candidates, a.belief s = promise m (values settings m n) a.id s :=
    fun s hs => htracks.belief_eq htracks.hears hs
  have hpromise : ∀ s ∈ a.candidates, s ≠ t →
      promise m (values settings m n) a.id s < promise m (values settings m n) a.id t := by
    intro s hs hne
    rw [← hbelief s hs, ← hbelief t ht]
    exact hlt s hs hne
  rw [Agent.candidates, htracks.graph_eq] at ht hpromise
  have htarget := target_after (fun k _ => rounds_succeed (fun _ => rfl) k) a ha
  have hget := get?_held_of_mem hpop.nodup_ids ha
  exact ⟨hget.trans (htarget.eq_of_forall_lt ht hpromise), ht, hpromise⟩

/-- Agents without ties hold what promises them most. -/
theorem decided_held
    (hunique : ∀ a ∈ after solver surroundings (agents settings m) (n + 1),
      ∃ t ∈ a.candidates, ∀ s ∈ a.candidates, s ≠ t → a.belief s < a.belief t) :
    let x := held (after solver surroundings (agents settings m) (n + 1))
    m.Feasible settings.maxTargets x ∧
      ∃ choice, Decided m settings.maxTargets (values settings m n) choice ∧
        ∀ a ∈ m.agents, x.get? a = some (choice a) := by
  intro x
  have hpop := population_exact settings m solver surroundings (n + 1)
  have hbest : ∀ b ∈ m.agents, ∃ t, x.get? b = some t ∧
      t ∈ (FactorGraph.build m settings.maxTargets).candidatesOf b ∧
      ∀ s ∈ (FactorGraph.build m settings.maxTargets).candidatesOf b, s ≠ t →
        promise m (values settings m n) b s < promise m (values settings m n) b t := by
    intro b hb
    obtain ⟨a, ha, rfl⟩ := hpop.mem_agents.1 hb
    obtain ⟨t, ht, hlt⟩ := hunique a ha
    exact ⟨t, held_of_unique ha ht hlt⟩
  refine ⟨⟨fun b hb => ?_, fun b t hb => ?_⟩, fun b => (x.get? b).getD b, fun b hb => ?_,
    fun b hb => ?_⟩
  · obtain ⟨t, hget, ht, -⟩ := hbest b hb
    exact ⟨t, ht, hget⟩
  · obtain ⟨a, ha, rfl, -⟩ := (get?_held hpop.nodup_ids).1 hb
    exact hpop.mem_agents.2 ⟨a, ha, rfl⟩
  · obtain ⟨t, hget, ht, hlt⟩ := hbest b hb
    simp only [hget, Option.getD_some]
    exact ⟨ht, hlt⟩
  · obtain ⟨t, hget, -⟩ := hbest b hb
    simp only [hget, Option.getD_some]

/-- If every value sent in a round repeats the one sent in the round before on its edge, and every
agent has one candidate it believes best, the assignment of that round is worth most among all that
give every agent one of its candidates. -/
theorem repeated_round_is_optimal (hdamping : settings.damping < 1)
    (htwo : ∀ a ∈ m.agents,
      2 ≤ ((FactorGraph.build m settings.maxTargets).candidatesOf a).length)
    (hn : 2 ≤ n)
    (hrepeat : ∀ v ∈ sent (after solver surroundings (agents settings m) n),
      v ∈ sent (after solver surroundings (agents settings m) (n - 1)))
    (hunique : ∀ a ∈ after solver surroundings (agents settings m) n,
      ∃ t ∈ a.candidates, ∀ s ∈ a.candidates, s ≠ t → a.belief s < a.belief t) :
    let x := held (after solver surroundings (agents settings m) n)
    m.Feasible settings.maxTargets x ∧
      ∀ y, m.Feasible settings.maxTargets y → m.welfare y ≤ m.welfare x := by
  obtain ⟨n, rfl⟩ : ∃ k, n = k + 1 := ⟨n - 1, by omega⟩
  obtain ⟨hx, choice, hdecided, hchoice⟩ := decided_held hunique
  refine ⟨hx, fun y hy => ?_⟩
  have hother : ∀ a ∈ m.agents, y.get? a = some ((y.get? a).getD a) ∧
      (y.get? a).getD a ∈ (FactorGraph.build m settings.maxTargets).candidatesOf a := by
    intro a ha
    obtain ⟨t, ht, hget⟩ := hy.candidate a ha
    rw [hget, Option.getD_some]
    exact ⟨rfl, ht⟩
  rw [hx.welfare_eq hchoice, hy.welfare_eq fun a ha => (hother a ha).1]
  exact (fixed_of_repeated hdamping (by omega) hrepeat).worth_le htwo hdecided
    fun a ha => (hother a ha).2

end Runs

/-- The crossed agents repeat themselves in their sixth round, and by then the first one has left
its favourite to the second. -/
theorem crossed_settle_optimally :
    (∀ v ∈ sent (Solver.after Solver.Settings.default .still (agents ⟨0, none⟩ crossed) 6),
      v ∈ sent (Solver.after Solver.Settings.default .still (agents ⟨0, none⟩ crossed) 5)) ∧
    (∀ a ∈ Solver.after Solver.Settings.default .still (agents ⟨0, none⟩ crossed) 6,
      ∃ t ∈ a.candidates, ∀ s ∈ a.candidates, s ≠ t → a.belief s < a.belief t) ∧
    let x := Solver.held (Solver.after Solver.Settings.default .still (agents ⟨0, none⟩ crossed) 6)
    crossed.welfare x = 18 ∧ crossed.Feasible none x ∧
      ∀ y, crossed.Feasible none y → crossed.welfare y ≤ crossed.welfare x := by
  have hrepeat :
      ∀ v ∈ sent (Solver.after Solver.Settings.default .still (agents ⟨0, none⟩ crossed) 6),
        v ∈ sent (Solver.after Solver.Settings.default .still (agents ⟨0, none⟩ crossed) 5) := by
    decide +kernel
  have hunique : ∀ a ∈ Solver.after Solver.Settings.default .still (agents ⟨0, none⟩ crossed) 6,
      ∃ t ∈ a.candidates, ∀ s ∈ a.candidates, s ≠ t → a.belief s < a.belief t := by
    decide +kernel
  refine ⟨hrepeat, hunique, by decide +kernel, ?_⟩
  exact repeated_round_is_optimal (by decide +kernel) (by decide +kernel) (by decide) hrepeat
    hunique

end MaxSum

end Dispatch
