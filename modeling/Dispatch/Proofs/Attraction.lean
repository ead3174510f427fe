import Mathlib
import Dispatch.Proofs.Alternation
import Dispatch.Proofs.Support
/-!
# How Max-Sum finds a single optimum

Prices that support the optimum with a gap attract the values of a run. Say that the targets ask
these prices up to a slack: an agent's own target asks at most the slack more, and any other one at
least the price less the slack. Then the agents bid with a slack that is smaller by the gap
(`Asks.bids`), as each of them compares two targets whose lead is the gap; and targets that hear
such bids ask with the slack they hear (`Bids.asks`). So the slack vanishes, from whatever the run
starts with, and then every agent prefers its target of the optimum, also where the values
themselves go on changing (`single_optimum_is_reached`).
-/

namespace Dispatch.MaxSum

/-! ## One target -/

section Target
variable {c : Nat → Rat} {linked crew : Finset EntityId} {q r : EntityId → Rat} {price slack : Rat}

/-- A target asks an agent of its crew for no more than one of the others would give for the place,
or the last place costs. -/
theorem Answers.ge_of_mem (hc : Concave c) (h : Answers c linked q r) (hsub : crew ⊆ linked)
    (hslack : 0 ≤ slack) (hother : ∀ b ∈ linked, b ∉ crew → q b ≤ price + slack)
    (hlast : ∀ i, crew.card = i + 1 → c i - c (i + 1) ≤ price) {a : EntityId} (ha : a ∈ crew) :
    -price - slack ≤ r a := by
  obtain ⟨inside, outside, hin, hout, hr⟩ := h a (hsub ha)
  obtain ⟨best, hbest, houtside⟩ := hout.1
  obtain ⟨i, hi⟩ : ∃ i, crew.card = i + 1 :=
    ⟨_, (Nat.succ_pred_eq_of_pos (Finset.card_pos.2 ⟨a, ha⟩)).symm⟩
  rcases Nat.lt_or_ge i best.card with hmore | hfew
  · -- somebody is on board who is not in the crew, and leaves the place to the agent
    have hcard : (crew.erase a).card < best.card := by
      rwa [Finset.card_erase_of_mem ha, hi, Nat.add_sub_cancel]
    obtain ⟨b, hb, hnot⟩ := Finset.exists_mem_notMem_of_card_lt_card hcard
    obtain ⟨hne, hlinked⟩ := Finset.mem_erase.1 (hbest hb)
    have hstranger : b ∉ crew := fun hin => hnot (Finset.mem_erase.2 ⟨hne, hin⟩)
    have hinside := hin.2 ⟨best.erase b, (Finset.erase_subset b best).trans hbest, rfl⟩
    have hsplit := worthOf_erase c q hb
    have hbid := hother b hlinked hstranger
    linarith
  · have hinside := hin.2 ⟨best, hbest, rfl⟩
    have hslope : c (i + 1) - c i ≤ c (best.card + 1) - c best.card := hc.slope_antitone hfew
    have hprice := hlast i hi
    unfold worthOf at hinside houtside
    linarith

/-- A target asks any other agent for at least what somebody in its crew gives for the place, or the
next place costs. -/
theorem Answers.le_of_not_mem (hc : Concave c) (h : Answers c linked q r) (hsub : crew ⊆ linked)
    (hslack : 0 ≤ slack) (hown : ∀ b ∈ crew, price - slack ≤ q b)
    (hnext : price ≤ c crew.card - c (crew.card + 1)) {a : EntityId} (ha : a ∈ linked)
    (hnot : a ∉ crew) : r a ≤ -price + slack := by
  obtain ⟨inside, outside, hin, hout, hr⟩ := h a ha
  obtain ⟨best, hbest, hinside⟩ := hin.1
  rcases Nat.lt_or_ge best.card crew.card with hfew | hmore
  · -- somebody in the crew is not on board, and would take the agent's place
    obtain ⟨b, hb, hfresh⟩ := Finset.exists_mem_notMem_of_card_lt_card hfew
    have hne : b ≠ a := fun e => hnot (e ▸ hb)
    have houtside := hout.2 ⟨insert b best,
      Finset.insert_subset (Finset.mem_erase.2 ⟨hne, hsub hb⟩) hbest, rfl⟩
    rw [worthOf_erase c q (Finset.mem_insert_self b best), Finset.erase_insert hfresh] at houtside
    have hbid := hown b hb
    linarith
  · have houtside := hout.2 ⟨best, hbest, rfl⟩
    have hslope : c (best.card + 1) - c best.card ≤ c (crew.card + 1) - c crew.card :=
      hc.slope_antitone hmore
    unfold worthOf at hinside houtside
    linarith

end Target

/-! ## One round -/

/-- The targets ask the prices up to a slack: an agent's choice no more than that, and any other
candidate no less. -/
structure Asks (m : UtilityMatrix Rat) (limit : Option Nat) (x : EntityId → EntityId)
    (price : EntityId → Rat) (slack : Rat) (v : Edge → Rat) : Prop where
  own : ∀ a ∈ m.agents, -price (x a) - slack ≤ v (.toAgent (x a) a)
  other : ∀ a ∈ m.agents, ∀ t ∈ (FactorGraph.build m limit).candidatesOf a, t ≠ x a →
    v (.toAgent t a) ≤ -price t + slack

/-- The agents bid the prices up to a slack: for their choice no less than that, and for any other
candidate no more. -/
structure Bids (m : UtilityMatrix Rat) (limit : Option Nat) (x : EntityId → EntityId)
    (price : EntityId → Rat) (slack : Rat) (v : Edge → Rat) : Prop where
  own : ∀ a ∈ m.agents, price (x a) - slack ≤ v (.toTarget a (x a))
  other : ∀ a ∈ m.agents, ∀ t ∈ (FactorGraph.build m limit).candidatesOf a, t ≠ x a →
    v (.toTarget a t) ≤ price t + slack

section Rounds
variable {m : UtilityMatrix Rat} {limit : Option Nat} {x : EntityId → EntityId}
  {price : EntityId → Rat} {gap slack slack' : Rat} {v : Edge → Rat}

theorem Bids.mono (h : Bids m limit x price slack v) (hle : slack ≤ slack') :
    Bids m limit x price slack' v where
  own a ha := (sub_le_sub_left hle _).trans (h.own a ha)
  other a ha t ht hne := (h.other a ha t ht hne).trans (add_le_add_right hle _)

/-- What an agent bids is closer to the prices by the gap than what it is asked. -/
theorem Asks.bids (h : Asks m limit x price slack v) (hprice : Supports m limit x price gap)
    (htwo : ∀ a ∈ m.agents, 2 ≤ ((FactorGraph.build m limit).candidatesOf a).length) :
    Bids m limit x price (slack - gap) (reply m (.build m limit) v) := by
  refine ⟨fun a ha => ?_, fun a ha t ht hne => ?_⟩
  · obtain ⟨best, ⟨⟨s, hs, hne, rfl⟩, -⟩, heq⟩ :=
      exists_best_reply v (htwo a ha) (hprice.candidate a ha)
    have hlead := hprice.leads a ha s hs hne
    have hasked := h.other a ha s hs hne
    rw [heq, promise]
    linarith
  · obtain ⟨best, ⟨-, hbest⟩, heq⟩ := exists_best_reply v (htwo a ha) ht
    have hown := hbest ⟨x a, hprice.candidate a ha, hne.symm, rfl⟩
    have hlead := hprice.leads a ha t ht hne
    have hasked := h.own a ha
    rw [heq]
    unfold promise at hown
    linarith

/-- What a target asks is as close to its price as what it is bid. -/
theorem Bids.asks (h : Bids m limit x price slack v) (hprice : Supports m limit x price gap)
    (hslack : 0 ≤ slack) : Asks m limit x price slack (reply m (.build m limit) v) := by
  have hlinked : ∀ {a t}, a ∈ ((FactorGraph.build m limit).neighboursOf t).toFinset ↔
      t ∈ (FactorGraph.build m limit).candidatesOf a := by
    intro a t
    rw [List.mem_toFinset, FactorGraph.mem_neighboursOf]
  have hsub : ∀ t, crewOf m x t ⊆ ((FactorGraph.build m limit).neighboursOf t).toFinset := by
    intro t a ha
    obtain ⟨hagent, rfl⟩ := mem_crewOf.1 ha
    exact hlinked.2 (hprice.candidate a hagent)
  have hown : ∀ t, ∀ b ∈ crewOf m x t, price t - slack ≤ v (.toTarget b t) := by
    intro t b hb
    obtain ⟨hagent, rfl⟩ := mem_crewOf.1 hb
    exact h.own b hagent
  have hother : ∀ t, ∀ b ∈ ((FactorGraph.build m limit).neighboursOf t).toFinset,
      b ∉ crewOf m x t → v (.toTarget b t) ≤ price t + slack := by
    intro t b hb hnot
    have hagent := (FactorGraph.mem_candidatesOf.1 (hlinked.1 hb)).1
    exact h.other b hagent t (hlinked.1 hb) fun e => hnot (mem_crewOf.2 ⟨hagent, e.symm⟩)
  refine ⟨fun a ha => ?_, fun a ha t ht hne => ?_⟩
  · have htarget : x a ∈ m.targets :=
      FactorGraph.mem_targets_of_candidatesOf (hprice.candidate a ha)
    exact (answers_reply m limit v (x a)).ge_of_mem (m.concave_congestion _) (hsub _) hslack
      (hother _) (hprice.last_le _ htarget) (mem_crewOf.2 ⟨ha, rfl⟩)
  · exact (answers_reply m limit v t).le_of_not_mem (m.concave_congestion t) (hsub t) hslack
      (hown t) (hprice.next_le t) (hlinked.2 ht) fun hin => hne (mem_crewOf.1 hin).2.symm

/-! ## Rounds -/

/-- After round `n` both sides are as near to the prices as the slack says. -/
structure Near (m : UtilityMatrix Rat) (limit : Option Nat) (x : EntityId → EntityId)
    (price : EntityId → Rat) (slack : Rat) (n : Nat) : Prop where
  asks : Asks m limit x price slack (values ⟨0, limit⟩ m n)
  bids : Bids m limit x price slack (values ⟨0, limit⟩ m n)

theorem values_undamped_succ (limit : Option Nat) (m : UtilityMatrix Rat) (n : Nat) :
    values ⟨0, limit⟩ m (n + 1) = reply m (.build m limit) (values ⟨0, limit⟩ m n) :=
  funext (values_undamped limit m n)

/-- At the start all values are zero, which is somewhere near. -/
theorem exists_near (hprice : Supports m limit x price gap) :
    ∃ slack ≥ 0, Near m limit x price slack 0 := by
  have hbound : ∀ {a t}, t ∈ (FactorGraph.build m limit).candidatesOf a →
      -∑ t ∈ m.targets.toFinset, |price t| ≤ price t ∧
        price t ≤ ∑ t ∈ m.targets.toFinset, |price t| :=
    fun ht => abs_le.1 (Finset.single_le_sum (fun t _ => abs_nonneg (price t))
      (List.mem_toFinset.2 (FactorGraph.mem_targets_of_candidatesOf ht)))
  have hzero : ∀ e, values ⟨0, limit⟩ m 0 e = 0 := fun _ => rfl
  refine ⟨∑ t ∈ m.targets.toFinset, |price t|, Finset.sum_nonneg fun t _ => abs_nonneg _,
    ⟨fun a ha => ?_, fun a ha t ht _ => ?_⟩, ⟨fun a ha => ?_, fun a ha t ht _ => ?_⟩⟩
  · have := hbound (hprice.candidate a ha)
    rw [hzero]
    linarith
  · have := hbound ht
    rw [hzero]
    linarith
  · have := hbound (hprice.candidate a ha)
    rw [hzero]
    linarith
  · have := hbound ht
    rw [hzero]
    linarith

section Near
variable (hprice : Supports m limit x price gap) (hgap : 0 < gap)
  (htwo : ∀ a ∈ m.agents, 2 ≤ ((FactorGraph.build m limit).candidatesOf a).length)
include hprice hgap htwo

/-- What is near stays as near. -/
theorem Near.next {n : Nat} (h : Near m limit x price slack n) (hslack : 0 ≤ slack) :
    Near m limit x price slack (n + 1) := by
  refine ⟨?_, ?_⟩
  · rw [values_undamped_succ]
    exact h.bids.asks hprice hslack
  · rw [values_undamped_succ]
    exact (h.asks.bids hprice htwo).mono (by linarith)

/-- In two rounds the slack goes down by the gap, if there is that much. -/
theorem Near.next_two {n : Nat} (h : Near m limit x price slack n) (hslack : 0 ≤ slack) :
    Near m limit x price (max (slack - gap) 0) (n + 2) := by
  have hnext := h.next hprice hgap htwo hslack
  have hbids : Bids m limit x price (slack - gap) (values ⟨0, limit⟩ m (n + 1)) := by
    rw [values_undamped_succ]
    exact h.asks.bids hprice htwo
  refine ⟨?_, ?_⟩
  · rw [values_undamped_succ]
    exact (hbids.mono (le_max_left _ _)).asks hprice (le_max_right _ _)
  · rw [values_undamped_succ]
    exact (hnext.asks.bids hprice htwo).mono (le_max_left _ _)

theorem Near.vanish {j n : Nat} (h : Near m limit x price slack n) (hslack : 0 ≤ slack)
    (hle : slack ≤ j * gap) : Near m limit x price 0 (n + 2 * j) := by
  induction j generalizing slack n with
  | zero =>
    obtain rfl : slack = 0 := le_antisymm (by simpa using hle) hslack
    exact h
  | succ j ih =>
    push_cast at hle
    have hless : max (slack - gap) 0 ≤ j * gap :=
      max_le (by linarith) (mul_nonneg (Nat.cast_nonneg j) hgap.le)
    have := ih (h.next_two hprice hgap htwo hslack) (le_max_right _ _) hless
    rwa [show n + 2 + 2 * j = n + 2 * (j + 1) by omega] at this

/-- From some round on there is no slack. -/
theorem exists_near_zero : ∃ N, ∀ n ≥ N, Near m limit x price 0 n := by
  obtain ⟨slack, hslack, hstart⟩ := exists_near hprice
  obtain ⟨j, hj⟩ := exists_nat_ge (slack / gap)
  have hfirst := hstart.vanish hprice hgap htwo hslack ((div_le_iff₀ hgap).1 hj)
  refine ⟨0 + 2 * j, fun n hn => ?_⟩
  induction n, hn using Nat.le_induction with
  | base => exact hfirst
  | succ n _ ih => exact ih.next hprice hgap htwo le_rfl

end Near

/-- Without slack the supported choice promises most. -/
theorem Near.promise_lt {n : Nat} (h : Near m limit x price 0 n)
    (hprice : Supports m limit x price gap) (hgap : 0 < gap) {a : EntityId} (ha : a ∈ m.agents)
    {s : EntityId} (hs : s ∈ (FactorGraph.build m limit).candidatesOf a) (hne : s ≠ x a) :
    promise m (values ⟨0, limit⟩ m n) a s < promise m (values ⟨0, limit⟩ m n) a (x a) := by
  have hlead := hprice.leads a ha s hs hne
  have hown := h.asks.own a ha
  have hother := h.asks.other a ha s hs hne
  unfold promise
  linarith

/-! ## Runs -/

section Runs
open Solver

/-- A feasible assignment is a choice of candidates. -/
theorem exists_choice_of_feasible {z : Assignment} (h : m.Feasible limit z) :
    ∃ choice : EntityId → EntityId, ∀ a ∈ m.agents,
      z.get? a = some (choice a) ∧ choice a ∈ (FactorGraph.build m limit).candidatesOf a := by
  choose! choice hcandidate hget using h.candidate
  exact ⟨choice, fun a ha => ⟨hget a ha, hcandidate a ha⟩⟩

/-- Every choice of candidates is a feasible assignment. -/
theorem exists_feasible {y : EntityId → EntityId}
    (hy : ∀ a ∈ m.agents, y a ∈ (FactorGraph.build m limit).candidatesOf a) :
    ∃ z, m.Feasible limit z ∧ ∀ a ∈ m.agents, z.get? a = some (y a) := by
  have hnodup : ((m.agents.map fun a => (a, y a)).map Prod.fst).Nodup := by
    rw [List.map_map]
    exact (List.map_id m.agents).symm ▸ m.agents_nodup
  have hget : ∀ {a t}, (Assignment.ofList (m.agents.map fun a => (a, y a))).get? a = some t ↔
      a ∈ m.agents ∧ y a = t := by
    intro a t
    rw [Assignment.get?, Assignment.ofList, SortedMap.get?_ofList hnodup, List.mem_map]
    constructor
    · rintro ⟨b, hb, heq⟩
      obtain ⟨rfl, rfl⟩ := Prod.mk.inj heq
      exact ⟨hb, rfl⟩
    · rintro ⟨ha, rfl⟩
      exact ⟨a, ha, rfl⟩
  exact ⟨_, ⟨fun a ha => ⟨y a, hy a ha, hget.2 ⟨ha, rfl⟩⟩, fun a t h => (hget.1 h).1⟩,
    fun a ha => hget.2 ⟨ha, rfl⟩⟩

/-- Assignments of the agents of a matrix are equal if all of these hold the same. -/
theorem ext_of_agents {y z : Assignment} (hy : ∀ a t, y.get? a = some t → a ∈ m.agents)
    (hz : ∀ a t, z.get? a = some t → a ∈ m.agents)
    (h : ∀ a ∈ m.agents, y.get? a = z.get? a) : y = z := by
  apply Assignment.ext_get?
  intro a
  by_cases ha : a ∈ m.agents
  · exact h a ha
  · have hnone : ∀ w : Assignment, (∀ a t, w.get? a = some t → a ∈ m.agents) → w.get? a = none :=
      fun w hw => Option.eq_none_iff_forall_ne_some.2 fun t ht => ha (hw a t ht)
    rw [hnone y hy, hnone z hz]

/-- In exact arithmetic and without damping, where every agent has at least two candidates and one
assignment of candidates is worth more than all others, there is a round from which on every run
holds it, whether or not its values settle. -/
theorem single_optimum_is_reached
    (htwo : ∀ a ∈ m.agents, 2 ≤ ((FactorGraph.build m limit).candidatesOf a).length)
    {best : Assignment} (hbest : m.Feasible limit best)
    (hsingle : ∀ y, m.Feasible limit y → y ≠ best → m.welfare y < m.welfare best) :
    ∃ N, ∀ (solver : Solver.Settings Rat) (surroundings : Surroundings Rat),
      (∀ n, ∃ outcome, (playRound solver surroundings (n + 1)
        (after solver surroundings (agents ⟨0, limit⟩ m) n)).answer = .ok outcome) ∧
      ∀ n ≥ N, held (after solver surroundings (agents ⟨0, limit⟩ m) n) = best := by
  obtain ⟨x, hx⟩ := exists_choice_of_feasible hbest
  have hworth : ∀ y : EntityId → EntityId,
      (∀ a ∈ m.agents, y a ∈ (FactorGraph.build m limit).candidatesOf a) ∧
        (∃ a ∈ m.agents, y a ≠ x a) → worth m y < worth m x := by
    rintro y ⟨hy, a, ha, hne⟩
    obtain ⟨z, hz, hget⟩ := exists_feasible hy
    rw [← hz.welfare_eq hget, ← hbest.welfare_eq fun a ha => (hx a ha).1]
    refine hsingle z hz ?_
    rintro rfl
    exact hne (Option.some.inj ((hget a ha).symm.trans (hx a ha).1))
  obtain ⟨gap, hgap, price, hprice⟩ := exists_supports (fun a ha => (hx a ha).2) hworth
  obtain ⟨N, hnear⟩ := exists_near_zero hprice hgap htwo
  refine ⟨N + 1, fun solver surroundings => ⟨rounds_succeed fun _ => rfl, fun n hn => ?_⟩⟩
  obtain ⟨n, rfl⟩ : ∃ k, n = k + 1 := ⟨n - 1, by omega⟩
  have hpop := population_exact ⟨0, limit⟩ m solver surroundings (n + 1)
  refine ext_of_agents (m := m) (fun a t ht => ?_) hbest.mem_agents fun a ha => ?_
  · obtain ⟨b, hb, rfl, -⟩ := (get?_held hpop.nodup_ids).1 ht
    exact hpop.mem_agents.2 ⟨b, hb, rfl⟩
  · rw [(hx a ha).1]
    refine (held_best (fun k _ => rounds_succeed (fun _ => rfl) k) ha).eq_of_forall_lt
      (hx a ha).2 fun s hs hne => ?_
    exact (hnear n (by omega)).promise_lt hprice hgap ha hs hne

end Runs

end Rounds

/-- The crossed agents change over. -/
def changedOver : Assignment := .ofList [(.ofNat 1, .ofNat 4), (.ofNat 2, .ofNat 3)]

theorem get?_changedOver {a t : EntityId} : changedOver.get? a = some t ↔
    (a, t) ∈ [(EntityId.ofNat 1, EntityId.ofNat 4), (.ofNat 2, .ofNat 3)] :=
  SortedMap.get?_ofList (by decide)

theorem feasible_changedOver : crossed.Feasible none changedOver := by
  refine ⟨by decide +kernel, fun a t h => ?_⟩
  have hin := List.mem_map_of_mem (f := Prod.fst) (get?_changedOver.1 h)
  exact hin

/-- The crossed agents change over at some time and stay so, as any other assignment is worth less
than eighteen. -/
theorem crossed_change_over :
    (∀ a ∈ crossed.agents, 2 ≤ ((FactorGraph.build crossed none).candidatesOf a).length) ∧
    crossed.Feasible none changedOver ∧
    (∀ y, crossed.Feasible none y → y ≠ changedOver →
      crossed.welfare y < crossed.welfare changedOver) ∧
    ∃ N, ∀ (solver : Solver.Settings Rat) (surroundings : Surroundings Rat),
      (∀ n, ∃ outcome, (Solver.playRound solver surroundings (n + 1)
        (Solver.after solver surroundings (agents ⟨0, none⟩ crossed) n)).answer = .ok outcome) ∧
      ∀ n ≥ N, Solver.held (Solver.after solver surroundings (agents ⟨0, none⟩ crossed) n) =
        changedOver := by
  have htwo : ∀ a ∈ crossed.agents,
      2 ≤ ((FactorGraph.build crossed none).candidatesOf a).length := by decide +kernel
  have hsingle : ∀ y, crossed.Feasible none y → y ≠ changedOver →
      crossed.welfare y < crossed.welfare changedOver := by
    intro y hy hne
    have hcandidates : ∀ a ∈ crossed.agents,
        (FactorGraph.build crossed none).candidatesOf a = [.ofNat 3, .ofNat 4] := by
      decide +kernel
    obtain ⟨x, hx⟩ := exists_choice_of_feasible hy
    obtain ⟨hfirst, hs⟩ := hx (.ofNat 1) (by decide)
    obtain ⟨hsecond, ht⟩ := hx (.ofNat 2) (by decide)
    rw [hcandidates _ (by decide)] at hs ht
    have hall : ∀ s ∈ [EntityId.ofNat 3, .ofNat 4], ∀ t ∈ [EntityId.ofNat 3, .ofNat 4],
        s = .ofNat 4 ∧ t = .ofNat 3 ∨
          worth crossed (fun a => if a = .ofNat 1 then s else t) < 18 := by
      decide +kernel
    have hchoice : ∀ a ∈ crossed.agents, y.get? a =
        some (if a = .ofNat 1 then x (.ofNat 1) else x (.ofNat 2)) := by
      intro a ha
      rcases List.mem_pair.1 ha with rfl | rfl
      · exact hfirst
      · exact hsecond
    rw [hy.welfare_eq hchoice]
    rcases hall _ hs _ ht with ⟨hs, ht⟩ | hless
    · refine absurd (ext_of_agents hy.mem_agents feasible_changedOver.mem_agents fun a ha => ?_) hne
      rw [hchoice a ha, hs, ht]
      rcases List.mem_pair.1 ha with rfl | rfl
      · decide
      · decide
    · exact hless.trans_eq (by decide +kernel)
  exact ⟨htwo, feasible_changedOver, hsingle,
    single_optimum_is_reached htwo feasible_changedOver hsingle⟩

end Dispatch.MaxSum
