import Mathlib
import Dispatch.Proofs.Optimality
import Dispatch.Proofs.Potential
/-!
# Prices that support an optimum

`worth_le_of_prices` concludes from prices that no choice of targets is worth more. Here is the
other direction. If no way of moving agents pays, one agent more on a target can only push a chain
of others along (`Pushes`); what the cheapest chain loses is the price of the target
(`Stands.exists_prices`). A chain that comes back to where it was closes a cycle, and a cycle moves
agents without changing a load, so it is never cheaper. If the optimum is the only one, moving an
agent may be made cheaper by a gap without anything beginning to pay, so there are prices at which
every agent's choice leads by that gap (`exists_supports`).
-/

namespace Dispatch.MaxSum

/-! ## Chains of moves -/

/-- What changes in a sum over agents if one of them moves. -/
theorem sum_update {M : Type} [AddCommMonoid M] {agents : Finset EntityId} {b : EntityId}
    (hb : b ∈ agents) (f : EntityId → EntityId → M) (y : EntityId → EntityId) (s : EntityId) :
    ∑ a ∈ agents, f a (Function.update y b s a) + f b (y b) = ∑ a ∈ agents, f a (y a) + f b s := by
  have hothers : ∑ a ∈ agents.erase b, f a (Function.update y b s a) =
      ∑ a ∈ agents.erase b, f a (y a) :=
    Finset.sum_congr rfl fun a ha => by rw [Function.update_of_ne (Finset.ne_of_mem_erase ha)]
  rw [← Finset.sum_erase_add _ _ hb, ← Finset.sum_erase_add agents _ hb, hothers,
    Function.update_self, add_right_comm]

/-- One agent more on the first target pushes an agent of its crew to another candidate, where that
one pushes the next, up to a target that keeps the agent more. -/
inductive Pushes (m : UtilityMatrix Rat) (limit : Option Nat) (x : EntityId → EntityId) :
    EntityId → List (EntityId × EntityId) → EntityId → Prop
  | stop (t : EntityId) : Pushes m limit x t [] t
  | push {b s last : EntityId} {moves : List (EntityId × EntityId)} (hb : b ∈ m.agents)
      (hs : s ∈ (FactorGraph.build m limit).candidatesOf b) (h : Pushes m limit x s moves last) :
      Pushes m limit x (x b) ((b, s) :: moves) last

/-- What the agents lose that move. -/
def lossOf (loss : EntityId → EntityId → Rat) (moves : List (EntityId × EntityId)) : Rat :=
  (moves.map fun p => loss p.1 p.2).sum

/-- Moving agents away from `x` loses at least what the loads gain by it. -/
structure Stands (m : UtilityMatrix Rat) (limit : Option Nat) (loss : EntityId → EntityId → Rat)
    (x : EntityId → EntityId) : Prop where
  candidate : ∀ a ∈ m.agents, x a ∈ (FactorGraph.build m limit).candidatesOf a
  stay : ∀ a ∈ m.agents, loss a (x a) = 0
  loads_le : ∀ y : EntityId → EntityId,
    (∀ a ∈ m.agents, y a ∈ (FactorGraph.build m limit).candidatesOf a) →
    ∑ t ∈ m.targets.toFinset,
        (m.congestion t (crewOf m y t).card - m.congestion t (crewOf m x t).card) ≤
      ∑ a ∈ m.agents.toFinset, loss a (y a)

section Chains
variable {m : UtilityMatrix Rat} {limit : Option Nat} {loss : EntityId → EntityId → Rat}
  {x : EntityId → EntityId} {t last : EntityId} {moves : List (EntityId × EntityId)}

theorem lossOf_append (front back : List (EntityId × EntityId)) :
    lossOf loss (front ++ back) = lossOf loss front + lossOf loss back := by
  rw [lossOf, List.map_append, List.sum_append, lossOf, lossOf]

theorem lossOf_cons (b s : EntityId) :
    lossOf loss ((b, s) :: moves) = loss b s + lossOf loss moves :=
  List.sum_cons

namespace Pushes

theorem mem_agents (h : Pushes m limit x t moves last) : ∀ p ∈ moves, p.1 ∈ m.agents := by
  induction h with
  | stop => simp
  | push hb hs h ih => exact List.forall_mem_cons.2 ⟨hb, ih⟩

theorem mem_targets (h : Pushes m limit x t moves last) : last = t ∨ last ∈ m.targets := by
  induction h with
  | stop => exact .inl rfl
  | push hb hs h ih =>
    refine .inr (ih.elim (fun e => e ▸ ?_) id)
    exact FactorGraph.mem_targets_of_candidatesOf hs

/-- A chain that moves an agent passes the target that the agent leaves. -/
theorem split (h : Pushes m limit x t moves last) {b : EntityId} (hb : b ∈ moves.map Prod.fst) :
    ∃ front s back, moves = front ++ (b, s) :: back ∧ Pushes m limit x t front (x b) ∧
      Pushes m limit x (x b) ((b, s) :: back) last := by
  induction h with
  | stop => cases hb
  | @push c s last moves hc hs h ih =>
    by_cases hbc : b = c
    · subst hbc
      exact ⟨[], s, moves, rfl, .stop _, .push hc hs h⟩
    · obtain ⟨front, s', back, rfl, hfront, hback⟩ :=
        ih ((List.mem_cons.1 hb).resolve_left hbc)
      exact ⟨(c, s) :: front, s', back, rfl, .push hc hs hfront, hback⟩

/-- What the targets hold once all agents of a chain have moved. Counting the agent more on the
first target, only the last one has changed. -/
theorem exists_choice (hx : Stands m limit loss x) (h : Pushes m limit x t moves last)
    (hnodup : (moves.map Prod.fst).Nodup) :
    ∃ y : EntityId → EntityId,
      (∀ a ∈ m.agents, y a ∈ (FactorGraph.build m limit).candidatesOf a) ∧
      (∀ a, a ∉ moves.map Prod.fst → y a = x a) ∧
      ∑ a ∈ m.agents.toFinset, loss a (y a) = lossOf loss moves ∧
      ∀ r, (crewOf m y r).card + (if t = r then 1 else 0) =
        (crewOf m x r).card + if last = r then 1 else 0 := by
  induction h with
  | stop t =>
    refine ⟨x, hx.candidate, fun _ _ => rfl, ?_, fun _ => rfl⟩
    rw [Finset.sum_eq_zero fun a ha => hx.stay a (List.mem_toFinset.1 ha)]
    rfl
  | @push b s last moves hb hs h ih =>
    obtain ⟨hfresh, hnodup⟩ := List.nodup_cons.1 hnodup
    obtain ⟨y, hy, hstill, hloss, hload⟩ := ih hnodup
    have hyb : y b = x b := hstill b hfresh
    refine ⟨Function.update y b s, fun a ha => ?_, fun a ha => ?_, ?_, fun r => ?_⟩
    · by_cases hab : a = b
      · subst hab
        rwa [Function.update_self]
      · rw [Function.update_of_ne hab]
        exact hy a ha
    · obtain ⟨hab, ha⟩ := not_or.1 (mt List.mem_cons.2 ha)
      rw [Function.update_of_ne hab, hstill a ha]
    · have hmove := sum_update (List.mem_toFinset.2 hb) loss y s
      rw [hyb, hx.stay b hb, add_zero, hloss] at hmove
      rw [hmove, lossOf_cons, add_comm]
    · have hmove := sum_update (List.mem_toFinset.2 hb) (fun _ t => if t = r then 1 else 0) y s
      rw [← Finset.card_filter, ← Finset.card_filter, hyb] at hmove
      exact hmove.trans (hload r)

end Pushes

namespace Stands

/-- A chain that ends where it began loses something if anything. -/
theorem closed_nonneg (hx : Stands m limit loss x) (h : Pushes m limit x t moves t)
    (hnodup : (moves.map Prod.fst).Nodup) : 0 ≤ lossOf loss moves := by
  obtain ⟨y, hy, -, hloss, hload⟩ := h.exists_choice hx hnodup
  have hle := hx.loads_le y hy
  have hsame : ∀ r, (crewOf m y r).card = (crewOf m x r).card :=
    fun r => Nat.add_right_cancel (hload r)
  simp only [hsame, sub_self, Finset.sum_const_zero, hloss] at hle
  exact hle

/-- A chain to another target loses at least what the loads of its two ends gain. -/
theorem open_le (hx : Stands m limit loss x) (h : Pushes m limit x t moves last)
    (hnodup : (moves.map Prod.fst).Nodup) (hne : t ≠ last) (ht : t ∈ m.targets) {i : Nat}
    (hi : (crewOf m x t).card = i + 1) :
    m.congestion t i - m.congestion t (i + 1) +
        (m.congestion last ((crewOf m x last).card + 1) -
          m.congestion last (crewOf m x last).card) ≤ lossOf loss moves := by
  obtain ⟨y, hy, -, hloss, hload⟩ := h.exists_choice hx hnodup
  have hle := hx.loads_le y hy
  have hlast : last ∈ m.targets := h.mem_targets.resolve_left (Ne.symm hne)
  have hfirst : (crewOf m y t).card = i := by
    have := hload t
    rw [if_pos rfl, if_neg (Ne.symm hne), hi] at this
    omega
  have hend : (crewOf m y last).card = (crewOf m x last).card + 1 := by
    have := hload last
    rwa [if_neg hne, if_pos rfl] at this
  -- of the sum over all targets, only the terms of the two ends are left
  have hothers : ∀ r ∈ m.targets.toFinset, r ≠ t ∧ r ≠ last →
      m.congestion r (crewOf m y r).card - m.congestion r (crewOf m x r).card = 0 := by
    rintro r - ⟨hrt, hrl⟩
    have := hload r
    rw [if_neg (Ne.symm hrt), if_neg (Ne.symm hrl)] at this
    rw [show (crewOf m y r).card = (crewOf m x r).card from this, sub_self]
  rw [Finset.sum_eq_add t last hne hothers (fun hn => absurd (List.mem_toFinset.2 ht) hn)
    (fun hn => absurd (List.mem_toFinset.2 hlast) hn), hfirst, hend, hi, hloss] at hle
  exact hle

/-- What a chain loses, and what its last target loses by the agent more. -/
def cost (m : UtilityMatrix Rat) (loss : EntityId → EntityId → Rat) (x : EntityId → EntityId)
    (moves : List (EntityId × EntityId)) (last : EntityId) : Rat :=
  lossOf loss moves +
    (m.congestion last (crewOf m x last).card - m.congestion last ((crewOf m x last).card + 1))

/-- There are only finitely many chains that move nobody twice, so one is cheapest. -/
theorem exists_cheapest (m : UtilityMatrix Rat) (limit : Option Nat)
    (loss : EntityId → EntityId → Rat) (x : EntityId → EntityId) (t : EntityId) :
    ∃ moves last, Pushes m limit x t moves last ∧ (moves.map Prod.fst).Nodup ∧
      ∀ moves' last', Pushes m limit x t moves' last' → (moves'.map Prod.fst).Nodup →
        cost m loss x moves last ≤ cost m loss x moves' last' := by
  let chains : Set (List (EntityId × EntityId) × EntityId) :=
    {p | Pushes m limit x t p.1 p.2 ∧ (p.1.map Prod.fst).Nodup}
  have hfinite : chains.Finite := by
    refine ((List.finite_length_le (EntityId × EntityId) m.agents.length).prod
      (Set.toFinite Set.univ)).subset ?_
    rintro ⟨moves, last⟩ ⟨h, hnodup⟩
    refine ⟨?_, Set.mem_univ _⟩
    have hsub : moves.map Prod.fst ⊆ m.agents := by
      intro a ha
      obtain ⟨p, hp, rfl⟩ := List.mem_map.1 ha
      exact h.mem_agents p hp
    have hlength := (List.subperm_of_subset hnodup hsub).length_le
    rwa [List.length_map] at hlength
  obtain ⟨⟨moves, last⟩, ⟨h, hnodup⟩, hmin⟩ := Set.exists_min_image chains
    (fun p => cost m loss x p.1 p.2) hfinite ⟨([], t), .stop t, List.nodup_nil⟩
  exact ⟨moves, last, h, hnodup, fun moves' last' h' hnodup' =>
    hmin (moves', last') ⟨h', hnodup'⟩⟩

/-- A target's price is the cost of the cheapest chain from it. No agent would lose less by a move
than the prices differ, and every target carries its best load at its price. -/
theorem exists_prices (hx : Stands m limit loss x) : ∃ price : EntityId → Rat,
    (∀ a ∈ m.agents, ∀ s ∈ (FactorGraph.build m limit).candidatesOf a,
      price (x a) ≤ loss a s + price s) ∧
    (∀ t, price t ≤
      m.congestion t (crewOf m x t).card - m.congestion t ((crewOf m x t).card + 1)) ∧
    ∀ t ∈ m.targets, ∀ i, (crewOf m x t).card = i + 1 →
      m.congestion t i - m.congestion t (i + 1) ≤ price t := by
  choose moves last hpushes hnodup hmin using exists_cheapest m limit loss x
  refine ⟨fun t => cost m loss x (moves t) (last t), fun b hb s hs => ?_, fun t => ?_,
    fun t ht i hi => ?_⟩
  · by_cases hmoved : b ∈ (moves s).map Prod.fst
    · -- the chain from `s` comes by the agent's own target: what it does before is a cycle
      obtain ⟨front, s', back, heq, hfront, hback⟩ := (hpushes s).split hmoved
      have hdistinct := hnodup s
      rw [heq, List.map_append] at hdistinct
      obtain ⟨hnodupFront, hnodupBack, hdisjoint⟩ := List.nodup_append.1 hdistinct
      have hfresh : b ∉ front.map Prod.fst :=
        fun hin => hdisjoint b hin b List.mem_cons_self rfl
      have hcycle := hx.closed_nonneg (.push hb hs hfront) (List.nodup_cons.2 ⟨hfresh, hnodupFront⟩)
      have hrest := hmin (x b) _ _ hback hnodupBack
      rw [lossOf_cons] at hcycle
      simp only [cost, heq, lossOf_append] at hrest ⊢
      linarith
    · have hlonger := hmin (x b) _ _ (.push hb hs (hpushes s))
        (List.nodup_cons.2 ⟨hmoved, hnodup s⟩)
      simp only [cost, lossOf_cons] at hlonger ⊢
      linarith
  · have hnone := hmin t [] t (.stop t) List.nodup_nil
    simpa [cost, lossOf] using hnone
  · by_cases hne : t = last t
    · have hclosed : 0 ≤ lossOf loss (moves t) := by
        have h := hpushes t
        rw [← hne] at h
        exact hx.closed_nonneg h (hnodup t)
      have hconcave := m.concave_congestion t i
      simp only [cost, ← hne, hi]
      linarith
    · have hopen := hx.open_le (hpushes t) (hnodup t) hne ht hi
      simp only [cost]
      linarith

end Stands

end Chains

/-! ## A single optimum -/

/-- Prices at which the choice of every agent leads its other candidates by a gap, and every target
carries its best load. -/
structure Supports (m : UtilityMatrix Rat) (limit : Option Nat) (x : EntityId → EntityId)
    (price : EntityId → Rat) (gap : Rat) : Prop where
  candidate : ∀ a ∈ m.agents, x a ∈ (FactorGraph.build m limit).candidatesOf a
  leads : ∀ a ∈ m.agents, ∀ s ∈ (FactorGraph.build m limit).candidatesOf a, s ≠ x a →
    m.utility a s - price s + gap ≤ m.utility a (x a) - price (x a)
  next_le : ∀ t, price t ≤
    m.congestion t (crewOf m x t).card - m.congestion t ((crewOf m x t).card + 1)
  last_le : ∀ t ∈ m.targets, ∀ i, (crewOf m x t).card = i + 1 →
    m.congestion t i - m.congestion t (i + 1) ≤ price t

/-- Finitely many values below a bound stay below it by a margin. -/
theorem exists_margin {ι : Type} [Finite ι] {p : ι → Prop} {f : ι → Rat} {bound : Rat}
    (h : ∀ i, p i → f i < bound) : ∃ margin > 0, ∀ i, p i → f i + margin ≤ bound := by
  by_cases hne : {i | p i}.Nonempty
  · obtain ⟨best, hbest, hmax⟩ := Set.exists_max_image {i | p i} f (Set.toFinite _) hne
    refine ⟨bound - f best, sub_pos.2 (h best hbest), fun i hi => ?_⟩
    have := hmax i hi
    linarith
  · exact ⟨1, one_pos, fun i hi => absurd ⟨i, hi⟩ hne⟩

section Single
variable {m : UtilityMatrix Rat} {limit : Option Nat} {x : EntityId → EntityId}

/-- What an agent loses by a move, if the move is made cheaper by a gap. -/
def discounted (m : UtilityMatrix Rat) (x : EntityId → EntityId) (gap : Rat) (a s : EntityId) :
    Rat :=
  if s = x a then 0 else m.utility a (x a) - m.utility a s - gap

/-- If all other choices are worth less by a margin, moves can be made cheaper without paying. -/
theorem stands_of_margin (hx : ∀ a ∈ m.agents, x a ∈ (FactorGraph.build m limit).candidatesOf a)
    {gap margin : Rat} (hgap : 0 < gap) (hmargin : gap * m.agents.toFinset.card ≤ margin)
    (h : ∀ y : EntityId → EntityId,
      (∀ a ∈ m.agents, y a ∈ (FactorGraph.build m limit).candidatesOf a) ∧
        (∃ a ∈ m.agents, y a ≠ x a) → worth m y + margin ≤ worth m x) :
    Stands m limit (discounted m x gap) x := by
  refine ⟨hx, fun a _ => if_pos rfl, fun y hy => ?_⟩
  by_cases hmoved : ∃ a ∈ m.agents, y a ≠ x a
  · have hworth := h y ⟨hy, hmoved⟩
    have hloss : ∑ a ∈ m.agents.toFinset, (m.utility a (x a) - m.utility a (y a) - gap) ≤
        ∑ a ∈ m.agents.toFinset, discounted m x gap a (y a) := by
      apply Finset.sum_le_sum
      intro a _
      unfold discounted
      split
      · rename_i heq
        rw [heq]
        linarith
      · exact le_rfl
    simp only [Finset.sum_sub_distrib, Finset.sum_const, nsmul_eq_mul] at hloss ⊢
    unfold worth at hworth
    linarith
  · push Not at hmoved
    have hcrew : ∀ t, crewOf m y t = crewOf m x t := by
      intro t
      apply Finset.filter_congr
      intro a ha
      rw [hmoved a (List.mem_toFinset.1 ha)]
    have hloss : ∑ a ∈ m.agents.toFinset, discounted m x gap a (y a) = 0 :=
      Finset.sum_eq_zero fun a ha => if_pos (hmoved a (List.mem_toFinset.1 ha))
    simp only [hcrew, sub_self, Finset.sum_const_zero, hloss, le_refl]

/-- A choice that is worth more than all others is supported with a gap. -/
theorem exists_supports (hx : ∀ a ∈ m.agents, x a ∈ (FactorGraph.build m limit).candidatesOf a)
    (h : ∀ y : EntityId → EntityId,
      (∀ a ∈ m.agents, y a ∈ (FactorGraph.build m limit).candidatesOf a) ∧
        (∃ a ∈ m.agents, y a ≠ x a) → worth m y < worth m x) :
    ∃ gap > 0, ∃ price, Supports m limit x price gap := by
  obtain ⟨margin, hmargin, hworth⟩ := exists_margin h
  let gap := margin / (m.agents.toFinset.card + 1)
  have hcard : (0 : Rat) < m.agents.toFinset.card + 1 := by positivity
  have hgap : 0 < gap := div_pos hmargin hcard
  have hle : gap * m.agents.toFinset.card ≤ margin := by
    have : gap * (m.agents.toFinset.card + 1) = margin := div_mul_cancel₀ margin hcard.ne'
    linarith
  obtain ⟨price, hleads, hnext, hlast⟩ := (stands_of_margin hx hgap hle hworth).exists_prices
  refine ⟨gap, hgap, price, hx, fun a ha s hs hne => ?_, hnext, hlast⟩
  have hprice := hleads a ha s hs
  rw [discounted, if_neg hne] at hprice
  linarith

end Single

end Dispatch.MaxSum
