import Mathlib
import Dispatch.Proofs.Gains
/-!
# Prices

A fixed point of Max-Sum puts a price on every target: what its load would cost next, or the least
that one of its agents says it gains there, whichever is lower. At these prices every agent has
chosen the target that leaves it most (`Fixed.utility_sub_price_le`), and no load is better for its
target than the one it has (`exists_price`). So no other choice of targets is worth more in total
(`Fixed.worth_le`).
-/

namespace Dispatch

/-! ## Concave loads -/

/-- Each further agent adds at most what the one before it added. -/
def Concave (c : Nat → Rat) : Prop := ∀ k, c (k + 2) - c (k + 1) ≤ c (k + 1) - c k

namespace UtilityMatrix

theorem zero_le_penalty (m : UtilityMatrix Rat) : 0 ≤ m.penalty := not_lt.1 m.penalty_nonneg

theorem congestion_eq (m : UtilityMatrix Rat) (t : EntityId) (k : Nat) :
    m.congestion t k = -m.penalty * ((k - m.need t : Nat) : Rat) := rfl

theorem concave_congestion (m : UtilityMatrix Rat) (t : EntityId) : Concave (m.congestion t) := by
  intro k
  rw [congestion_eq, congestion_eq, congestion_eq]
  rcases Nat.lt_or_ge k (m.need t) with hlt | hge
  · have hnone : k - m.need t = 0 := by omega
    have hone : k + 1 - m.need t = 0 := by omega
    rw [hnone, hone, Nat.cast_zero, mul_zero, sub_zero, sub_zero]
    exact mul_nonpos_of_nonpos_of_nonneg (neg_nonpos.2 m.zero_le_penalty) (Nat.cast_nonneg _)
  · rw [Nat.sub_add_comm hge, Nat.sub_add_comm hge]
    push_cast
    linarith

end UtilityMatrix

namespace Concave

theorem slope_antitone {c : Nat → Rat} (h : Concave c) : Antitone fun k => c (k + 1) - c k :=
  antitone_nat_of_succ_le h

/-- A price between what the last agent cost and what the next one would supports the load. -/
theorem le_of_price {c : Nat → Rat} (h : Concave c) {k : Nat} {price : Rat}
    (hnext : price ≤ c k - c (k + 1)) (hlast : ∀ i, k = i + 1 → c i - c k ≤ price) (j : Nat) :
    c j ≤ c k - price * (j - k) := by
  -- away from `k` in either direction the slope only gets worse than the price
  rcases le_total k j with hkj | hjk
  · induction j, hkj using Nat.le_induction with
    | base => simp
    | succ j hkj ih =>
      have hslope : c (j + 1) - c j ≤ c (k + 1) - c k := h.slope_antitone hkj
      push_cast
      linarith
  · obtain ⟨n, hn⟩ := Nat.exists_eq_add_of_le hjk
    have hdown : c j ≤ c k + price * n := by
      clear hjk
      induction n generalizing j with
      | zero => simp [hn]
      | succ n ih =>
        have hslope : c (j + n + 1) - c (j + n) ≤ c (j + 1) - c j :=
          h.slope_antitone (Nat.le_add_right j n)
        have hprice := hlast (j + n) hn
        have hnext := ih (j + 1) (by omega)
        rw [hn] at hprice hnext ⊢
        push_cast
        have : c (j + (n + 1)) = c (j + n + 1) := rfl
        linarith
    have hcast : (k : Rat) = j + n := by rw [hn, Nat.cast_add]
    rw [hcast]
    linarith

end Concave

namespace MaxSum

/-! ## One target -/

/-- A function answers each neighbour with what it gains or loses by it, given the values `q` of
the others. -/
def Answers (c : Nat → Rat) (linked : Finset EntityId) (q r : EntityId → Rat) : Prop :=
  ∀ a ∈ linked, ∃ inside outside,
    IsGreatest {w | ∃ crew ⊆ linked.erase a, w = worthOf (fun k => c (k + 1)) q crew} inside ∧
    IsGreatest {w | ∃ crew ⊆ linked.erase a, w = worthOf c q crew} outside ∧
    r a = inside - outside

/-- The crew is who gains by the target, and everybody else loses by it. -/
structure Settled (linked : Finset EntityId) (q r : EntityId → Rat) (crew : Finset EntityId) :
    Prop where
  subset : crew ⊆ linked
  gain_pos : ∀ a ∈ crew, 0 < q a + r a
  gain_neg : ∀ a ∈ linked, a ∉ crew → q a + r a < 0

theorem worthOf_erase (c : Nat → Rat) (q : EntityId → Rat) {crew : Finset EntityId} {a : EntityId}
    (ha : a ∈ crew) :
    worthOf c q crew = worthOf (fun k => c (k + 1)) q (crew.erase a) + q a := by
  rw [worthOf, worthOf, Finset.card_erase_add_one ha, add_assoc, Finset.sum_erase_add _ _ ha]

section Target
variable {c : Nat → Rat} {linked crew : Finset EntityId} {q r : EntityId → Rat}

/-- No crew is worth more to a target than the one it has. -/
theorem worthOf_le (h : Answers c linked q r) (hcrew : Settled linked q r crew)
    {other : Finset EntityId} (hother : other ⊆ linked) : worthOf c q other ≤ worthOf c q crew := by
  obtain ⟨best, hbest, hmax⟩ :=
    linked.powerset.exists_max_image (worthOf c q) ⟨∅, Finset.empty_mem_powerset _⟩
  have hsub := Finset.mem_powerset.1 hbest
  -- a best crew differs from `crew` in nobody: whoever it has or lacks more would gain or lose
  have heq : best = crew := by
    refine Finset.Subset.antisymm (fun a ha => ?_) fun a ha => ?_
    · by_contra hnot
      obtain ⟨inside, outside, hin, hout, hr⟩ := h a (hsub ha)
      have hgain := hcrew.gain_neg a (hsub ha) hnot
      have hinside := hin.2 ⟨best.erase a, Finset.erase_subset_erase a hsub, rfl⟩
      obtain ⟨without, hwithout, houtside⟩ := hout.1
      have hle := hmax without
        (Finset.mem_powerset.2 (hwithout.trans (Finset.erase_subset a linked)))
      rw [worthOf_erase c q ha] at hle
      linarith
    · by_contra hnot
      obtain ⟨inside, outside, hin, hout, hr⟩ := h a (hcrew.subset ha)
      have hgain := hcrew.gain_pos a ha
      have houtside := hout.2 ⟨best, Finset.subset_erase.2 ⟨hsub, hnot⟩, rfl⟩
      obtain ⟨without, hwithout, hinside⟩ := hin.1
      have hfresh : a ∉ without := fun hin => (Finset.mem_erase.1 (hwithout hin)).1 rfl
      have hle := hmax (insert a without) (Finset.mem_powerset.2 (Finset.insert_subset
        (hcrew.subset ha) (hwithout.trans (Finset.erase_subset a linked))))
      rw [worthOf_erase c q (Finset.mem_insert_self a without), Finset.erase_insert hfresh] at hle
      linarith
  rw [← heq]
  exact hmax other (Finset.mem_powerset.2 hother)

/-- Whoever is not in the crew loses at least what its load would cost next. -/
theorem next_le_answer (h : Answers c linked q r) (hcrew : Settled linked q r crew) {a : EntityId}
    (ha : a ∈ linked) (hnot : a ∉ crew) :
    -r a ≤ c crew.card - c (crew.card + 1) ∧ ∀ b ∈ crew, -r a ≤ q b := by
  obtain ⟨inside, outside, hin, hout, hr⟩ := h a ha
  obtain ⟨without, hwithout, houtside⟩ := hout.1
  have hle := worthOf_le h hcrew (hwithout.trans (Finset.erase_subset a linked))
  have hsub : crew ⊆ linked.erase a := Finset.subset_erase.2 ⟨hcrew.subset, hnot⟩
  constructor
  · have hinside := hin.2 ⟨crew, hsub, rfl⟩
    simp only [worthOf] at hinside houtside hle
    linarith
  · intro b hb
    have hinside := hin.2 ⟨crew.erase b, (Finset.erase_subset b crew).trans hsub, rfl⟩
    have hsplit := worthOf_erase c q hb
    linarith

/-- A target has a price: nobody in its crew says it gains less, nobody else would pay it, and no
load at that price is better than the one it has. -/
theorem exists_price (hc : Concave c) (h : Answers c linked q r)
    (hcrew : Settled linked q r crew) :
    ∃ price, (∀ a ∈ crew, price ≤ q a) ∧ (∀ a ∈ linked, a ∉ crew → -r a ≤ price) ∧
      ∀ j, c j ≤ c crew.card - price * (j - crew.card) := by
  -- the highest price that the crew still pays and that the next agent would still cost
  let bounds := insert (c crew.card - c (crew.card + 1)) (crew.image q)
  have hne : bounds.Nonempty := Finset.insert_nonempty _ _
  have hle : ∀ p ∈ bounds, bounds.min' hne ≤ p := fun p hp => bounds.min'_le p hp
  have hge : ∀ w, w ≤ c crew.card - c (crew.card + 1) → (∀ b ∈ crew, w ≤ q b) →
      w ≤ bounds.min' hne := by
    intro w hnext hall
    apply bounds.le_min' hne w
    intro p hp
    rcases Finset.mem_insert.1 hp with rfl | hp
    · exact hnext
    · obtain ⟨b, hb, rfl⟩ := Finset.mem_image.1 hp
      exact hall b hb
  refine ⟨bounds.min' hne,
    fun a ha => hle _ (Finset.mem_insert_of_mem (Finset.mem_image_of_mem q ha)),
    fun a ha hnot => ?_, hc.le_of_price (hle _ (Finset.mem_insert_self _ _)) fun i hi => ?_⟩
  · obtain ⟨hnext, hall⟩ := next_le_answer h hcrew ha hnot
    exact hge _ hnext hall
  · -- what the last agent cost is at most what the next one would, and what anybody gains
    refine hge _ ?_ fun b hb => ?_
    · have := hc i
      rw [hi]
      linarith
    · have hsub : crew.erase b ⊆ linked := (Finset.erase_subset b crew).trans hcrew.subset
      have hle := worthOf_le h hcrew hsub
      have hcard : (crew.erase b).card = i := by rw [Finset.card_erase_of_mem hb, hi]; rfl
      have hsum := Finset.sum_erase_add crew q hb
      rw [worthOf, worthOf, hcard] at hle
      linarith

end Target

/-! ## All targets -/

/-- Who chooses a target. -/
def crewOf (m : UtilityMatrix Rat) (x : EntityId → EntityId) (t : EntityId) : Finset EntityId :=
  m.agents.toFinset.filter fun a => x a = t

theorem mem_crewOf {m : UtilityMatrix Rat} {x : EntityId → EntityId} {a t : EntityId} :
    a ∈ crewOf m x t ↔ a ∈ m.agents ∧ x a = t := by
  rw [crewOf, Finset.mem_filter, List.mem_toFinset]

/-- What a choice of targets is worth: what the agents earn and what the loads cost. -/
def worth (m : UtilityMatrix Rat) (x : EntityId → EntityId) : Rat :=
  ∑ a ∈ m.agents.toFinset, m.utility a (x a) +
    ∑ t ∈ m.targets.toFinset, m.congestion t (crewOf m x t).card

/-- What the agents pay is what the targets take. -/
theorem sum_price (m : UtilityMatrix Rat) {x : EntityId → EntityId}
    (hx : ∀ a ∈ m.agents, x a ∈ m.targets) (price : EntityId → Rat) :
    ∑ a ∈ m.agents.toFinset, price (x a) =
      ∑ t ∈ m.targets.toFinset, price t * (crewOf m x t).card := by
  have hmaps : ∀ a ∈ m.agents.toFinset, x a ∈ m.targets.toFinset := fun a ha =>
    List.mem_toFinset.2 (hx a (List.mem_toFinset.1 ha))
  rw [← Finset.sum_fiberwise_of_maps_to' hmaps]
  apply Finset.sum_congr rfl
  intro t _
  rw [Finset.sum_const, nsmul_eq_mul, mul_comm, crewOf]

/-- Prices at which every agent has made its best choice, and every target carries its best load,
show that no choice is worth more. -/
theorem worth_le_of_prices (m : UtilityMatrix Rat) {x y : EntityId → EntityId}
    (hx : ∀ a ∈ m.agents, x a ∈ m.targets) (hy : ∀ a ∈ m.agents, y a ∈ m.targets)
    {price : EntityId → Rat}
    (hchoice : ∀ a ∈ m.agents,
      m.utility a (y a) - price (y a) ≤ m.utility a (x a) - price (x a))
    (hload : ∀ t ∈ m.targets, ∀ j : Nat, m.congestion t j ≤
      m.congestion t (crewOf m x t).card - price t * (j - (crewOf m x t).card)) :
    worth m y ≤ worth m x := by
  have hagents : ∑ a ∈ m.agents.toFinset, (m.utility a (y a) - price (y a)) ≤
      ∑ a ∈ m.agents.toFinset, (m.utility a (x a) - price (x a)) :=
    Finset.sum_le_sum fun a ha => hchoice a (List.mem_toFinset.1 ha)
  have htargets : ∑ t ∈ m.targets.toFinset, m.congestion t (crewOf m y t).card ≤
      ∑ t ∈ m.targets.toFinset, (m.congestion t (crewOf m x t).card -
        (price t * (crewOf m y t).card - price t * (crewOf m x t).card)) := by
    apply Finset.sum_le_sum
    intro t ht
    rw [← mul_sub]
    exact hload t (List.mem_toFinset.1 ht) _
  simp only [Finset.sum_sub_distrib, sum_price m hx price, sum_price m hy price]
    at hagents htargets
  rw [worth, worth]
  linarith

/-! ## Replies -/

/-- What a target promises to an agent. -/
def promise (m : UtilityMatrix Rat) (v : Edge → Rat) (a t : EntityId) : Rat :=
  m.utility a t + v (.toAgent t a)

theorem Answers.congr {c : Nat → Rat} {linked : Finset EntityId} {q r r' : EntityId → Rat}
    (h : Answers c linked q r) (heq : ∀ a ∈ linked, r' a = r a) : Answers c linked q r' := by
  intro a ha
  obtain ⟨inside, outside, hin, hout, hr⟩ := h a ha
  exact ⟨inside, outside, hin, hout, (heq a ha).trans hr⟩

theorem answers_reply (m : UtilityMatrix Rat) (limit : Option Nat) (v : Edge → Rat)
    (t : EntityId) :
    Answers (m.congestion t) ((FactorGraph.build m limit).neighboursOf t).toFinset
      (fun a => v (.toTarget a t)) fun a => reply m (.build m limit) v (.toAgent t a) :=
  fun _ ha => gainOf_loadGains (FactorGraph.nodup_neighboursOf t)
    (q := fun b => v (.toTarget b t)) (m.congestion t) (List.mem_toFinset.1 ha)

/-- What a variable replies is how far a candidate's utility is above the best other promise. -/
theorem exists_best_reply {m : UtilityMatrix Rat} {limit : Option Nat} (v : Edge → Rat)
    {a t : EntityId} (htwo : 2 ≤ ((FactorGraph.build m limit).candidatesOf a).length)
    (ht : t ∈ (FactorGraph.build m limit).candidatesOf a) :
    ∃ best, IsGreatest {w | ∃ s ∈ (FactorGraph.build m limit).candidatesOf a,
        s ≠ t ∧ w = promise m v a s} best ∧
      reply m (.build m limit) v (.toTarget a t) = m.utility a t - best :=
  gainOf_choiceGains (FactorGraph.nodup_candidatesOf a) htwo (u := m.utility a)
    (r := fun s => v (.toAgent s a)) ht

/-! ## Fixed points -/

section Fixed
variable {m : UtilityMatrix Rat} {limit : Option Nat} {v : Edge → Rat}

/-- Every edge carries what its source would say next. -/
def Fixed (m : UtilityMatrix Rat) (limit : Option Nat) (v : Edge → Rat) : Prop :=
  ∀ e ∈ (FactorGraph.build m limit).edges, v e = reply m (FactorGraph.build m limit) v e

/-- Every agent chooses the one candidate that promises it most. -/
def Decided (m : UtilityMatrix Rat) (limit : Option Nat) (v : Edge → Rat)
    (x : EntityId → EntityId) : Prop :=
  ∀ a ∈ m.agents, x a ∈ (FactorGraph.build m limit).candidatesOf a ∧
    ∀ s ∈ (FactorGraph.build m limit).candidatesOf a, s ≠ x a →
      promise m v a s < promise m v a (x a)

theorem Fixed.answers (h : Fixed m limit v) (t : EntityId) :
    Answers (m.congestion t) ((FactorGraph.build m limit).neighboursOf t).toFinset
      (fun a => v (.toTarget a t)) fun a => v (.toAgent t a) := by
  refine (answers_reply m limit v t).congr fun a ha => h _ ?_
  exact FactorGraph.toAgent_mem_edges.2 (FactorGraph.mem_neighboursOf.1 (List.mem_toFinset.1 ha))

/-- A variable says how far a candidate's promise is above the best other one. -/
theorem Fixed.exists_best (h : Fixed m limit v) {a t : EntityId}
    (htwo : 2 ≤ ((FactorGraph.build m limit).candidatesOf a).length)
    (ht : t ∈ (FactorGraph.build m limit).candidatesOf a) :
    ∃ best, IsGreatest {w | ∃ s ∈ (FactorGraph.build m limit).candidatesOf a,
        s ≠ t ∧ w = promise m v a s} best ∧
      v (.toTarget a t) = m.utility a t - best := by
  obtain ⟨best, hbest, hgain⟩ := exists_best_reply v htwo ht
  exact ⟨best, hbest, (h _ (FactorGraph.toTarget_mem_edges.2 ht)).trans hgain⟩

variable {x : EntityId → EntityId}

theorem Decided.mem_targets (hx : Decided m limit v x) : ∀ a ∈ m.agents, x a ∈ m.targets :=
  fun a ha => FactorGraph.mem_targets_of_candidatesOf (hx a ha).1

/-- Both ends of an edge agree on whether the agent takes the target. -/
theorem Fixed.settled (h : Fixed m limit v)
    (htwo : ∀ a ∈ m.agents, 2 ≤ ((FactorGraph.build m limit).candidatesOf a).length)
    (hx : Decided m limit v x) (t : EntityId) :
    Settled ((FactorGraph.build m limit).neighboursOf t).toFinset
      (fun a => v (.toTarget a t)) (fun a => v (.toAgent t a)) (crewOf m x t) := by
  have hlinked : ∀ {a}, a ∈ ((FactorGraph.build m limit).neighboursOf t).toFinset →
      a ∈ m.agents ∧ t ∈ (FactorGraph.build m limit).candidatesOf a := by
    intro a ha
    have ht := FactorGraph.mem_neighboursOf.1 (List.mem_toFinset.1 ha)
    exact ⟨(FactorGraph.mem_candidatesOf.1 ht).1, ht⟩
  have hsub : crewOf m x t ⊆ ((FactorGraph.build m limit).neighboursOf t).toFinset := by
    intro a ha
    obtain ⟨hagent, rfl⟩ := mem_crewOf.1 ha
    exact List.mem_toFinset.2 (FactorGraph.mem_neighboursOf.2 (hx a hagent).1)
  refine ⟨hsub, fun a ha => ?_, fun a ha hnot => ?_⟩
  · obtain ⟨hagent, ht⟩ := hlinked (hsub ha)
    obtain ⟨best, ⟨⟨s, hs, hne, rfl⟩, -⟩, hgain⟩ := h.exists_best (htwo a hagent) ht
    obtain ⟨-, rfl⟩ := mem_crewOf.1 ha
    have hlt := (hx a hagent).2 s hs hne
    rw [hgain]
    unfold promise at hlt ⊢
    linarith
  · obtain ⟨hagent, ht⟩ := hlinked ha
    obtain ⟨best, ⟨-, hbest⟩, hgain⟩ := h.exists_best (htwo a hagent) ht
    have hne : x a ≠ t := fun e => hnot (mem_crewOf.2 ⟨hagent, e⟩)
    have hlt := (hx a hagent).2 t ht hne.symm
    have hle := hbest ⟨x a, (hx a hagent).1, hne, rfl⟩
    rw [hgain]
    unfold promise at hlt hle
    linarith

/-- At the prices of a fixed point every agent has chosen the candidate that leaves it most. -/
theorem Fixed.utility_sub_price_le (h : Fixed m limit v)
    (htwo : ∀ a ∈ m.agents, 2 ≤ ((FactorGraph.build m limit).candidatesOf a).length)
    (hx : Decided m limit v x) {price : EntityId → Rat}
    (hcrew : ∀ t, ∀ a ∈ crewOf m x t, price t ≤ v (.toTarget a t))
    (hothers : ∀ t, ∀ a ∈ (FactorGraph.build m limit).neighboursOf t, a ∉ crewOf m x t →
      -v (.toAgent t a) ≤ price t)
    {a s : EntityId} (ha : a ∈ m.agents)
    (hs : s ∈ (FactorGraph.build m limit).candidatesOf a) :
    m.utility a s - price s ≤ m.utility a (x a) - price (x a) := by
  by_cases hsx : s = x a
  · rw [hsx]
  · -- the agent's own target asks at most its lead over `s`, and `s` at least what it refuses
    obtain ⟨best, ⟨-, hbest⟩, hgain⟩ := h.exists_best (htwo a ha) (hx a ha).1
    have hown := hcrew (x a) a (mem_crewOf.2 ⟨ha, rfl⟩)
    have hother := hothers s a (FactorGraph.mem_neighboursOf.2 hs) fun hin =>
      hsx (mem_crewOf.1 hin).2.symm
    have hle := hbest ⟨s, hs, hsx, rfl⟩
    unfold promise at hle
    linarith

/-- At a fixed point, the choices that promise most are worth most in total. -/
theorem Fixed.worth_le (h : Fixed m limit v)
    (htwo : ∀ a ∈ m.agents, 2 ≤ ((FactorGraph.build m limit).candidatesOf a).length)
    (hx : Decided m limit v x) {y : EntityId → EntityId}
    (hy : ∀ a ∈ m.agents, y a ∈ (FactorGraph.build m limit).candidatesOf a) :
    worth m y ≤ worth m x := by
  choose price hcrew hothers hload using fun t =>
    exists_price (m.concave_congestion t) (h.answers t) (h.settled htwo hx t)
  refine worth_le_of_prices m hx.mem_targets (fun a ha => ?_) (fun a ha => ?_)
    fun t _ j => hload t j
  · exact FactorGraph.mem_targets_of_candidatesOf (hy a ha)
  · exact h.utility_sub_price_le htwo hx hcrew
      (fun t b hb => hothers t b (List.mem_toFinset.2 hb)) ha (hy a ha)

end Fixed

end MaxSum

end Dispatch
