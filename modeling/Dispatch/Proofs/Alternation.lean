import Mathlib
import Dispatch.Proofs.Bounds
/-!
# Alternate rounds of Max-Sum

Both kinds of nodes answer less where they hear more (`Answers.antitone`, `reply_toTarget_le`): for
a variable that is plain, and for a function it is because two crews can trade members without loss
under a concave load (`worthOf_trade`). The functions start from zero, which is the most they ever
say. So what they say goes down, and what the variables say goes up, from any round to the second
next (`alternate_values`), on whatever graph.
-/

namespace Dispatch.MaxSum

/-! ## One target -/

section Target
variable {c : Nat → Rat} {others linked : Finset EntityId} {q q' r r' : EntityId → Rat}

/-- If the crew beside the agent counts the higher values and the one without it the lower ones,
there are two crews for which it is the other way round and that are worth no less together: either
the two change places, or the larger one hands over its surplus. -/
theorem worthOf_trade (hc : Concave c) (hq : ∀ b ∈ others, q b ≤ q' b)
    {crew other : Finset EntityId} (hcrew : crew ⊆ others) (hother : other ⊆ others) :
    ∃ beside ⊆ others, ∃ without ⊆ others,
      worthOf (fun k => c (k + 1)) q' crew + worthOf c q other ≤
        worthOf (fun k => c (k + 1)) q beside + worthOf c q' without := by
  rcases le_or_gt other.card crew.card with hle | hlt
  · refine ⟨other, hother, crew, hcrew, ?_⟩
    have hslope : c (crew.card + 1) - c crew.card ≤ c (other.card + 1) - c other.card :=
      hc.slope_antitone hle
    unfold worthOf
    linarith
  · have hroom : other.card - crew.card ≤ (other \ crew).card := Finset.le_card_sdiff _ _
    obtain ⟨surplus, hsurplus, hcard⟩ := Finset.exists_subset_card_eq hroom
    have hsub : surplus ⊆ other := hsurplus.trans Finset.sdiff_subset
    have hdisjoint : Disjoint crew surplus :=
      Finset.disjoint_of_subset_right hsurplus Finset.disjoint_sdiff
    have hfewer : (other \ surplus).card = crew.card := by
      rw [Finset.card_sdiff_of_subset hsub]
      omega
    have hmore : (crew ∪ surplus).card = other.card := by
      rw [Finset.card_union_of_disjoint hdisjoint]
      omega
    refine ⟨other \ surplus, Finset.sdiff_subset.trans hother, crew ∪ surplus,
      Finset.union_subset hcrew (hsub.trans hother), ?_⟩
    have hgain : ∑ b ∈ surplus, q b ≤ ∑ b ∈ surplus, q' b :=
      Finset.sum_le_sum fun b hb => hq b (hother (hsub hb))
    have hleft := Finset.sum_sdiff hsub (f := q)
    unfold worthOf
    rw [hfewer, hmore, Finset.sum_union hdisjoint]
    linarith

/-- A function that hears more answers less. -/
theorem Answers.antitone (hc : Concave c) (h : Answers c linked q r)
    (h' : Answers c linked q' r') (hq : ∀ b ∈ linked, q b ≤ q' b) : ∀ a ∈ linked, r' a ≤ r a := by
  intro a ha
  obtain ⟨inside, outside, hin, hout, hr⟩ := h a ha
  obtain ⟨inside', outside', hin', hout', hr'⟩ := h' a ha
  obtain ⟨crew, hcrew, hinside'⟩ := hin'.1
  obtain ⟨other, hother, houtside⟩ := hout.1
  obtain ⟨beside, hbeside, without, hwithout, htrade⟩ :=
    worthOf_trade hc (fun b hb => hq b (Finset.mem_of_mem_erase hb)) hcrew hother
  have hinside := hin.2 ⟨beside, hbeside, rfl⟩
  have houtside' := hout'.2 ⟨without, hwithout, rfl⟩
  rw [hr, hr']
  linarith

end Target

/-! ## Replies -/

section Replies
variable {m : UtilityMatrix Rat} {limit : Option Nat} {v v' : Edge → Rat}

theorem reply_toAgent_le (t : EntityId)
    (hv : ∀ b ∈ (FactorGraph.build m limit).neighboursOf t,
      v (.toTarget b t) ≤ v' (.toTarget b t)) {a : EntityId}
    (ha : a ∈ (FactorGraph.build m limit).neighboursOf t) :
    reply m (.build m limit) v' (.toAgent t a) ≤ reply m (.build m limit) v (.toAgent t a) :=
  (answers_reply m limit v t).antitone (m.concave_congestion t) (answers_reply m limit v' t)
    (fun b hb => hv b (List.mem_toFinset.1 hb)) a (List.mem_toFinset.2 ha)

/-- A variable that hears more answers less, as the best of the others is better. -/
theorem reply_toTarget_le {a : EntityId}
    (hv : ∀ s ∈ (FactorGraph.build m limit).candidatesOf a,
      v (.toAgent s a) ≤ v' (.toAgent s a)) {t : EntityId}
    (ht : t ∈ (FactorGraph.build m limit).candidatesOf a) :
    reply m (.build m limit) v' (.toTarget a t) ≤ reply m (.build m limit) v (.toTarget a t) := by
  rcases le_or_gt 2 ((FactorGraph.build m limit).candidatesOf a).length with htwo | hone
  · obtain ⟨best, ⟨⟨s, hs, hne, rfl⟩, -⟩, heq⟩ := exists_best_reply v htwo ht
    obtain ⟨best', ⟨-, hbest'⟩, heq'⟩ := exists_best_reply v' htwo ht
    have hle := hbest' ⟨s, hs, hne, rfl⟩
    have hheard := hv s hs
    rw [heq, heq']
    unfold promise at hle ⊢
    linarith
  · -- an only candidate is compared with nothing, whatever is heard
    have honly : (FactorGraph.build m limit).candidatesOf a = [t] := by
      obtain ⟨s, hs⟩ := List.length_eq_one_iff.1
        (le_antisymm (Nat.le_of_lt_succ hone) (List.length_pos_of_mem ht))
      rw [hs] at ht ⊢
      rw [List.mem_singleton.1 ht]
    show gainOf _ (choiceGains _ _) t ≤ gainOf _ (choiceGains _ _) t
    rw [honly, gainOf_choiceGains_singleton, gainOf_choiceGains_singleton]

theorem reply_toAgent_nonpos (v : Edge → Rat) {t a : EntityId}
    (ha : a ∈ (FactorGraph.build m limit).neighboursOf t) :
    reply m (.build m limit) v (.toAgent t a) ≤ 0 :=
  (gainOf_loadGains_mem (FactorGraph.nodup_neighboursOf t) (fun b => v (.toTarget b t))
    (m.congestion_succ t) ha).2

end Replies

/-! ## Rounds -/

theorem values_undamped (limit : Option Nat) (m : UtilityMatrix Rat) (n : Nat) (e : Edge) :
    values ⟨0, limit⟩ m (n + 1) e = reply m (.build m limit) (values ⟨0, limit⟩ m n) e :=
  if_neg fun h => lt_irrefl (0 : Rat) h.2

section Rounds
variable (limit : Option Nat) (m : UtilityMatrix Rat)

theorem values_toTarget_le {n k : Nat} {a : EntityId}
    (h : ∀ s ∈ (FactorGraph.build m limit).candidatesOf a,
      values ⟨0, limit⟩ m k (.toAgent s a) ≤ values ⟨0, limit⟩ m n (.toAgent s a)) :
    ∀ t ∈ (FactorGraph.build m limit).candidatesOf a,
      values ⟨0, limit⟩ m (n + 1) (.toTarget a t) ≤
        values ⟨0, limit⟩ m (k + 1) (.toTarget a t) := by
  intro t ht
  rw [values_undamped, values_undamped]
  exact reply_toTarget_le h ht

/-- The functions go down in even rounds, so the variables go up in odd ones. -/
theorem alternate_values (k : Nat) : ∀ a, ∀ t ∈ (FactorGraph.build m limit).candidatesOf a,
    values ⟨0, limit⟩ m (2 * k + 2) (.toAgent t a) ≤
        values ⟨0, limit⟩ m (2 * k) (.toAgent t a) ∧
      values ⟨0, limit⟩ m (2 * k + 1) (.toTarget a t) ≤
        values ⟨0, limit⟩ m (2 * k + 3) (.toTarget a t) := by
  -- the variables follow the functions in the same step, the functions follow the variables in the
  -- next one
  have hodd : ∀ k, (∀ a, ∀ t ∈ (FactorGraph.build m limit).candidatesOf a,
      values ⟨0, limit⟩ m (2 * k + 2) (.toAgent t a) ≤
        values ⟨0, limit⟩ m (2 * k) (.toAgent t a)) →
      ∀ a, ∀ t ∈ (FactorGraph.build m limit).candidatesOf a,
        values ⟨0, limit⟩ m (2 * k + 1) (.toTarget a t) ≤
          values ⟨0, limit⟩ m (2 * k + 3) (.toTarget a t) :=
    fun k heven a => values_toTarget_le limit m (heven a)
  have heven : ∀ a, ∀ t ∈ (FactorGraph.build m limit).candidatesOf a,
      values ⟨0, limit⟩ m (2 * k + 2) (.toAgent t a) ≤
        values ⟨0, limit⟩ m (2 * k) (.toAgent t a) := by
    intro a t ht
    have ha := FactorGraph.mem_neighboursOf.2 ht
    induction k generalizing a t with
    | zero =>
      rw [values_undamped]
      exact reply_toAgent_nonpos _ ha
    | succ k ih =>
      show values _ _ (2 * k + 3 + 1) _ ≤ values _ _ (2 * k + 1 + 1) _
      rw [values_undamped, values_undamped]
      refine reply_toAgent_le t (fun b hb => ?_) ha
      exact hodd k (fun a t ht => ih a t ht (FactorGraph.mem_neighboursOf.2 ht)) b t
        (FactorGraph.mem_neighboursOf.1 hb)
  exact fun a t ht => ⟨heven a t ht, hodd k heven a t ht⟩

open Solver

/-- Without damping no round fails, every round sends one value along each edge, and from any round
to the second next what a function sends in even rounds does not go up, and what a variable sends in
odd rounds does not go down. -/
theorem alternate_rounds_move_one_way (solver : Solver.Settings Rat)
    (surroundings : Surroundings Rat) :
    let run := after solver surroundings (agents ⟨0, limit⟩ m)
    (∀ n, ∃ outcome, (playRound solver surroundings (n + 1) (run n)).answer = .ok outcome) ∧
    (∀ n ≥ 1, ((sent (run n)).map (·.edge)).Perm (FactorGraph.build m limit).edges) ∧
    ∀ k ≥ 1, ∀ a t,
      (∀ x y, ⟨.toAgent t a, x⟩ ∈ sent (run (2 * k)) →
        ⟨.toAgent t a, y⟩ ∈ sent (run (2 * k + 2)) → y ≤ x) ∧
      ∀ x y, ⟨.toTarget a t, x⟩ ∈ sent (run (2 * k - 1)) →
        ⟨.toTarget a t, y⟩ ∈ sent (run (2 * k + 1)) → x ≤ y := by
  intro run
  have hpop : ∀ n, Population ⟨0, limit⟩ m n (run n) :=
    population_exact ⟨0, limit⟩ m solver surroundings
  refine ⟨rounds_succeed fun _ => rfl, fun n hn => (hpop n).edges_sent (by omega),
    fun k hk a t => ⟨fun x y hx hy => ?_, ?_⟩⟩
  · obtain ⟨-, ht, rfl⟩ := (hpop _).toAgent_sent.1 hx
    obtain ⟨-, -, rfl⟩ := (hpop _).toAgent_sent.1 hy
    exact (alternate_values limit m k a t ht).1
  · obtain ⟨k, rfl⟩ : ∃ j, k = j + 1 := ⟨k - 1, by omega⟩
    intro x y hx hy
    obtain ⟨-, ht, rfl⟩ := (hpop _).toTarget_sent.1 hx
    obtain ⟨-, -, rfl⟩ := (hpop _).toTarget_sent.1 hy
    exact (alternate_values limit m k a t ht).2

end Rounds

/-- The second target of the crossed agents asks nothing of the second agent in the second round and
three in the fourth; the first agent is against that target by one in the first round, and for it by
three in the third. -/
theorem crossed_move_one_way :
    let run := Solver.after Solver.Settings.default .still (agents ⟨0, none⟩ crossed)
    (⟨.toAgent (.ofNat 4) (.ofNat 2), 0⟩ ∈ sent (run 2) ∧
      ⟨.toAgent (.ofNat 4) (.ofNat 2), -3⟩ ∈ sent (run 4) ∧ (-3 : Rat) ≤ 0) ∧
    ⟨.toTarget (.ofNat 1) (.ofNat 4), -1⟩ ∈ sent (run 1) ∧
      ⟨.toTarget (.ofNat 1) (.ofNat 4), 3⟩ ∈ sent (run 3) ∧ (-1 : Rat) ≤ 3 := by
  intro run
  obtain ⟨-, -, hmove⟩ :=
    alternate_rounds_move_one_way none crossed Solver.Settings.default .still
  have hsecond : ⟨.toAgent (.ofNat 4) (.ofNat 2), 0⟩ ∈ sent (run 2) := by decide +kernel
  have hfourth : ⟨.toAgent (.ofNat 4) (.ofNat 2), -3⟩ ∈ sent (run 4) := by decide +kernel
  have hfirst : ⟨.toTarget (.ofNat 1) (.ofNat 4), -1⟩ ∈ sent (run 1) := by decide +kernel
  have hthird : ⟨.toTarget (.ofNat 1) (.ofNat 4), 3⟩ ∈ sent (run 3) := by decide +kernel
  exact ⟨⟨hsecond, hfourth, (hmove 1 le_rfl _ _).1 _ _ hsecond hfourth⟩,
    hfirst, hthird, (hmove 1 le_rfl _ _).2 _ _ hfirst hthird⟩

end Dispatch.MaxSum
