import Mathlib
import Dispatch.Proofs.Bipartite
import Dispatch.Proofs.BitOrder
import Dispatch.Proofs.Rankings
import Dispatch.Proofs.Recounting
import Dispatch.Proofs.Zeros
/-!
# Who wins a tie

The best of some candidates is found in two ways. A ranking sorts them and takes the first; best
responses and the factor graph scan them for a strictly higher score. Both keep the earliest of
equal scores, but a sort tells the two zeros of the doubles apart and a comparison does not. So they
find candidates of alike scores, and the same one unless these are zeros of different signs
(`UtilityMatrix.rankings_choose_like_scans`). If the highest utility is zero, and a zero without a
sign is listed after one with a sign, the two ways part (`UtilityMatrix.signed_zeros_part_them`).
-/

namespace Dispatch

open MaxSum (EarliestBest)

/-! ## What sorting, comparing and scoring have to do with each other -/

/-- Values are sorted as they compare, and a target that costs no penalty scores its utility. -/
class RankingScalar (α : Type) [Scalar α] : Prop extends SignlessScalar α, ScoringScalar α where
  totalLE_of_lt : ∀ {x y : α}, x < y → Scalar.totalLE x y = true
  aboveBottom_of_isFinite : ∀ {x : α}, Scalar.isFinite x = true → Scalar.aboveBottom x = true
  score_alike_of_free : ∀ {utility penalty : α} {k : ℕ}, Scalar.Alike penalty Scalar.zero →
    k ≤ UInt32.size → Scalar.Alike (utility + -penalty * Scalar.ofNat k) utility

instance : RankingScalar Rat where
  totalLE_of_lt h := decide_eq_true (le_of_lt (α := ℚ) h)
  aboveBottom_of_isFinite _ := rfl
  score_alike_of_free {utility penalty k} hfree _ := by
    rw [Scalar.alike_rat, Scalar.zero_rat] at hfree
    rw [Scalar.alike_rat, hfree]
    show utility + -0 * (k : ℚ) = utility
    ring

namespace Double
open Float.Model

/-- A zero of either sign. -/
def IsZero (x : Float) : Prop := ∃ s, x.toModel.unpack = .zero s

theorem isZero_of_alike {x : Float} (h : Scalar.Alike x Scalar.zero) : IsZero x := by
  have hzero : (Scalar.zero : Float).toModel.unpack = .zero .positive := rfl
  rw [alike_iff, hzero] at h
  rcases eq_or_zeros_of_flat h with heq | ⟨s, -, heq, -⟩
  · exact ⟨_, heq⟩
  · exact ⟨s, heq⟩

theorem IsZero.neg {x : Float} (h : IsZero x) : IsZero (-x) := by
  obtain ⟨s, hs⟩ := h
  have hneg : (-x).toModel.unpack = (Float.Model.pack x.toModel.unpack.neg).unpack := rfl
  rw [hs] at hneg
  exact ⟨-s, hneg.trans UnpackedFloat.unpack_packedZero⟩

theorem IsZero.mul {x y : Float} (h : IsZero x) (hy : y.isFinite = true) : IsZero (x * y) := by
  obtain ⟨s, hs⟩ := h
  have hmul : (x * y).toModel.unpack =
      (Float.Model.pack (.mul .binary64 x.toModel.unpack y.toModel.unpack)).unpack := rfl
  have hy : y.toModel.unpack.isFinite = true := hy
  rw [hs] at hmul
  cases hu : y.toModel.unpack with
  | infinity | notANumber => rw [hu] at hy; cases hy
  | zero t | finite t => rw [hu] at hmul; exact ⟨_, hmul.trans UnpackedFloat.unpack_packedZero⟩

theorem alike_add_of_isZero (x : Float) {y : Float} (h : IsZero y) : Scalar.Alike (x + y) x := by
  obtain ⟨s, hs⟩ := h
  have hadd : (x + y).toModel.unpack =
      (Float.Model.pack (.add .binary64 x.toModel.unpack y.toModel.unpack)).unpack := rfl
  have hflat : flat (.add .binary64 x.toModel.unpack (.zero s)) = flat x.toModel.unpack := by
    rcases x.toModel.unpack with _ | _ | (_ | _) | _ <;> cases s <;> rfl
  have hpack : (Float.Model.pack x.toModel.unpack).unpack = x.toModel.unpack :=
    congrArg (UnpackedFloat.unpack .binary64) (UnpackedFloat.pack_unpack_of_valid x.toModel.valid)
  rw [alike_iff, hadd, hs, flat_unpack_pack hflat, hpack]

/-- Every finite double is above minus infinity. -/
theorem bottom_lt {x : Float} (h : x.isFinite = true) : -(1.0 / 0.0) < x := by
  have h : x.toModel.unpack.isFinite = true := h
  have hbottom : (-(1.0 / 0.0) : Float).toModel.unpack = .infinity .negative := rfl
  rw [lt_iff, hbottom]
  cases hx : x.toModel.unpack with
  | infinity | notANumber => rw [hx] at h; cases h
  | zero | finite => rfl

end Double

open Double in
instance : RankingScalar Float where
  totalLE_of_lt h := decide_eq_true (rank_lt_of_lt h).le
  aboveBottom_of_isFinite h := decide_eq_true (bottom_lt h)
  score_alike_of_free {utility penalty k} hfree hk :=
    alike_add_of_isZero utility
      ((isZero_of_alike hfree).neg.mul (isFinite_ofNat (lt_of_le_of_lt hk (by decide))))

variable {α : Type} [Scalar α]

/-! ## The first of a ranking and the choice of a scan -/

/-- What a ranking puts first, beside the earliest best candidate, which a scan chooses: their
scores are alike, and if they are the same, so are the two. -/
structure PicksAlike (score : EntityId → α) (ids : List EntityId) (first chosen : EntityId) :
    Prop where
  earliest : EarliestBest score ids (some chosen)
  alike : Scalar.Alike (score first) (score chosen)
  eq_of_score : score first = score chosen → first = chosen

section PicksAlike
variable [RankingScalar α] {score : EntityId → α} {ids : List EntityId}

theorem picksAlike_of_shortlist (hnumber : ∀ s ∈ ids, Scalar.IsNumber (score s))
    {first chosen : EntityId} (htop : UtilityMatrix.Shortlist score ids 1 [first])
    (hbest : EarliestBest score ids (some chosen)) : PicksAlike score ids first chosen := by
  have hin : first ∈ ids := htop.subset (List.mem_singleton_self first)
  have hchosen : chosen ∈ ids := hbest.mem chosen rfl
  by_cases hsame : first = chosen
  · exact ⟨hbest, hsame ▸ rfl, fun _ => hsame⟩
  have habove : UtilityMatrix.Outranks score ids first chosen :=
    htop.left_out first (List.mem_singleton_self first) chosen hchosen
      (mt List.mem_singleton.1 (Ne.symm hsame))
  have hnlt : ¬ score first < score chosen := by
    intro hlt
    rcases habove with hfalse | ⟨heq, -⟩
    · cases hfalse.symm.trans (RankingScalar.totalLE_of_lt hlt)
    · exact OrderedScalar.lt_irrefl _ (heq ▸ hlt)
  refine ⟨hbest, SignlessScalar.alike_of_not_lt (hnumber first hin) (hnumber chosen hchosen) hnlt
    (hbest.not_lt first hin), fun heq => ?_⟩
  have hearlier : ids.idxOf first < ids.idxOf chosen := habove.earlier heq
  -- a scan meets the first one before the one it chooses, and would keep it
  obtain ⟨before, after, rfl, hbefore, -⟩ := hbest
  exact absurd (hbefore first (mem_of_idxOf_lt hearlier)) hnlt

theorem exists_picksAlike (hids : ids.Nodup) (hnumber : ∀ s ∈ ids, Scalar.IsNumber (score s))
    (hne : ids ≠ []) : ∃ first chosen, (UtilityMatrix.ranked score ids).take 1 = [first] ∧
      PicksAlike score ids first chosen := by
  have htop := UtilityMatrix.shortlist_take_ranked score hids 1
  obtain ⟨first, -, hfirst, -⟩ := htop.exists_first hne
  obtain ⟨chosen, hbest⟩ : ∃ chosen, EarliestBest score ids (some chosen) := by
    obtain ⟨t, rest, rfl⟩ := List.exists_cons_of_ne_nil hne
    obtain ⟨-, hrest⟩ := List.forall_mem_cons.1 hnumber
    exact ⟨_, MaxSum.earliestBest_scan hrest⟩
  exact ⟨first, chosen, hfirst, picksAlike_of_shortlist hnumber (hfirst ▸ htop) hbest⟩

end PicksAlike

/-- An agent without a target goes to the earliest best one, if it is alone and no load costs
anything. -/
theorem Outlook.bestResponse_of_free [RankingScalar α] {s : Outlook α}
    (halone : ∀ t, s.others.of t = 0) (hfree : Scalar.Alike s.matrix.penalty Scalar.zero)
    {chosen : EntityId}
    (hbest : EarliestBest (s.matrix.utility s.agent) s.matrix.targets (some chosen)) :
    s.bestResponse none = some chosen := by
  have hworth : ∀ t, s.worth t = s.matrix.utility s.agent t +
      -s.matrix.penalty * Scalar.ofNat (1 - s.matrix.need t) := by
    intro t
    rw [worth, UtilityMatrix.congestion, halone t]
  have hload : ∀ t, 1 - s.matrix.need t ≤ UInt32.size := fun t =>
    (Nat.sub_le _ _).trans (by decide)
  have halike : ∀ t, Scalar.Alike (s.worth t) (s.matrix.utility s.agent t) := by
    intro t
    rw [hworth]
    exact RankingScalar.score_alike_of_free hfree (hload t)
  have hnumber : ∀ t, Scalar.IsNumber (s.worth t) := by
    intro t
    rw [hworth]
    exact ScoringScalar.isNumber_score (s.matrix.isFinite_utility _ _) s.matrix.penalty_finite
      (hload t)
  rcases bestResponse_earliest hnumber none with ⟨-, hnone⟩ | ⟨t, hearliest, hresponse, -⟩
  · -- any target is better than none
    have hfinite : Scalar.isFinite (s.worth chosen) = true := by
      rw [SignlessScalar.isFinite_eq_of_alike (halike chosen)]
      exact s.matrix.isFinite_utility _ _
    cases (hnone chosen (hbest.mem chosen rfl)).symm.trans
      (RankingScalar.aboveBottom_of_isFinite hfinite)
  · rw [hresponse]
    exact (hearliest.alike fun t _ => halike t).unique hbest

namespace UtilityMatrix

/-- Rankings choose like scans, but for the signs of zeros. The target of highest utility for an
agent is the earliest one, or at most one of an alike utility. The earliest one is where the agent
goes if it has no target, meets nobody and pays no penalty. In the same way the agent of highest
utility for a target is the one that hosts it in a factor graph without a limit. -/
theorem rankings_choose_like_scans [RankingScalar α] (m : UtilityMatrix α) :
    (m.targets ≠ [] → ∀ a, ∃ first chosen, m.favourite? a = some first ∧
      PicksAlike (m.utility a) m.targets first chosen ∧
      ∀ others : Counts, (∀ t, others.of t = 0) → Scalar.Alike m.penalty Scalar.zero →
        (⟨a, m, others⟩ : Outlook α).bestResponse none = some chosen) ∧
    (m.agents ≠ [] → ∀ t ∈ m.targets, ∃ first chosen, m.topAgents t 1 = [first] ∧
      PicksAlike (m.utility · t) m.agents first chosen ∧
      (FactorGraph.build m none).owner? t = some chosen) := by
  have hnumber : ∀ a t, Scalar.IsNumber (m.utility a t) := fun a t =>
    OrderedScalar.isNumber_of_isFinite (m.isFinite_utility a t)
  constructor
  · intro hne a
    obtain ⟨first, chosen, hfirst, hpicks⟩ :=
      exists_picksAlike m.targets_nodup (fun t _ => hnumber a t) hne
    refine ⟨first, chosen, ?_, hpicks, fun others halone hfree => ?_⟩
    · rw [favourite?, topTargets, hfirst, List.head?_cons]
    · exact Outlook.bestResponse_of_free halone hfree hpicks.earliest
  · intro hne t ht
    obtain ⟨first, chosen, hfirst, hpicks⟩ :=
      exists_picksAlike m.agents_nodup (fun a _ => hnumber a t) hne
    refine ⟨first, chosen, hfirst, hpicks, ?_⟩
    have hlinked : (FactorGraph.build m none).neighboursOf t = m.agents := by
      rw [FactorGraph.neighboursOf_build]
      exact List.filter_eq_self.2 fun a _ => decide_eq_true ht
    have howner : EarliestBest (m.utility · t) ((FactorGraph.build m none).neighboursOf t)
        ((FactorGraph.build m none).owner? t) := FactorGraph.owner?_best t
    rw [hlinked] at howner
    exact howner.unique hpicks.earliest

/-- Two agents and three targets, with zeros of either sign. -/
def signs : UtilityMatrix Float where
  agents := [.ofNat 11, .ofNat 12]
  targets := [.ofNat 20, .ofNat 30, .ofNat 50]
  locations := .empty
  values := #[-0.0, 0, -0.0, 3, 3, 0]
  needs := #[0, 0, 0]
  penalty := 0
  agents_nodup := by decide
  targets_nodup := by decide
  values_size := rfl
  needs_size := rfl
  values_finite := by decide +kernel
  penalty_finite := by decide +kernel
  penalty_nonneg := by decide +kernel

/-- The second agent ranks the first of its two best targets first and would go there, and is itself
ranked first by that target and hosts it. -/
theorem signs_chosen_alike :
    signs.targets ≠ [] ∧ signs.agents ≠ [] ∧ EntityId.ofNat 20 ∈ signs.targets ∧
      PicksAlike (signs.utility (.ofNat 12)) signs.targets (.ofNat 20) (.ofNat 20) ∧
      (⟨.ofNat 12, signs, .empty⟩ : Outlook Float).bestResponse none = some (.ofNat 20) ∧
      PicksAlike (signs.utility · (.ofNat 20)) signs.agents (.ofNat 12) (.ofNat 12) ∧
      (FactorGraph.build signs none).owner? (.ofNat 20) = some (.ofNat 12) := by
  have hne : signs.targets ≠ [] := by decide
  have hne' : signs.agents ≠ [] := by decide
  have hin : EntityId.ofNat 20 ∈ signs.targets := by decide
  obtain ⟨htargets, hagents⟩ := rankings_choose_like_scans signs
  obtain ⟨first, chosen, hfirst, halike, hresponse⟩ := htargets hne (.ofNat 12)
  obtain ⟨first', host, hfirst', halike', howner⟩ := hagents hne' (.ofNat 20) hin
  have hranked : signs.favourite? (.ofNat 12) = some (.ofNat 20) := by decide +kernel
  have hranked' : signs.topAgents (.ofNat 20) 1 = [.ofNat 12] := by decide +kernel
  have hchosen : (⟨.ofNat 12, signs, .empty⟩ : Outlook Float).bestResponse none =
      some (.ofNat 20) := by
    decide +kernel
  have hhost : (FactorGraph.build signs none).owner? (.ofNat 20) = some (.ofNat 12) := by
    decide +kernel
  obtain rfl := Option.some.inj (hfirst.symm.trans hranked)
  obtain rfl := List.singleton_inj.1 (hfirst'.symm.trans hranked')
  obtain rfl := Option.some.inj ((hresponse .empty (fun _ => rfl) rfl).symm.trans hchosen)
  obtain rfl := Option.some.inj (howner.symm.trans hhost)
  exact ⟨hne, hne', hin, halike, hchosen, halike', hhost⟩

/-- All targets are worth a zero to the first agent. It ranks the one without a sign first, and goes
to the earliest one. The last target is worth a zero to both agents; the second one ranks first and
the first one hosts it. -/
theorem signed_zeros_part_them :
    signs.penalty = 0 ∧ signs.favourite? (.ofNat 11) = some (.ofNat 30) ∧
      EarliestBest (signs.utility (.ofNat 11)) signs.targets (some (.ofNat 20)) ∧
      (⟨.ofNat 11, signs, .empty⟩ : Outlook Float).bestResponse none = some (.ofNat 20) ∧
      signs.topAgents (.ofNat 50) 1 = [.ofNat 12] ∧
      (FactorGraph.build signs none).owner? (.ofNat 50) = some (.ofNat 11) := by
  have hbest : EarliestBest (signs.utility (.ofNat 11)) signs.targets (some (.ofNat 20)) :=
    ⟨[], [.ofNat 30, .ofNat 50], rfl, by simp, by decide +kernel⟩
  have hfavourite : signs.favourite? (.ofNat 11) = some (.ofNat 30) := by decide +kernel
  have hresponse : (⟨.ofNat 11, signs, .empty⟩ : Outlook Float).bestResponse none =
      some (.ofNat 20) := by
    decide +kernel
  have htop : signs.topAgents (.ofNat 50) 1 = [.ofNat 12] := by decide +kernel
  have howner : (FactorGraph.build signs none).owner? (.ofNat 50) = some (.ofNat 11) := by
    decide +kernel
  exact ⟨rfl, hfavourite, hbest, hresponse, htop, howner⟩

end UtilityMatrix

end Dispatch
