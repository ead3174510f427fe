import Mathlib
import Dispatch.Proofs.Optimality
/-!
# How far the values of Max-Sum go

`Confines` gives each edge its interval: what a target says lies between minus the penalty and
zero, and what an agent says to a candidate lies within the penalty above the candidate's lead over
the best other one. A node that hears values from their intervals answers within its own
(`reply_mem`), whatever the agents say, and mixing does not lead out of an interval. So no value of
a run ever leaves its interval, whatever the cycles of the graph (`sent_values_stay_confined`).
-/

namespace Dispatch

/-! ## Loads -/

namespace UtilityMatrix

/-- One more agent costs a target nothing or the penalty. -/
theorem congestion_succ (m : UtilityMatrix Rat) (t : EntityId) (k : Nat) :
    m.congestion t k - m.penalty ≤ m.congestion t (k + 1) ∧
      m.congestion t (k + 1) ≤ m.congestion t k := by
  have hpenalty := m.zero_le_penalty
  rw [congestion_eq, congestion_eq]
  rcases Nat.lt_or_ge k (m.need t) with hlt | hge
  · rw [Nat.sub_eq_zero_of_le hlt.le, Nat.sub_eq_zero_of_le hlt, Nat.cast_zero, mul_zero]
    exact ⟨by linarith, le_rfl⟩
  · rw [Nat.sub_add_comm hge]
    push_cast
    constructor <;> linarith

end UtilityMatrix

namespace MaxSum

/-! ## What a node can answer -/

/-- Every set of other agents is worth at most the penalty less with one more agent on board, and
never more. -/
theorem gainOf_loadGains_mem {ids : List EntityId} (hids : ids.Nodup) (q : EntityId → Rat)
    {potential : Nat → Rat} {penalty : Rat}
    (hpotential : ∀ k, potential k - penalty ≤ potential (k + 1) ∧
      potential (k + 1) ≤ potential k) {a : EntityId} (ha : a ∈ ids) :
    gainOf ids (loadGains (ids.map q) potential) a ∈ Set.Icc (-penalty) 0 := by
  obtain ⟨inside, outside, hinside, houtside, hgain⟩ := gainOf_loadGains hids (q := q) potential ha
  have hshift : ∀ crew, worthOf potential q crew - penalty ≤
      worthOf (fun k => potential (k + 1)) q crew ∧
        worthOf (fun k => potential (k + 1)) q crew ≤ worthOf potential q crew := by
    intro crew
    obtain ⟨hlow, hhigh⟩ := hpotential crew.card
    rw [worthOf, worthOf]
    exact ⟨by linarith, by linarith⟩
  obtain ⟨crew, hcrew, hin⟩ := hinside.1
  obtain ⟨other, hother, hout⟩ := houtside.1
  have hlow : worthOf (fun k => potential (k + 1)) q other ≤ inside :=
    hinside.2 ⟨other, hother, rfl⟩
  have hhigh : worthOf potential q crew ≤ outside := houtside.2 ⟨crew, hcrew, rfl⟩
  rw [hgain]
  exact ⟨by linarith [(hshift other).1], by linarith [(hshift crew).2]⟩

/-- The best of the other candidates promises its utility, or up to the penalty less. -/
theorem gainOf_choiceGains_mem {ids : List EntityId} (hids : ids.Nodup) {u r : EntityId → Rat}
    {penalty : Rat} (hr : ∀ s ∈ ids, r s ∈ Set.Icc (-penalty) 0) {t : EntityId} (ht : t ∈ ids)
    {best : Rat} (hbest : IsGreatest {w | ∃ s ∈ ids, s ≠ t ∧ w = u s} best) :
    gainOf ids (choiceGains (ids.map u) (ids.map r)) t ∈
      Set.Icc (u t - best) (u t - best + penalty) := by
  obtain ⟨⟨s, hs, hne, rfl⟩, hmax⟩ := hbest
  have htwo : 2 ≤ ids.length := by
    have hsub : [s, t].Subperm ids :=
      List.subperm_of_subset (by simp [hne]) (by simp [hs, ht])
    exact hsub.length_le
  obtain ⟨promised, ⟨⟨s', hs', hne', rfl⟩, hpromised⟩, hgain⟩ :=
    gainOf_choiceGains hids htwo (u := u) (r := r) ht
  have hlow := hpromised ⟨s, hs, hne, rfl⟩
  have hhigh := hmax ⟨s', hs', hne', rfl⟩
  rw [hgain]
  exact ⟨by linarith [(hr s' hs').2], by linarith [(hr s hs).1]⟩

/-- An only candidate is compared with nothing. -/
theorem gainOf_choiceGains_singleton (u r : EntityId → Rat) (t : EntityId) :
    gainOf [t] (choiceGains ([t].map u) ([t].map r)) t = u t := by
  rw [gainOf_choiceGains_only, Scalar.zero_rat, sub_zero]

/-! ## Intervals -/

/-- The lowest and the highest value that an edge can carry. -/
inductive Confines (m : UtilityMatrix Rat) (g : FactorGraph) : Edge → Rat → Rat → Prop
  /-- A target says that an agent more is no gain and costs no more than the penalty. -/
  | toAgent (t a : EntityId) : Confines m g (.toAgent t a) (-m.penalty) 0
  /-- An agent compares a candidate with the best of the others. -/
  | toTarget {a t : EntityId} {best : Rat}
      (h : IsGreatest {w | ∃ s ∈ g.candidatesOf a, s ≠ t ∧ w = m.utility a s} best) :
      Confines m g (.toTarget a t) (m.utility a t - best) (m.utility a t - best + m.penalty)
  /-- If there are no others, it says what the candidate is worth. -/
  | only {a t : EntityId} (h : g.candidatesOf a = [t]) :
      Confines m g (.toTarget a t) (m.utility a t) (m.utility a t)

variable {settings : Settings Rat} {m : UtilityMatrix Rat} {limit : Option Nat}

theorem exists_confines {e : Edge} (he : e ∈ (FactorGraph.build m limit).edges) :
    ∃ lo hi, Confines m (.build m limit) e lo hi := by
  obtain ⟨a, t, ht, rfl | rfl⟩ := FactorGraph.mem_edges.1 he
  · let candidates := (FactorGraph.build m limit).candidatesOf a
    by_cases hothers : (candidates.toFinset.erase t).Nonempty
    · obtain ⟨s, hs, hmax⟩ := Finset.exists_max_image _ (m.utility a) hothers
      obtain ⟨hne, hs⟩ := Finset.mem_erase.1 hs
      refine ⟨_, _, .toTarget ⟨⟨s, List.mem_toFinset.1 hs, hne, rfl⟩, ?_⟩⟩
      rintro _ ⟨s', hs', hne', rfl⟩
      exact hmax s' (Finset.mem_erase.2 ⟨hne', List.mem_toFinset.2 hs'⟩)
    · -- nothing is left beside the candidate itself
      have hperm : candidates.Perm [t] := by
        refine (List.perm_ext_iff_of_nodup (FactorGraph.nodup_candidatesOf a)
          (List.nodup_singleton t)).2 fun s => ?_
        rw [List.mem_singleton]
        refine ⟨fun hs => ?_, fun hs => hs ▸ ht⟩
        by_contra hne
        exact hothers ⟨s, Finset.mem_erase.2 ⟨hne, List.mem_toFinset.2 hs⟩⟩
      exact ⟨_, _, .only (List.perm_singleton.1 hperm)⟩
  · exact ⟨_, _, .toAgent t a⟩

/-- A node answers within the interval of an edge if the targets have spoken within theirs. -/
theorem reply_mem {v : Edge → Rat}
    (hv : ∀ a, ∀ t ∈ (FactorGraph.build m limit).candidatesOf a,
      v (.toAgent t a) ∈ Set.Icc (-m.penalty) 0) {e : Edge}
    (he : e ∈ (FactorGraph.build m limit).edges) {lo hi : Rat}
    (h : Confines m (.build m limit) e lo hi) :
    reply m (.build m limit) v e ∈ Set.Icc lo hi := by
  obtain ⟨b, s, hs, hedge⟩ := FactorGraph.mem_edges.1 he
  cases h with
  | toAgent t a =>
    obtain ⟨rfl, rfl⟩ := Edge.toAgent_inj.1 (hedge.resolve_left Edge.toAgent_ne_toTarget)
    exact gainOf_loadGains_mem (FactorGraph.nodup_neighboursOf t) (fun b => v (.toTarget b t))
      (m.congestion_succ t) (FactorGraph.mem_neighboursOf.2 hs)
  | toTarget hbest =>
    obtain ⟨rfl, rfl⟩ := Edge.toTarget_inj.1 (hedge.resolve_right Edge.toTarget_ne_toAgent)
    exact gainOf_choiceGains_mem (FactorGraph.nodup_candidatesOf _) (hv _) hs hbest
  | @only a t honly =>
    have heq := gainOf_choiceGains_singleton (m.utility a) (fun s => v (.toAgent s a)) t
    show gainOf _ (choiceGains _ _) t ∈ _
    rw [honly, heq]
    exact Set.left_mem_Icc.2 le_rfl

/-! ## Rounds -/

theorem mix_mem {damping lo hi x y : Rat} (hnonneg : 0 ≤ damping) (hlt : damping < 1)
    (hx : x ∈ Set.Icc lo hi) (hy : y ∈ Set.Icc lo hi) :
    damping * x + (Scalar.one - damping) * y ∈ Set.Icc lo hi := by
  have hconvex : Convex Rat (Set.Icc lo hi) := convex_Icc lo hi
  rw [Scalar.one_rat]
  exact hconvex hx hy hnonneg (sub_nonneg.2 hlt.le) (by ring)

/-- No value of the recurrence leaves the interval of its edge. -/
theorem values_mem (hnonneg : 0 ≤ settings.damping) (hlt : settings.damping < 1) (n : Nat)
    {e : Edge} (he : e ∈ (FactorGraph.build m settings.maxTargets).edges) {lo hi : Rat}
    (h : Confines m (.build m settings.maxTargets) e lo hi) :
    values settings m (n + 1) e ∈ Set.Icc lo hi := by
  induction n generalizing e lo hi with
  | zero =>
    -- in the first round all hear zero, which a target may say
    have hfirst : values settings m 1 e =
        reply m (.build m settings.maxTargets) (values settings m 0) e := by
      simp only [values, lt_irrefl, false_and, if_false]
    rw [hfirst]
    refine reply_mem (fun a t _ => ?_) he h
    show Scalar.zero ∈ _
    rw [Scalar.zero_rat]
    exact ⟨neg_nonpos.2 m.zero_le_penalty, le_rfl⟩
  | succ n ih =>
    have hreply := reply_mem (v := values settings m (n + 1)) (fun a t ht =>
      ih (FactorGraph.toAgent_mem_edges.2 ht) (.toAgent t a)) he h
    rw [values]
    split
    · exact mix_mem hnonneg hlt (ih he h) hreply
    · exact hreply

section Runs
open Solver

/-- With damping from zero to below one, there is an interval for every edge that no value leaves in
any round of any run. No round fails, and what the agents put in their outboxes in it, and what they
send in the next one, are values of the intervals of their edges. -/
theorem sent_values_stay_confined (settings : Settings Rat) (m : UtilityMatrix Rat)
    (solver : Solver.Settings Rat) (surroundings : Surroundings Rat)
    (hnonneg : 0 ≤ settings.damping) (hlt : settings.damping < 1) :
    let g := FactorGraph.build m settings.maxTargets
    ∃ lo hi : Edge → Rat, (∀ e ∈ g.edges, Confines m g e (lo e) (hi e)) ∧
      ∀ n,
        (∀ v ∈ sent (after solver surroundings (agents settings m) n),
          v.edge ∈ g.edges ∧ v.value ∈ Set.Icc (lo v.edge) (hi v.edge)) ∧
        ∃ messages flags,
          (playRound solver surroundings (n + 1)
            (after solver surroundings (agents settings m) n)).answer = .ok (messages, flags) ∧
          ∀ msg ∈ messages.flatten, ∃ e ∈ g.edges, ∃ v ∈ Set.Icc (lo e) (hi e),
            msg.payload = .factor e v := by
  intro g
  have hconfines : ∀ e, ∃ lo hi, e ∈ g.edges → Confines m g e lo hi := by
    intro e
    by_cases he : e ∈ g.edges
    · obtain ⟨lo, hi, h⟩ := exists_confines he
      exact ⟨lo, hi, fun _ => h⟩
    · exact ⟨0, 0, fun h => absurd h he⟩
  choose lo hi hconfines using hconfines
  have hvalues : ∀ n, n ≠ 0 → ∀ e ∈ g.edges, values settings m n e ∈ Set.Icc (lo e) (hi e) := by
    intro n hn e he
    obtain ⟨k, rfl⟩ := Nat.exists_eq_succ_of_ne_zero hn
    exact values_mem hnonneg hlt k he (hconfines e he)
  refine ⟨lo, hi, hconfines, fun n => ⟨fun v hv => ?_, ?_⟩⟩
  · obtain ⟨hn, he, hvalue⟩ :=
      (population_exact settings m solver surroundings n).mem_values hv
    exact ⟨he, hvalue ▸ hvalues n hn v.edge he⟩
  · have hpop := population_exact settings m solver surroundings n
    obtain ⟨posts, flags, hlock⟩ := hpop.exists_lockstep (rounds_succeed (fun _ => rfl) n)
    refine ⟨_, flags, hlock.answer_eq, fun msg hmsg => ?_⟩
    rw [← List.flatMap_def, hpop.mem_posts] at hmsg
    obtain ⟨hn, e, he, -, -, hpayload⟩ := hmsg
    exact ⟨e, he, _, hvalues n hn e he, hpayload⟩

end Runs

/-- What the crossed agents say to a target lies within the penalty of four above what they like it
more than the other one; half of it is damped. -/
theorem crossed_values_stay_confined :
    (0 : Rat) ≤ 1 / 2 ∧ (1 / 2 : Rat) < 1 ∧
    let g := FactorGraph.build crossed none
    ∃ lo hi : Edge → Rat, (∀ e ∈ g.edges, Confines crossed g e (lo e) (hi e)) ∧
      ∀ n,
        (∀ v ∈ sent (Solver.after Solver.Settings.default .still (agents ⟨1 / 2, none⟩ crossed) n),
          v.edge ∈ g.edges ∧ v.value ∈ Set.Icc (lo v.edge) (hi v.edge)) ∧
        ∃ messages flags,
          (Solver.playRound Solver.Settings.default .still (n + 1)
            (Solver.after Solver.Settings.default .still (agents ⟨1 / 2, none⟩ crossed) n)).answer =
              .ok (messages, flags) ∧
          ∀ msg ∈ messages.flatten, ∃ e ∈ g.edges, ∃ v ∈ Set.Icc (lo e) (hi e),
            msg.payload = .factor e v := by
  have hnonneg : (0 : Rat) ≤ 1 / 2 := by decide +kernel
  have hlt : (1 / 2 : Rat) < 1 := by decide +kernel
  exact ⟨hnonneg, hlt,
    sent_values_stay_confined ⟨1 / 2, none⟩ crossed Solver.Settings.default .still hnonneg hlt⟩

end MaxSum

end Dispatch
