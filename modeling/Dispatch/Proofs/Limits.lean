import Mathlib
import Dispatch.Proofs.Rankings
import Dispatch.Proofs.Reordering
import Dispatch.Proofs.Zeros
/-!
# Limits that exclude nothing

An agent that may consider as many targets as there are considers all of them, but ranks them by
utility where one without a limit keeps the order of the problem. Its factor graph has the same
links (`FactorGraph.SameScope`), the same values travel along them but for the signs of zeros
(`MaxSum.values_alike`), and rounds cost the same. What the order decides is which of several
candidates of highest belief an agent takes: the one of highest utility if they are ranked, the one
listed first if they are not. `Solver.idle_limit_changes_nothing` says that the two runs are the
same as long as these are the same candidate; where they are not, the assignments can differ
(`Solver.rota_depends_on_idle_limit`).
-/

namespace Dispatch

variable {α : Type} [Scalar α]

/-! ## Choices of a ranking -/

namespace MaxSum.EarliestBest

/-- The earliest best candidate is also the earliest in a ranking, if none of those as good as it
ranks above it. -/
theorem ranked [OrderedScalar α] [SortingScalar α] {score : EntityId → α} {ids : List EntityId}
    {choice : Option EntityId} (h : EarliestBest score ids choice) (hids : ids.Nodup)
    (worth : EntityId → α)
    (hties : ∀ t ∈ choice, ∀ s ∈ ids, ¬ score s < score t →
      Scalar.totalLE (worth s) (worth t) = true) :
    EarliestBest score (UtilityMatrix.ranked worth ids) choice := by
  have hperm := UtilityMatrix.ranked_perm worth ids
  cases choice with
  | none =>
    obtain rfl : ids = [] := h
    rfl
  | some t =>
    have hmax := h.not_lt
    obtain ⟨before', after', heq⟩ := List.append_of_mem (hperm.mem_iff.2 (h.mem t rfl))
    obtain ⟨before, after, rfl, hbefore, -⟩ := h
    refine ⟨before', after', heq, fun s hs => ?_, fun s hs => hmax s (hperm.mem_iff.1 ?_)⟩
    · by_contra hnlt
      have hin : s ∈ before ++ t :: after := by
        rw [← hperm.mem_iff, heq]
        exact List.mem_append_left _ hs
      have hranked := UtilityMatrix.pairwise_ranked worth hids
      rw [heq, List.pairwise_append] at hranked
      rcases hranked.2.2 s hs t List.mem_cons_self with habove | ⟨-, hearlier⟩
      · cases (hties t rfl s hin hnlt).symm.trans habove
      · -- it ranks where the best one does, so it has been listed before it as well
        exact hnlt (hbefore s (mem_of_idxOf_lt hearlier))
    · rw [heq]
      exact List.mem_append_right _ (List.mem_cons_of_mem _ hs)

end MaxSum.EarliestBest

/-! ## Graphs of one scope -/

namespace FactorGraph

/-- Under both limits every agent considers the same targets, in whatever order. -/
def SameScope (m : UtilityMatrix α) (p q : Option Nat) : Prop :=
  ∀ a, (considered m p a).Perm (considered m q a)

/-- A limit that lets through as many targets as there are leaves their ranking. -/
theorem considered_of_length_le {m : UtilityMatrix α} {k : Nat} (h : m.targets.length ≤ k)
    (a : EntityId) : considered m (some k) a = UtilityMatrix.ranked (m.utility a) m.targets :=
  List.take_of_length_le (((UtilityMatrix.ranked_perm (m.utility a) _).length_eq).trans_le h)

theorem sameScope_of_length_le {m : UtilityMatrix α} {k : Nat} (h : m.targets.length ≤ k) :
    SameScope m none (some k) := by
  intro a
  rw [considered_of_length_le h]
  exact (UtilityMatrix.ranked_perm _ _).symm

namespace SameScope
variable {m : UtilityMatrix α} {p q : Option Nat} (h : SameScope m p q)
include h

theorem symm : SameScope m q p := fun a => (h a).symm

theorem candidatesOf_perm (a : EntityId) :
    ((build m q).candidatesOf a).Perm ((build m p).candidatesOf a) := by
  by_cases ha : a ∈ m.agents
  · rw [candidatesOf_build ha, candidatesOf_build ha]
    exact (h a).symm
  · rw [candidatesOf_of_not_mem ha, candidatesOf_of_not_mem ha]

theorem functions_eq : (build m q).functions = (build m p).functions := by
  have hnode : functionNode? m q = functionNode? m p := by
    funext t
    have hlinked : (m.agents.filter fun a => t ∈ considered m q a) =
        m.agents.filter fun a => t ∈ considered m p a :=
      List.filter_congr fun a _ => decide_eq_decide.2 (h a).mem_iff.symm
    rw [functionNode?, functionNode?, hlinked]
  rw [build, build, hnode]

theorem neighboursOf_eq (t : EntityId) :
    (build m q).neighboursOf t = (build m p).neighboursOf t := by
  rw [neighboursOf, neighboursOf, functionOf?, functionOf?, h.functions_eq]

theorem mem_edges_iff {e : Edge} : e ∈ (build m q).edges ↔ e ∈ (build m p).edges := by
  rw [mem_edges, mem_edges]
  simp only [(h.candidatesOf_perm _).mem_iff]

theorem linkCount_eq : (build m q).linkCount = (build m p).linkCount := by
  have hedges : (build m q).edges.Perm (build m p).edges :=
    (List.perm_ext_iff_of_nodup nodup_edges nodup_edges).2 fun e => h.mem_edges_iff
  have hlength := hedges.length_eq
  rw [length_edges, length_edges] at hlength
  omega

theorem workload_eq : (build m q).workload = (build m p).workload := by
  funext a
  rw [workload, workload, (h.candidatesOf_perm a).length_eq, hostedBy, hostedBy, h.functions_eq]
  simp only [h.neighboursOf_eq]

end SameScope

end FactorGraph

namespace MaxSum
open FactorGraph
variable [SignlessScalar α] {m : UtilityMatrix α} {p q : Option Nat}

theorem differ_eq_of_alike {x x' y y' : α} (hx : Scalar.Alike x x') (hy : Scalar.Alike y y') :
    Outbox.differ x' y' = Outbox.differ x y :=
  decide_eq_decide.2 (SignlessScalar.lt_iff_of_alike rfl
    (SignlessScalar.abs_alike (SignlessScalar.sub_alike hx hy))).symm

/-- The nodes of graphs of one scope make the same of values that are alike. -/
theorem reply_alike (h : SameScope m p q) {v v' : Edge → α} (hv : ∀ e, Scalar.Alike (v e) (v' e))
    (hfinite : ∀ e ∈ (build m p).edges, Scalar.isFinite (v e) = true) (e : Edge) :
    Scalar.Alike (reply m (build m p) v e) (reply m (build m q) v' e) := by
  obtain ⟨a | t, b | s⟩ := e
  · rfl
  · have hedge : ∀ t ∈ (build m p).candidatesOf a, Scalar.isFinite (v (.toAgent t a)) = true :=
      fun t ht => hfinite _ (toAgent_mem_edges.2 ht)
    refine gainOf_choiceGains_alike (nodup_candidatesOf a) (h.candidatesOf_perm a)
      (fun t _ => hv (.toAgent t a)) (fun t ht => ?_) (fun t ht => ?_) s
    · exact OrderedScalar.isNumber_add (m.isFinite_utility a t) (hedge t ht)
    · refine OrderedScalar.isNumber_add (m.isFinite_utility a t) ?_
      rw [← SignlessScalar.isFinite_eq_of_alike (hv (.toAgent t a))]
      exact hedge t ht
  · show Scalar.Alike (gainOf _ (loadGains _ _) b) (gainOf _ (loadGains _ _) b)
    rw [h.neighboursOf_eq]
    exact gainOf_loadGains_alike (nodup_neighboursOf t) (fun a _ => hv (.toTarget a t)) _ b
  · rfl

/-- So they stay alike from round to round, as long as they are finite. -/
theorem values_alike (h : SameScope m p q) {damping : α} {n : Nat}
    (halike : ∀ e, Scalar.Alike (values ⟨damping, p⟩ m n e) (values ⟨damping, q⟩ m n e))
    (hfinite : ∀ e ∈ (build m p).edges,
      Scalar.isFinite (values ⟨damping, p⟩ m n e) = true) (e : Edge) :
    Scalar.Alike (values ⟨damping, p⟩ m (n + 1) e) (values ⟨damping, q⟩ m (n + 1) e) := by
  have hreply := reply_alike h halike hfinite e
  rw [values_succ, values_succ]
  split
  · exact SignlessScalar.add_alike (SignlessScalar.mul_alike rfl (halike e))
      (SignlessScalar.mul_alike rfl hreply)
  · exact hreply

/-! ## Rounds -/

/-- No candidate that the agent finds as good as its target is of higher utility. -/
def Agent.TakesMostUseful (a : Agent α) : Prop :=
  ∀ t ∈ a.target, ∀ s ∈ a.candidates, ¬ a.belief s < a.belief t →
    Scalar.totalLE (a.matrix.utility a.id s) (a.matrix.utility a.id t) = true

omit [SignlessScalar α] in
instance (a : Agent α) : Decidable a.TakesMostUseful :=
  inferInstanceAs (Decidable (∀ t ∈ a.target, ∀ s ∈ a.candidates, ¬ a.belief s < a.belief t →
    Scalar.totalLE (a.matrix.utility a.id s) (a.matrix.utility a.id t) = true))

/-- Two populations under limits of one scope, after the same number of rounds: what the first has
said the second has said as well, and both hold the same targets. -/
structure Abreast (damping : α) (m : UtilityMatrix α) (p q : Option Nat) (n : Nat)
    (agents agents' : List (Agent α)) : Prop where
  population : Population ⟨damping, p⟩ m n agents
  population' : Population ⟨damping, q⟩ m n agents'
  alike : ∀ e, Scalar.Alike (values ⟨damping, p⟩ m n e) (values ⟨damping, q⟩ m n e)
  held_eq : Solver.held agents' = Solver.held agents

namespace Abreast
variable {damping : α} {n : Nat} {agents agents' : List (Agent α)}

omit [SignlessScalar α] in
theorem start (damping : α) (m : UtilityMatrix α) (p q : Option Nat) :
    Abreast damping m p q 0 (MaxSum.agents ⟨damping, p⟩ m) (MaxSum.agents ⟨damping, q⟩ m) := by
  refine ⟨.start _ m, .start _ m, fun _ => rfl, ?_⟩
  simp only [Solver.held, MaxSum.agents, List.filterMap_map]
  rfl

omit [SignlessScalar α] in
theorem symm (h : Abreast damping m p q n agents agents') :
    Abreast damping m q p n agents' agents :=
  ⟨h.population', h.population, fun e => (h.alike e).symm, h.held_eq.symm⟩

variable {solver solver' : Solver.Settings α} {surroundings others : Surroundings α} {round : Nat}

/-- A round that one of the two can play, so can the other. -/
theorem plays (h : Abreast damping m p q n agents agents') (hscope : SameScope m p q)
    (hok : ∃ outcome, (Solver.playRound solver surroundings round agents).answer = .ok outcome) :
    ∃ outcome, (Solver.playRound solver' others round agents').answer = .ok outcome := by
  obtain ⟨posts, flags, hlock⟩ := h.population.exists_lockstep hok
  obtain ⟨hnext, -, -⟩ := h.population.next hlock
  refine h.population'.succeeds (fun e he => ?_) solver' others round
  rw [← SignlessScalar.isFinite_eq_of_alike (values_alike hscope h.alike h.population.finite e)]
  exact hnext.finite e (hscope.mem_edges_iff.1 he)

variable {limit : Nat} {outcome outcome' : Round.Outcome α} {last last' : List (Agent α)}

/-- An agent takes the same target under an idle limit, if that is of highest utility among those
it finds best. -/
theorem target_eq (hlimit : m.targets.length ≤ limit)
    (halike : ∀ e, Scalar.Alike (values ⟨damping, none⟩ m n e)
      (values ⟨damping, some limit⟩ m n e))
    {a b : Agent α} (ha : a.Tracks ⟨damping, none⟩ m (n + 1)) (hmem : a.id ∈ m.agents)
    (hid : b.id = a.id) (hbest : EarliestBest
      (fun t => m.utility a.id t + values ⟨damping, none⟩ m n (.toAgent t a.id))
      ((build m none).candidatesOf a.id) a.target)
    (hbest' : EarliestBest
      (fun t => m.utility b.id t + values ⟨damping, some limit⟩ m n (.toAgent t b.id))
      ((build m (some limit)).candidatesOf b.id) b.target)
    (hties : a.TakesMostUseful) : b.target = a.target := by
  rw [hid, candidatesOf_build hmem, considered_of_length_le hlimit] at hbest'
  have hcandidates : a.candidates = m.targets := by
    rw [Agent.candidates, ha.graph_eq, candidatesOf_build hmem]
    rfl
  rw [candidatesOf_build hmem] at hbest
  have hbelief : ∀ s ∈ m.targets,
      a.belief s = m.utility a.id s + values ⟨damping, none⟩ m n (.toAgent s a.id) := fun s hs =>
    ha.belief_eq ha.hears (hcandidates ▸ hs)
  have hranked := hbest.ranked m.targets_nodup (m.utility a.id) fun t ht s hs hnlt => by
    rw [← hbelief s hs, ← hbelief t (hbest.mem t ht)] at hnlt
    have hle := hties t ht s (hcandidates ▸ hs) hnlt
    rwa [ha.matrix_eq] at hle
  exact hbest'.unique (hranked.alike fun t _ =>
    SignlessScalar.add_alike rfl (halike (.toAgent t a.id)))

/-- If everybody takes such a target in a round of the first population, the round comes to the same
in the second, whose limit is idle. -/
theorem next (h : Abreast damping m none (some limit) n agents agents')
    (hlimit : m.targets.length ≤ limit)
    (hplayed : (Solver.playRound solver surroundings round agents).EndsWith outcome last)
    (hplayed' : (Solver.playRound solver' others round agents').EndsWith outcome' last')
    (hties : ∀ a ∈ last, a.TakesMostUseful) :
    Abreast damping m none (some limit) (n + 1) last last' ∧
      Solver.summarise m agents' last' outcome' = Solver.summarise m agents last outcome := by
  have hscope := sameScope_of_length_le hlimit
  obtain ⟨hanswer, rfl⟩ := hplayed
  obtain ⟨hanswer', rfl⟩ := hplayed'
  obtain ⟨posts, flags, hlock⟩ := h.population.exists_lockstep ⟨outcome, hanswer⟩
  obtain ⟨posts', flags', hlock'⟩ := h.population'.exists_lockstep ⟨outcome', hanswer'⟩
  obtain ⟨hnext, hbest, -⟩ := h.population.next hlock
  obtain ⟨hnext', hbest', -⟩ := h.population'.next hlock'
  have hids := hnext.ids_eq.trans hnext'.ids_eq.symm
  have halike := values_alike hscope h.alike h.population.finite
  have hheld : Solver.held (Solver.playRound solver' others round agents').agents =
      Solver.held (Solver.playRound solver surroundings round agents).agents := by
    refine Assignment.mirrors_refl_iff.1 (Solver.held_mirrors hnext.nodup_ids ?_
      fun a ha b hb hid => ?_)
    · exact .of_eq (hids.symm.trans (List.map_id _).symm)
    · rw [Equiv.coe_refl, Option.map_id, id_eq]
      exact target_eq hlimit h.alike (hnext.tracks a ha) (hnext.mem_agents.2 ⟨a, ha, rfl⟩) hid
        (hbest a ha) (hbest' b hb) (hties a ha)
  -- an agent goes on if it changes its target or one of its values, and alike values change alike
  have hquiet : true ∉ flags' ↔ true ∉ flags := by
    rw [h.population'.quiet_iff_held hlock', h.population.quiet_iff_held hlock, hheld, h.held_eq]
    simp only [hscope.mem_edges_iff, differ_eq_of_alike (h.alike _) (halike _)]
  have hcosts := h.population.costs hlock hanswer
  have hcosts' := h.population'.costs hlock' hanswer'
  dsimp only at hcosts'
  rw [hscope.linkCount_eq, hscope.workload_eq] at hcosts'
  refine ⟨⟨hnext, hnext', halike, hheld⟩, ?_⟩
  obtain rfl := Except.ok.inj (hlock.answer_eq.symm.trans hanswer)
  obtain rfl := Except.ok.inj (hlock'.answer_eq.symm.trans hanswer')
  refine RoundRecord.mk.injEq .. ▸ ⟨hheld, congrArg m.totalUtility hheld,
    hcosts'.messages_eq.trans hcosts.messages_eq.symm, hcosts'.bytes_eq.trans hcosts.bytes_eq.symm,
    hcosts'.checks_eq.trans hcosts.checks_eq.symm, ?_⟩
  rw [Bool.eq_iff_iff, List.any_eq_true, List.any_eq_true]
  simpa using not_iff_not.1 hquiet

end Abreast

end MaxSum

/-! ## Courses -/

namespace Solver
open FactorGraph MaxSum

/-- A run gets to the round of this number, and the round does not fail. -/
def Reaches {σ : Type} [Agent α σ] (settings : Solver.Settings α) (surroundings : Surroundings α)
    (start : List σ) (n : Nat) : Prop :=
  1 ≤ n ∧ n ≤ settings.maxRounds ∧
    (∀ k, 1 ≤ k → k < n → AsksAgain settings surroundings start k) ∧
    ∃ outcome, (playRound settings surroundings n
      (after settings surroundings start (n - 1))).answer = .ok outcome

/-- Before the round of this number, the first population is that of a run without a limit, which
has not come to its end, and the second is abreast of it. -/
structure Alongside (settings : Solver.Settings α) (surroundings : Surroundings α) (damping : α)
    (m : UtilityMatrix α) (limit : Nat) (n : Nat) (agents agents' : List (MaxSum.Agent α)) :
    Prop where
  pos : 1 ≤ n
  agents_eq : agents = after settings surroundings (MaxSum.agents ⟨damping, none⟩ m) (n - 1)
  goes_on : ∀ k, 1 ≤ k → k < n →
    AsksAgain settings surroundings (MaxSum.agents ⟨damping, none⟩ m) k
  abreast : Abreast damping m none (some limit) (n - 1) agents agents'

theorem Alongside.start (settings : Solver.Settings α) (surroundings : Surroundings α)
    (damping : α) (m : UtilityMatrix α) (limit : Nat) :
    Alongside settings surroundings damping m limit 1 (MaxSum.agents ⟨damping, none⟩ m)
      (MaxSum.agents ⟨damping, some limit⟩ m) :=
  ⟨le_rfl, rfl, fun _ hpos hk => absurd hpos (Nat.not_le_of_lt hk), .start damping m _ _⟩

section Courses
variable [SignlessScalar α] {settings other : Solver.Settings α}
  {surroundings others : Surroundings α} {damping : α} {m : UtilityMatrix α} {limit : Nat}
  (hlimit : m.targets.length ≤ limit)
  (hties : ∀ n, Reaches settings surroundings (MaxSum.agents ⟨damping, none⟩ m) n →
    ∀ a ∈ after settings surroundings (MaxSum.agents ⟨damping, none⟩ m) n, a.TakesMostUseful)
include hlimit hties

/-- A round that both play comes to the same, and if the run goes on, so do both. -/
theorem Alongside.round {n : Nat} {agents agents' last last' : List (MaxSum.Agent α)}
    (h : Alongside settings surroundings damping m limit n agents agents')
    (hn : n ≤ settings.maxRounds) {outcome outcome' : Round.Outcome α}
    (hplayed : (playRound settings surroundings n agents).EndsWith outcome last)
    (hplayed' : (playRound other others n agents').EndsWith outcome' last') :
    (true ∈ outcome.2 → Alongside settings surroundings damping m limit (n + 1) last last') ∧
      summarise m agents' last' outcome' = summarise m agents last outcome := by
  obtain ⟨i, rfl⟩ : ∃ i, n = i + 1 := ⟨n - 1, (Nat.sub_add_cancel h.pos).symm⟩
  have hagents := h.agents_eq
  have habreast := h.abreast
  rw [Nat.add_sub_cancel] at hagents habreast
  subst hagents
  have hlast : last = after settings surroundings (MaxSum.agents ⟨damping, none⟩ m) (i + 1) :=
    hplayed.2.symm
  have hreaches : Reaches settings surroundings (MaxSum.agents ⟨damping, none⟩ m) (i + 1) :=
    ⟨h.pos, hn, h.goes_on, outcome, hplayed.1⟩
  obtain ⟨hnext, hrecord⟩ := habreast.next hlimit hplayed hplayed' (hlast ▸ hties _ hreaches)
  refine ⟨fun hagain => ⟨Nat.le_add_left 1 _, hlast, fun k hpos hk => ?_, hnext⟩, hrecord⟩
  rcases Nat.lt_succ_iff_lt_or_eq.1 hk with hk | rfl
  · exact h.goes_on k hpos hk
  · exact ⟨outcome, hplayed.1, hagain⟩

variable {records : List (RoundRecord α)} {termination : Termination}
  {last : List (MaxSum.Agent α)}

variable (other others) in
/-- The run with the limit follows the one without. -/
theorem Plays.limited
    (h : Plays settings surroundings m 1 (MaxSum.agents ⟨damping, none⟩ m) settings.maxRounds
      records termination last)
    (hbudget : settings.timeBudgetMs = none) (hother : other.timeBudgetMs = none) :
    ∃ last', Plays other others m 1 (MaxSum.agents ⟨damping, some limit⟩ m) settings.maxRounds
      records termination last' := by
  have hround : ∀ n agents agents' outcome next, n < settings.maxRounds + 1 →
      Alongside settings surroundings damping m limit n agents agents' →
      (playRound settings surroundings n agents).EndsWith outcome next →
        ∃ outcome' next', (playRound other others n agents').EndsWith outcome' next' ∧
          (true ∈ outcome.2 →
            Alongside settings surroundings damping m limit (n + 1) next next') ∧ True ∧
          summarise m agents next outcome = summarise m agents' next' outcome' := by
    intro n agents agents' outcome next hn halong hplayed
    obtain ⟨outcome', hanswer'⟩ :=
      halong.abreast.plays (sameScope_of_length_le hlimit) ⟨outcome, hplayed.1⟩
    obtain ⟨hnext, hrecord⟩ := halong.round hlimit hties (Nat.lt_succ_iff.1 hn) hplayed
      ⟨hanswer', rfl⟩
    exact ⟨outcome', _, ⟨hanswer', rfl⟩, hnext, trivial, hrecord.symm⟩
  obtain ⟨records', last', hplays, hrecords, -⟩ := h.follow_while (settings.maxRounds + 1)
    (E := fun _ _ => True) hround (fun _ _ _ _ => trivial) (fun _ _ hrecord => hrecord ▸ rfl)
    hbudget hother (Nat.add_comm 1 _).le (.start settings surroundings damping m limit)
  rw [List.forall₂_eq_eq_eq] at hrecords
  exact ⟨last', hrecords ▸ hplays⟩

/-- And the one without follows the one with it. -/
theorem Plays.unlimited
    (h : Plays other others m 1 (MaxSum.agents ⟨damping, some limit⟩ m) settings.maxRounds
      records termination last)
    (hbudget : settings.timeBudgetMs = none) (hother : other.timeBudgetMs = none) :
    ∃ last', Plays settings surroundings m 1 (MaxSum.agents ⟨damping, none⟩ m) settings.maxRounds
      records termination last' := by
  have hround : ∀ n agents' agents outcome' next', n < settings.maxRounds + 1 →
      Alongside settings surroundings damping m limit n agents agents' →
      (playRound other others n agents').EndsWith outcome' next' →
        ∃ outcome next, (playRound settings surroundings n agents).EndsWith outcome next ∧
          (true ∈ outcome'.2 →
            Alongside settings surroundings damping m limit (n + 1) next next') ∧ True ∧
          summarise m agents' next' outcome' = summarise m agents next outcome := by
    intro n agents' agents outcome' next' hn halong hplayed'
    obtain ⟨outcome, hanswer⟩ :=
      halong.abreast.symm.plays (sameScope_of_length_le hlimit).symm ⟨outcome', hplayed'.1⟩
    have hplayed : (playRound settings surroundings n agents).EndsWith outcome _ := ⟨hanswer, rfl⟩
    obtain ⟨hnext, hrecord⟩ := halong.round hlimit hties (Nat.lt_succ_iff.1 hn) hplayed hplayed'
    -- it is the other run that is known to go on, which the records of the round have in common
    refine ⟨outcome, _, hplayed, fun hagain => hnext ?_, trivial, hrecord⟩
    have hrestless : (summarise m agents' next' outcome').restless = true :=
      restless_summarise.2 hagain
    rw [hrecord] at hrestless
    exact restless_summarise.1 hrestless
  obtain ⟨records', last', hplays, hrecords, -⟩ := h.follow_while (settings.maxRounds + 1)
    (E := fun _ _ => True) hround (fun _ _ _ _ => trivial) (fun _ _ hrecord => hrecord ▸ rfl)
    hother hbudget (Nat.add_comm 1 _).le (.start settings surroundings damping m limit)
  rw [List.forall₂_eq_eq_eq] at hrecords
  exact ⟨last', hrecords ▸ hplays⟩

end Courses

/-! ## Solves -/

theorem toOption_map_eq {ε ε' β γ : Type} {x : Except ε β} {y : Except ε' β} {f : β → γ}
    (hto : ∀ b, x = .ok b → ∃ c, y = .ok c ∧ f c = f b)
    (hfrom : ∀ c, y = .ok c → ∃ b, x = .ok b) : y.toOption.map f = x.toOption.map f := by
  cases x with
  | ok b =>
    obtain ⟨c, rfl, heq⟩ := hto b rfl
    exact congrArg some heq
  | error e =>
    cases y with
    | ok c =>
      obtain ⟨b, hb⟩ := hfrom c rfl
      cases hb
    | error _ => rfl

/-- What a solve concludes does not depend on the agents that its rounds leave, nor on which clock
it has been timed with. -/
theorem untimed_conclusion (name : String) {settings other : Settings α}
    (hanytime : other.anytime = settings.anytime) (hrepair : other.repair = settings.repair)
    (surroundings others : Surroundings α) (m : UtilityMatrix α) (records : List (RoundRecord α))
    (termination : Termination) (last last' : List (Algorithm.Agent α)) :
    (conclusion name other others m records termination last').untimed =
      (conclusion name settings surroundings m records termination last).untimed := by
  have hzero : ∀ agents : List (Algorithm.Agent α),
      total (agents.map Agent.otherMessages) = 0 ∧ total (agents.map Agent.otherBytes) = 0 :=
    fun agents => ⟨(total_map_of_forall fun _ _ => rfl).trans (Nat.mul_zero _),
      (total_map_of_forall fun _ _ => rfl).trans (Nat.mul_zero _)⟩
  simp only [conclusion, Solution.untimed, Stats.untimed, stats, select, hanytime, hrepair, hzero]

/-- A limit of one or more is valid where none is. -/
theorem valid_limited_iff {settings : Settings α} {damping : α}
    (hmaxSum : settings.algorithm = .maxSum ⟨damping, none⟩) {limit : Nat} (hpos : 1 ≤ limit) :
    ({ settings with algorithm := .maxSum ⟨damping, some limit⟩ } : Settings α).Valid ↔
      settings.Valid := by
  have hne : some limit ≠ some 0 := fun h => absurd (Option.some.inj h) (by omega)
  constructor
  · rintro ⟨hrounds, hpenalty, hzero, hone, -⟩
    refine ⟨hrounds, hpenalty, ?_⟩
    rw [hmaxSum]
    exact ⟨hzero, hone, Option.some_ne_none _ |>.symm⟩
  · rintro ⟨hrounds, hpenalty, halgorithm⟩
    rw [hmaxSum] at halgorithm
    exact ⟨hrounds, hpenalty, halgorithm.zero_le, halgorithm.lt_one, hne⟩

/-- A limit that lets every agent consider all targets changes nothing about a solve that watches no
clock, as long as in every round it comes to without the limit each agent takes a target of highest
utility among those it finds best. -/
theorem idle_limit_changes_nothing [SignlessScalar α] {coins : Dsa.Coins α}
    {settings : Settings α} {damping : α} (hmaxSum : settings.algorithm = .maxSum ⟨damping, none⟩)
    (hbudget : settings.timeBudgetMs = none) {oracle : Oracle α} {inst : Instance} {limit : Nat}
    (hpos : 1 ≤ limit) (hlimit : inst.targets.length ≤ limit)
    {surroundings : Surroundings α}
    (hties : ∀ m, UtilityMatrix.build inst oracle settings.congestionPenalty = .ok m → ∀ n,
      Reaches settings surroundings (MaxSum.agents ⟨damping, none⟩ m) n →
        ∀ a ∈ after settings surroundings (MaxSum.agents ⟨damping, none⟩ m) n, a.TakesMostUseful)
    (others : Surroundings α) :
    (solveBuiltIn coins { settings with algorithm := .maxSum ⟨damping, some limit⟩ } (some oracle)
        others inst).answer.toOption.map Solution.untimed =
      (solveBuiltIn coins settings (some oracle) surroundings inst).answer.toOption.map
        Solution.untimed := by
  have hlimited := valid_limited_iff hmaxSum hpos
  have hname : (settings.algorithm.factory coins).name = "MaxSum" := by
    rw [hmaxSum]
    rfl
  have hcourse : ∀ {m}, UtilityMatrix.build inst oracle settings.congestionPenalty = .ok m →
      m.targets.length ≤ limit := fun hbuild => by
    rwa [(UtilityMatrix.build_eq_ok hbuild).2]
  refine toOption_map_eq (fun solution hsolved => ?_) fun solution' hsolved' => ?_
  · obtain ⟨m, start, records, termination, last, hsetUp, hplays, rfl⟩ := solve_eq_ok_iff.1 hsolved
    obtain ⟨hvalid, hbuild, rfl⟩ := setUp_builtIn_iff.1 hsetUp
    rw [hmaxSum] at hplays
    obtain ⟨inner, hinner, -⟩ := (plays_map_iff Algorithm.Agent.embeds_maxSum).1 hplays
    obtain ⟨inner', hinner'⟩ := hinner.limited
      { settings with algorithm := .maxSum ⟨damping, some limit⟩ } others (hcourse hbuild)
      (hties m hbuild) hbudget hbudget
    refine ⟨_, solve_eq_ok_iff.2 ⟨m, _, records, termination, _,
      setUp_builtIn_iff.2 ⟨hlimited.2 hvalid, hbuild, rfl⟩,
      hinner'.map Algorithm.Agent.embeds_maxSum, rfl⟩, ?_⟩
    rw [hname]
    exact untimed_conclusion "MaxSum" rfl rfl surroundings others m records termination _ _
  · obtain ⟨m, start, records, termination, last, hsetUp, hplays, rfl⟩ :=
      solve_eq_ok_iff.1 hsolved'
    obtain ⟨hvalid, hbuild, rfl⟩ := setUp_builtIn_iff.1 hsetUp
    obtain ⟨inner', hinner', -⟩ := (plays_map_iff Algorithm.Agent.embeds_maxSum).1 hplays
    obtain ⟨inner, hinner⟩ := hinner'.unlimited (hcourse hbuild) (hties m hbuild) hbudget hbudget
    refine ⟨_, solve_eq_ok_iff.2 ⟨m, _, records, termination, inner.map .maxSum,
      setUp_builtIn_iff.2 ⟨hlimited.1 hvalid, hbuild, rfl⟩, ?_, rfl⟩⟩
    rw [hmaxSum]
    exact hinner.map Algorithm.Agent.embeds_maxSum

/-- A solver that plays six rounds and charges five for an agent too many. -/
def lenient : Settings Float :=
  { Settings.default with maxRounds := 6, congestionPenalty := 5 }

/-- Both like the second target better, so that neither ranks the targets as they are listed. -/
def detour : Oracle Float where
  utility a t :=
    if t = .ofNat 4 then (if a = .ofNat 1 then 10 else 9) else if a = .ofNat 1 then 9 else 2
  need _ := 1

/-- Both start with the second target, and the first agent leaves it to the other, with a limit of
two as without one. -/
theorem detour_does_not_see_idle_limit :
    (lenient.algorithm = .maxSum ⟨Scalar.zero, none⟩ ∧ lenient.timeBudgetMs = none ∧
      courting.targets.length ≤ 2 ∧
      ∀ m, UtilityMatrix.build courting detour lenient.congestionPenalty = .ok m → ∀ n,
        Reaches lenient .still (MaxSum.agents ⟨Scalar.zero, none⟩ m) n →
          ∀ a ∈ after lenient .still (MaxSum.agents ⟨Scalar.zero, none⟩ m) n,
            a.TakesMostUseful) ∧
    (solveBuiltIn (fun _ _ _ => true) lenient (some detour) .still
        courting).answer.toOption.map (fun s => (s.stats.rounds, s.assignment.toList)) =
      some (6, [(.ofNat 1, .ofNat 3), (.ofNat 2, .ofNat 4)]) ∧
    (solveBuiltIn (fun _ _ _ => true)
        { lenient with algorithm := .maxSum ⟨Scalar.zero, some 2⟩ } (some detour) .still
        courting).answer.toOption.map Solution.untimed =
      (solveBuiltIn (fun _ _ _ => true) lenient (some detour) .still
        courting).answer.toOption.map Solution.untimed := by
  have hties : ∀ m, UtilityMatrix.build courting detour lenient.congestionPenalty = .ok m → ∀ n,
      Reaches lenient .still (MaxSum.agents ⟨Scalar.zero, none⟩ m) n →
        ∀ a ∈ after lenient .still (MaxSum.agents ⟨Scalar.zero, none⟩ m) n,
          a.TakesMostUseful := by
    intro m hbuild n hreaches a ha
    have hrounds : (UtilityMatrix.build courting detour lenient.congestionPenalty).toOption.map
        (fun m => (List.range 7).all fun n =>
          (after lenient .still (MaxSum.agents ⟨Scalar.zero, none⟩ m) n).all fun a =>
            decide a.TakesMostUseful) = some true := by
      decide +kernel
    rw [hbuild] at hrounds
    have hround := List.all_eq_true.1 (Option.some.inj hrounds) n
      (List.mem_range.2 (Nat.lt_succ_of_le hreaches.2.1))
    exact of_decide_eq_true (List.all_eq_true.1 hround a ha)
  exact ⟨⟨rfl, rfl, by decide, hties⟩, by decide +kernel,
    idle_limit_changes_nothing rfl rfl (by decide) (by decide) hties .still⟩

/-- Both like the second target as much, and the first agent would do with the first. -/
def rota : Oracle Float where
  utility a t := if t = .ofNat 4 then 10 else if a = .ofNat 1 then 5 else 0
  need _ := 1

/-- Once the other one is on the second target, the first agent finds both as good. As they are
listed it moves to the first, as they are ranked it stays with the second. -/
theorem rota_depends_on_idle_limit :
    lenient.Valid ∧
    ({ lenient with algorithm := .maxSum ⟨Scalar.zero, some 2⟩ } : Settings Float).Valid ∧
    lenient.timeBudgetMs = none ∧ courting.targets.length ≤ 2 ∧
    ∃ solution solution',
      (solveBuiltIn (fun _ _ _ => true) lenient (some rota) .still courting).answer =
        .ok solution ∧
      (solveBuiltIn (fun _ _ _ => true)
        { lenient with algorithm := .maxSum ⟨Scalar.zero, some 2⟩ } (some rota) .still
        courting).answer = .ok solution' ∧
      solution.assignment.toList = [(.ofNat 1, .ofNat 3), (.ofNat 2, .ofNat 4)] ∧
      solution'.assignment.toList = [(.ofNat 1, .ofNat 4), (.ofNat 2, .ofNat 4)] ∧
      solution'.untimed ≠ solution.untimed := by
  have hsolve : (solveBuiltIn (fun _ _ _ => true) lenient (some rota) .still
      courting).answer.toOption.map (fun s => s.assignment.toList) =
        some [(.ofNat 1, .ofNat 3), (.ofNat 2, .ofNat 4)] := by
    decide +kernel
  have hsolve' : (solveBuiltIn (fun _ _ _ => true)
      { lenient with algorithm := .maxSum ⟨Scalar.zero, some 2⟩ } (some rota) .still
      courting).answer.toOption.map (fun s => s.assignment.toList) =
        some [(.ofNat 1, .ofNat 4), (.ofNat 2, .ofNat 4)] := by
    decide +kernel
  obtain ⟨solution, hsolved, hassignment⟩ := eq_ok_of_map_eq_some hsolve
  obtain ⟨solution', hsolved', hassignment'⟩ := eq_ok_of_map_eq_some hsolve'
  have hvalid : lenient.Valid :=
    ⟨by decide, ⟨by decide, by decide⟩, by decide, by decide, by decide⟩
  refine ⟨hvalid, (valid_limited_iff rfl (by decide)).2 hvalid, rfl, by decide, solution, solution',
    hsolved, hsolved', hassignment, hassignment', fun heq => ?_⟩
  have hsame : solution'.assignment = solution.assignment :=
    congrArg (fun s => s.assignment) heq
  rw [hsame, hassignment] at hassignment'
  exact absurd hassignment' (by decide)

end Solver

end Dispatch
