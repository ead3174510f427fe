import Mathlib
import Dispatch.Proofs.Bounds
import Dispatch.Proofs.Coverage
import Dispatch.Proofs.Settling
import Dispatch.Proofs.Tables
import Dispatch.Proofs.TieBreaks
/-!
# Problems without congestion

Where no load of a target costs anything, agents do not get into each other's way. With either
algorithm each takes its favourite in the first round and stays there in the second
(`MaxSum.settles`, `Dsa.settles`), whatever damping, limits or coins say, and no repair moves
anybody. Nothing is worth more (`Solver.uncongested_solve_settles`).
-/

namespace Dispatch

/-! ## Favourites -/

section Favourites

open MaxSum (EarliestBest)

/-- No candidate beats the earliest best one. -/
theorem MaxSum.EarliestBest.le {score : EntityId → Rat} {candidates : List EntityId} {t : EntityId}
    (h : EarliestBest score candidates (some t)) {s : EntityId} (hs : s ∈ candidates) :
    score s ≤ score t :=
  le_of_not_gt (h.not_lt s hs)

namespace UtilityMatrix

variable (m : UtilityMatrix Rat)

theorem earliestBest_favourite (a : EntityId) :
    EarliestBest (m.utility a) m.targets (m.favourite? a) := by
  rw [favourite?, topTargets]
  by_cases hne : m.targets = []
  · rw [hne]
    rfl
  · obtain ⟨first, chosen, hfirst, hpicks⟩ :=
      exists_picksAlike m.targets_nodup (fun t _ => le_refl (m.utility a t)) hne
    rw [hfirst, List.head?_cons, hpicks.eq_of_score (Scalar.alike_rat.1 hpicks.alike)]
    exact hpicks.earliest

/-- The favourite leads the candidates, however few there are. -/
theorem earliestBest_considered {limit : Option Nat} (hlimit : limit ≠ some 0) (a : EntityId) :
    EarliestBest (m.utility a) (FactorGraph.considered m limit a) (m.favourite? a) := by
  cases limit with
  | none => exact m.earliestBest_favourite a
  | some k =>
    have hk : k ≠ 0 := fun h => hlimit (congrArg _ h)
    have hhead : m.favourite? a = (FactorGraph.considered m (some k) a).head? := by
      rw [favourite?, FactorGraph.considered, topTargets, topTargets, List.head?_take,
        List.head?_take, if_neg one_ne_zero, if_neg hk]
    have hbest := hhead ▸ m.earliestBest_favourite a
    rw [hhead]
    cases hconsidered : FactorGraph.considered m (some k) a with
    | nil => rfl
    | cons t rest =>
      rw [hconsidered] at hbest
      refine ⟨[], rest, rfl, by simp, fun s hs => not_lt.2 (hbest.le ?_)⟩
      refine FactorGraph.mem_targets_of_considered m (some k) (a := a) ?_
      rw [hconsidered]
      exact List.mem_cons_of_mem _ hs

/-- Everybody's favourite. -/
def favourites : Assignment := .ofList (m.agents.filterMap fun a => (m.favourite? a).map (a, ·))

theorem get?_favourites (a : EntityId) :
    m.favourites.get? a = if a ∈ m.agents then m.favourite? a else none := by
  have hnodup : (m.agents.map id).Nodup := by rw [List.map_id]; exact m.agents_nodup
  ext t
  show (SortedMap.ofList (m.agents.filterMap fun a =>
    (m.favourite? a).map fun t => (id a, t))).get? a = some t ↔ _
  rw [SortedMap.get?_ofList (nodup_keyed hnodup), mem_keyed]
  split
  · rename_i ha
    exact ⟨fun ⟨b, _, hb, hget⟩ => hb ▸ hget, fun hget => ⟨a, ha, rfl, hget⟩⟩
  · rename_i ha
    simp only [reduceCtorEq, iff_false]
    rintro ⟨b, hb, rfl, -⟩
    exact ha hb

theorem exists_favourite (hne : m.targets ≠ []) (a : EntityId) :
    ∃ t ∈ m.targets, m.favourite? a = some t ∧ ∀ s ∈ m.targets, m.utility a s ≤ m.utility a t := by
  have hbest := m.earliestBest_favourite a
  obtain ⟨t, ht, hfavourite⟩ := hbest.picks.exists_mem hne
  rw [hfavourite] at hbest
  exact ⟨t, ht, hfavourite, fun s hs => hbest.le hs⟩

theorem isGreatest_earnings (hne : m.targets ≠ []) {a : EntityId} (ha : a ∈ m.agents) :
    IsGreatest {u | ∃ t ∈ m.targets, u = m.utility a t} (m.earnings m.favourites a) := by
  obtain ⟨t, ht, hfavourite, hbest⟩ := m.exists_favourite hne a
  have hearnings : m.earnings m.favourites a = m.utility a t := by
    rw [earnings, get?_favourites, if_pos ha, hfavourite]
  rw [hearnings]
  refine ⟨⟨t, ht, rfl⟩, ?_⟩
  rintro u ⟨s, hs, rfl⟩
  exact hbest s hs

/-- In a matrix of a problem that is the largest utility of the agent. -/
theorem isGreatest_earnings_of_build {m : UtilityMatrix Rat} {inst : Instance}
    {oracle : Oracle Rat} {penalty : Rat} (h : build inst oracle penalty = .ok m)
    (hne : m.targets ≠ []) {a : EntityId} (ha : a ∈ inst.agents) :
    IsGreatest {u | ∃ t ∈ inst.targets, u = oracle.utility a t} (m.earnings m.favourites a) := by
  obtain ⟨hagents, htargets⟩ := build_eq_ok h
  have hsets : {u | ∃ t ∈ inst.targets, u = oracle.utility a t} =
      {u | ∃ t ∈ m.targets, u = m.utility a t} := by
    ext u
    rw [htargets]
    refine exists_congr fun t => and_congr_right fun ht => ?_
    rw [utility_build h, if_pos ⟨ha, ht⟩]
  rw [hsets]
  exact m.isGreatest_earnings hne (hagents ▸ ha)

/-- Of all ways to give every agent a target, none is worth more than the favourites. -/
theorem isGreatest_totalUtility (hne : m.targets ≠ []) :
    IsGreatest {worth | ∃ x : Assignment,
      (∀ a ∈ m.agents, ∃ t ∈ m.targets, x.get? a = some t) ∧ worth = m.totalUtility x}
      (m.totalUtility m.favourites) := by
  constructor
  · refine ⟨m.favourites, fun a ha => ?_, rfl⟩
    obtain ⟨t, ht, hfavourite, -⟩ := m.exists_favourite hne a
    exact ⟨t, ht, by rw [get?_favourites, if_pos ha, hfavourite]⟩
  · rintro worth ⟨x, hx, rfl⟩
    rw [totalUtility_eq_sum_agents, totalUtility_eq_sum_agents]
    refine List.sum_le_sum fun a ha => ?_
    obtain ⟨t, ht, hget⟩ := hx a ha
    refine (m.isGreatest_earnings hne ha).2 ⟨t, ht, ?_⟩
    rw [earnings, hget]

end UtilityMatrix

/-- Without a target, the best response is the earliest best target. -/
theorem Outlook.earliestBest_bestResponse (s : Outlook Rat) :
    EarliestBest s.worth s.matrix.targets (s.bestResponse none) := by
  rcases s.bestResponse_earliest (fun t => le_refl (s.worth t)) none with
    ⟨hnone, hall⟩ | ⟨t, hbest, hresponse, -⟩
  · -- any target is better than none
    rw [hnone]
    refine List.eq_nil_iff_forall_not_mem.2 fun t ht => ?_
    cases hall t ht
  · rw [hresponse]
    exact hbest

end Favourites

/-! ## No congestion -/

namespace UtilityMatrix

/-- No load of a target that the agents can make up costs anything. -/
def Uncongested (m : UtilityMatrix Rat) : Prop :=
  ∀ t ∈ m.targets, ∀ load ≤ m.agents.length, m.congestion t load = 0

/-- So it is if congestion is free, or if every target needs all agents. -/
theorem uncongested_of_build {inst : Instance} {oracle : Oracle Rat} {penalty : Rat}
    {m : UtilityMatrix Rat} (h : build inst oracle penalty = .ok m)
    (hfree : penalty = 0 ∨ ∀ t ∈ inst.targets, inst.agents.length ≤ oracle.need t) :
    m.Uncongested := by
  obtain ⟨hagents, htargets⟩ := build_eq_ok h
  have hpenalty := (tabulates_of_build h).penalty_eq
  intro t ht load hload
  rw [congestion_eq]
  rcases hfree with hzero | hneed
  · rw [hpenalty, hzero, neg_zero, zero_mul]
  · rw [htargets] at ht
    have hneed := hneed t ht
    rw [need_build h, if_pos ht, Nat.sub_eq_zero_of_le (hload.trans (hagents ▸ hneed)),
      Nat.cast_zero, mul_zero]

variable {m : UtilityMatrix Rat}

/-- Then a target is worth its utility, wherever the others are. -/
theorem Uncongested.prospect_eq (h : m.Uncongested) {x : Assignment}
    (hx : ∀ b t, x.get? b = some t → b ∈ m.agents) {a t : EntityId} (ha : a ∈ m.agents)
    (ht : t ∈ m.targets) : m.prospect x a t = m.utility a t := by
  rw [prospect, h t ht _ (Assignment.othersOn_lt hx ha t), add_zero]

theorem mem_agents_of_favourites {a t : EntityId} (h : m.favourites.get? a = some t) :
    a ∈ m.agents := by
  rw [get?_favourites] at h
  by_contra ha
  rw [if_neg ha] at h
  cases h

theorem Uncongested.equilibrium (h : m.Uncongested) (hne : m.targets ≠ []) :
    m.Equilibrium m.favourites := by
  intro a ha t ht
  obtain ⟨u, hu, hfavourite, hbest⟩ := m.exists_favourite hne a
  have hstanding : m.standing m.favourites a = some (m.utility a u) := by
    rw [standing, get?_favourites, if_pos ha, hfavourite, Option.map_some,
      h.prospect_eq (fun _ _ => mem_agents_of_favourites) ha hu]
  rw [hstanding, h.prospect_eq (fun _ _ => mem_agents_of_favourites) ha ht]
  exact decide_eq_false (not_lt.2 (hbest t ht))

end UtilityMatrix

/-! ## Max-Sum -/

namespace MaxSum

/-- A function whose loads cost nothing has nothing to say, whatever it hears. -/
theorem gainOf_loadGains_of_free {ids : List EntityId} (hids : ids.Nodup) (q : EntityId → Rat)
    {potential : Nat → Rat} (hfree : ∀ load ≤ ids.length, potential load = 0) {a : EntityId}
    (ha : a ∈ ids) : gainOf ids (loadGains (ids.map q) potential) a = 0 := by
  obtain ⟨inside, outside, hinside, houtside, hgain⟩ := gainOf_loadGains hids (q := q) potential ha
  -- one more agent makes no difference to any crew of the others
  have hcard : ∀ crew ⊆ ids.toFinset.erase a, crew.card + 1 ≤ ids.length := by
    intro crew hcrew
    have hle := Finset.card_le_card hcrew
    rw [Finset.card_erase_of_mem (List.mem_toFinset.2 ha), List.toFinset_card_of_nodup hids] at hle
    have := List.length_pos_of_mem ha
    omega
  have hsame : ∀ crew ⊆ ids.toFinset.erase a,
      worthOf (fun k => potential (k + 1)) q crew = worthOf potential q crew := by
    intro crew hcrew
    rw [worthOf, worthOf, hfree _ (hcard crew hcrew),
      hfree _ ((Nat.le_succ _).trans (hcard crew hcrew))]
  have hsets : {w | ∃ crew ⊆ ids.toFinset.erase a,
      w = worthOf (fun k => potential (k + 1)) q crew} =
        {w | ∃ crew ⊆ ids.toFinset.erase a, w = worthOf potential q crew} := by
    ext w
    exact exists_congr fun crew => and_congr_right fun hcrew => by rw [hsame crew hcrew]
  rw [hsets] at hinside
  rw [hgain, hinside.unique houtside, sub_self]

section Uncongested
variable {m : UtilityMatrix Rat} (h : m.Uncongested) (settings : Settings Rat)
include h

theorem reply_toAgent {limit : Option Nat} {a t : EntityId}
    (ht : t ∈ (FactorGraph.build m limit).candidatesOf a) (v : Edge → Rat) :
    reply m (.build m limit) v (.toAgent t a) = 0 := by
  have htarget : t ∈ m.targets := FactorGraph.mem_targets_of_candidatesOf ht
  refine gainOf_loadGains_of_free (FactorGraph.nodup_neighboursOf t) (fun b => v (.toTarget b t))
    (fun load hload => h t htarget load (hload.trans ?_)) (FactorGraph.mem_neighboursOf.2 ht)
  rw [FactorGraph.neighboursOf_build]
  exact List.length_filter_le _ _

/-- In no round does a target say anything to an agent. -/
theorem values_toAgent {a t : EntityId}
    (ht : t ∈ (FactorGraph.build m settings.maxTargets).candidatesOf a) (n : Nat) :
    values settings m n (.toAgent t a) = 0 := by
  induction n with
  | zero => exact Scalar.zero_rat
  | succ n ih =>
    rw [values_succ, ih, reply_toAgent h ht]
    simp

/-- From the second round on all values repeat, however they are damped. -/
theorem values_again {e : Edge} (he : e ∈ (FactorGraph.build m settings.maxTargets).edges)
    (n : Nat) : values settings m (n + 1) e = values settings m 1 e := by
  -- what a node makes of the values around it is always the same
  have hreply : ∀ n, reply m (.build m settings.maxTargets) (values settings m n) e =
      reply m (.build m settings.maxTargets) (values settings m 0) e := by
    intro n
    obtain ⟨a, t, ht, rfl | rfl⟩ := FactorGraph.mem_edges.1 he
    · have hheard : ((FactorGraph.build m settings.maxTargets).candidatesOf a).map
          (fun s => values settings m n (.toAgent s a)) =
          ((FactorGraph.build m settings.maxTargets).candidatesOf a).map
            fun s => values settings m 0 (.toAgent s a) :=
        List.map_congr_left fun s hs => by
          rw [values_toAgent h settings hs, values_toAgent h settings hs]
      exact congrArg (fun heard => gainOf _ (choiceGains _ heard) t) hheard
    · rw [reply_toAgent h ht, reply_toAgent h ht]
  induction n with
  | zero => rfl
  | succ n ih =>
    have hfirst : values settings m 1 e =
        reply m (.build m settings.maxTargets) (values settings m 0) e := by
      simp [values]
    rw [values_succ, ih, hreply, ← hfirst]
    split
    · rw [Scalar.one_rat]
      ring
    · rfl

end Uncongested

end MaxSum

/-! ## Rounds -/

section Rounds
variable {σ : Type} [Agent Rat σ] {m : UtilityMatrix Rat}

theorem Solver.held_eq_favourites {agents : List σ} (hids : agents.map Agent.id = m.agents)
    (htarget : ∀ a ∈ agents, Agent.target a = m.favourite? (Agent.id a)) :
    held agents = m.favourites := by
  rw [held, UtilityMatrix.favourites, ← hids, List.filterMap_map]
  congr 1
  apply List.filterMap_congr
  intro a ha
  rw [htarget a ha]
  rfl

/-- All hold their favourites from the first round on, and find so in the second. -/
structure Solver.Settles (settings : Solver.Settings Rat) (surroundings : Surroundings Rat)
    (m : UtilityMatrix Rat) (start : List σ) : Prop where
  held_eq : ∀ n, held (after settings surroundings start (n + 1)) = m.favourites
  asks : AsksAgain settings surroundings start 1
  rests : ¬ AsksAgain settings surroundings start 2

end Rounds

open Solver (Settles after playRound AsksAgain)

section Populations
variable {m : UtilityMatrix Rat} (h : m.Uncongested) (hagents : m.agents ≠ [])
  (htargets : m.targets ≠ []) (solver : Solver.Settings Rat) (surroundings : Surroundings Rat)
include h hagents htargets

/-- Max-Sum settles, whatever its damping and however few targets an agent considers. -/
theorem MaxSum.settles {settings : Settings Rat} (hlimit : settings.maxTargets ≠ some 0) :
    Settles solver surroundings m (agents settings m) := by
  have htarget : ∀ n, ∀ a ∈ after solver surroundings (agents settings m) (n + 1),
      a.target = m.favourite? a.id := by
    intro n a ha
    have hpop := population_exact settings m solver surroundings (n + 1)
    have hbest := target_after (fun k _ => rounds_succeed (fun _ => rfl) k) a ha
    have hplain := hbest.congr fun t ht => by rw [values_toAgent h settings ht, add_zero]
    rw [FactorGraph.candidatesOf_build (hpop.mem_agents.2 ⟨a, ha, rfl⟩)] at hplain
    exact hplain.unique (m.earliestBest_considered hlimit a.id)
  have hpopulation := population_exact settings m solver surroundings
  have hlockstep : ∀ n, ∃ posts flags,
      Round.Lockstep (after solver surroundings (agents settings m) n) posts flags
        (playRound solver surroundings (n + 1) (after solver surroundings (agents settings m) n)) :=
    fun n => (hpopulation n).exists_lockstep (rounds_succeed (fun _ => rfl) n)
  refine ⟨fun n => Solver.held_eq_favourites (hpopulation (n + 1)).ids_eq (htarget n), ?_, ?_⟩
  · -- there is an edge, and nothing has been said along it that could be repeated
    obtain ⟨posts, flags, hlock⟩ := hlockstep 0
    refine ⟨_, hlock.answer_eq, by_contra fun hquiet => ?_⟩
    obtain ⟨a, ha⟩ := List.exists_mem_of_ne_nil _ hagents
    obtain ⟨t, -, hfavourite, -⟩ := m.exists_favourite htargets a
    have ht := (hfavourite ▸ m.earliestBest_considered hlimit a).picks
    have hedge := FactorGraph.toTarget_mem_edges.2 (FactorGraph.mem_candidatesOf.2 ⟨ha, ht⟩)
    exact (((hpopulation 0).quiet_iff hlock).1 hquiet).2 _ hedge |>.1 rfl
  · rintro ⟨outcome, hanswer, hrestless⟩
    obtain ⟨posts, flags, hlock⟩ := hlockstep 1
    obtain rfl := Except.ok.inj (hlock.answer_eq.symm.trans hanswer)
    refine ((hpopulation 1).quiet_iff hlock).2 ⟨?_, fun e he => ⟨one_ne_zero, ?_⟩⟩ hrestless
    · have hpairs : ∀ n, (after solver surroundings (agents settings m) (n + 1)).map
          (fun a => (a.id, a.target)) = m.agents.map fun a => (a, m.favourite? a) := by
        intro n
        rw [← (hpopulation (n + 1)).ids_eq, List.map_map]
        exact List.map_congr_left fun a ha => Prod.ext rfl (htarget n a ha)
      exact (hpairs 1).trans (hpairs 0).symm
    · rw [values_again h settings he 1]
      exact decide_eq_false (by simp [Scalar.epsilon, Scalar.abs, Scalar.ofDecimal])

omit hagents in
/-- What an agent of DSA makes of a round in which it has no target yet, or its favourite. -/
theorem Dsa.Agent.improve_of_uncongested {x : Assignment} {a : Agent Rat}
    (hinformed : a.Informed m x) (hx : ∀ b t, x.get? b = some t → b ∈ m.agents)
    (ha : a.id ∈ m.agents) (htarget : a.target = none ∨ a.target = m.favourite? a.id) :
    a.improve.agent.target = m.favourite? a.id ∧ a.improve.answer = .ok a.target.isNone := by
  obtain ⟨t, ht, hfavourite, hbest⟩ := m.exists_favourite htargets a.id
  have hmatrix : a.outlook.matrix = m := hinformed.matrix_eq
  have hworth : ∀ s ∈ m.targets, a.outlook.worth s = m.utility a.id s := by
    intro s hs
    rw [(hinformed.sees hx).worth, hmatrix]
    exact h.prospect_eq hx ha hs
  rw [improve]
  rcases htarget with hnone | hsome
  · have hresponse : a.outlook.bestResponse none = some t := by
      have hearliest := a.outlook.earliestBest_bestResponse
      rw [hmatrix] at hearliest
      rw [← hfavourite]
      exact (hearliest.congr hworth).unique (m.earliestBest_favourite a.id)
    simp [hnone, hresponse, hfavourite]
  · have hresponse : a.outlook.bestResponse a.target = a.target := by
      rw [hsome, hfavourite, Outlook.bestResponse_eq_self, hmatrix]
      intro s hs
      rw [hworth s hs, Outlook.score, Option.map_some, hworth t ht]
      exact decide_eq_false (not_lt.2 (hbest s hs))
    simp only [hresponse, if_true]
    exact ⟨hsome, by rw [hsome, hfavourite]; rfl⟩

omit hagents in
theorem Dsa.Population.settle_of_lockstep {agents : List (Agent Rat)} (hpop : Population m agents)
    (htarget : ∀ a ∈ agents, a.target = none ∨ a.target = m.favourite? a.id)
    {posts : List (Message Rat)} {flags : List Bool}
    {progress : Progress Rat (Algorithm.Agent Rat) (Round.Outcome Rat)}
    (hlock : Round.Lockstep (wrap agents) posts flags progress) :
    ∃ next, progress.agents = wrap next ∧ Population m next ∧
      (∀ a ∈ next, a.target = m.favourite? a.id) ∧ flags = agents.map (·.target.isNone) := by
  obtain ⟨heard, hnext, hpop', hflags, hheard⟩ := hpop.agents_of_lockstep hlock
  have hone : ∀ a ∈ agents, (heard a).improve.agent.target = m.favourite? a.id ∧
      (heard a).improve.answer = .ok a.target.isNone := by
    intro a ha
    have hin : a.id ∈ m.agents := hpop.ids_eq ▸ List.mem_map_of_mem ha
    have himprove := Dsa.Agent.improve_of_uncongested h htargets (hheard a ha).informed
      (fun b t => hpop.mem_agents_of_held) ((hheard a ha).id_eq.symm ▸ hin)
    rw [(hheard a ha).id_eq, (hheard a ha).target_eq] at himprove
    exact himprove (htarget a ha)
  refine ⟨_, hnext, hpop', List.forall_mem_map.2 fun a ha => ?_, ?_⟩
  · rw [(hone a ha).1, Agent.improve_id, (hheard a ha).id_eq]
  · have hanswers : flags.map (.ok : Bool → Except (Error Rat) Bool) =
        (agents.map (·.target.isNone)).map .ok := by
      rw [← hflags, List.map_map]
      exact List.map_congr_left fun a ha => (hone a ha).2
    exact List.map_injective_iff.2 (fun _ _ => Except.ok.inj) hanswers

/-- DSA settles, whatever its coins show. -/
theorem Dsa.settles (coins : Coins Rat) (settings : Settings Rat) :
    Settles solver surroundings m (Population.wrap (agents coins settings m)) := by
  have hready : ∀ {n : Nat} {a : Agent Rat},
      (a.target = if n = 0 then none else m.favourite? a.id) →
        a.target = none ∨ a.target = m.favourite? a.id :=
    fun htarget => (ite_eq_or_eq _ _ _).imp htarget.trans htarget.trans
  have hcourse : ∀ n, ∃ inner,
      after solver surroundings (Population.wrap (agents coins settings m)) n =
        Population.wrap inner ∧ Population m inner ∧
      ∀ a ∈ inner, a.target = if n = 0 then none else m.favourite? a.id := by
    refine Solver.dsa_after coins settings (fun _ ha => Population.target_start ha) ?_
    intro n agents hpop htarget posts flags progress hlock
    obtain ⟨next, hnext, hpop', hall, -⟩ :=
      hpop.settle_of_lockstep h htargets (fun a ha => hready (htarget a ha)) hlock
    exact ⟨next, hnext, hpop', hall⟩
  have hasks : ∀ n, AsksAgain solver surroundings (Population.wrap (agents coins settings m))
      (n + 1) ↔ n = 0 := by
    intro n
    obtain ⟨inner, hinner, hpop, htarget⟩ := hcourse n
    obtain ⟨posts, flags, hlock⟩ := hpop.exists_lockstep solver surroundings (n + 1)
    obtain ⟨-, -, -, -, rfl⟩ :=
      hpop.settle_of_lockstep h htargets (fun a ha => hready (htarget a ha)) hlock
    rw [AsksAgain, Nat.add_sub_cancel, hinner, hlock.answer_eq]
    constructor
    · rintro ⟨outcome, hanswer, hrestless⟩
      obtain rfl := Except.ok.inj hanswer
      obtain ⟨a, ha, hnone⟩ := List.mem_map.1 hrestless
      obtain ⟨t, -, hfavourite, -⟩ := m.exists_favourite htargets a.id
      by_contra hn
      rw [htarget a ha, if_neg hn, hfavourite] at hnone
      cases hnone
    · rintro rfl
      obtain ⟨b, hb⟩ := List.exists_mem_of_ne_nil _ hagents
      rw [← hpop.ids_eq] at hb
      obtain ⟨a, ha, -⟩ := List.mem_map.1 hb
      exact ⟨_, rfl, List.mem_map.2 ⟨a, ha, by rw [htarget a ha]; rfl⟩⟩
  refine ⟨fun n => ?_, (hasks 0).2 rfl, fun hagain => one_ne_zero ((hasks 1).1 hagain)⟩
  obtain ⟨inner, hinner, hpop, htarget⟩ := hcourse (n + 1)
  rw [hinner]
  exact Solver.held_eq_favourites ((Population.ids_wrap inner).trans hpop.ids_eq)
    (List.forall_mem_map.2 htarget)

/-- Either algorithm settles. -/
theorem Solver.settles_population {algorithm : Algorithm Rat} (hvalid : algorithm.Valid)
    (coins : Dsa.Coins Rat) :
    Settles solver surroundings m (algorithm.population coins m) := by
  cases algorithm with
  | maxSum settings =>
    have hsettles := MaxSum.settles h hagents htargets solver surroundings hvalid.maxTargets_ne
    have hembeds := Algorithm.Agent.embeds_maxSum (α := Rat)
    refine ⟨fun n => ?_, (asksAgain_map solver surroundings hembeds _ 1).2 hsettles.asks,
      mt (asksAgain_map solver surroundings hembeds _ 2).1 hsettles.rests⟩
    rw [Algorithm.population, after_map solver surroundings hembeds, held_map hembeds]
    exact hsettles.held_eq n
  | dsa settings => exact Dsa.settles h hagents htargets solver surroundings coins settings

end Populations

/-! ## Solves -/

namespace Solver

section Courses
variable {σ : Type} [Agent Rat σ] {settings : Settings Rat} {surroundings : Surroundings Rat}
  {m : UtilityMatrix Rat} {start last : List σ} {records : List (RoundRecord Rat)}
  {termination : Termination} (h : Settles settings surroundings m start)
include h

theorem Settles.two_rounds (hrounds : 2 ≤ settings.maxRounds) (htime : settings.timeBudgetMs = none)
    (hplays : Plays settings surroundings m 1 start settings.maxRounds records termination last) :
    records.length = 2 ∧ termination = .converged := by
  refine hplays.of_quiet one_le_two hrounds (fun n hpos hn => ?_) h.rests
  obtain rfl : n = 1 := by omega
  refine ⟨h.asks, fun ⟨budget, hbudget, _⟩ => ?_⟩
  rw [htime] at hbudget
  cases hbudget

theorem Settles.record_eq {remaining : Nat}
    (hplays : Plays settings surroundings m 1 start remaining records termination last)
    {r : RoundRecord Rat} (hr : r ∈ records) :
    r.assignment = m.favourites ∧ r.utility = m.totalUtility m.favourites := by
  obtain ⟨i, hi⟩ := List.getElem?_of_mem hr
  have hrecord := hplays.recordOf_succ hi
  have hassignment := hrecord.assignment_eq.trans (h.held_eq i)
  exact ⟨hassignment, hrecord.utility_eq.trans (congrArg _ hassignment)⟩

/-- The last and the best round come to the same, and repair changes nothing. -/
theorem Settles.branches_eq (hequilibrium : m.Equilibrium m.favourites) {remaining : Nat}
    (hremaining : remaining ≠ 0)
    (hplays : Plays settings surroundings m 1 start remaining records termination last) :
    let x := m.favourites
    finalBranch m records = ⟨x, m.totalUtility x, x, m.totalUtility x, false, []⟩ ∧
      bestBranch m records = ⟨x, m.totalUtility x, x, m.totalUtility x, false, []⟩ := by
  have hbranch : ∀ r ∈ records, ∀ name, branch m name r.assignment r.utility = ⟨m.favourites,
      m.totalUtility m.favourites, m.favourites, m.totalUtility m.favourites, false, []⟩ := by
    intro r hr name
    rw [(h.record_eq hplays hr).1, (h.record_eq hplays hr).2, branch_of_equilibrium hequilibrium]
  obtain ⟨final, hlast, hfinal⟩ := hplays.exists_finalBranch hremaining
  obtain ⟨i, best, hincumbent, hbest⟩ := hplays.exists_bestBranch hremaining
  exact ⟨hfinal.trans (hbranch final (List.mem_of_getLast? hlast) _),
    hbest.trans (hbranch best (List.mem_of_getElem? hincumbent.here) _)⟩

end Courses

/-- Without congestion, in exact arithmetic, a solve with either algorithm takes two rounds to find
that all hold their favourites, which depend on the problem alone. Repair moves nobody, whichever
round it starts from, and nothing that gives every agent a target is worth more than what is
returned, the sum of each agent's largest utility. -/
theorem uncongested_solve_settles {settings : Settings Rat} (hvalid : settings.Valid)
    (hrounds : 2 ≤ settings.maxRounds) (htime : settings.timeBudgetMs = none) {inst : Instance}
    (hagents : inst.agents.Nodup) (htargets : inst.targets.Nodup) (hagent : inst.agents ≠ [])
    (htarget : inst.targets ≠ []) {oracle : Oracle Rat}
    (hfree : settings.congestionPenalty = 0 ∨
      ∀ t ∈ inst.targets, inst.agents.length ≤ oracle.need t)
    (coins : Dsa.Coins Rat) (surroundings : Surroundings Rat) :
    ∃ m solution,
      let start := settings.algorithm.population coins m
      let records := (play settings surroundings m 1 start settings.maxRounds).records
      let x := m.favourites
      let worth := m.totalUtility x
      let stats := solution.stats
      setUp (settings.algorithm.factory coins) settings (some oracle) inst = .ok (m, start) ∧
      (solveBuiltIn coins settings (some oracle) surroundings inst).answer = .ok solution ∧
      stats.rounds = 2 ∧ stats.termination = .converged ∧
      (∀ r ∈ records, r.assignment = x) ∧ solution.assignment = x ∧
      (∀ a, x.get? a = if a ∈ inst.agents then m.favourite? a else none) ∧
      repaired m x = x ∧ finalBranch m records = ⟨x, worth, x, worth, false, []⟩ ∧
      bestBranch m records = ⟨x, worth, x, worth, false, []⟩ ∧
      stats.finalUtility = worth ∧ stats.finalRepairedUtility = worth ∧
      stats.bestUtility = worth ∧ stats.bestRepairedUtility = worth ∧
      stats.repairRegressions = 0 ∧
      (∃ top : EntityId → Rat,
        (∀ a ∈ inst.agents, IsGreatest {u | ∃ t ∈ inst.targets, u = oracle.utility a t} (top a)) ∧
        worth = (inst.agents.map top).sum) ∧
      IsGreatest {u | ∃ y : Assignment,
        (∀ a ∈ inst.agents, ∃ t ∈ inst.targets, y.get? a = some t) ∧ u = m.totalUtility y}
        worth := by
  have haccepts : Accepts settings oracle inst := ⟨hvalid, hagents, htargets, fun _ _ _ _ => rfl⟩
  obtain ⟨m, solution, hsetUp, hsolved⟩ := haccepts.exists_solution coins surroundings
  obtain ⟨-, hbuild, -⟩ := setUp_builtIn_iff.1 hsetUp
  obtain ⟨hmagents, hmtargets⟩ := UtilityMatrix.build_eq_ok hbuild
  have hfree := UtilityMatrix.uncongested_of_build hbuild hfree
  rw [← hmagents] at hagent
  rw [← hmtargets] at htarget
  have hsettles := settles_population hfree hagent htarget settings surroundings
    hvalid.algorithm coins
  have hequilibrium := hfree.equilibrium htarget
  obtain ⟨hmax, records, termination, last, hplays, rfl⟩ := exists_course hsetUp hsolved
  obtain ⟨htwo, hconverged⟩ := hsettles.two_rounds hrounds htime hplays
  obtain ⟨hfinal, hbest⟩ := hsettles.branches_eq hequilibrium hmax hplays
  have hrepaired : repaired m m.favourites = m.favourites := by
    rw [repaired, sweep_of_equilibrium hequilibrium]
    rfl
  have hselect : select settings (finalBranch m records) (bestBranch m records) = m.favourites := by
    rw [hfinal, hbest, select]
    split <;> rfl
  have hregressions : (finalBranch m records).regressed.toNat +
      (bestBranch m records).regressed.toNat = 0 := by
    rw [hfinal, hbest]
    rfl
  have hgreatest := m.isGreatest_totalUtility htarget
  have htotal := m.totalUtility_eq_sum_agents m.favourites
  have hget := m.get?_favourites
  rw [hmagents] at htotal hget
  rw [hmagents, hmtargets] at hgreatest
  refine ⟨m, _, hsetUp, hsolved, htwo, hconverged, ?_⟩
  rw [(play_of_plays hplays).1]
  exact ⟨fun r hr => (hsettles.record_eq hplays hr).1, hselect, hget, hrepaired, hfinal, hbest,
    congrArg Branch.utility hfinal, congrArg Branch.repairedUtility hfinal,
    congrArg Branch.utility hbest, congrArg Branch.repairedUtility hbest, hregressions,
    ⟨_, fun a ha => UtilityMatrix.isGreatest_earnings_of_build hbuild htarget ha, htotal⟩,
    hgreatest⟩

/-- Targets as appealing to the crew as ever, but with room for all of it. -/
def roomy : Oracle Rat := { appeal with need := fun _ => 3 }

/-- The crew crowds onto one target, although each of it looks at a single one. -/
theorem roomy_crew_settles :
    shortsighted.Valid ∧ 2 ≤ shortsighted.maxRounds ∧ shortsighted.timeBudgetMs = none ∧
    crew.agents.Nodup ∧ crew.targets.Nodup ∧ crew.agents ≠ [] ∧ crew.targets ≠ [] ∧
    (shortsighted.congestionPenalty = 0 ∨
      ∀ t ∈ crew.targets, crew.agents.length ≤ roomy.need t) ∧
    ∃ m solution,
      setUp (shortsighted.algorithm.factory fun _ _ _ => true) shortsighted (some roomy) crew =
        .ok (m, shortsighted.algorithm.population (fun _ _ _ => true) m) ∧
      (solveBuiltIn (fun _ _ _ => true) shortsighted (some roomy) .still crew).answer =
        .ok solution ∧
      solution.stats.rounds = 2 ∧ solution.stats.termination = .converged ∧
      solution.assignment = m.favourites ∧
      (∀ a, m.favourites.get? a = if a ∈ crew.agents then m.favourite? a else none) ∧
      solution.stats.finalUtility = m.totalUtility m.favourites ∧
      solution.stats.repairRegressions = 0 := by
  have hrounds : 2 ≤ shortsighted.maxRounds := by decide
  have hagents : crew.agents.Nodup := by decide
  have htargets : crew.targets.Nodup := by decide
  have hagent : crew.agents ≠ [] := by decide
  have htarget : crew.targets ≠ [] := by decide
  have hfree : shortsighted.congestionPenalty = 0 ∨
      ∀ t ∈ crew.targets, crew.agents.length ≤ roomy.need t := .inr fun _ _ => le_rfl
  obtain ⟨m, solution, hsetUp, hsolved, htwo, hconverged, -, hassignment, hget, -, -, -, hfinal,
    -, -, -, hregressions, -⟩ := uncongested_solve_settles shortsighted_valid hrounds rfl
      hagents htargets hagent htarget hfree (fun _ _ _ => true) .still
  exact ⟨shortsighted_valid, hrounds, rfl, hagents, htargets, hagent, htarget, hfree, m, solution,
    hsetUp, hsolved, htwo, hconverged, hassignment, hget, hfinal, hregressions⟩

end Solver

end Dispatch
