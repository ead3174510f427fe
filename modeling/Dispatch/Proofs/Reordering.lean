import Mathlib
import Dispatch.Proofs.Incumbent
import Dispatch.Proofs.Relabelling
import Dispatch.Proofs.Settling
/-!
# The order of the agents

Two populations are twins if they stand in relabelled problems after the same number of rounds, both
in step with the recurrence, and hold the same targets under their names. Which agent hosts which
function, and in which order values are sent and heard, may differ between them. A round of Max-Sum
keeps twins twins and comes to the same in both (`MaxSum.Twins.next`), so whole courses do
(`Solver.Plays.maxSum_mirrors`). Without new names, this leaves the order of the agents, and
`Solver.agent_order_does_not_matter` says what of a solve does not depend on it. Nothing here takes
exact arithmetic: doubles obey the laws it uses as well.
-/

namespace Dispatch

variable {α σ τ : Type} [Scalar α] {F G : Equiv.Perm EntityId}

/-! ## Held targets -/

namespace Solver

section Held
variable [Agent α σ] [Agent α τ]

omit [Scalar α] in
theorem get?_held_of_not_mem {agents : List σ} (hids : (agents.map Agent.id).Nodup) {id : EntityId}
    (h : id ∉ agents.map Agent.id) : (held agents).get? id = none := by
  refine Option.eq_none_iff_forall_ne_some.2 fun t ht => h ?_
  obtain ⟨a, ha, rfl, -⟩ := (get?_held hids).1 ht
  exact List.mem_map_of_mem ha

omit [Scalar α] in
/-- Populations of one list of identifiers hold the same if their agents do. -/
theorem held_eq_iff {agents next : List σ} (hids : (agents.map Agent.id).Nodup)
    (hsame : next.map Agent.id = agents.map Agent.id) :
    held next = held agents ↔
      next.map (fun a => (Agent.id a, Agent.target a)) =
        agents.map fun a => (Agent.id a, Agent.target a) := by
  have hpairs : ∀ agents : List σ, (agents.map Agent.id).Nodup →
      agents.map (fun a => (Agent.id a, Agent.target a)) =
        (agents.map Agent.id).map fun id => (id, (held agents).get? id) := by
    intro agents hids
    rw [List.map_map]
    exact List.map_congr_left fun a ha => Prod.ext rfl (get?_held_of_mem hids ha).symm
  have hheld : ∀ agents : List σ, held agents =
      .ofList ((agents.map fun a => (Agent.id a, Agent.target a)).filterMap
        fun p => p.2.map fun t => (p.1, t)) := by
    intro agents
    rw [held, List.filterMap_map]
    rfl
  constructor
  · intro h
    rw [hpairs agents hids, hpairs next (hsame ▸ hids), hsame, h]
  · intro h
    rw [hheld next, hheld agents, h]

omit [Scalar α] in
theorem held_mirrors {agents : List σ} {agents' : List τ} (hids : (agents.map Agent.id).Nodup)
    (hids' : (agents'.map Agent.id).Perm ((agents.map Agent.id).map F))
    (h : ∀ a ∈ agents, ∀ b ∈ agents', Agent.id b = F (Agent.id a) →
      Agent.target b = (Agent.target a).map G) :
    (held agents).Mirrors F G (held agents') := by
  have hnodup : (agents'.map Agent.id).Nodup := hids'.nodup_iff.2 (hids.map F.injective)
  intro id
  by_cases hid : id ∈ agents.map Agent.id
  · obtain ⟨b, hb, heq⟩ := List.mem_map.1 (hids'.mem_iff.2 (List.mem_map_of_mem (f := F) hid))
    obtain ⟨a, ha, rfl⟩ := List.mem_map.1 hid
    rw [get?_held_of_mem hids ha, ← heq, get?_held_of_mem hnodup hb]
    exact h a ha b hb heq
  · have hid' : F id ∉ agents'.map Agent.id := by
      rwa [hids'.mem_iff, List.mem_map_of_injective F.injective]
    rw [get?_held_of_not_mem hids hid, get?_held_of_not_mem hnodup hid']
    rfl

end Held

end Solver

/-- Mirror images change together. -/
theorem Assignment.Mirrors.eq_iff {x x' y y' : Assignment} (h : x.Mirrors F G y)
    (h' : x'.Mirrors F G y') : y' = y ↔ x' = x := by
  constructor
  · rintro rfl
    exact ext_get? fun a => Option.map_injective G.injective ((h' a).symm.trans (h a))
  · rintro rfl
    refine ext_get? fun a => ?_
    obtain ⟨a, rfl⟩ := F.surjective a
    rw [h a, h' a]

/-! ## Records -/

theorem map_eq_map_of_forall₂ {β : Type} {f : σ → β} {g : τ → β} {l : List σ} {k : List τ}
    (h : List.Forall₂ (fun a b => f a = g b) l k) : l.map f = k.map g := by
  induction h with
  | nil => rfl
  | cons hab _ ih => rw [List.map_cons, List.map_cons, hab, ih]

/-- The rounds left mirror images, which are worth the same, and the same will to go on. -/
structure RoundRecord.Mirrors (F G : EntityId → EntityId) (r r' : RoundRecord α) : Prop where
  assignment : r.assignment.Mirrors F G r'.assignment
  utility_eq : r'.utility = r.utility
  restless_eq : r'.restless = r.restless

namespace Solver

section Records
variable {m m' : UtilityMatrix α} {records records' : List (RoundRecord α)}
  (h : List.Forall₂ (RoundRecord.Mirrors F G) records records')
include h

omit [Scalar α] in
theorem utilities_eq_of_mirrors :
    records'.map (·.utility) = records.map (·.utility) :=
  (map_eq_map_of_forall₂ (h.imp fun _ _ hr => hr.utility_eq.symm)).symm

omit [Scalar α] in
theorem lastAssignment_mirrors :
    (lastAssignment records).Mirrors F G (lastAssignment records') := by
  induction h with
  | nil => exact fun _ => rfl
  | cons hr hrest ih =>
    cases hrest with
    | nil => exact hr.assignment
    | cons _ _ => exact ih

theorem bestRound_mirrors :
    Option.Rel (RoundRecord.Mirrors F G) (bestRound records) (bestRound records') := by
  refine List.rel_foldl (fun best best' hbest r r' hr => ?_) .none h
  cases hbest with
  | none => exact .some hr
  | some hbest =>
    unfold betterRound
    simp only [hr.utility_eq, hbest.utility_eq]
    split
    · exact .some hr
    · exact .some hbest

theorem finalBranch_mirrors (hworth : ∀ x y : Assignment, x.Mirrors F G y →
    m'.totalUtility y = m.totalUtility x) :
    ∃ x y u, x.Mirrors F G y ∧ finalBranch m records = branch m "final" x u ∧
      finalBranch m' records' = branch m' "final" y u := by
  have hlast := lastAssignment_mirrors h
  refine ⟨_, _, m.totalUtility (lastAssignment records), hlast, rfl, ?_⟩
  rw [finalBranch, hworth _ _ hlast]

theorem bestBranch_mirrors (hworth : ∀ x y : Assignment, x.Mirrors F G y →
    m'.totalUtility y = m.totalUtility x) :
    ∃ x y u, x.Mirrors F G y ∧ bestBranch m records = branch m "best" x u ∧
      bestBranch m' records' = branch m' "best" y u := by
  have hlast := lastAssignment_mirrors h
  have hbest := bestRound_mirrors h
  unfold bestBranch
  generalize bestRound records = best, bestRound records' = best' at hbest ⊢
  cases hbest with
  | none =>
    refine ⟨_, _, m.totalUtility (lastAssignment records), hlast, rfl, ?_⟩
    dsimp only
    rw [hworth _ _ hlast]
  | some hr =>
    refine ⟨_, _, _, hr.assignment, rfl, ?_⟩
    dsimp only
    rw [hr.utility_eq]

end Records

end Solver

/-! ## Rounds of Max-Sum -/

namespace MaxSum

/-- Nobody asks for another round if and only if all hold what they held, and on every edge the
value of this round repeats that of the round before. -/
theorem Population.quiet_iff_held [OrderedScalar α] {settings : Settings α} {m : UtilityMatrix α}
    {n : Nat} {agents : List (Agent α)} (h : Population settings m n agents)
    {posts : List (Message α)} {flags : List Bool}
    {progress : Progress α (Agent α) (Round.Outcome α)}
    (hlock : Round.Lockstep agents posts flags progress) :
    true ∉ flags ↔ Solver.held progress.agents = Solver.held agents ∧
      ∀ e ∈ (FactorGraph.build m settings.maxTargets).edges,
        n ≠ 0 ∧ Outbox.differ (values settings m n e) (values settings m (n + 1) e) = false := by
  rw [h.quiet_iff hlock]
  exact and_congr_left' (Solver.held_eq_iff h.nodup_ids
    ((h.next hlock).1.ids_eq.trans h.ids_eq.symm)).symm

/-- Two populations in step with the recurrences of two matrices, after the same number of rounds.
Each holds the mirror image of what the other holds. -/
structure Twins (F G : Equiv.Perm EntityId) (settings : Settings α) (m m' : UtilityMatrix α)
    (n : Nat) (agents agents' : List (Agent α)) : Prop where
  population : Population settings m n agents
  population' : Population settings m' n agents'
  held : (Solver.held agents).Mirrors F G (Solver.held agents')

namespace Twins
variable {settings : Settings α} {m m' : UtilityMatrix α} {n : Nat}
  {agents agents' : List (Agent α)}

theorem of_targets (hrelabels : Relabels F G m m') (hpop : Population settings m n agents)
    (hpop' : Population settings m' n agents')
    (h : ∀ a ∈ agents, ∀ b ∈ agents', b.id = F a.id → b.target = a.target.map G) :
    Twins F G settings m m' n agents agents' := by
  refine ⟨hpop, hpop', Solver.held_mirrors hpop.nodup_ids ?_ h⟩
  show (agents'.map (·.id)).Perm ((agents.map (·.id)).map F)
  rw [hpop.ids_eq, hpop'.ids_eq]
  exact hrelabels.agents_perm

theorem start (hrelabels : Relabels F G m m') (settings : Settings α) :
    Twins F G settings m m' 0 (MaxSum.agents settings m) (MaxSum.agents settings m') := by
  refine of_targets hrelabels (.start settings m) (.start settings m') fun a ha b hb _ => ?_
  obtain ⟨_, -, rfl⟩ := List.mem_map.1 ha
  obtain ⟨_, -, rfl⟩ := List.mem_map.1 hb
  rfl

variable [OrderedScalar α] [SortingScalar α]

/-- A round that one of the twins can play, so can the other, and it comes to the same. -/
theorem next (h : Twins F G settings m m' n agents agents') (hrelabels : Relabels F G m m')
    (hworth : ∀ x y : Assignment, x.Mirrors F G y → m'.totalUtility y = m.totalUtility x)
    {solver : Solver.Settings α} {surroundings others : Surroundings α} {round : Nat}
    {outcome : Round.Outcome α} {last : List (Agent α)}
    (hplayed : (Solver.playRound solver surroundings round agents).EndsWith outcome last) :
    ∃ outcome' last',
      (Solver.playRound solver others round agents').EndsWith outcome' last' ∧
      Twins F G settings m m' (n + 1) last last' ∧
      (Solver.summarise m agents last outcome).Mirrors F G
        (Solver.summarise m' agents' last' outcome') := by
  obtain ⟨hanswer, rfl⟩ := hplayed
  obtain ⟨posts, flags, hlock⟩ := h.population.exists_lockstep ⟨outcome, hanswer⟩
  obtain ⟨hnext, hbest, -⟩ := h.population.next hlock
  -- what is finite along one graph, is so along the other
  have hfinite : ∀ e ∈ (FactorGraph.build m' settings.maxTargets).edges,
      Scalar.isFinite (values settings m' (n + 1) e) = true := by
    refine (hrelabels.forall_edges _).2 fun e he => ?_
    rw [hrelabels.values_rename]
    exact hnext.finite e he
  obtain ⟨outcome', hanswer'⟩ := h.population'.succeeds hfinite solver others round
  obtain ⟨posts', flags', hlock'⟩ := h.population'.exists_lockstep ⟨outcome', hanswer'⟩
  obtain ⟨hnext', hbest', -⟩ := h.population'.next hlock'
  have htwins : Twins F G settings m m' (n + 1) _ _ :=
    of_targets hrelabels hnext hnext' fun a ha b hb hid =>
      hrelabels.earliestBest_map settings.maxTargets (hbest a ha) (hid ▸ hbest' b hb)
  have hquiet : true ∉ flags' ↔ true ∉ flags := by
    rw [h.population'.quiet_iff_held hlock', h.population.quiet_iff_held hlock,
      hrelabels.forall_edges]
    simp only [hrelabels.values_rename]
    exact and_congr_left' (h.held.eq_iff htwins.held)
  refine ⟨outcome', _, ⟨hanswer', rfl⟩, htwins, htwins.held, hworth _ _ htwins.held, ?_⟩
  obtain rfl := Except.ok.inj (hlock.answer_eq.symm.trans hanswer)
  obtain rfl := Except.ok.inj (hlock'.answer_eq.symm.trans hanswer')
  rw [Bool.eq_iff_iff, Solver.restless_summarise, Solver.restless_summarise]
  exact not_iff_not.1 hquiet

end Twins

end MaxSum

/-! ## Solves with Max-Sum -/

namespace Solver

/-- Max-Sum takes the same course through relabelled problems. -/
theorem Plays.maxSum_mirrors [OrderedScalar α] [SortingScalar α] {settings : Solver.Settings α}
    {surroundings : Surroundings α} {m m' : UtilityMatrix α} {coins : Dsa.Coins α}
    {parameters : MaxSum.Settings α} {remaining : Nat} {records : List (RoundRecord α)}
    {termination : Termination} {last : List (Algorithm.Agent α)}
    (h : Plays settings surroundings m 1 ((Algorithm.maxSum parameters).population coins m)
      remaining records termination last)
    (hrelabels : Relabels F G m m')
    (hworth : ∀ x y : Assignment, x.Mirrors F G y → m'.totalUtility y = m.totalUtility x)
    (hbudget : settings.timeBudgetMs = none) (others : Surroundings α) :
    ∃ records' last',
      Plays settings others m' 1 ((Algorithm.maxSum parameters).population coins m') remaining
        records' termination last' ∧
      List.Forall₂ (RoundRecord.Mirrors F G) records records' := by
  have hround : ∀ round agents agents' outcome next,
      (∃ n, MaxSum.Twins F G parameters m m' n agents agents') →
      (playRound settings surroundings round agents).EndsWith outcome next →
        ∃ outcome' next', (playRound settings others round agents').EndsWith outcome' next' ∧
          (∃ n, MaxSum.Twins F G parameters m m' n next next') ∧
          (summarise m agents next outcome).Mirrors F G
            (summarise m' agents' next' outcome') := by
    rintro round agents agents' outcome next ⟨n, htwins⟩ hplayed
    obtain ⟨outcome', next', hplayed', hnext, hrecord⟩ := htwins.next hrelabels hworth hplayed
    exact ⟨outcome', next', hplayed', ⟨n + 1, hnext⟩, hrecord⟩
  obtain ⟨inner, hinner, -⟩ := (plays_map_iff Algorithm.Agent.embeds_maxSum).1 h
  obtain ⟨records', last', hplays, hrecords, -⟩ := hinner.follow hround
    (fun _ _ hrecord => hrecord.restless_eq) hbudget hbudget ⟨0, .start hrelabels parameters⟩
  exact ⟨records', _, hplays.map Algorithm.Agent.embeds_maxSum, hrecords⟩

/-- A solve with Max-Sum that does not repair and watches no clock comes to the same assignment by
the same rounds, at the same utilities and with as many messages, in whatever order its agents are
listed. -/
theorem agent_order_does_not_matter [OrderedScalar α] [SortingScalar α] {coins : Dsa.Coins α}
    {settings : Solver.Settings α} {parameters : MaxSum.Settings α}
    (hmaxSum : settings.algorithm = .maxSum parameters) (hrepair : settings.repair = false)
    (hbudget : settings.timeBudgetMs = none) {oracle : Oracle α} {surroundings : Surroundings α}
    {inst : Instance} {solution : Solution α}
    (hsolved : (solveBuiltIn coins settings (some oracle) surroundings inst).answer =
      .ok solution)
    {agents : List EntityId} (horder : agents.Perm inst.agents) (others : Surroundings α) :
    ∃ solution',
      (solveBuiltIn coins settings (some oracle) others { inst with agents }).answer =
        .ok solution' ∧
      solution'.assignment = solution.assignment ∧
      let s := solution.stats
      let s' := solution'.stats
      s'.utilities = s.utilities ∧ s'.rounds = s.rounds ∧ s'.termination = s.termination ∧
      s'.messages = s.messages ∧ s'.messageBytes = s.messageBytes ∧
      s'.finalUtility = s.finalUtility ∧ s'.bestUtility = s.bestUtility := by
  obtain ⟨m, start, records, termination, last, hsetUp, hplays, rfl⟩ := solve_eq_ok_iff.1 hsolved
  obtain ⟨hvalid, hbuild, hstart⟩ := setUp_builtIn_iff.1 hsetUp
  have hproblem : inst.Relabels (.refl _) (.refl _) oracle { inst with agents } oracle :=
    ⟨horder.trans (.of_eq (List.map_id _).symm), (List.map_id _).symm, fun _ _ _ _ => rfl,
      fun _ _ => rfl⟩
  obtain ⟨m', hsetUp'⟩ :=
    (hproblem.accepts_iff.2 (accepts_of_setUp hsetUp)).setUp_eq coins
  obtain ⟨-, hbuild', -⟩ := setUp_builtIn_iff.1 hsetUp'
  have hrelabels := hproblem.matrix hbuild hbuild'
  have hworth := fun x y => hrelabels.totalUtility_eq_of_refl (x := x) (y := y)
  rw [hstart, hmaxSum] at hplays
  obtain ⟨records', last', hplays', hrecords⟩ :=
    hplays.maxSum_mirrors hrelabels hworth hbudget others
  obtain ⟨hmessages, hbytes, -⟩ := hplays.costs_maxSum hvalid.maxRounds_ne
  obtain ⟨hmessages', hbytes', -⟩ := hplays'.costs_maxSum hvalid.maxRounds_ne
  rw [← hrecords.length_eq, hrelabels.linkCount_eq, ← hmessages] at hmessages'
  rw [hmessages', ← hbytes] at hbytes'
  obtain ⟨x, y, u, hfinal, heq, heq'⟩ := finalBranch_mirrors hrecords hworth
  obtain ⟨z, w, v, hbest, heqBest, heqBest'⟩ := bestBranch_mirrors hrecords hworth
  rw [Assignment.mirrors_refl_iff] at hfinal hbest
  refine ⟨_, solve_eq_ok_iff.2 ⟨m', _, records', termination, _, hsetUp', hmaxSum ▸ hplays', rfl⟩,
    ?_, utilities_eq_of_mirrors hrecords, hrecords.length_eq.symm, rfl, hmessages', hbytes', ?_, ?_⟩
  · show select settings (finalBranch m' records') (bestBranch m' records') =
      select settings (finalBranch m records) (bestBranch m records)
    rw [select, select, hrepair, heq, heq', heqBest, heqBest']
    cases settings.anytime <;> simp only [branch_assignment, hfinal, hbest]
  · show (finalBranch m' records').utility = (finalBranch m records).utility
    rw [heq, heq', branch_utility, branch_utility]
  · show (bestBranch m' records').utility = (bestBranch m records).utility
    rw [heqBest, heqBest', branch_utility, branch_utility]

/-- The first target is worth the same to both agents, so that the one listed first hosts its
function. -/
def attraction : Oracle Float where
  utility a t := if t = .ofNat 3 then 10 else Scalar.ofNat a.toNat
  need _ := 1

/-- The function changes its host, and nothing else. -/
theorem courting_order_does_not_matter :
    ∃ solution,
      (solveBuiltIn (fun _ _ _ => true) Settings.default (some attraction) .still
        courting).answer = .ok solution ∧
      solution.stats.rounds = 10 ∧
      ∃ solution', (solveBuiltIn (fun _ _ _ => true) Settings.default (some attraction) .still
          { courting with agents := [.ofNat 2, .ofNat 1] }).answer = .ok solution' ∧
        solution'.assignment = solution.assignment ∧
        let s := solution.stats
        let s' := solution'.stats
        s'.utilities = s.utilities ∧ s'.rounds = s.rounds ∧ s'.termination = s.termination ∧
        s'.messages = s.messages ∧ s'.messageBytes = s.messageBytes ∧
        s'.finalUtility = s.finalUtility ∧ s'.bestUtility = s.bestUtility := by
  have hstats : (solveBuiltIn (fun _ _ _ => true) Settings.default (some attraction) .still
      courting).answer.toOption.map (fun s => s.stats.rounds) = some 10 := by
    decide +kernel
  obtain ⟨solution, hsolved, hrounds⟩ := eq_ok_of_map_eq_some hstats
  exact ⟨solution, hsolved, hrounds,
    agent_order_does_not_matter rfl rfl rfl hsolved (by decide) .still⟩

end Solver

end Dispatch
