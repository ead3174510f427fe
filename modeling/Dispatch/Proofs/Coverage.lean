import Mathlib
import Dispatch.Proofs.Failures
import Dispatch.Proofs.Incumbent
/-!
# Everybody gets a target

An agent of either algorithm comes out of every round with one of its choices, unless it has none
(`Solver.picksFrom_after`): Max-Sum chooses from the candidates it considers, DSA from all targets.
Repair only ever moves an agent of the matrix to one of its targets (`picksFrom_repaired`), so it
leaves nobody without. Hence `Solver.every_agent_gets_a_target`.
-/

namespace Dispatch

/-! ## Picking from choices -/

/-- One of the choices, or none if there are none. -/
def Picks (choices : List EntityId) : Option EntityId → Prop
  | none => choices = []
  | some t => t ∈ choices

theorem Picks.exists_mem {choices : List EntityId} {choice : Option EntityId}
    (h : Picks choices choice) (hne : choices ≠ []) : ∃ t ∈ choices, choice = some t := by
  cases choice with
  | none => exact absurd h hne
  | some t => exact ⟨t, h, rfl⟩

theorem Picks.eq_none {choice : Option EntityId} (h : Picks [] choice) : choice = none := by
  cases choice with
  | none => rfl
  | some t => cases h

theorem Picks.mono {choices choices' : List EntityId} {choice : Option EntityId}
    (h : Picks choices choice) (hsub : ∀ t ∈ choices, t ∈ choices')
    (hnil : choices = [] → choices' = []) : Picks choices' choice := by
  cases choice with
  | none => exact hnil h
  | some t => exact hsub t h

namespace Assignment

/-- Every one of these agents has picked from its choices, and nobody else has a target. -/
structure PicksFrom (ids : List EntityId) (choices : EntityId → List EntityId) (x : Assignment) :
    Prop where
  picks : ∀ a ∈ ids, Picks (choices a) (x.get? a)
  mem_ids : ∀ a t, x.get? a = some t → a ∈ ids

theorem PicksFrom.mem_of_get? {ids targets : List EntityId} {x : Assignment}
    (h : x.PicksFrom ids fun _ => targets) {a t : EntityId} (ht : x.get? a = some t) :
    a ∈ ids ∧ t ∈ targets := by
  have ha := h.mem_ids a t ht
  have hpick := h.picks a ha
  rw [ht] at hpick
  exact ⟨ha, hpick⟩

theorem PicksFrom.eq_empty {ids : List EntityId} {choices : EntityId → List EntityId}
    {x : Assignment} (h : x.PicksFrom ids choices) (hnone : ∀ a ∈ ids, choices a = []) :
    x = .empty := by
  apply Assignment.ext_get?
  intro a
  show x.get? a = none
  by_cases ha : a ∈ ids
  · exact (hnone a ha ▸ h.picks a ha).eq_none
  · exact Option.eq_none_iff_forall_ne_some.2 fun t ht => ha (h.mem_ids a t ht)

end Assignment

variable {α σ : Type}

/-- What agents hold that all pick from their choices. -/
theorem Solver.picksFrom_held [Agent α σ] {agents : List σ} {ids : List EntityId}
    {choices : EntityId → List EntityId} (hids : agents.map Agent.id = ids) (hnodup : ids.Nodup)
    (h : ∀ a ∈ agents, Picks (choices (Agent.id a)) (Agent.target a)) :
    (held agents).PicksFrom ids choices := by
  have hnodup' : (agents.map Agent.id).Nodup := hids.symm ▸ hnodup
  refine ⟨fun b hb => ?_, fun b t hb => ?_⟩
  · rw [← hids] at hb
    obtain ⟨a, ha, rfl⟩ := List.mem_map.1 hb
    rw [get?_held_of_mem hnodup' ha]
    exact h a ha
  · obtain ⟨a, ha, rfl, -⟩ := (get?_held hnodup').1 hb
    rw [← hids]
    exact List.mem_map_of_mem ha

variable [Scalar α]

/-! ## Repair -/

section Repair
variable [OrderedScalar α] {m : UtilityMatrix α}

/-- Agents of the matrix move to its targets. -/
theorem Sweep.picksFrom_foldl {s : Sweep α} (hcounted : s.Counted)
    (h : s.assignment.PicksFrom m.agents fun _ => m.targets) {agents : List EntityId}
    (hagents : ∀ a ∈ agents, a ∈ m.agents) :
    (agents.foldl (step m) s).assignment.PicksFrom m.agents fun _ => m.targets := by
  induction agents generalizing s with
  | nil => exact h
  | cons a rest ih =>
    obtain ⟨ha, hrest⟩ := List.forall_mem_cons.1 hagents
    rw [List.foldl_cons]
    rcases step_cases m hcounted a with ⟨hstay, -⟩ | ⟨t, ht, -, -, hassign, -, hnext⟩
    · rw [hstay]
      exact ih hcounted h hrest
    · refine ih hnext ⟨fun b hb => ?_, fun b u hb => ?_⟩ hrest
      · rw [hassign, Assignment.get?_assign]
        split
        · exact ht
        · exact h.picks b hb
      · rw [hassign, Assignment.get?_assign] at hb
        split at hb
        · rename_i heq
          exact heq ▸ ha
        · exact h.mem_ids b u hb

theorem picksFrom_repaired {x : Assignment} (h : x.PicksFrom m.agents fun _ => m.targets) :
    (repaired m x).PicksFrom m.agents fun _ => m.targets :=
  Sweep.picksFrom_foldl (Sweep.counted_start x) h fun _ ha => ha

end Repair

/-! ## Rounds -/

/-- What an agent of an algorithm chooses from. -/
def Algorithm.choices (m : UtilityMatrix α) : Algorithm α → EntityId → List EntityId
  | maxSum settings => FactorGraph.considered m settings.maxTargets
  | dsa _ => fun _ => m.targets

theorem Algorithm.mem_targets_of_choices {m : UtilityMatrix α} {algorithm : Algorithm α}
    {a t : EntityId} (h : t ∈ algorithm.choices m a) : t ∈ m.targets := by
  cases algorithm with
  | maxSum settings => exact FactorGraph.mem_targets_of_considered m settings.maxTargets h
  | dsa settings => exact h

theorem Algorithm.Valid.targets_eq_nil {m : UtilityMatrix α} {algorithm : Algorithm α}
    (hvalid : algorithm.Valid) {a : EntityId} (h : algorithm.choices m a = []) :
    m.targets = [] := by
  cases algorithm with
  | dsa settings => exact h
  | maxSum settings =>
    change FactorGraph.considered m settings.maxTargets a = [] at h
    unfold FactorGraph.considered at h
    split at h
    · rename_i k hk
      rcases List.take_eq_nil_iff.1 h with hzero | hnil
      · exact absurd (hk.trans (congrArg some hzero)) hvalid.maxTargets_ne
      · exact List.perm_nil.1 (hnil ▸ UtilityMatrix.ranked_perm (m.utility a) m.targets).symm
    · exact h

/-- Whatever an algorithm lets its agents choose from, they end up with one of all targets. -/
theorem Assignment.PicksFrom.of_choices {m : UtilityMatrix α} {algorithm : Algorithm α}
    (hvalid : algorithm.Valid) {x : Assignment}
    (h : x.PicksFrom m.agents (algorithm.choices m)) :
    x.PicksFrom m.agents fun _ => m.targets where
  picks := fun a ha => (h.picks a ha).mono (fun _ => Algorithm.mem_targets_of_choices)
    hvalid.targets_eq_nil
  mem_ids := h.mem_ids

theorem MaxSum.EarliestBest.picks {score : EntityId → α} {candidates : List EntityId}
    {choice : Option EntityId} (h : EarliestBest score candidates choice) :
    Picks candidates choice := by
  cases choice with
  | none => exact h
  | some t => exact h.mem t rfl

namespace Dsa

/-- An agent without a target takes one at once, if there are any. -/
theorem Agent.picks_improve {a : Agent Rat}
    (h : ∀ t, a.target = some t → t ∈ a.matrix.targets) :
    Picks a.matrix.targets a.improve.agent.target := by
  have hbest : Picks a.matrix.targets (a.outlook.bestResponse a.target) := by
    rcases a.outlook.bestResponse_cases a.target with ⟨hstay, hall⟩ | ⟨t, ht, hmove, -⟩
    · rw [hstay]
      cases htarget : a.target with
      | some t => exact h t htarget
      | none =>
        -- any target is better than none
        refine List.eq_nil_iff_forall_not_mem.2 fun t ht => ?_
        have hnot := hall t ht
        rw [htarget] at hnot
        cases hnot
    · rw [hmove]
      exact ht
  unfold improve
  dsimp only
  split
  · rename_i hstay
    exact hstay ▸ hbest
  · split
    · exact hbest
    · split
      · exact hbest
      · rename_i hsome _
        obtain ⟨t, ht⟩ : ∃ t, a.target = some t :=
          Option.ne_none_iff_exists'.1 (by simpa using hsome)
        show Picks _ a.target
        rw [ht]
        exact h t ht

variable {m : UtilityMatrix Rat} {agents : List (Agent Rat)} {posts : List (Message Rat)}
  {flags : List Bool} {progress : Progress Rat (Algorithm.Agent Rat) (Round.Outcome Rat)}

/-- Agents that hold nothing but targets of the matrix all hold one after a round. -/
theorem Population.picks_of_lockstep (h : Population m agents)
    (hheld : ∀ a ∈ agents, ∀ t, a.target = some t → t ∈ m.targets)
    (hlock : Round.Lockstep (Population.wrap agents) posts flags progress) :
    ∃ next, progress.agents = Population.wrap next ∧ Population m next ∧
      ∀ a ∈ next, Picks m.targets a.target := by
  obtain ⟨heard, hagents, hpop, -, hheard⟩ := h.agents_of_lockstep hlock
  refine ⟨_, hagents, hpop, List.forall_mem_map.2 fun a ha => ?_⟩
  have hmatrix := (hheard a ha).informed.matrix_eq
  rw [← hmatrix]
  apply Agent.picks_improve
  rw [(hheard a ha).target_eq, hmatrix]
  exact hheld a ha

end Dsa

namespace Solver
variable {settings : Solver.Settings Rat} {surroundings : Surroundings Rat} {m : UtilityMatrix Rat}

variable (settings surroundings m) in
/-- Nobody has a target before the first round, and all have picked one after any other. -/
theorem dsa_picks_after (coins : Dsa.Coins Rat) (d : Dsa.Settings Rat) (n : Nat) :
    ∃ inner, after settings surroundings (Dsa.Population.wrap (Dsa.agents coins d m)) n =
        Dsa.Population.wrap inner ∧ Dsa.Population m inner ∧
      ∀ a ∈ inner, if n = 0 then a.target = none else Picks m.targets a.target := by
  refine dsa_after (P := fun n a => if n = 0 then a.target = none else Picks m.targets a.target)
    coins d (fun _ ha => Dsa.Population.target_start ha)
    (fun n agents hpop hagents posts flags progress hlock => ?_) n
  refine hpop.picks_of_lockstep (fun a ha t ht => ?_) hlock
  have hpick := hagents a ha
  split at hpick
  · cases hpick.symm.trans ht
  · rwa [ht] at hpick

/-- After a round, every agent of the matrix has picked from its choices. -/
theorem picksFrom_after (coins : Dsa.Coins Rat) (algorithm : Algorithm Rat) (n : Nat) :
    (held (after settings surroundings (algorithm.population coins m) (n + 1))).PicksFrom
      m.agents (algorithm.choices m) := by
  cases algorithm with
  | maxSum s =>
    have hpop := MaxSum.population_exact s m settings surroundings (n + 1)
    rw [Algorithm.population, after_map settings surroundings Algorithm.Agent.embeds_maxSum,
      held_map Algorithm.Agent.embeds_maxSum]
    refine picksFrom_held hpop.ids_eq m.agents_nodup fun a ha => ?_
    have hbest := MaxSum.target_after (fun k _ => MaxSum.rounds_succeed (fun _ => rfl) k) a ha
    have hin : a.id ∈ m.agents := hpop.mem_agents.2 ⟨a, ha, rfl⟩
    rw [FactorGraph.candidatesOf_build hin] at hbest
    exact hbest.picks
  | dsa d =>
    obtain ⟨inner, hinner, hpop, hpicks⟩ :=
      dsa_picks_after settings surroundings m coins d (n + 1)
    rw [Algorithm.population, hinner]
    refine picksFrom_held ?_ m.agents_nodup (List.forall_mem_map.2 hpicks)
    rw [Dsa.Population.ids_wrap, hpop.ids_eq]

end Solver

/-! ## No targets -/

namespace MaxSum

variable {settings : Settings α} {m : UtilityMatrix α}

/-- An agent without candidates has nothing to say and nothing to change. -/
theorem Agent.improve_of_no_targets {a : Agent α} (h : a.Fits settings m) (hm : m.targets = [])
    (htarget : a.target = none) (hsettled : a.outbox.settled = true) :
    a.improve.answer = .ok false := by
  have hcandidates : a.graph.candidatesOf a.id = [] := by
    refine List.eq_nil_iff_forall_not_mem.2 fun t ht => ?_
    rw [h.graph_eq] at ht
    have hin := FactorGraph.mem_targets_of_candidatesOf ht
    rw [hm] at hin
    cases hin
  have howned : a.owned = [] := by
    rw [owned, h.graph_eq, FactorGraph.hostedBy, FactorGraph.build, hm]
    rfl
  have hupdates : a.updates = [⟨0, []⟩] := by
    simp [updates, variableGains, candidates, hcandidates, howned]
  simp [improve, hupdates, runUpdates, emit, favourite, candidates, hcandidates, htarget, isSettled,
    hsettled]

theorem Population.quiet_of_no_targets {n : Nat} {agents : List (Agent α)}
    (h : Population settings m n agents) (hm : m.targets = [])
    (hnone : ∀ a ∈ agents, a.target = none) {posts : List (Message α)} {flags : List Bool}
    {progress : Progress α (Agent α) (Round.Outcome α)}
    (hlock : Round.Lockstep agents posts flags progress) : true ∉ flags := by
  intro hin
  have hanswer : (.ok true : Except (Error α) Bool) ∈ flags.map .ok := List.mem_map_of_mem hin
  rw [← hlock.flags_eq] at hanswer
  obtain ⟨a, ha, hanswer⟩ := List.mem_map.1 hanswer
  obtain ⟨b, hreply, -, htarget, houtbox, hfits, -⟩ := h.replyTo_eq_improve hlock.posts_perm ha
  have hquiet := Agent.improve_of_no_targets hfits hm (htarget.trans (hnone a ha)) (by rw [houtbox])
  rw [hreply, hquiet] at hanswer
  cases hanswer

end MaxSum

namespace Dsa

theorem Agent.improve_of_no_targets {a : Agent α} (hm : a.matrix.targets = []) :
    a.improve.answer = .ok false := by
  have hbest : a.outlook.bestResponse a.target = a.target := by
    rw [Outlook.bestResponse, show a.outlook.matrix.targets = [] from hm]
    rfl
  rw [improve, if_pos hbest]

theorem Population.quiet_of_no_targets {m : UtilityMatrix α} {agents : List (Agent α)}
    (h : Population m agents) (hm : m.targets = [])
    {posts : List (Message α)} {flags : List Bool}
    {progress : Progress α (Algorithm.Agent α) (Round.Outcome α)}
    (hlock : Round.Lockstep (Population.wrap agents) posts flags progress) : true ∉ flags := by
  intro hin
  obtain ⟨heard, -, -, hflags, hheard⟩ := h.agents_of_lockstep hlock
  have hanswer : (.ok true : Except (Error α) Bool) ∈ flags.map .ok := List.mem_map_of_mem hin
  rw [← hflags] at hanswer
  obtain ⟨a, ha, hanswer⟩ := List.mem_map.1 hanswer
  have hquiet := Agent.improve_of_no_targets ((hheard a ha).informed.matrix_eq ▸ hm)
  rw [hquiet] at hanswer
  cases hanswer

end Dsa

namespace Solver

/-- Where there is nothing to choose from, nobody asks for a second round. -/
theorem not_asksAgain_of_no_targets [OrderedScalar α] {coins : Dsa.Coins α}
    {algorithm : Algorithm α} {settings : Solver.Settings α} {surroundings : Surroundings α}
    {m : UtilityMatrix α} (hm : m.targets = []) :
    ¬ AsksAgain settings surroundings (algorithm.population coins m) 1 := by
  cases algorithm with
  | maxSum s =>
    rw [Algorithm.population, asksAgain_map settings surroundings Algorithm.Agent.embeds_maxSum]
    rintro ⟨outcome, hanswer, hin⟩
    have hpop := MaxSum.Population.start s m
    obtain ⟨posts, flags, hlock⟩ := playRound_lockstep settings surroundings 1 hpop.sendsFreely
      hpop.nodup_sent_ids hanswer
    have hnone : ∀ a ∈ MaxSum.agents s m, a.target = none := by
      intro a ha
      obtain ⟨id, -, rfl⟩ := List.mem_map.1 ha
      rfl
    obtain rfl := Except.ok.inj (hlock.answer_eq.symm.trans hanswer)
    exact hpop.quiet_of_no_targets hm hnone hlock hin
  | dsa d =>
    rintro ⟨outcome, hanswer, hin⟩
    have hpop := Dsa.Population.start coins d m
    obtain ⟨posts, flags, hlock⟩ := hpop.exists_lockstep settings surroundings 1
    obtain rfl := Except.ok.inj (hlock.answer_eq.symm.trans hanswer)
    exact hpop.quiet_of_no_targets hm hlock hin

/-! ## Solves -/

theorem branch_repaired_cases (m : UtilityMatrix α) (name : String) (x : Assignment) (utility : α) :
    (branch m name x utility).repaired = x ∨
      (branch m name x utility).repaired = repaired m x := by
  unfold branch
  dsimp only
  split
  · exact .inl rfl
  · exact .inr rfl

/-- What is returned are the targets held after some round, or what repair makes of them. -/
theorem Plays.exists_returned [SummingScalar α] [Agent α σ] {settings : Solver.Settings α}
    {surroundings : Surroundings α} {m : UtilityMatrix α} {start last : List σ} {remaining : Nat}
    {termination : Termination} {records : List (RoundRecord α)}
    (h : Plays settings surroundings m 1 start remaining records termination last)
    (hremaining : remaining ≠ 0) :
    ∃ n, let returned := select settings (finalBranch m records) (bestBranch m records)
      returned = held (after settings surroundings start (n + 1)) ∨
        settings.repair = true ∧
          returned = repaired m (held (after settings surroundings start (n + 1))) := by
  -- whichever branch it is, it comes from one of the records
  have hbranch : ∀ (i : Nat) (r : RoundRecord α) (name : String), records[i]? = some r →
      let b := branch m name r.assignment r.utility
      let x := held (after settings surroundings start (i + 1))
      b.assignment = x ∧ (b.repaired = x ∨ b.repaired = repaired m x) := by
    intro i r name hr
    rw [← (h.recordOf_succ hr).assignment_eq]
    exact ⟨branch_assignment m name _ _, branch_repaired_cases m name _ _⟩
  obtain ⟨final, hlast, hfinal⟩ := h.exists_finalBranch hremaining
  obtain ⟨i, best, hincumbent, hbest⟩ := h.exists_bestBranch hremaining
  rw [List.getLast?_eq_getElem?] at hlast
  obtain ⟨hfinalUnrepaired, hfinalRepaired⟩ := hbranch _ final "final" hlast
  obtain ⟨hbestUnrepaired, hbestRepaired⟩ := hbranch i best "best" hincumbent.here
  rw [← hfinal] at hfinalUnrepaired hfinalRepaired
  rw [← hbest] at hbestUnrepaired hbestRepaired
  unfold select
  cases settings.anytime <;> cases settings.repair
  · exact ⟨_, .inl hfinalUnrepaired⟩
  · exact ⟨_, hfinalRepaired.imp_right fun h => ⟨rfl, h⟩⟩
  · exact ⟨_, .inl hbestUnrepaired⟩
  · exact ⟨_, hbestRepaired.imp_right fun h => ⟨rfl, h⟩⟩

section Solutions
variable [Agent α σ] {factory : Factory α σ} {settings : Solver.Settings α}
  {oracle : Option (Oracle α)} {surroundings : Surroundings α} {inst : Instance}
  {m : UtilityMatrix α} {agents : List σ} {solution : Solution α}
  (hsetUp : setUp factory settings oracle inst = .ok (m, agents))
  (hsolved : (solve factory settings oracle surroundings inst).answer = .ok solution)
include hsetUp hsolved

theorem exists_course :
    settings.maxRounds ≠ 0 ∧ ∃ records termination last,
      Plays settings surroundings m 1 agents settings.maxRounds records termination last ∧
      solution = conclusion factory.name settings surroundings m records termination last := by
  obtain ⟨m', agents', records, termination, last, hsetUp', hplays, hsolution⟩ :=
    solve_eq_ok_iff.1 hsolved
  cases hsetUp.symm.trans hsetUp'
  obtain ⟨_, -, hvalid, -⟩ := setUp_eq_ok_iff.1 hsetUp
  exact ⟨maxRounds_ne_zero_of_validate hvalid, records, termination, last, hplays, hsolution⟩

theorem exists_returned [SummingScalar α] :
    ∃ n, solution.assignment = held (after settings surroundings agents (n + 1)) ∨
      settings.repair = true ∧ solution.assignment =
        repaired m (held (after settings surroundings agents (n + 1))) := by
  obtain ⟨hmaxRounds, records, termination, last, hplays, rfl⟩ := exists_course hsetUp hsolved
  exact hplays.exists_returned hmaxRounds

theorem converged_of_quiet_start (hquiet : ¬ AsksAgain settings surroundings agents 1) :
    solution.stats.rounds = 1 ∧ solution.stats.termination = .converged := by
  obtain ⟨hmaxRounds, records, termination, last, hplays, rfl⟩ := exists_course hsetUp hsolved
  exact hplays.of_quiet le_rfl (Nat.one_le_iff_ne_zero.2 hmaxRounds)
    (fun n hpos hn => absurd hn (Nat.not_lt.2 hpos)) hquiet

end Solutions

/-- In exact arithmetic every value is finite, so what is accepted is solved. -/
theorem Accepts.exists_solution {settings : Solver.Settings Rat} {oracle : Oracle Rat}
    {inst : Instance} (h : Accepts settings oracle inst) (coins : Dsa.Coins Rat)
    (surroundings : Surroundings Rat) :
    ∃ m solution,
      setUp (settings.algorithm.factory coins) settings (some oracle) inst =
        .ok (m, settings.algorithm.population coins m) ∧
      (solveBuiltIn coins settings (some oracle) surroundings inst).answer = .ok solution := by
  obtain ⟨m, hsetUp⟩ := h.setUp_eq coins
  rcases (solveBuiltIn_ends hsetUp surroundings).cases with ⟨solution, hsolution, -⟩ |
    ⟨_, -, -, _, _, hinfinite, -⟩
  · exact ⟨m, solution, hsetUp, hsolution⟩
  · exact absurd rfl hinfinite

/-- Whatever is returned, every agent of the problem has picked from its targets. -/
theorem picksFrom_returned {coins : Dsa.Coins Rat} {settings : Settings Rat} {oracle : Oracle Rat}
    {surroundings : Surroundings Rat} {inst : Instance} {m : UtilityMatrix Rat}
    {solution : Solution Rat}
    (hsetUp : setUp (settings.algorithm.factory coins) settings (some oracle) inst =
      .ok (m, settings.algorithm.population coins m))
    (hsolved : (solveBuiltIn coins settings (some oracle) surroundings inst).answer =
      .ok solution) :
    solution.assignment.PicksFrom inst.agents fun _ => inst.targets := by
  obtain ⟨hvalid, hbuild, -⟩ := setUp_builtIn_iff.1 hsetUp
  obtain ⟨hagents, htargets⟩ := UtilityMatrix.build_eq_ok hbuild
  rw [← hagents, ← htargets]
  obtain ⟨n, hreturned⟩ := exists_returned hsetUp hsolved
  have hround : (held (after settings surroundings (settings.algorithm.population coins m)
      (n + 1))).PicksFrom m.agents (settings.algorithm.choices m) :=
    picksFrom_after coins settings.algorithm n
  have hheld := hround.of_choices hvalid.algorithm
  rcases hreturned with heq | ⟨-, heq⟩
  · exact heq ▸ hheld
  · exact heq ▸ picksFrom_repaired hheld

end Solver

/-- Every agent of a problem has one of its targets, and nobody else has any. -/
structure Assignment.Complete (inst : Instance) (x : Assignment) : Prop where
  exists_target : ∀ a ∈ inst.agents, ∃ t ∈ inst.targets, x.get? a = some t
  mem_of_get? : ∀ a t, x.get? a = some t → a ∈ inst.agents ∧ t ∈ inst.targets

theorem Assignment.PicksFrom.complete {inst : Instance} {x : Assignment}
    (h : x.PicksFrom inst.agents fun _ => inst.targets) (hne : inst.targets ≠ []) :
    x.Complete inst where
  exists_target := fun a ha => (h.picks a ha).exists_mem hne
  mem_of_get? := fun _ _ => h.mem_of_get?

/-- If Max-Sum considers so many targets per agent, what an agent picks is one of them. -/
theorem Assignment.PicksFrom.exists_top {m : UtilityMatrix α} {algorithm : Algorithm α}
    {x : Assignment} (h : x.PicksFrom m.agents (algorithm.choices m)) (hvalid : algorithm.Valid)
    (hne : m.targets ≠ []) {s : MaxSum.Settings α} (hmaxSum : algorithm = .maxSum s) {k : Nat}
    (hlimit : s.maxTargets = some k) {a : EntityId} (ha : a ∈ m.agents) :
    ∃ t ∈ m.topTargets a k, x.get? a = some t := by
  have hchoices : algorithm.choices m a = m.topTargets a k := by
    rw [hmaxSum]
    show FactorGraph.considered m s.maxTargets a = _
    rw [hlimit]
    rfl
  rw [← hchoices]
  exact (h.picks a ha).exists_mem fun hnil => hne (hvalid.targets_eq_nil hnil)

namespace Solver

/-- In exact arithmetic, a solve with a built-in algorithm under valid settings gives every agent of
the problem exactly one of its targets, after every round and in what it returns, repaired or not,
and nothing to anybody else. If Max-Sum considers so many targets per agent, it is one of these
until repair. Without targets nobody has any, and the first round is the last. -/
theorem every_agent_gets_a_target {settings : Solver.Settings Rat} (hvalid : settings.Valid)
    {inst : Instance} (hagents : inst.agents.Nodup) (htargets : inst.targets.Nodup)
    (coins : Dsa.Coins Rat) (oracle : Oracle Rat) (surroundings : Surroundings Rat) :
    ∃ m solution,
      let start := settings.algorithm.population coins m
      setUp (settings.algorithm.factory coins) settings (some oracle) inst = .ok (m, start) ∧
      (solveBuiltIn coins settings (some oracle) surroundings inst).answer = .ok solution ∧
      (inst.targets ≠ [] →
        (∀ n, (held (after settings surroundings start (n + 1))).Complete inst) ∧
        solution.assignment.Complete inst ∧
        ∀ s k, settings.algorithm = .maxSum s → s.maxTargets = some k → ∀ a ∈ inst.agents,
          (∀ n, ∃ t ∈ m.topTargets a k,
            (held (after settings surroundings start (n + 1))).get? a = some t) ∧
          (settings.repair = false →
            ∃ t ∈ m.topTargets a k, solution.assignment.get? a = some t)) ∧
      (inst.targets = [] → solution.assignment = .empty ∧ solution.stats.rounds = 1 ∧
        solution.stats.termination = .converged) := by
  have haccepts : Accepts settings oracle inst := ⟨hvalid, hagents, htargets, fun _ _ _ _ => rfl⟩
  obtain ⟨m, solution, hsetUp, hsolved⟩ := haccepts.exists_solution coins surroundings
  obtain ⟨-, hbuild, -⟩ := setUp_builtIn_iff.1 hsetUp
  obtain ⟨hmagents, hmtargets⟩ := UtilityMatrix.build_eq_ok hbuild
  rw [← hmagents, ← hmtargets]
  have hround : ∀ n, (held (after settings surroundings (settings.algorithm.population coins m)
      (n + 1))).PicksFrom m.agents (settings.algorithm.choices m) :=
    picksFrom_after coins settings.algorithm
  have hheld := fun n => (hround n).of_choices hvalid.algorithm
  have hcomplete : ∀ x : Assignment, x.PicksFrom m.agents (fun _ => m.targets) →
      m.targets ≠ [] → x.Complete inst := by
    rw [hmagents, hmtargets]
    exact fun x => Assignment.PicksFrom.complete
  obtain ⟨last, hreturned⟩ := exists_returned hsetUp hsolved
  have hassignment : solution.assignment.PicksFrom m.agents fun _ => m.targets := by
    rw [hmagents, hmtargets]
    exact picksFrom_returned hsetUp hsolved
  refine ⟨m, solution, hsetUp, hsolved, fun hne => ⟨fun n => hcomplete _ (hheld n) hne,
    hcomplete _ hassignment hne, fun s k hmaxSum hlimit a ha => ?_⟩, fun hnone => ⟨?_, ?_⟩⟩
  · have htop := fun n => (hround n).exists_top hvalid.algorithm hne hmaxSum hlimit ha
    refine ⟨htop, fun hrepair => ?_⟩
    rcases hreturned with heq | ⟨hrepaired, -⟩
    · exact heq ▸ htop last
    · cases hrepair.symm.trans hrepaired
  · exact hassignment.eq_empty fun _ _ => hnone
  · exact converged_of_quiet_start hsetUp hsolved (not_asksAgain_of_no_targets hnone)

/-- A solver whose agents look at one target each, and which repairs its best round. -/
def shortsighted : Solver.Settings Rat :=
  { Solver.Settings.default with
    anytime := true, repair := true, algorithm := .maxSum ⟨1 / 2, some 1⟩ }

theorem shortsighted_valid : shortsighted.Valid :=
  ⟨by decide, by decide +kernel, by decide +kernel, by decide +kernel, by decide⟩

/-- All of the crew see the first target only, and still all have one after the repair. -/
theorem shortsighted_crew_gets_targets :
    shortsighted.Valid ∧ crew.agents.Nodup ∧ crew.targets.Nodup ∧
    ∃ m solution,
      let start := shortsighted.algorithm.population (fun _ _ _ => true) m
      setUp (shortsighted.algorithm.factory fun _ _ _ => true) shortsighted (some appeal) crew =
        .ok (m, start) ∧
      (solveBuiltIn (fun _ _ _ => true) shortsighted (some appeal) .still crew).answer =
        .ok solution ∧
      (∀ n, (held (after shortsighted .still start (n + 1))).Complete crew) ∧
      solution.assignment.Complete crew ∧
      ∀ a ∈ crew.agents, ∀ n, ∃ t ∈ m.topTargets a 1,
        (held (after shortsighted .still start (n + 1))).get? a = some t := by
  have hagents : crew.agents.Nodup := by decide
  have htargets : crew.targets.Nodup := by decide
  obtain ⟨m, solution, hsetUp, hsolved, hsome, -⟩ :=
    every_agent_gets_a_target shortsighted_valid hagents htargets (fun _ _ _ => true) appeal .still
  obtain ⟨hround, hreturned, htop⟩ := hsome (by decide)
  exact ⟨shortsighted_valid, hagents, htargets, m, solution, hsetUp, hsolved, hround, hreturned,
    fun a ha => (htop ⟨1 / 2, some 1⟩ 1 rfl rfl a ha).1⟩

end Solver

end Dispatch
