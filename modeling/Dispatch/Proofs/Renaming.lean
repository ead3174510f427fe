import Mathlib
import Dispatch.Proofs.Coverage
import Dispatch.Proofs.Potential
import Dispatch.Proofs.Reordering
/-!
# Renamed problems

In exact arithmetic a solve never looks at what the agents and targets are called. Best responses
follow the new names (`Outlook.Sees.bestResponse_map`), so repair does (`sweep_mirrors`) and so do
rounds of DSA (`Dsa.Twins.next`); rounds of Max-Sum do whatever the order of the agents, and if that
is kept, they also cost the same checks (`Relabels.workload_eq`). So a solve of a renamed problem
returns the renamed solution (`Solver.renaming_commutes`).
-/

namespace Dispatch

variable {α : Type} [Scalar α] {F G : Equiv.Perm EntityId}

/-! ## Best responses -/

theorem Relabels.prospect_eq {m m' : UtilityMatrix α} (h : Relabels F G m m') {x y : Assignment}
    (hxy : x.Mirrors F G y) (a t : EntityId) : m'.prospect y (F a) (G t) = m.prospect x a t := by
  rw [UtilityMatrix.prospect, UtilityMatrix.prospect, h.utility_eq, h.congestion_eq,
    hxy.othersOn_eq]

namespace Outlook

theorem bestResponse_map {s s' : Outlook α} (htargets : s'.matrix.targets = s.matrix.targets.map G)
    (hworth : ∀ t, s'.worth (G t) = s.worth t) (current : Option EntityId) :
    s'.bestResponse (current.map G) = (s.bestResponse current).map G := by
  have hscore : s'.score (current.map G) = s.score current := by
    cases current with
    | none => rfl
    | some t => exact congrArg some (hworth t)
  have hbetter : ∀ (best : Option EntityId × Score α) t,
      s'.better (best.map (Option.map G) id) (G t) = (s.better best t).map (Option.map G) id := by
    intro best t
    unfold better
    rw [hworth]
    show (if Score.exceeds (s.worth t) best.2 = true then _ else _) = _
    split <;> rfl
  have hscan : ∀ (targets : List EntityId) best,
      (targets.map G).foldl s'.better (best.map (Option.map G) id) =
        (targets.foldl s.better best).map (Option.map G) id := by
    intro targets
    induction targets with
    | nil => exact fun _ => rfl
    | cons t rest ih =>
      intro best
      rw [List.map_cons, List.foldl_cons, List.foldl_cons, hbetter, ih]
  rw [bestResponse, htargets, hscore]
  exact congrArg Prod.fst (hscan s.matrix.targets (current, s.score current))

/-- Whoever sees the mirror image answers it by the mirror image. -/
theorem Sees.bestResponse_map {s s' : Outlook α} {x y : Assignment} (hs : s.Sees x)
    (hs' : s'.Sees y) (hrelabels : Relabels F G s.matrix s'.matrix) (hagent : s'.agent = F s.agent)
    (hxy : x.Mirrors F G y) (current : Option EntityId) :
    s'.bestResponse (current.map G) = (s.bestResponse current).map G :=
  Outlook.bestResponse_map hrelabels.targets_eq
    (fun t => by rw [hs.worth, hs'.worth, hagent, hrelabels.prospect_eq hxy]) current

end Outlook

/-! ## Repair -/

section Repair
variable {m m' : UtilityMatrix Rat} (hrelabels : Relabels F G m m')
include hrelabels

namespace Sweep

theorem foldl_mirrors (agents : List EntityId) {s s' : Sweep Rat} (hs : s.Counted)
    (hs' : s'.Counted) (h : s.assignment.Mirrors F G s'.assignment) :
    (agents.foldl (step m) s).assignment.Mirrors F G
      ((agents.map F).foldl (step m') s').assignment := by
  induction agents generalizing s s' with
  | nil => exact h
  | cons a rest ih =>
    refine ih (counted_step m hs a) (counted_step m' hs' (F a)) ?_
    have hbest := (sees_view m hs a).bestResponse_map (sees_view m' hs' (F a)) hrelabels rfl h
      (s.assignment.get? a)
    rw [step_assignment, step_assignment, h a, hbest]
    cases (s.view m a).bestResponse (s.assignment.get? a) with
    | none => exact h
    | some t => exact h.assign a t

end Sweep

variable (hagents : m'.agents = m.agents.map F)
include hagents

/-- Repair makes mirror images of mirror images, if the agents take turns in the same order. -/
theorem sweep_mirrors {x y : Assignment} (h : x.Mirrors F G y) :
    (sweep m x).assignment.Mirrors F G (sweep m' y).assignment := by
  rw [sweep, sweep, hagents]
  exact Sweep.foldl_mirrors hrelabels m.agents (Sweep.counted_start x) (Sweep.counted_start y) h

/-- The branches of a result and of its mirror image. -/
structure Solver.Branch.Mirrors (F G : EntityId → EntityId) (b b' : Branch Rat) : Prop where
  assignment : b.assignment.Mirrors F G b'.assignment
  repaired : b.repaired.Mirrors F G b'.repaired
  utility_eq : b'.utility = b.utility
  repairedUtility_eq : b'.repairedUtility = b.repairedUtility
  regressed_eq : b'.regressed = b.regressed

theorem Solver.branch_mirrors {x y : Assignment} (h : x.Mirrors F G y) (name : String) (u : Rat) :
    (branch m name x u).Mirrors F G (branch m' name y u) := by
  have hswept := sweep_mirrors hrelabels hagents h
  have hreached := hrelabels.totalUtility_eq hswept
  unfold branch
  simp only [hreached]
  split
  · exact ⟨h, h, rfl, rfl, rfl⟩
  · exact ⟨h, hswept, rfl, rfl, rfl⟩

end Repair

/-! ## Checks of Max-Sum -/

namespace Relabels
variable {m m' : UtilityMatrix α} (h : Relabels F G m m') (hagents : m'.agents = m.agents.map F)
  (limit : Option Nat)
include h hagents

open FactorGraph

/-- If the agents are listed in the same order, ties between hosts are decided alike. -/
theorem functionNode?_eq (t : EntityId) :
    functionNode? m' limit (G t) =
      (functionNode? m limit t).map fun f => ⟨G f.target, f.neighbours.map F, F f.owner⟩ := by
  have hlinked : m'.agents.filter (fun a => G t ∈ considered m' limit a) =
      (m.agents.filter fun a => t ∈ considered m limit a).map F := by
    rw [hagents, List.filter_map]
    exact congrArg _ (List.filter_congr fun a _ => decide_eq_decide.2 (h.mem_considered limit))
  have howner : ∀ (agents : List EntityId) best,
      (agents.map F).foldl (fitter m' (G t)) (F best) = F (agents.foldl (fitter m t) best) := by
    intro agents
    induction agents with
    | nil => exact fun _ => rfl
    | cons a rest ih =>
      intro best
      have hfitter : fitter m' (G t) (F best) (F a) = F (fitter m t best a) := by
        rw [fitter, fitter, h.utility_eq, h.utility_eq]
        split <;> rfl
      rw [List.map_cons, List.foldl_cons, List.foldl_cons, hfitter, ih]
  unfold functionNode?
  rw [hlinked]
  cases m.agents.filter fun a => t ∈ considered m limit a with
  | nil => rfl
  | cons first rest => simp only [List.map_cons, Option.map_some, howner]

theorem hostedBy_eq (a : EntityId) :
    (build m' limit).hostedBy (F a) = ((build m limit).hostedBy a).map G := by
  have hfunctions : (build m' limit).functions = (build m limit).functions.map
      fun f => ⟨G f.target, f.neighbours.map F, F f.owner⟩ := by
    show m'.targets.filterMap _ = (m.targets.filterMap _).map _
    rw [h.targets_eq, List.filterMap_map, List.map_filterMap]
    exact List.filterMap_congr fun t _ => h.functionNode?_eq hagents limit t
  rw [hostedBy, hostedBy, hfunctions, List.filter_map, List.map_map, List.map_map]
  congr 1
  exact List.filter_congr fun f _ => by simp [F.injective.eq_iff]

/-- Each agent has as many checks to make as under its old name. -/
theorem workload_eq (a : EntityId) :
    (build m' limit).workload (F a) = (build m limit).workload a := by
  rw [workload, workload, h.candidatesOf_eq, h.hostedBy_eq hagents, List.length_map, List.map_map]
  congr 2
  refine List.map_congr_left fun t _ => ?_
  rw [Function.comp_apply, (h.neighboursOf_perm limit t).length_eq, List.length_map]

theorem sup_workload_eq :
    m'.agents.toFinset.sup (build m' limit).workload =
      m.agents.toFinset.sup (build m limit).workload := by
  have hwork : m'.agents.map (build m' limit).workload = m.agents.map (build m limit).workload := by
    rw [hagents, List.map_map]
    exact List.map_congr_left fun a _ => h.workload_eq hagents limit a
  have hmax := foldl_max_map (build m' limit).workload m'.agents 0
  rwa [hwork, foldl_max_map, Nat.zero_max, Nat.zero_max, eq_comm] at hmax

end Relabels

/-! ## Rounds of DSA -/

namespace Dsa

/-- The second agent is the first one under another name: it holds the same target, and goes by the
same coin. -/
structure Agent.Twin (F G : EntityId → EntityId) (a b : Agent α) : Prop where
  id_eq : b.id = F a.id
  target_eq : b.target = a.target.map G
  coin_eq : b.coin = a.coin
  tosses_eq : b.tosses = a.tosses

theorem Agent.Twin.heard {m m' : UtilityMatrix α} {x y : Assignment} {a b c d : Agent α}
    (h : a.Twin F G b) (hc : a.Heard m x c) (hd : b.Heard m' y d) : c.Twin F G d :=
  ⟨by rw [hc.id_eq, hd.id_eq, h.id_eq], by rw [hc.target_eq, hd.target_eq, h.target_eq],
    by rw [hc.coin_eq, hd.coin_eq, h.coin_eq], by rw [hc.tosses_eq, hd.tosses_eq, h.tosses_eq]⟩

/-- Twins that judge alike improve alike. -/
theorem Agent.Twin.improve {a b : Agent α} (h : a.Twin F G b)
    (hbest : b.outlook.bestResponse b.target = (a.outlook.bestResponse a.target).map G) :
    a.improve.agent.Twin F G b.improve.agent ∧ b.improve.answer = a.improve.answer := by
  have hstay : b.outlook.bestResponse b.target = b.target ↔
      a.outlook.bestResponse a.target = a.target := by
    rw [hbest, h.target_eq, (Option.map_injective G.injective).eq_iff]
  have hnone : b.target.isNone = a.target.isNone := by
    rw [h.target_eq, Option.isNone_map]
  have htoss : b.coin b.tosses = a.coin a.tosses := by rw [h.coin_eq, h.tosses_eq]
  unfold Agent.improve
  simp only [hstay, hnone, htoss]
  split
  · exact ⟨⟨h.id_eq, h.target_eq, h.coin_eq, h.tosses_eq⟩, rfl⟩
  · split
    · exact ⟨⟨h.id_eq, hbest, h.coin_eq, h.tosses_eq⟩, rfl⟩
    · split
      · exact ⟨⟨h.id_eq, hbest, h.coin_eq, congrArg (· + 1) h.tosses_eq⟩, rfl⟩
      · exact ⟨⟨h.id_eq, h.target_eq, h.coin_eq, congrArg (· + 1) h.tosses_eq⟩, rfl⟩

/-- So twins improve alike if one knows the mirror image of what the other knows. -/
theorem Agent.Twin.improve_of_informed {m m' : UtilityMatrix α} (hrelabels : Relabels F G m m')
    {a b : Agent α} (h : a.Twin F G b) {x y : Assignment} (hxy : x.Mirrors F G y)
    (ha : a.Informed m x) (hx : ∀ c t, x.get? c = some t → c ∈ m.agents)
    (hb : b.Informed m' y) (hy : ∀ c t, y.get? c = some t → c ∈ m'.agents) :
    a.improve.agent.Twin F G b.improve.agent ∧ b.improve.answer = a.improve.answer := by
  have hmatrix : Relabels F G a.outlook.matrix b.outlook.matrix := by
    show Relabels F G a.matrix b.matrix
    rw [ha.matrix_eq, hb.matrix_eq]
    exact hrelabels
  apply h.improve
  rw [h.target_eq]
  exact (ha.sees hx).bestResponse_map (hb.sees hy) hmatrix h.id_eq hxy a.target

/-- Two populations of two matrices, twins agent by agent. -/
structure Twins (F G : EntityId → EntityId) (m m' : UtilityMatrix α)
    (agents agents' : List (Agent α)) : Prop where
  population : Population m agents
  population' : Population m' agents'
  twin : List.Forall₂ (Agent.Twin F G) agents agents'

namespace Twins
variable {m m' : UtilityMatrix α} {agents agents' : List (Agent α)}

/-- At the same place an agent draws from the same seed. -/
theorem start (hagents : m'.agents = m.agents.map F) (coins : Coins α) (settings : Settings α) :
    Twins F G m m' (Dsa.agents coins settings m) (Dsa.agents coins settings m') := by
  refine ⟨.start coins settings m, .start coins settings m', ?_⟩
  refine List.forall₂_iff_get.2 ⟨by simp [Dsa.agents, hagents], fun i hi hi' => ?_⟩
  simp only [Dsa.agents, hagents, List.get_eq_getElem, List.getElem_mapIdx, List.getElem_map]
  exact ⟨rfl, rfl, rfl, rfl⟩

theorem twin_of_mem (h : Twins F G m m' agents agents') :
    List.Forall₂ (fun a b => a ∈ agents ∧ b ∈ agents' ∧ a.Twin F G b) agents agents' :=
  List.forall₂_iff_get.2 ⟨h.twin.length_eq, fun _ hi hi' =>
    ⟨List.get_mem _ _, List.get_mem _ _, h.twin.get hi hi'⟩⟩

theorem held_mirrors (h : Twins F G m m' agents agents') :
    (Solver.held (Population.wrap agents)).Mirrors F G (Solver.held (Population.wrap agents')) := by
  have hids : (agents.map (·.id)).map F = agents'.map (·.id) := by
    rw [List.map_map]
    exact map_eq_map_of_forall₂ (h.twin.imp fun _ _ htwin => htwin.id_eq.symm)
  refine Solver.held_mirrors ?_ ?_ fun _ ha _ hb hid => ?_
  · rw [Population.ids_wrap]
    exact h.population.nodup_ids
  · rw [Population.ids_wrap, Population.ids_wrap, hids]
  · obtain ⟨a, hin, rfl⟩ := List.mem_map.1 ha
    obtain ⟨b, hin', rfl⟩ := List.mem_map.1 hb
    -- the agent at the same place is the only one of that name
    obtain ⟨i, rfl⟩ := List.mem_iff_get.1 hin
    have hi' : i.val < agents'.length := h.twin.length_eq ▸ i.isLt
    have htwin := h.twin.get i.isLt hi'
    obtain rfl := List.inj_on_of_nodup_map h.population'.nodup_ids hin' (List.get_mem _ ⟨i, hi'⟩)
      (hid.trans htwin.id_eq.symm)
    exact htwin.target_eq

/-- A round keeps twins twins, and comes to the same for both. -/
theorem next (h : Twins F G m m' agents agents') (hrelabels : Relabels F G m m')
    (hworth : ∀ x y : Assignment, x.Mirrors F G y → m'.totalUtility y = m.totalUtility x)
    {solver : Solver.Settings α} {surroundings others : Surroundings α} {round : Nat}
    {outcome : Round.Outcome α} {last : List (Algorithm.Agent α)}
    (hplayed :
      (Solver.playRound solver surroundings round (Population.wrap agents)).EndsWith outcome last) :
    ∃ outcome' inner inner',
      last = Population.wrap inner ∧
      (Solver.playRound solver others round (Population.wrap agents')).EndsWith outcome'
        (Population.wrap inner') ∧
      Twins F G m m' inner inner' ∧
      (Solver.summarise m (Population.wrap agents) last outcome).Mirrors F G
        (Solver.summarise m' (Population.wrap agents') (Population.wrap inner') outcome') := by
  obtain ⟨hanswer, rfl⟩ := hplayed
  obtain ⟨posts, flags, hlock⟩ := h.population.exists_lockstep solver surroundings round
  obtain ⟨posts', flags', hlock'⟩ := h.population'.exists_lockstep solver others round
  obtain ⟨heard, hnext, hpop, hflags, hheard⟩ := h.population.agents_of_lockstep hlock
  obtain ⟨heard', hnext', hpop', hflags', hheard'⟩ := h.population'.agents_of_lockstep hlock'
  have himprove : List.Forall₂ (fun a b =>
      (heard a).improve.agent.Twin F G (heard' b).improve.agent ∧
        (heard a).improve.answer = (heard' b).improve.answer) agents agents' := by
    refine h.twin_of_mem.imp fun a b ⟨ha, hb, htwin⟩ => ?_
    obtain ⟨hagent, hanswer⟩ :=
      (htwin.heard (hheard a ha) (hheard' b hb)).improve_of_informed hrelabels h.held_mirrors
        (hheard a ha).informed (fun _ _ => h.population.mem_agents_of_held)
        (hheard' b hb).informed (fun _ _ => h.population'.mem_agents_of_held)
    exact ⟨hagent, hanswer.symm⟩
  have htwins : Twins F G m m' _ _ :=
    ⟨hpop, hpop', List.forall₂_map_left_iff.2 (List.forall₂_map_right_iff.2
      (himprove.imp fun _ _ hboth => hboth.1))⟩
  obtain rfl : flags = flags' := by
    have hanswers := map_eq_map_of_forall₂ (himprove.imp fun _ _ hboth => hboth.2)
    rw [hflags, hflags'] at hanswers
    exact Round.flags_unique hanswers
  obtain rfl := Except.ok.inj (hlock.answer_eq.symm.trans hanswer)
  refine ⟨_, _, _, hnext, ⟨hlock'.answer_eq, hnext'⟩, htwins, ?_⟩
  have hheld := htwins.held_mirrors
  rw [hnext]
  exact ⟨hheld, hworth _ _ hheld, rfl⟩

end Twins

end Dsa

/-! ## Courses -/

namespace Solver

/-- The rounds of two courses cost the same all in all. -/
structure SameCosts (records records' : List (RoundRecord α)) : Prop where
  messages_eq : total (records'.map (·.messages)) = total (records.map (·.messages))
  bytes_eq : total (records'.map (·.bytes)) = total (records.map (·.bytes))
  checks_eq : total (records'.map (·.checks)) = total (records.map (·.checks))

section Courses
variable {settings : Solver.Settings α} {surroundings : Surroundings α} {m m' : UtilityMatrix α}
  {coins : Dsa.Coins α} {remaining : Nat} {records : List (RoundRecord α)}
  {termination : Termination} {last : List (Algorithm.Agent α)}

/-- DSA takes the same course through renamed problems. -/
theorem Plays.dsa_mirrors {parameters : Dsa.Settings α}
    (h : Plays settings surroundings m 1 ((Algorithm.dsa parameters).population coins m) remaining
      records termination last)
    (hrelabels : Relabels F G m m') (hagents : m'.agents = m.agents.map F)
    (hworth : ∀ x y : Assignment, x.Mirrors F G y → m'.totalUtility y = m.totalUtility x)
    (hbudget : settings.timeBudgetMs = none) (others : Surroundings α) :
    ∃ records' last',
      Plays settings others m' 1 ((Algorithm.dsa parameters).population coins m') remaining
        records' termination last' ∧
      List.Forall₂ (RoundRecord.Mirrors F G) records records' := by
  have hround : ∀ round agents agents' outcome next,
      (∃ inner inner', agents = Dsa.Population.wrap inner ∧ agents' = Dsa.Population.wrap inner' ∧
        Dsa.Twins F G m m' inner inner') →
      (playRound settings surroundings round agents).EndsWith outcome next →
        ∃ outcome' next', (playRound settings others round agents').EndsWith outcome' next' ∧
          (∃ inner inner', next = Dsa.Population.wrap inner ∧ next' = Dsa.Population.wrap inner' ∧
            Dsa.Twins F G m m' inner inner') ∧
          (summarise m agents next outcome).Mirrors F G
            (summarise m' agents' next' outcome') := by
    rintro round _ _ outcome next ⟨inner, inner', rfl, rfl, htwins⟩ hplayed
    obtain ⟨outcome', last, last', hlast, hplayed', hnext, hrecord⟩ :=
      htwins.next hrelabels hworth hplayed
    exact ⟨outcome', _, hplayed', ⟨last, last', hlast, rfl, hnext⟩, hrecord⟩
  obtain ⟨records', last', hplays, hrecords, -⟩ := h.follow hround
    (fun _ _ hrecord => hrecord.restless_eq) hbudget hbudget
    ⟨_, _, rfl, rfl, .start hagents coins parameters⟩
  exact ⟨records', last', hplays, hrecords⟩

/-- So does either algorithm, and at the same costs, if the agents are listed in the same order. -/
theorem Plays.mirrors [OrderedScalar α] [SortingScalar α] {algorithm : Algorithm α}
    (h : Plays settings surroundings m 1 (algorithm.population coins m) remaining records
      termination last)
    (hremaining : remaining ≠ 0) (hrelabels : Relabels F G m m')
    (hagents : m'.agents = m.agents.map F)
    (hworth : ∀ x y : Assignment, x.Mirrors F G y → m'.totalUtility y = m.totalUtility x)
    (hbudget : settings.timeBudgetMs = none) (others : Surroundings α) :
    ∃ records' last',
      Plays settings others m' 1 (algorithm.population coins m') remaining records' termination
        last' ∧
      List.Forall₂ (RoundRecord.Mirrors F G) records records' ∧ SameCosts records records' := by
  cases algorithm with
  | maxSum parameters =>
    obtain ⟨records', last', h', hrecords⟩ := h.maxSum_mirrors hrelabels hworth hbudget others
    obtain ⟨hmessages, hbytes, hchecks⟩ := h.costs_maxSum hremaining
    obtain ⟨hmessages', hbytes', hchecks'⟩ := h'.costs_maxSum hremaining
    rw [← hrecords.length_eq, hrelabels.linkCount_eq, ← hmessages] at hmessages'
    rw [hmessages', ← hbytes] at hbytes'
    rw [← hrecords.length_eq, hrelabels.sup_workload_eq hagents, ← hchecks] at hchecks'
    exact ⟨records', last', h', hrecords, hmessages', hbytes', hchecks'⟩
  | dsa parameters =>
    obtain ⟨records', last', h', hrecords⟩ :=
      h.dsa_mirrors hrelabels hagents hworth hbudget others
    obtain ⟨hmessages, hbytes, hchecks⟩ := h.costs_dsa hremaining
    obtain ⟨hmessages', hbytes', hchecks'⟩ := h'.costs_dsa hremaining
    rw [← hrecords.length_eq, hagents, List.length_map, ← hmessages] at hmessages'
    rw [hmessages', ← hbytes] at hbytes'
    rw [← hrecords.length_eq, hagents, hrelabels.targets_eq, List.length_map] at hchecks'
    simp only [List.map_eq_nil_iff] at hchecks'
    exact ⟨records', last', h', hrecords, hmessages', hbytes', hchecks'.trans hchecks.symm⟩

end Courses

/-! ## Solutions -/

section Conclusions
variable {m m' : UtilityMatrix Rat} {records records' : List (RoundRecord Rat)}

/-- Courses that mirror each other lead to solutions that do. -/
theorem conclusion_mirrors (h : List.Forall₂ (RoundRecord.Mirrors F G) records records')
    (hcosts : SameCosts records records') (hrelabels : Relabels F G m m')
    (hagents : m'.agents = m.agents.map F) (name : String) (settings : Solver.Settings Rat)
    (surroundings others : Surroundings Rat) (termination : Termination)
    (last last' : List (Algorithm.Agent Rat)) :
    let solution := conclusion name settings surroundings m records termination last
    let solution' := conclusion name settings others m' records' termination last'
    solution.assignment.Mirrors F G solution'.assignment ∧
      solution'.stats.untimed = solution.stats.untimed := by
  have hworth := fun x y => hrelabels.totalUtility_eq (x := x) (y := y)
  have hfinal : (finalBranch m records).Mirrors F G (finalBranch m' records') := by
    obtain ⟨x, y, u, hxy, heq, heq'⟩ := finalBranch_mirrors h hworth
    rw [heq, heq']
    exact branch_mirrors hrelabels hagents hxy "final" u
  have hbest : (bestBranch m records).Mirrors F G (bestBranch m' records') := by
    obtain ⟨x, y, u, hxy, heq, heq'⟩ := bestBranch_mirrors h hworth
    rw [heq, heq']
    exact branch_mirrors hrelabels hagents hxy "best" u
  have hsilent : ∀ agents : List (Algorithm.Agent Rat),
      total (agents.map Agent.otherMessages) = 0 ∧ total (agents.map Agent.otherBytes) = 0 :=
    fun agents => ⟨total_map_of_forall fun _ _ => rfl, total_map_of_forall fun _ _ => rfl⟩
  constructor
  · show (select settings _ _).Mirrors F G (select settings _ _)
    unfold select
    cases settings.anytime <;> cases settings.repair
    · exact hfinal.assignment
    · exact hfinal.repaired
    · exact hbest.assignment
    · exact hbest.repaired
  · simp only [conclusion, stats, Stats.untimed, hagents, hrelabels.targets_eq, List.length_map,
      ← h.length_eq, hcosts.messages_eq, hcosts.bytes_eq, hcosts.checks_eq, hsilent,
      utilities_eq_of_mirrors h, hfinal.utility_eq, hfinal.repairedUtility_eq,
      hfinal.regressed_eq, hbest.utility_eq, hbest.repairedUtility_eq, hbest.regressed_eq]

end Conclusions

end Solver

/-! ## Renamed problems -/

/-- A renaming that keeps some identifiers apart extends to one of all identifiers. -/
theorem exists_perm_eqOn {f : EntityId → EntityId} {ids : List EntityId}
    (h : Set.InjOn f {id | id ∈ ids}) : ∃ F : Equiv.Perm EntityId, ∀ id ∈ ids, F id = f id := by
  have : Finite {id // id ∈ ids} := ids.finite_toSet
  obtain ⟨F, hF⟩ := Equiv.Perm.exists_extending_pair (fun id : {id // id ∈ ids} => id.val)
    (fun id => f id.val) Subtype.val_injective h.injective
  exact ⟨F, fun id hid => hF ⟨id, hid⟩⟩

namespace Assignment

/-- The same agents work on the same targets, under their new names. -/
def rename (f g : EntityId → EntityId) (x : Assignment) : Assignment :=
  .ofList (x.toList.map fun p => (f p.1, g p.2))

theorem Mirrors.eq_rename {x y : Assignment} (h : x.Mirrors F G y) {f g : EntityId → EntityId}
    (hnames : ∀ a t, x.get? a = some t → F a = f a ∧ G t = g t) : y = x.rename f g := by
  have hpairs : x.toList.map (fun p => (F p.1, G p.2)) = x.toList.map fun p => (f p.1, g p.2) := by
    refine List.map_congr_left fun p hp => ?_
    obtain ⟨hagent, htarget⟩ := hnames p.1 p.2 (mem_toList.1 hp)
    rw [hagent, htarget]
  have hperm := h.toList_perm
  have hnodup := (hperm.map Prod.fst).nodup_iff.1 y.nodup_agents
  rw [hpairs] at hperm hnodup
  refine ext_get? fun a => Option.ext fun t => ?_
  rw [← mem_toList, hperm.mem_iff]
  exact (SortedMap.get?_ofList hnodup).symm

end Assignment

def Solution.rename (f g : EntityId → EntityId) (s : Solution α) : Solution α :=
  { s with assignment := s.assignment.rename f g }

/-- The second problem is the first one with its agents and targets renamed and listed in the same
order. No two of them share a name, unless they did before. -/
structure Instance.Renames (f g : EntityId → EntityId) (inst : Instance) (oracle : Oracle α)
    (inst' : Instance) (oracle' : Oracle α) : Prop where
  agents_injOn : Set.InjOn f {a | a ∈ inst.agents}
  targets_injOn : Set.InjOn g {t | t ∈ inst.targets}
  agents_eq : inst'.agents = inst.agents.map f
  targets_eq : inst'.targets = inst.targets.map g
  utility_eq : ∀ a ∈ inst.agents, ∀ t ∈ inst.targets,
    oracle'.utility (f a) (g t) = oracle.utility a t
  need_eq : ∀ t ∈ inst.targets, oracle'.need (g t) = oracle.need t

omit [Scalar α] in
/-- Renamed problems are relabelled by permutations of all identifiers. -/
theorem Instance.Renames.exists_relabels {f g : EntityId → EntityId} {inst inst' : Instance}
    {oracle oracle' : Oracle α} (h : inst.Renames f g oracle inst' oracle') :
    ∃ F G : Equiv.Perm EntityId, (∀ a ∈ inst.agents, F a = f a) ∧ (∀ t ∈ inst.targets, G t = g t) ∧
      inst.Relabels F G oracle inst' oracle' := by
  obtain ⟨F, hF⟩ := exists_perm_eqOn h.agents_injOn
  obtain ⟨G, hG⟩ := exists_perm_eqOn h.targets_injOn
  refine ⟨F, G, hF, hG, ?_, ?_, fun a ha t ht => ?_, fun t ht => ?_⟩
  · rw [h.agents_eq, List.map_congr_left hF]
  · rw [h.targets_eq, List.map_congr_left hG]
  · rw [hF a ha, hG t ht]
    exact h.utility_eq a ha t ht
  · rw [hG t ht]
    exact h.need_eq t ht

namespace Solver

theorem toOption_eq_none_of_not_accepts {settings : Solver.Settings Rat} {oracle : Oracle Rat}
    {inst : Instance} (h : ¬ Accepts settings oracle inst) (coins : Dsa.Coins Rat)
    (surroundings : Surroundings Rat) :
    (solveBuiltIn coins settings (some oracle) surroundings inst).answer.toOption = none := by
  obtain ⟨e, herror⟩ := (setUp_fails_iff coins).2 h
  rw [solveBuiltIn, solve, herror]
  rfl

/-- In exact arithmetic and without a time budget, solving a renamed problem comes to the renamed
assignment and the same statistics, or is refused if the problem is. -/
theorem renaming_commutes {settings : Solver.Settings Rat} (hbudget : settings.timeBudgetMs = none)
    {f g : EntityId → EntityId} {inst inst' : Instance} {oracle oracle' : Oracle Rat}
    (hrenames : inst.Renames f g oracle inst' oracle') (coins : Dsa.Coins Rat)
    (surroundings others : Surroundings Rat) :
    (solveBuiltIn coins settings (some oracle') others inst').answer.toOption.map
        Solution.untimed =
      (solveBuiltIn coins settings (some oracle) surroundings inst).answer.toOption.map
        fun solution => (solution.rename f g).untimed := by
  obtain ⟨F, G, hF, hG, hproblem⟩ := hrenames.exists_relabels
  by_cases haccepts : Accepts settings oracle inst
  · obtain ⟨m, solution, hsetUp, hsolved⟩ := haccepts.exists_solution coins surroundings
    obtain ⟨m', hsetUp'⟩ := (hproblem.accepts_iff.2 haccepts).setUp_eq coins
    obtain ⟨hvalid, hbuild, -⟩ := setUp_builtIn_iff.1 hsetUp
    obtain ⟨-, hbuild', -⟩ := setUp_builtIn_iff.1 hsetUp'
    have hrelabels := hproblem.matrix hbuild hbuild'
    have hagents : m'.agents = m.agents.map F := by
      rw [(UtilityMatrix.build_eq_ok hbuild).1, (UtilityMatrix.build_eq_ok hbuild').1,
        hrenames.agents_eq, List.map_congr_left hF]
    obtain ⟨hmaxRounds, records, termination, last, hplays, hsolution⟩ :=
      exists_course hsetUp hsolved
    obtain ⟨records', last', hplays', hrecords, hcosts⟩ := hplays.mirrors hmaxRounds hrelabels
      hagents (fun _ _ => hrelabels.totalUtility_eq) hbudget others
    have hsolved' : (solveBuiltIn coins settings (some oracle') others inst').answer = .ok _ :=
      solve_eq_ok_iff.2 ⟨m', _, records', termination, last', hsetUp', hplays', rfl⟩
    obtain ⟨hassignment, hstats⟩ := conclusion_mirrors hrecords hcosts hrelabels hagents
      settings.algorithm.name settings surroundings others termination last last'
    have hpicks := picksFrom_returned hsetUp hsolved
    have hrenamed := hassignment.eq_rename fun a t ht => by
      obtain ⟨ha, ht⟩ := hpicks.mem_of_get? (hsolution ▸ ht)
      exact ⟨hF a ha, hG t ht⟩
    rw [hsolved', hsolved, hsolution]
    exact congrArg some (congrArg₂ Solution.mk hrenamed hstats)
  · have hrefused := mt hproblem.accepts_iff.1 haccepts
    rw [toOption_eq_none_of_not_accepts haccepts, toOption_eq_none_of_not_accepts hrefused]
    rfl

/-- Agents of which only the first moves on a coin, and a repair in the end. -/
def repairing : Settings Rat := { tossed with repair := true }

/-- New names of the crew, in the opposite order. -/
def agentName (a : EntityId) : EntityId := .ofNat (10 - a.toNat)

/-- New names of its targets, which some of the crew go by as well. -/
def targetName (t : EntityId) : EntityId := .ofNat (12 - t.toNat)

def renamedCrew : Instance := ⟨[.ofNat 9, .ofNat 8, .ofNat 7], [.ofNat 8, .ofNat 7], .empty⟩

def renamedAppeal : Oracle Rat :=
  ⟨fun a t => if t = .ofNat 8 then 10 else (10 - a.toNat : Nat), fun _ => 1⟩

/-- The crew settles in three rounds, whatever it is called. -/
theorem renamed_crew_settles_alike :
    repairing.timeBudgetMs = none ∧
      crew.Renames agentName targetName appeal renamedCrew renamedAppeal ∧
      ∃ solution,
        (solveBuiltIn (fun seed _ _ => seed = 0) repairing (some appeal) .still crew).answer =
          .ok solution ∧
        solution.stats.rounds = 3 ∧
        (solveBuiltIn (fun seed _ _ => seed = 0) repairing (some renamedAppeal) .still
          renamedCrew).answer.toOption.map Solution.untimed =
            some (solution.rename agentName targetName).untimed := by
  have hrenames : crew.Renames agentName targetName appeal renamedCrew renamedAppeal :=
    ⟨fun _ ha _ hb => List.inj_on_of_nodup_map (by decide) ha hb,
      fun _ ht _ hs => List.inj_on_of_nodup_map (by decide) ht hs, by decide, by decide,
      by decide +kernel, by decide⟩
  have hstats : (solveBuiltIn (fun seed _ _ => seed = 0) repairing (some appeal) .still
      crew).answer.toOption.map (fun s => s.stats.rounds) = some 3 := by
    decide +kernel
  obtain ⟨solution, hsolved, hrounds⟩ := eq_ok_of_map_eq_some hstats
  have hrenamed := renaming_commutes (show repairing.timeBudgetMs = none from rfl) hrenames
    (fun seed _ _ => seed = 0) .still .still
  rw [hsolved] at hrenamed
  exact ⟨rfl, hrenames, solution, hsolved, hrounds, hrenamed⟩

end Solver

end Dispatch
