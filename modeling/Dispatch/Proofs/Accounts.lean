import Mathlib
import Dispatch.Proofs.Determinism
import Dispatch.Proofs.Embedding
import Dispatch.Proofs.Failures
/-!
# What a solve costs

Every round of Max-Sum but the first sends one value along every edge of the factor graph, and every
round of DSA one announcement from each agent to each other one; the checks of an agent depend on
the problem only. So what one round puts down (`MaxSum.Population.costs`, `Dsa.Population.costs`)
adds up to a closed form for the whole solve, which `Solver.solve_costs` states.
-/

namespace Dispatch

variable {α σ ι : Type}

/-! ## Totals -/

theorem total_eq_sum (counts : List Nat) : total counts = counts.sum := by
  induction counts with
  | nil => rfl
  | cons n rest ih => rw [total, ih, List.sum_cons]

theorem total_map_of_forall {l : List ι} {f : ι → Nat} {c : Nat} (h : ∀ x ∈ l, f x = c) :
    total (l.map f) = l.length * c := by
  rw [total_eq_sum, List.map_congr_left h, List.map_const', List.sum_replicate, smul_eq_mul]

/-- The largest of the counts that a list gives rise to, whatever its order. -/
theorem foldl_max_map [DecidableEq ι] (f : ι → Nat) (l : List ι) (k : Nat) :
    (l.map f).foldl max k = max k (l.toFinset.sup f) := by
  induction l generalizing k with
  | nil => simp
  | cons x rest ih =>
    rw [List.map_cons, List.foldl_cons, ih, List.toFinset_cons, Finset.sup_insert, max_assoc]

/-! ## One round -/

/-- What a round puts down: so many messages of one size, and at most so many checks per agent. -/
structure RoundRecord.Costs (r : RoundRecord α) (messages size checks : Nat) : Prop where
  messages_eq : r.messages = messages
  bytes_eq : r.bytes = size * messages
  checks_eq : r.checks = checks

namespace Round
variable [Scalar α] [Agent α σ] {agents : List σ} {posts : List (Message α)} {flags : List Bool}
  {progress : Progress α σ (Outcome α)}

/-- The costs of a round in which all messages are of one size, and each agent makes its own share
of checks. -/
theorem Lockstep.costs (hlock : Lockstep agents posts flags progress) {outcome : Outcome α}
    (houtcome : progress.answer = .ok outcome) {size : Nat}
    (hsize : ∀ msg ∈ (agents.map fun a => (Agent.send a).posts).flatten, msg.bytes = size)
    {work : EntityId → Nat}
    (hwork : ∀ a ∈ agents, Agent.checks (replyTo ⟨posts⟩ (Agent.send a).agent).agent =
      Agent.checks a + work (Agent.id a)) (m : UtilityMatrix α) :
    (Solver.summarise m agents progress.agents outcome).Costs
      (agents.map fun a => (Agent.send a).posts).flatten.length size
      ((agents.map Agent.id).toFinset.sup work) := by
  obtain rfl : (agents.map fun a => (Agent.send a).posts, flags) = outcome :=
    Except.ok.inj (hlock.answer_eq.symm.trans houtcome)
  refine ⟨rfl, ?_, ?_⟩
  · show total (((agents.map fun a => (Agent.send a).posts).flatten).map Message.bytes) = _
    rw [total_map_of_forall hsize, Nat.mul_comm]
  · show Solver.roundChecks agents progress.agents = _
    have hdone : List.zipWith (fun b a => Agent.checks a - Agent.checks b) agents progress.agents =
        (agents.map Agent.id).map work := by
      rw [hlock.agents_eq, List.zipWith_map_right, List.zipWith_self, List.map_map]
      refine List.map_congr_left fun a ha => ?_
      rw [hwork a ha, Nat.add_sub_cancel_left]
      rfl
    rw [Solver.roundChecks, hdone, foldl_max_map, Nat.zero_max]

end Round

/-! ## A round of Max-Sum -/

namespace FactorGraph

/-- The checks an agent makes in one round: one for each of its candidates, and for each function
it hosts one for every pair of agents linked to it. -/
def workload (g : FactorGraph) (agent : EntityId) : Nat :=
  (g.candidatesOf agent).length +
    ((g.hostedBy agent).map fun t => (g.neighboursOf t).length ^ 2).sum

theorem linkCount_eq_sum (g : FactorGraph) :
    g.linkCount = (g.candidates.toList.map fun p => p.2.length).sum := by
  have hvalues : g.candidates.values = g.candidates.toList.map Prod.snd := rfl
  rw [linkCount, total_eq_sum, hvalues, List.map_map]
  rfl

/-- Every link is an edge in either direction. -/
theorem length_edges (g : FactorGraph) : g.edges.length = 2 * g.linkCount := by
  rw [edges, linkCount_eq_sum, List.length_flatMap, ← List.sum_map_mul_left]
  congr 1
  refine List.map_congr_left fun p _ => ?_
  rw [List.length_flatMap]
  show (p.2.map fun _ => 2).sum = 2 * p.2.length
  rw [List.map_const', List.sum_replicate, smul_eq_mul, Nat.mul_comm]

end FactorGraph

namespace MaxSum
variable [Scalar α]

namespace Agent

theorem checks_runUpdates {a : Agent α} {us : List (NodeUpdate α)}
    (h : (a.runUpdates us).answer = .ok ()) :
    (a.runUpdates us).agent.checks = a.checks + (us.map (·.checks)).sum := by
  induction us generalizing a with
  | nil => rfl
  | cons u rest ih =>
    simp only [runUpdates] at h ⊢
    cases hanswer : (emit a.outbox u.values).answer with
    | error e =>
      rw [hanswer] at h
      cases h
    | ok _ =>
      rw [hanswer] at h
      rw [ih h, List.map_cons, List.sum_cons, Nat.add_assoc]

theorem Fits.checks_improve {settings : Settings α} {m : UtilityMatrix α} {a : Agent α}
    (h : a.Fits settings m) {again : Bool} (hok : a.improve.answer = .ok again) :
    a.improve.agent.checks =
      a.checks + (FactorGraph.build m settings.maxTargets).workload a.id := by
  obtain ⟨hupdates, hagent, -⟩ := improve_of_ok hok
  rw [hagent, ← h.graph_eq]
  show (a.runUpdates a.updates).agent.checks = _
  rw [checks_runUpdates hupdates, updates, List.map_cons, List.sum_cons, List.map_map]
  simp only [FactorGraph.workload, Nat.pow_two]
  rfl

end Agent

namespace Population
variable {settings : Settings α} {m : UtilityMatrix α} {n : Nat}
  {agents : List (Agent α)}

/-- The first round of Max-Sum sends nothing, any other one value along every edge. -/
theorem costs (h : Population settings m n agents) {posts : List (Message α)} {flags : List Bool}
    {progress : Progress α (Agent α) (Round.Outcome α)}
    (hlock : Round.Lockstep agents posts flags progress) {outcome : Round.Outcome α}
    (houtcome : progress.answer = .ok outcome) :
    let g := FactorGraph.build m settings.maxTargets
    (Solver.summarise m agents progress.agents outcome).Costs
      (if n = 0 then 0 else 2 * g.linkCount) 26 (m.agents.toFinset.sup g.workload) := by
  intro g
  have hsize : ∀ msg ∈ (agents.map fun a => (Dispatch.Agent.send a).posts).flatten,
      msg.bytes = 26 := by
    intro msg hmsg
    rw [← List.flatMap_def] at hmsg
    obtain ⟨-, e, -, -, -, hpayload⟩ := h.mem_posts.1 hmsg
    rw [Message.bytes, hpayload]
    rfl
  have hcount : (agents.map fun a => (Dispatch.Agent.send a).posts).flatten.length =
      if n = 0 then 0 else 2 * g.linkCount := by
    have hpayloads := congrArg List.length h.sent_payloads
    rw [List.length_map, List.length_map] at hpayloads
    rw [hpayloads]
    split
    · rename_i hn
      rw [List.length_eq_zero_iff]
      exact List.flatMap_eq_nil_iff.2 fun a ha => by rw [(h.tracks a ha).queue_eq, if_pos hn]
    · rename_i hn
      rw [(h.sent_perm hn).length_eq, List.length_map, g.length_edges]
  have hwork : ∀ a ∈ agents,
      Dispatch.Agent.checks (Round.replyTo ⟨posts⟩ (Dispatch.Agent.send a).agent).agent =
        Dispatch.Agent.checks a + g.workload (Dispatch.Agent.id a) := by
    intro a ha
    obtain ⟨b, hreply, hid, -, -, hfits, -, -, hchecks⟩ := h.replyTo_eq_improve hlock.posts_perm ha
    obtain ⟨again, -, hok⟩ := hlock.exists_flag ha
    rw [hreply] at hok ⊢
    show b.improve.agent.checks = a.checks + g.workload a.id
    rw [hfits.checks_improve hok, hchecks, hid]
  have hcosts := hlock.costs houtcome hsize hwork m
  rwa [hcount, show agents.map Dispatch.Agent.id = m.agents from h.ids_eq] at hcosts

end Population

end MaxSum

/-! ## A round of DSA -/

namespace Dsa
variable [Scalar α]

namespace Agent

theorem takeAll_keeps (a : Agent α) (inbox : List (Message α)) :
    (a.takeAll inbox).1.checks = a.checks ∧ (a.takeAll inbox).1.matrix = a.matrix := by
  induction inbox generalizing a with
  | nil => exact ⟨rfl, rfl⟩
  | cons msg rest ih =>
    have hone : (a.take msg).1.checks = a.checks ∧ (a.take msg).1.matrix = a.matrix := by
      unfold take
      split <;> exact ⟨rfl, rfl⟩
    exact ⟨(ih _).1.trans hone.1, (ih _).2.trans hone.2⟩

theorem checks_improve (a : Agent α) :
    a.improve.agent.checks = a.checks + a.matrix.targets.length := by
  unfold improve
  dsimp only
  split
  · rfl
  · split
    · rfl
    · split <;> rfl

theorem checks_step (a : Agent α) (inbox : List (Message α)) :
    Dispatch.Agent.checks (Dispatch.Agent.step (Algorithm.Agent.dsa a) inbox).agent =
      a.checks + a.matrix.targets.length := by
  obtain ⟨hchecks, hmatrix⟩ := a.takeAll_keeps inbox
  show (a.takeAll inbox).1.improve.agent.checks = _
  rw [checks_improve, hchecks, hmatrix]

end Agent

namespace Population
variable {m : UtilityMatrix α} {agents : List (Agent α)}

/-- In every round of DSA each agent tells all others, and looks at every target. -/
theorem costs (h : Population m agents) {posts : List (Message α)} {flags : List Bool}
    {progress : Progress α (Algorithm.Agent α) (Round.Outcome α)}
    (hlock : Round.Lockstep (wrap agents) posts flags progress) {outcome : Round.Outcome α}
    (houtcome : progress.answer = .ok outcome) :
    (Solver.summarise m (wrap agents) progress.agents outcome).Costs
      (m.agents.length * (m.agents.length - 1)) 12
      (if m.agents = [] then 0 else m.targets.length) := by
  have hids : (wrap agents).map Dispatch.Agent.id = m.agents := (ids_wrap agents).trans h.ids_eq
  have hsend : ∀ a ∈ agents, (Dispatch.Agent.send (Algorithm.Agent.dsa a)).posts =
      (m.agents.filter (· ≠ a.id)).map fun other => ⟨a.id, other, .choice a.target⟩ := by
    intro a ha
    rw [← (h.fits a ha).matrix_eq]
    rfl
  have hsize : ∀ msg ∈ ((wrap agents).map fun a => (Dispatch.Agent.send a).posts).flatten,
      msg.bytes = 12 := by
    intro msg hmsg
    rw [← List.flatMap_def, List.flatMap_map] at hmsg
    obtain ⟨a, ha, hmsg⟩ := List.mem_flatMap.1 hmsg
    rw [hsend a ha] at hmsg
    obtain ⟨other, -, rfl⟩ := List.mem_map.1 hmsg
    rfl
  have hothers : ∀ a ∈ agents,
      (Dispatch.Agent.send (Algorithm.Agent.dsa a)).posts.length = m.agents.length - 1 := by
    intro a ha
    have hmem : a.id ∈ m.agents := h.ids_eq ▸ List.mem_map_of_mem ha
    rw [hsend a ha, List.length_map, ← List.length_erase_of_mem hmem,
      m.agents_nodup.erase_eq_filter]
    exact congrArg List.length (List.filter_congr fun b _ => Bool.eq_iff_iff.2 (by simp))
  have hcount : ((wrap agents).map fun a => (Dispatch.Agent.send a).posts).flatten.length =
      m.agents.length * (m.agents.length - 1) := by
    rw [List.length_flatten, List.map_map, List.map_map, ← total_eq_sum]
    refine (total_map_of_forall hothers).trans ?_
    rw [← h.ids_eq, List.length_map]
  have hwork : ∀ a ∈ wrap agents,
      Dispatch.Agent.checks (Round.replyTo ⟨posts⟩ (Dispatch.Agent.send a).agent).agent =
        Dispatch.Agent.checks a + m.targets.length := by
    intro a ha
    obtain ⟨a, hin, rfl⟩ := List.mem_map.1 ha
    rw [← (h.fits a hin).matrix_eq]
    exact Agent.checks_step a _
  have hcosts : (Solver.summarise m (wrap agents) progress.agents outcome).Costs _ 12
      (((wrap agents).map Dispatch.Agent.id).toFinset.sup fun _ => m.targets.length) :=
    hlock.costs houtcome hsize hwork m
  have hsup : (m.agents.toFinset.sup fun _ => m.targets.length) =
      if m.agents = [] then 0 else m.targets.length := by
    split
    · rename_i hnone
      rw [hnone, List.toFinset_nil, Finset.sup_empty]
      rfl
    · rename_i hsome
      exact Finset.sup_const (List.toFinset_nonempty_iff _ |>.2 hsome) _
  rwa [hcount, hids, hsup] at hcosts

end Population

end Dsa

/-! ## Whole solves -/

namespace Solver
variable [Scalar α]

/-- What every round makes of an invariant of the agents, the records show round by round. -/
theorem Plays.forall_records [Agent α σ] {settings : Solver.Settings α}
    {surroundings : Surroundings α} {m : UtilityMatrix α} {P : Nat → List σ → Prop}
    {Q : Nat → RoundRecord α → Prop}
    (hround : ∀ n round agents next outcome, P n agents →
      (playRound settings surroundings round agents).EndsWith outcome next →
        P (n + 1) next ∧ Q n (summarise m agents next outcome))
    {round remaining : Nat} {agents last : List σ} {records : List (RoundRecord α)}
    {termination : Termination}
    (h : Plays settings surroundings m round agents remaining records termination last) {n : Nat}
    (hstart : P n agents) : ∀ i r, records[i]? = some r → Q (n + i) r := by
  induction h generalizing n with
  | limit => simp
  | late => simp
  | quiet _ hplayed _ =>
    intro i r hr
    obtain ⟨rfl, rfl⟩ : i = 0 ∧ _ = r := by simpa [List.getElem?_singleton] using hr
    exact (hround _ _ _ _ _ hstart hplayed).2
  | again _ hplayed _ _ ih =>
    obtain ⟨hnext, hrecord⟩ := hround _ _ _ _ _ hstart hplayed
    intro i r hr
    cases i with
    | zero =>
      obtain rfl := Option.some.inj hr
      exact hrecord
    | succ i =>
      have := ih hnext i r hr
      rwa [Nat.add_assoc, Nat.add_comm 1] at this

omit [Scalar α] in
/-- The totals of rounds that all cost the same, but for the messages of the first. -/
theorem totals_of_costs {records : List (RoundRecord α)} {first messages size checks : Nat}
    (h : ∀ (i : Nat) r, records[i]? = some r →
      r.Costs (if i = 0 then first else messages) size checks) (hne : records ≠ []) :
    total (records.map (·.messages)) = first + messages * (records.length - 1) ∧
      total (records.map (·.bytes)) = size * total (records.map (·.messages)) ∧
      total (records.map (·.checks)) = records.length * checks := by
  have hany : ∀ r ∈ records, r.bytes = size * r.messages ∧ r.checks = checks := by
    intro r hr
    obtain ⟨i, hi⟩ := List.getElem?_of_mem hr
    exact ⟨(h i r hi).messages_eq ▸ (h i r hi).bytes_eq, (h i r hi).checks_eq⟩
  refine ⟨?_, ?_, total_map_of_forall fun r hr => (hany r hr).2⟩
  · cases records with
    | nil => exact absurd rfl hne
    | cons r rest =>
      have hrest : ∀ r ∈ rest, r.messages = messages := by
        intro r hr
        obtain ⟨i, hi⟩ := List.getElem?_of_mem hr
        exact (h (i + 1) r hi).messages_eq
      rw [List.map_cons, total, (h 0 r rfl).messages_eq, total_map_of_forall hrest,
        List.length_cons, Nat.add_sub_cancel, Nat.mul_comm]
      rfl
  · rw [total_eq_sum, total_eq_sum, List.map_congr_left fun r hr => (hany r hr).1,
      List.sum_map_mul_left]

section Courses
variable {settings : Solver.Settings α} {surroundings : Surroundings α} {m : UtilityMatrix α}
  {remaining : Nat} {records : List (RoundRecord α)} {termination : Termination}

theorem costs_of_maxSum [OrderedScalar α] {parameters : MaxSum.Settings α}
    {last : List (MaxSum.Agent α)}
    (h : Plays settings surroundings m 1 (MaxSum.agents parameters m) remaining records
      termination last) :
    let g := FactorGraph.build m parameters.maxTargets
    ∀ (i : Nat) r, records[i]? = some r →
      r.Costs (if i = 0 then 0 else 2 * g.linkCount) 26 (m.agents.toFinset.sup g.workload) := by
  intro g i r hr
  have hrecords := h.forall_records (P := MaxSum.Population parameters m)
    (Q := fun n r =>
      r.Costs (if n = 0 then 0 else 2 * g.linkCount) 26 (m.agents.toFinset.sup g.workload))
    (fun n round agents next outcome hpop hplayed => by
      obtain ⟨hanswer, rfl⟩ := hplayed
      obtain ⟨posts, flags, hlock⟩ := hpop.exists_lockstep ⟨outcome, hanswer⟩
      exact ⟨(hpop.next hlock).1, hpop.costs hlock hanswer⟩)
    (.start parameters m) i r hr
  rwa [Nat.zero_add] at hrecords

theorem costs_of_dsa {coins : Dsa.Coins α} {parameters : Dsa.Settings α}
    {last : List (Algorithm.Agent α)}
    (h : Plays settings surroundings m 1 (Dsa.Population.wrap (Dsa.agents coins parameters m))
      remaining records termination last) :
    ∀ (i : Nat) r, records[i]? = some r →
      r.Costs (m.agents.length * (m.agents.length - 1)) 12
        (if m.agents = [] then 0 else m.targets.length) :=
  h.forall_records (P := fun _ => Announcing m)
    (Q := fun _ r => r.Costs (m.agents.length * (m.agents.length - 1)) 12
      (if m.agents = [] then 0 else m.targets.length))
    (fun n round agents next outcome hannouncing hplayed => by
      obtain ⟨hanswer, rfl⟩ := hplayed
      obtain ⟨inner, hpop, rfl⟩ := hannouncing
      obtain ⟨posts, flags, hlock⟩ := hpop.exists_lockstep settings surroundings round
      obtain ⟨next, hnext, hpop'⟩ := hpop.population_of_lockstep hlock
      exact ⟨⟨next, hpop', hnext⟩, hpop.costs hlock hanswer⟩)
    (n := 0) ⟨_, .start coins parameters m, rfl⟩

theorem Plays.costs_maxSum [OrderedScalar α] {coins : Dsa.Coins α}
    {parameters : MaxSum.Settings α} {last : List (Algorithm.Agent α)}
    (h : Plays settings surroundings m 1 ((Algorithm.maxSum parameters).population coins m)
      remaining records termination last) (hremaining : remaining ≠ 0) :
    let g := FactorGraph.build m parameters.maxTargets
    let messages := total (records.map (·.messages))
    messages = 2 * g.linkCount * (records.length - 1) ∧
      total (records.map (·.bytes)) = 26 * messages ∧
      total (records.map (·.checks)) = records.length * m.agents.toFinset.sup g.workload := by
  obtain ⟨inner, hinner, -⟩ := (plays_map_iff Algorithm.Agent.embeds_maxSum).1 h
  obtain ⟨hmessages, hbytes, hchecks⟩ :=
    totals_of_costs (costs_of_maxSum hinner) (h.records_ne_nil hremaining)
  exact ⟨hmessages.trans (Nat.zero_add _), hbytes, hchecks⟩

theorem Plays.costs_dsa {coins : Dsa.Coins α} {parameters : Dsa.Settings α}
    {last : List (Algorithm.Agent α)}
    (h : Plays settings surroundings m 1 ((Algorithm.dsa parameters).population coins m) remaining
      records termination last) (hremaining : remaining ≠ 0) :
    let n := m.agents.length
    let messages := total (records.map (·.messages))
    messages = records.length * (n * (n - 1)) ∧ total (records.map (·.bytes)) = 12 * messages ∧
      total (records.map (·.checks)) =
        if m.agents = [] then 0 else records.length * m.targets.length := by
  have hcosts : ∀ (i : Nat) r, records[i]? = some r →
      r.Costs (if i = 0 then m.agents.length * (m.agents.length - 1)
        else m.agents.length * (m.agents.length - 1)) 12
        (if m.agents = [] then 0 else m.targets.length) := by
    simpa only [ite_self] using costs_of_dsa h
  have hne := h.records_ne_nil hremaining
  obtain ⟨hmessages, hbytes, hchecks⟩ := totals_of_costs hcosts hne
  have hrounds : records.length = 1 + (records.length - 1) :=
    (Nat.add_sub_of_le (List.length_pos_iff.2 hne)).symm
  refine ⟨hmessages.trans ?_, hbytes, hchecks.trans (mul_ite ..)⟩
  rw [hrounds, Nat.add_mul, Nat.one_mul, Nat.add_sub_cancel_left]
  exact congrArg _ (Nat.mul_comm _ _)

end Courses

/-- What a solve with a built-in algorithm costs, by the number of its rounds. With Max-Sum each
round but the first sends one message of 26 bytes along every edge in either direction; with DSA
each agent sends every other one a message of 12 bytes in each round. The busiest agent's checks are
the same in every round. -/
theorem solve_costs [OrderedScalar α] {coins : Dsa.Coins α} {settings : Solver.Settings α}
    {oracle : Oracle α} {surroundings : Surroundings α} {inst : Instance} {solution : Solution α}
    (hsolved : (solveBuiltIn coins settings (some oracle) surroundings inst).answer =
      .ok solution) :
    ∃ m, UtilityMatrix.build inst oracle settings.congestionPenalty = .ok m ∧
      let n := inst.agents.length
      let s := solution.stats
      match settings.algorithm with
      | .maxSum parameters =>
        let g := FactorGraph.build m parameters.maxTargets
        s.messages = 2 * g.linkCount * (s.rounds - 1) ∧
        s.messageBytes = 26 * s.messages ∧
        s.constraintChecks = s.rounds * inst.agents.toFinset.sup g.workload
      | .dsa _ =>
        s.messages = s.rounds * (n * (n - 1)) ∧
        s.messageBytes = 12 * s.messages ∧
        s.constraintChecks = if inst.agents = [] then 0 else s.rounds * inst.targets.length := by
  obtain ⟨m, agents, records, termination, last, hsetUp, hplays, rfl⟩ := solve_eq_ok_iff.1 hsolved
  obtain ⟨hvalid, hbuild, hagents⟩ := setUp_builtIn_iff.1 hsetUp
  obtain ⟨hmagents, hmtargets⟩ := UtilityMatrix.build_eq_ok hbuild
  refine ⟨m, hbuild, ?_⟩
  rw [← hmagents, ← hmtargets]
  rw [hagents] at hplays
  cases halgorithm : settings.algorithm with
  | maxSum parameters =>
    rw [halgorithm] at hplays
    exact hplays.costs_maxSum hvalid.maxRounds_ne
  | dsa parameters =>
    rw [halgorithm] at hplays
    exact hplays.costs_dsa hvalid.maxRounds_ne

/-- A crew of three settles in ten rounds with Max-Sum, and in three with DSA. -/
theorem crew_costs :
    (∃ solution,
      (solveBuiltIn (fun _ _ _ => true) Settings.default (some appeal) .still crew).answer =
        .ok solution ∧
      solution.stats.rounds = 10 ∧ solution.stats.messages = 108 ∧
      ∃ m, UtilityMatrix.build crew appeal (10 : Rat) = .ok m ∧
        let g := FactorGraph.build m none
        solution.stats.messages = 2 * g.linkCount * (solution.stats.rounds - 1) ∧
        solution.stats.messageBytes = 26 * solution.stats.messages ∧
        solution.stats.constraintChecks =
          solution.stats.rounds * crew.agents.toFinset.sup g.workload) ∧
    ∃ solution,
      (solveBuiltIn (fun seed _ _ => seed = 0) tossed (some appeal) .still crew).answer =
        .ok solution ∧
      solution.stats.rounds = 3 ∧
      ∃ m, UtilityMatrix.build crew appeal (10 : Rat) = .ok m ∧
        solution.stats.messages = solution.stats.rounds * (3 * (3 - 1)) ∧
        solution.stats.messageBytes = 12 * solution.stats.messages ∧
        solution.stats.constraintChecks =
          if crew.agents = [] then 0 else solution.stats.rounds * 2 := by
  have hmaxSum : (solveBuiltIn (fun _ _ _ => true) Settings.default (some appeal) .still
      crew).answer.toOption.map (fun s => (s.stats.rounds, s.stats.messages)) =
        some (10, 108) := by
    decide +kernel
  have hdsa : (solveBuiltIn (fun seed _ _ => seed = 0) tossed (some appeal) .still
      crew).answer.toOption.map (fun s => s.stats.rounds) = some 3 := by
    decide +kernel
  obtain ⟨solution, hsolved, hstats⟩ := eq_ok_of_map_eq_some hmaxSum
  obtain ⟨hrounds, hmessages⟩ := Prod.mk.inj hstats
  obtain ⟨solution', hsolved', hrounds'⟩ := eq_ok_of_map_eq_some hdsa
  exact ⟨⟨solution, hsolved, hrounds, hmessages, solve_costs hsolved⟩,
    solution', hsolved', hrounds', solve_costs hsolved'⟩

end Solver

end Dispatch
