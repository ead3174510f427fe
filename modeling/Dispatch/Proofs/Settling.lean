import Mathlib
import Dispatch.Proofs.Acceptance
import Dispatch.Proofs.Convergence
import Dispatch.Proofs.Embedding
import Dispatch.Proofs.Optimality
/-!
# Convergence of Max-Sum

An agent of Max-Sum is quiet in a round when it keeps its target and every value it sends repeats
the one before it on its edge. If all agents are, the values they heard are nearly a fixed point of
the recurrence: damping hides some of a change, but no more than a factor of one over what it lets
through. So a solve that converges rests there (`Solver.maxSum_rests_near_fixed_point`).
-/

namespace Dispatch

/-! ## Quiet agents -/

namespace MaxSum

variable {α : Type} [Scalar α]

namespace Agent

theorem emit_append {o : Outbox α} {vs ws : List (EdgeValue α)} (h : (emit o vs).answer = .ok ()) :
    (emit o (vs ++ ws)).agent = (emit (emit o vs).agent ws).agent := by
  induction vs generalizing o with
  | nil => rfl
  | cons v rest ih =>
    simp only [List.cons_append, emit] at h ⊢
    cases hsend : o.send v.edge v.value with
    | error e =>
      rw [hsend] at h
      cases h
    | ok next =>
      rw [hsend] at h
      exact ih h

/-- One batch goes through the outbox, whatever nodes it comes from. -/
theorem outbox_runUpdates {a : Agent α} {us : List (NodeUpdate α)}
    (h : (a.runUpdates us).answer = .ok ()) :
    (a.runUpdates us).agent.outbox = (emit a.outbox (us.flatMap (·.values))).agent := by
  induction us generalizing a with
  | nil => rfl
  | cons u rest ih =>
    simp only [runUpdates] at h ⊢
    cases hanswer : (emit a.outbox u.values).answer with
    | error e =>
      rw [hanswer] at h
      cases h
    | ok _ =>
      rw [hanswer] at h
      dsimp only at h ⊢
      rw [ih h, List.flatMap_cons, emit_append hanswer]

/-- A batch settles an outbox if every value in it repeats what was there on its edge before. -/
theorem settled_emit {o : Outbox α} {vs : List (EdgeValue α)} (h : (emit o vs).answer = .ok ())
    (hedges : (vs.map (·.edge)).Nodup) :
    (emit o vs).agent.settled = (o.settled && vs.all fun v => o.repeats v.edge v.value) := by
  induction vs generalizing o with
  | nil => simp [emit]
  | cons v rest ih =>
    obtain ⟨hfresh, hrest⟩ := List.nodup_cons.1 hedges
    rcases o.send_cases v.edge v.value with ⟨-, hsend⟩ | ⟨-, hsend⟩
    · simp only [emit, hsend] at h ⊢
      rw [ih h hrest, List.all_cons, Bool.and_assoc]
      congr 2
      -- the rest goes along other edges, whose memory is as it was
      rw [Bool.eq_iff_iff, List.all_eq_true, List.all_eq_true]
      refine forall₂_congr fun w hw => ?_
      have hne : v.edge ≠ w.edge := fun e =>
        hfresh (List.mem_map.2 ⟨w, hw, e.symm⟩)
      simp only [Outbox.repeats, Outbox.previous, SortedMap.get?_insert_of_ne _ _ hne]
    · simp only [emit, hsend] at h
      cases h

/-- An agent is quiet if it keeps its target and its outbox settles. -/
theorem quiet_improve_iff {a : Agent α} {again : Bool} (h : a.improve.answer = .ok again) :
    again = false ↔ a.improve.agent.target = a.target ∧
      (a.runUpdates a.updates).agent.outbox.settled = true := by
  obtain ⟨hanswer, -, -⟩ := improve_of_ok h
  rw [improve] at h ⊢
  simp only [hanswer, Except.ok.injEq] at h ⊢
  rw [← h]
  simp [isSettled]

/-- An agent is quiet if it keeps its target and what it says repeats what it said in the round
before. -/
theorem Fits.quiet_iff {settings : Settings α} {m : UtilityMatrix α} {n : Nat} {a : Agent α}
    (h : a.Fits settings m) (hheard : a.Hears (values settings m n))
    (hprevious : Remembers settings m n a) (hfresh : a.outbox.settled = true) {again : Bool}
    (hok : a.improve.answer = .ok again) :
    again = false ↔ a.improve.agent.target = a.target ∧ ∀ e ∈ a.graph.edgesFrom a.id,
      n ≠ 0 ∧ Outbox.differ (values settings m n e) (values settings m (n + 1) e) = false := by
  obtain ⟨hanswer, -, -⟩ := improve_of_ok hok
  have hqueued := outbox_runUpdates hanswer
  rw [h.updates_eq hheard hprevious] at hqueued
  have hemit : (emit a.outbox ((a.graph.edgesFrom a.id).map fun e =>
      ⟨e, values settings m (n + 1) e⟩)).answer = .ok () := by
    apply emit_succeeds
    rw [← h.updates_eq hheard hprevious]
    exact (runUpdates_ok hanswer).1
  have hnodup : (((a.graph.edgesFrom a.id).map fun e =>
      (⟨e, values settings m (n + 1) e⟩ : EdgeValue α)).map (·.edge)).Nodup := by
    rw [List.map_map, h.graph_eq]
    exact (List.map_id _).symm ▸ FactorGraph.nodup_edgesFrom a.id
  rw [quiet_improve_iff hok, hqueued, settled_emit hemit hnodup, hfresh, Bool.true_and,
    List.all_eq_true, List.forall_mem_map]
  refine and_congr_right fun _ => forall₂_congr fun e he => ?_
  rw [Outbox.repeats, hprevious e he]
  by_cases hn : n = 0 <;> simp [hn]

end Agent

/-! ## Quiet rounds -/

/-- Nobody asks for another round if and only if all keep their targets, and on every edge the value
of this round repeats that of the round before. -/
theorem Population.quiet_iff [OrderedScalar α] {settings : Settings α} {m : UtilityMatrix α}
    {n : Nat} {agents : List (Agent α)} (h : Population settings m n agents)
    {posts : List (Message α)} {flags : List Bool}
    {progress : Progress α (Agent α) (Round.Outcome α)}
    (hlock : Round.Lockstep agents posts flags progress) :
    true ∉ flags ↔
      progress.agents.map (fun a => (a.id, a.target)) = agents.map (fun a => (a.id, a.target)) ∧
      ∀ e ∈ (FactorGraph.build m settings.maxTargets).edges,
        n ≠ 0 ∧ Outbox.differ (values settings m n e) (values settings m (n + 1) e) = false := by
  let reply := fun a : Agent α => Round.replyTo ⟨posts⟩ (Dispatch.Agent.send a).agent
  have hid : ∀ a ∈ agents, (reply a).agent.id = a.id := fun a ha =>
    (h.replyTo_tracks hlock.posts_perm ha (hlock.exists_flag ha).choose_spec.2).1
  have hone : ∀ a ∈ agents, (reply a).answer = .ok false ↔ (reply a).agent.target = a.target ∧
      ∀ e ∈ (FactorGraph.build m settings.maxTargets).edgesFrom a.id,
        n ≠ 0 ∧ Outbox.differ (values settings m n e) (values settings m (n + 1) e) = false := by
    intro a ha
    obtain ⟨b, hreply, hid, htarget, houtbox, hfits, hheard, hprevious, -⟩ :=
      h.replyTo_eq_improve hlock.posts_perm ha
    obtain ⟨again, -, hok⟩ := hlock.exists_flag ha
    have hquiet := hfits.quiet_iff hheard hprevious (by rw [houtbox]) (hreply ▸ hok)
    rw [hfits.graph_eq, hid, htarget, ← hreply] at hquiet
    rw [← hquiet, hok, Except.ok.injEq]
  -- every edge leaves some agent, and an agent sends along edges only
  have hedges : (∀ a ∈ agents, ∀ e ∈ (FactorGraph.build m settings.maxTargets).edgesFrom a.id,
      n ≠ 0 ∧ Outbox.differ (values settings m n e) (values settings m (n + 1) e) = false) ↔
      ∀ e ∈ (FactorGraph.build m settings.maxTargets).edges,
        n ≠ 0 ∧ Outbox.differ (values settings m n e) (values settings m (n + 1) e) = false := by
    refine ⟨fun hall e he => ?_, fun hall a _ e he => hall e (FactorGraph.mem_edgesFrom.1 he).1⟩
    obtain ⟨⟨b, hb, hhost⟩, -⟩ := FactorGraph.mem_agents_of_host he
    obtain ⟨a, ha, rfl⟩ := h.mem_agents.1 hb
    exact hall a ha e (FactorGraph.mem_edgesFrom.2 ⟨he, hhost⟩)
  have htargets : progress.agents.map (fun a => (a.id, a.target)) =
      agents.map (fun a => (a.id, a.target)) ↔ ∀ a ∈ agents, (reply a).agent.target = a.target := by
    rw [hlock.agents_eq, List.map_map, List.map_inj_left]
    exact forall₂_congr fun a ha =>
      ⟨fun hpair => congrArg Prod.snd hpair, fun hkept => Prod.ext (hid a ha) hkept⟩
  rw [hlock.quiet_iff, htargets, ← hedges, forall₂_congr hone, ← forall₂_and]

/-! ## Damping -/

/-- Of the change from the value of an edge to what its source makes of the values around, a round
carries out all but the damped share. If it is too little to notice, there was not much. -/
theorem reply_near_of_repeats {settings : Settings Rat} (hnonneg : 0 ≤ settings.damping)
    (hlt : settings.damping < 1) {m : UtilityMatrix Rat} {n : Nat} (hn : n ≠ 0) {e : Edge}
    (h : Outbox.differ (values settings m n e) (values settings m (n + 1) e) = false) :
    |reply m (.build m settings.maxTargets) (values settings m n) e - values settings m n e| ≤
      Scalar.epsilon / (1 - settings.damping) := by
  have hclose : |values settings m n e - values settings m (n + 1) e| ≤ Scalar.epsilon :=
    not_lt.1 (of_decide_eq_false h)
  have hpos : 0 < 1 - settings.damping := sub_pos.2 hlt
  simp only [values, Scalar.one_rat, Scalar.zero_rat] at hclose
  rw [le_div_iff₀ hpos, abs_sub_comm, ← abs_of_pos hpos, ← abs_mul]
  split at hclose
  · refine le_of_eq_of_le (congrArg abs ?_) hclose
    ring
  · rename_i hplain
    have hdamping : settings.damping = 0 :=
      le_antisymm (not_lt.1 fun hpos => hplain ⟨Nat.pos_of_ne_zero hn, hpos⟩) hnonneg
    rw [hdamping, sub_zero, mul_one]
    exact hclose

/-! ## Rest -/

/-- What a round of quiet agents says of the values `v` of the round before. -/
structure Rest (settings : Settings Rat) (m : UtilityMatrix Rat) (v : Edge → Rat)
    (before last : List (Agent Rat)) : Prop where
  ids_eq : last.map (·.id) = m.agents
  /-- The round before sent these values, one along every edge of the graph. -/
  sent_perm : (sent before).Perm
    ((FactorGraph.build m settings.maxTargets).edges.map fun e => ⟨e, v e⟩)
  /-- They are nearly what the nodes make of them. -/
  reply_near : ∀ e ∈ (FactorGraph.build m settings.maxTargets).edges,
    |reply m (.build m settings.maxTargets) v e - v e| ≤ Scalar.epsilon / (1 - settings.damping)
  /-- Every agent prefers its earliest best candidate by them, -/
  target_best : ∀ a ∈ last, EarliestBest (fun t => m.utility a.id t + v (.toAgent t a.id))
    ((FactorGraph.build m settings.maxTargets).candidatesOf a.id) a.target
  /-- and did so before. -/
  targets_eq : last.map (fun a => (a.id, a.target)) = before.map (fun a => (a.id, a.target))

section Runs
variable {settings : Settings Rat} {m : UtilityMatrix Rat} {solver : Solver.Settings Rat}
  {surroundings : Surroundings Rat} {n : Nat}

open Solver

theorem rest_of_quiet (hnonneg : 0 ≤ settings.damping) (hlt : settings.damping < 1)
    (hquiet : ¬ AsksAgain solver surroundings (agents settings m) (n + 1)) :
    Rest settings m (values settings m n) (after solver surroundings (agents settings m) n)
        (after solver surroundings (agents settings m) (n + 1)) ∧
      (n = 0 → (FactorGraph.build m settings.maxTargets).edges = []) := by
  have hpop := population_exact settings m solver surroundings n
  obtain ⟨posts, flags, hlock⟩ := hpop.exists_lockstep (rounds_succeed (fun _ => rfl) n)
  have hstill : true ∉ flags := fun hin => hquiet ⟨_, hlock.answer_eq, hin⟩
  obtain ⟨htargets, hrepeats⟩ := (hpop.quiet_iff hlock).1 hstill
  obtain ⟨hnext, hbest, -⟩ := hpop.next hlock
  have hnone : n = 0 → (FactorGraph.build m settings.maxTargets).edges = [] := fun hn =>
    List.eq_nil_iff_forall_not_mem.2 fun e he => (hrepeats e he).1 hn
  refine ⟨⟨hnext.ids_eq, ?_, fun e he => ?_, hbest, htargets⟩, hnone⟩
  · by_cases hn : n = 0
    · rw [hnone hn, hn]
      have hnil : sent (agents settings m) = [] :=
        List.flatMap_eq_nil_iff.2 fun a ha => by
          rw [((Population.start settings m).tracks a ha).queue_eq, if_pos rfl]
      exact hnil ▸ .refl _
    · exact hpop.sent_perm hn
  · obtain ⟨hn, hsame⟩ := hrepeats e he
    exact reply_near_of_repeats hnonneg hlt hn hsame

/-- In a graph without edges nobody has a candidate. -/
theorem Rest.target_eq_none {v : Edge → Rat} {before last : List (Agent Rat)}
    (h : Rest settings m v before last)
    (hedges : (FactorGraph.build m settings.maxTargets).edges = []) :
    ∀ a ∈ last, a.target = none := by
  intro a ha
  cases htarget : a.target with
  | none => rfl
  | some t =>
    obtain ⟨before, after, hsplit, -⟩ := htarget ▸ h.target_best a ha
    have ht : t ∈ (FactorGraph.build m settings.maxTargets).candidatesOf a.id := by
      rw [hsplit]
      simp
    have hedge := FactorGraph.toTarget_mem_edges.2 ht
    rw [hedges] at hedge
    cases hedge

end Runs

end MaxSum

/-! ## Solves -/

namespace Solver

open MaxSum (Rest)

/-- When a solve with Max-Sum converges, the values sent in the last round but one are a fixed point
of undamped Max-Sum, up to the change that still counts as a repetition over what damping lets
through. Every agent holds its earliest best candidate by these values, and did so a round before.
If there is no round before, there are no edges, and nobody holds anything. -/
theorem maxSum_rests_near_fixed_point {coins : Dsa.Coins Rat} {settings : Solver.Settings Rat}
    {s : MaxSum.Settings Rat} (hmaxSum : settings.algorithm = .maxSum s) {oracle : Oracle Rat}
    {surroundings : Surroundings Rat} {inst : Instance} {solution : Solution Rat}
    (hsolved : (solveBuiltIn coins settings (some oracle) surroundings inst).answer = .ok solution)
    (hconverged : solution.stats.termination = .converged) :
    ∃ m v, let agents := MaxSum.agents s m
      setUp (settings.algorithm.factory coins) settings (some oracle) inst =
        .ok (m, agents.map .maxSum) ∧
      m.agents = inst.agents ∧ m.targets = inst.targets ∧
      (∀ n, after settings surroundings (agents.map Algorithm.Agent.maxSum) n =
        (after settings surroundings agents n).map .maxSum) ∧
      Rest s m v (after settings surroundings agents (solution.stats.rounds - 1))
        (after settings surroundings agents solution.stats.rounds) ∧
      (solution.stats.rounds = 1 → (FactorGraph.build m s.maxTargets).edges = [] ∧
        ∀ a ∈ after settings surroundings agents 1, a.target = none) := by
  obtain ⟨m, agents, records, termination, last, hsetUp, hplays, hsolution⟩ :=
    solve_eq_ok_iff.1 hsolved
  obtain ⟨hvalid, hbuild, hagents⟩ := setUp_builtIn_iff.1 hsetUp
  obtain ⟨hmagents, hmtargets⟩ := UtilityMatrix.build_eq_ok hbuild
  have hdamping : s.Valid := by
    have hvalid := hvalid.algorithm
    rwa [hmaxSum] at hvalid
  obtain rfl : agents = (MaxSum.agents s m).map .maxSum := by
    rw [hagents, hmaxSum]
    rfl
  have hreported : RoundsReported settings surroundings _ solution.stats :=
    hsolution ▸ hplays.roundsReported hvalid.maxRounds_ne _
  obtain ⟨n, hn⟩ : ∃ n, solution.stats.rounds = n + 1 :=
    Nat.exists_eq_succ_of_ne_zero (Nat.ne_of_gt hreported.one_le)
  -- nobody asks for another round, embedded or not
  have hquiet := mt (asksAgain_map settings surroundings Algorithm.Agent.embeds_maxSum _ _).2
    (hreported.converged_iff.1 hconverged)
  rw [hn] at hquiet ⊢
  obtain ⟨hrest, hnone⟩ := MaxSum.rest_of_quiet hdamping.zero_le hdamping.lt_one hquiet
  refine ⟨m, MaxSum.values s m n, hsetUp, hmagents, hmtargets,
    after_map settings surroundings Algorithm.Agent.embeds_maxSum _, hrest, fun hone => ?_⟩
  obtain rfl : n = 0 := Nat.succ.inj hone
  exact ⟨hnone rfl, hrest.target_eq_none (hnone rfl)⟩

/-- Two agents and two targets. -/
def courting : Instance := ⟨[.ofNat 1, .ofNat 2], [.ofNat 3, .ofNat 4], .empty⟩

/-- The first target is worth more to the first agent, the second one much less to the second. -/
def courtship : Oracle Rat where
  utility a t :=
    if t = .ofNat 3 then (if a = .ofNat 1 then 10 else 9) else if a = .ofNat 1 then 9 else 2
  need _ := 1

/-- A solver that damps by a quarter. -/
def damped : Solver.Settings Rat :=
  { Solver.Settings.default with algorithm := .maxSum ⟨1 / 4, none⟩ }

/-- The two come to rest in their last round, where damping still hides what is left to change. -/
theorem courting_rest_near_fixed_point :
    ∃ solution,
      (solveBuiltIn (fun _ _ _ => true) damped (some courtship) .still courting).answer =
        .ok solution ∧
      solution.stats.rounds = 23 ∧ solution.stats.termination = .converged ∧
      ∃ m v, let agents := MaxSum.agents ⟨1 / 4, none⟩ m
        setUp (damped.algorithm.factory fun _ _ _ => true) damped (some courtship) courting =
          .ok (m, agents.map .maxSum) ∧
        m.agents = courting.agents ∧ m.targets = courting.targets ∧
        (∀ n, after damped .still (agents.map Algorithm.Agent.maxSum) n =
          (after damped .still agents n).map .maxSum) ∧
        Rest ⟨1 / 4, none⟩ m v (after damped .still agents (solution.stats.rounds - 1))
          (after damped .still agents solution.stats.rounds) ∧
        (solution.stats.rounds = 1 → (FactorGraph.build m none).edges = [] ∧
          ∀ a ∈ after damped .still agents 1, a.target = none) := by
  have hstats : (solveBuiltIn (fun _ _ _ => true) damped (some courtship) .still
      courting).answer.toOption.map (fun s => (s.stats.rounds, s.stats.termination)) =
        some (23, .converged) := by
    decide +kernel
  obtain ⟨solution, hsolved, hstats⟩ := eq_ok_of_map_eq_some hstats
  obtain ⟨hrounds, hconverged⟩ := Prod.mk.inj hstats
  exact ⟨solution, hsolved, hrounds, hconverged,
    maxSum_rests_near_fixed_point rfl hsolved hconverged⟩

end Solver

end Dispatch
