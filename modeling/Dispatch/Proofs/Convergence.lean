import Mathlib
import Dispatch.Proofs.Announcements
import Dispatch.Proofs.Building
import Dispatch.Proofs.Trace
/-!
# Convergence of DSA

A solve that runs DSA and converges ends in an equilibrium: `Solver.dsa_rests_at_equilibrium`. So
the greedy repair finds nothing to do there and the final branch of the result is the last round's.
-/

namespace Dispatch

variable {α : Type} [Scalar α]

namespace Solver

/-! ## Setting up -/

/-- A solve that sets up works on the matrix of its problem, with agents from the factory. -/
theorem setUp_eq_ok {σ : Type} [Agent α σ] {factory : Factory α σ} {settings : Solver.Settings α}
    {oracle : Oracle α} {inst : Instance} {m : UtilityMatrix α} {agents : List σ}
    (h : setUp factory settings (some oracle) inst = .ok (m, agents)) :
    UtilityMatrix.build inst oracle settings.congestionPenalty = .ok m ∧
      factory.build m = .ok agents := by
  obtain ⟨_, horacle, -, hbuild, hagents, -⟩ := setUp_eq_ok_iff.1 h
  cases horacle
  exact ⟨hbuild, hagents⟩

end Solver

theorem Algorithm.agents_dsa {coins : Dsa.Coins α} {d : Dsa.Settings α} {m : UtilityMatrix α}
    {agents : List (Algorithm.Agent α)}
    (h : (Algorithm.dsa d).agents coins m = .ok agents) :
    agents = (Dsa.agents coins d m).map .dsa := by
  unfold Algorithm.agents at h
  split at h
  · cases h
  · exact (Except.ok.inj h).symm

namespace Solver
variable [OrderedScalar α] {m : UtilityMatrix α}

/-! ## The last round -/

/-- Rounds that end because nobody asks for another leave an equilibrium. -/
theorem play_converged {settings : Solver.Settings α} {surroundings : Surroundings α}
    {round remaining : Nat} {agents : List (Dsa.Agent α)} (h : Dsa.Population m agents)
    {last : List (Algorithm.Agent α)}
    (hend : (play settings surroundings m round (Dsa.Population.wrap agents) remaining).ending =
      .ok (.converged, last)) :
    ∃ r,
      (play settings surroundings m round (Dsa.Population.wrap agents) remaining).records.getLast? =
        some r ∧
      m.Equilibrium r.assignment := by
  induction remaining generalizing round agents with
  | zero => cases hend
  | succ remaining ih =>
    unfold play at hend ⊢
    cases hbudget : outOfTime settings surroundings round with
    | some budget =>
      rw [hbudget] at hend
      cases hend
    | none =>
      rw [hbudget] at hend
      dsimp only at hend ⊢
      cases hanswer :
          (playRound settings surroundings round (Dsa.Population.wrap agents)).answer with
      | error e =>
        rw [hanswer] at hend
        cases hend
      | ok outcome =>
        rw [hanswer] at hend
        dsimp only at hend ⊢
        obtain ⟨posts, flags, hlock⟩ := playRound_lockstep settings surroundings round
          (Dsa.Population.sendsFreely agents) h.nodup_wrap hanswer
        obtain rfl := Except.ok.inj (hlock.answer_eq.symm.trans hanswer)
        split at hend
        · -- the course goes on, and its last round is that of the rest
          rename_i hrestless
          rw [if_pos hrestless]
          obtain ⟨next, hnext, hpop⟩ := h.population_of_lockstep hlock
          rw [hnext] at hend ⊢
          obtain ⟨r, hr, hequilibrium⟩ := ih hpop hend
          refine ⟨r, ?_, hequilibrium⟩
          rw [Course.cons, List.getLast?_cons, hr]
          rfl
        · rename_i hrestless
          rw [if_neg hrestless]
          exact ⟨_, rfl, h.equilibrium_of_quiet hlock (Bool.eq_false_iff.2 hrestless)⟩

/-- Nothing comes of the repair of an equilibrium. -/
theorem branch_of_equilibrium {x : Assignment} (h : m.Equilibrium x) (name : String) :
    branch m name x (m.totalUtility x) =
      ⟨x, m.totalUtility x, x, m.totalUtility x, false, []⟩ := by
  simp only [branch, sweep_of_equilibrium h, Sweep.start, List.map_nil,
    if_neg (OrderedScalar.lt_irrefl (m.totalUtility x))]

/-- When a solve with DSA converges, whatever the coins show and however its rounds run, no agent
has a strictly better target than its own in the last round's assignment, given the others' targets
in it. Repair returns that assignment as it is and does not lower its utility. -/
theorem dsa_rests_at_equilibrium {coins : Dsa.Coins α}
    {settings : Solver.Settings α} {d : Dsa.Settings α} (hdsa : settings.algorithm = .dsa d)
    {oracle : Oracle α} {surroundings : Surroundings α} {inst : Instance} {solution : Solution α}
    (hsolved : (solveBuiltIn coins settings (some oracle) surroundings inst).answer = .ok solution)
    (hconverged : solution.stats.termination = .converged) :
    ∃ m agents last,
      setUp (settings.algorithm.factory coins) settings (some oracle) inst = .ok (m, agents) ∧
      m.agents = inst.agents ∧ m.targets = inst.targets ∧
      let course := play settings surroundings m 1 agents settings.maxRounds
      course.records.getLast? = some last ∧
      m.Equilibrium last.assignment ∧
      repaired m last.assignment = last.assignment ∧
      (finalBranch m course.records).repaired = last.assignment ∧
      (finalBranch m course.records).regressed = false ∧
      solution.stats.finalUtility = m.totalUtility last.assignment ∧
      solution.stats.finalRepairedUtility = solution.stats.finalUtility := by
  unfold solveBuiltIn solve at hsolved
  split at hsolved
  · cases hsolved
  · rename_i m agents hsetUp
    obtain ⟨hbuild, hagents⟩ := setUp_eq_ok hsetUp
    obtain ⟨hmagents, hmtargets⟩ := UtilityMatrix.build_eq_ok hbuild
    rw [hdsa] at hagents
    obtain rfl := Algorithm.agents_dsa hagents
    dsimp only at hsolved
    split at hsolved
    · cases hsolved
    · rename_i termination final hend
      cases hsolved
      obtain rfl : termination = .converged := hconverged
      obtain ⟨last, hlast, hequilibrium⟩ := play_converged (.start coins d m) hend
      have hassignment : lastAssignment (play settings surroundings m 1
          (Dsa.Population.wrap (Dsa.agents coins d m)) settings.maxRounds).records =
            last.assignment := by
        rw [lastAssignment, hlast]
      refine ⟨m, _, last, hsetUp, hmagents, hmtargets, hlast, hequilibrium, ?_, ?_⟩
      · rw [repaired, sweep_of_equilibrium hequilibrium, Sweep.start]
      · have hbranch := branch_of_equilibrium hequilibrium "final"
        simp only [stats, finalBranch, hassignment, hbranch, and_self]

/-- Two agents that would both take the first of two targets. -/
def rivals : Instance := ⟨[.ofNat 1, .ofNat 2], [.ofNat 3, .ofNat 4], .empty⟩

/-- Each target needs one agent, and the first target is worth more to either. -/
def rivalry : Oracle Rat := ⟨fun _ t => if t = .ofNat 3 then 5 else 3, fun _ => 1⟩

/-- A solver with agents that toss a coin. -/
def tossing : Solver.Settings Rat := { Solver.Settings.default with algorithm := .dsa .default }

/-- The rivals part when only the first of them moves. -/
theorem rivals_rest_at_equilibrium :
    ∃ solution,
      (solveBuiltIn (fun seed _ _ => seed = 0) tossing (some rivalry) .still rivals).answer =
        .ok solution ∧
      solution.stats.rounds = 3 ∧ solution.stats.termination = .converged ∧
      ∃ m agents last,
        setUp (tossing.algorithm.factory fun seed _ _ => seed = 0) tossing (some rivalry) rivals =
          .ok (m, agents) ∧
        m.agents = rivals.agents ∧ m.targets = rivals.targets ∧
        let course := play tossing .still m 1 agents tossing.maxRounds
        course.records.getLast? = some last ∧
        m.Equilibrium last.assignment ∧
        repaired m last.assignment = last.assignment ∧
        (finalBranch m course.records).repaired = last.assignment ∧
        (finalBranch m course.records).regressed = false ∧
        solution.stats.finalUtility = m.totalUtility last.assignment ∧
        solution.stats.finalRepairedUtility = solution.stats.finalUtility := by
  have hsolve : (solveBuiltIn (fun seed _ _ => seed = 0) tossing (some rivalry) .still
      rivals).answer.toOption.map (fun s => (s.stats.rounds, s.stats.termination)) =
        some (3, .converged) := by
    decide +kernel
  obtain ⟨solution, hsolution, hstats⟩ := Option.map_eq_some_iff.1 hsolve
  obtain ⟨hrounds, hconverged⟩ := Prod.mk.inj hstats
  have hsolved : (solveBuiltIn (fun seed _ _ => seed = 0) tossing (some rivalry) .still
      rivals).answer = .ok solution := by
    cases hanswer : (solveBuiltIn (fun seed _ _ => seed = 0) tossing (some rivalry) .still
        rivals).answer with
    | error e =>
      rw [hanswer] at hsolution
      cases hsolution
    | ok other =>
      rw [hanswer] at hsolution
      exact congrArg _ (Option.some.inj hsolution)
  exact ⟨solution, hsolved, hrounds, hconverged, dsa_rests_at_equilibrium rfl hsolved hconverged⟩

end Solver

end Dispatch
