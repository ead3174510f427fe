import Mathlib
import Dispatch.Proofs.Determinism
import Dispatch.Proofs.Incumbent
/-!
# What the settings choose

A solve has four assignments to return: those of its last and its best round, and what repair makes
of either. `anytime` and `repair` pick one of them and change nothing else
(`Solver.settings_choose_one_of_four`), so that the four solves come to the same statistics. Only
concurrent rounds of agents that post in each other's names may run otherwise each time. A branch
falls back on the unrepaired assignment where repair lowers the utility (`Branch.FallsBack`), which
is why repair never does any harm.
-/

namespace Dispatch.Solver

variable {α σ : Type} [Scalar α]

/-! ## Branches -/

/-- What a branch offers: its assignment, and that or the repaired one, whichever is worth more. -/
structure Branch.FallsBack (m : UtilityMatrix α) (b : Branch α) : Prop where
  utility_eq : b.utility = m.totalUtility b.assignment
  repairedUtility_eq : b.repairedUtility = m.totalUtility (Dispatch.repaired m b.assignment)
  totalUtility_repaired : m.totalUtility b.repaired = Scalar.max b.repairedUtility b.utility
  regressed_iff : b.regressed = true ↔ b.repairedUtility < b.utility

theorem fallsBack_branch [SummingScalar α] (m : UtilityMatrix α) (name : String) (x : Assignment) :
    (branch m name x (m.totalUtility x)).FallsBack m := by
  have hmax := OrderedScalar.max_eq (m.isNumber_totalUtility (repaired m x))
    (m.isNumber_totalUtility x)
  unfold branch
  dsimp only
  -- on a tie the repaired assignment is kept
  split
  · rename_i hlower
    exact ⟨rfl, rfl, (hmax.trans (if_pos hlower)).symm, iff_of_true rfl hlower⟩
  · rename_i hkept
    exact ⟨rfl, rfl, (hmax.trans (if_neg hkept)).symm, iff_of_false Bool.false_ne_true hkept⟩

/-- Repair does no harm. -/
theorem Branch.FallsBack.le_repaired [SummingScalar α] {m : UtilityMatrix α} {b : Branch α}
    (h : b.FallsBack m) : m.totalUtility b.assignment ≤ m.totalUtility b.repaired := by
  have hassignment := m.isNumber_totalUtility b.assignment
  refine (OrderedScalar.le_iff_not_lt hassignment (m.isNumber_totalUtility _)).2 fun hlt => ?_
  rw [h.totalUtility_repaired, h.repairedUtility_eq, h.utility_eq,
    OrderedScalar.max_eq (m.isNumber_totalUtility _) hassignment] at hlt
  split at hlt
  · exact OrderedScalar.lt_irrefl _ hlt
  · contradiction

theorem Branch.FallsBack.toNat_regressed {m : UtilityMatrix α} {b : Branch α} (h : b.FallsBack m) :
    b.regressed.toNat = if b.repairedUtility < b.utility then 1 else 0 := by
  by_cases hlower : b.repairedUtility < b.utility
  · rw [if_pos hlower, h.regressed_iff.2 hlower]
    rfl
  · rw [if_neg hlower, Bool.eq_false_iff.2 (mt h.regressed_iff.1 hlower)]
    rfl

/-! ## Four solves -/

/-- The same solver, asked for one of the four assignments. -/
def Settings.returning (settings : Settings α) (anytime repair : Bool) : Settings α :=
  { settings with anytime, repair }

/-- Four answers, by whether the best round is asked for and whether it shall be repaired, with
what is reported on all of them. -/
structure Returned (m : UtilityMatrix α) (answers : Bool → Bool → Solution α) (s : Stats α) :
    Prop where
  stats_eq : ∀ anytime repair, (answers anytime repair).stats.untimed = s.untimed
  last : m.totalUtility (answers false false).assignment = s.finalUtility
  best : m.totalUtility (answers true false).assignment = s.bestUtility
  last_repaired : m.totalUtility (answers false true).assignment =
    Scalar.max s.finalRepairedUtility s.finalUtility
  best_repaired : m.totalUtility (answers true true).assignment =
    Scalar.max s.bestRepairedUtility s.bestUtility
  finalRepairedUtility_eq :
    s.finalRepairedUtility = m.totalUtility (repaired m (answers false false).assignment)
  bestRepairedUtility_eq :
    s.bestRepairedUtility = m.totalUtility (repaired m (answers true false).assignment)
  repairRegressions_eq : s.repairRegressions =
    (if s.finalRepairedUtility < s.finalUtility then 1 else 0) +
      if s.bestRepairedUtility < s.bestUtility then 1 else 0
  le_repaired : ∀ anytime, m.totalUtility (answers anytime false).assignment ≤
    m.totalUtility (answers anytime true).assignment
  le_best : ∀ u ∈ s.utilities, u ≤ m.totalUtility (answers true false).assignment

section Solves
variable [Agent α σ] {factory : Factory α σ} {settings : Settings α} {oracle : Option (Oracle α)}
  {inst : Instance} {m : UtilityMatrix α} {records : List (RoundRecord α)}
  {termination : Termination}

theorem Plays.returned [SummingScalar α] {surroundings : Surroundings α} {start last : List σ}
    {remaining : Nat} (h : Plays settings surroundings m 1 start remaining records termination last)
    (hremaining : remaining ≠ 0) (name : String) (others : Bool → Bool → Surroundings α) :
    Returned m
      (fun anytime repair => conclusion name (settings.returning anytime repair)
        (others anytime repair) m records termination last)
      (conclusion name settings surroundings m records termination last).stats := by
  obtain ⟨final, hlast, hfinal⟩ := h.exists_finalBranch hremaining
  obtain ⟨i, best, hincumbent, hbest⟩ := h.exists_bestBranch hremaining
  have hfinalBranch : (finalBranch m records).FallsBack m := by
    rw [hfinal, h.utility_of_mem (List.mem_of_getLast? hlast)]
    exact fallsBack_branch m _ _
  have hbestBranch : (bestBranch m records).FallsBack m := by
    rw [hbest, h.utility_of_mem (List.mem_of_getElem? hincumbent.here)]
    exact fallsBack_branch m _ _
  have hbestUtility : m.totalUtility (bestBranch m records).assignment = best.utility := by
    rw [← hbestBranch.utility_eq, hbest, branch_utility]
  exact {
    stats_eq := fun _ _ => rfl
    last := hfinalBranch.utility_eq.symm
    best := hbestBranch.utility_eq.symm
    last_repaired := hfinalBranch.totalUtility_repaired
    best_repaired := hbestBranch.totalUtility_repaired
    finalRepairedUtility_eq := hfinalBranch.repairedUtility_eq
    bestRepairedUtility_eq := hbestBranch.repairedUtility_eq
    repairRegressions_eq :=
      congrArg₂ (· + ·) hfinalBranch.toNat_regressed hbestBranch.toNat_regressed
    le_repaired := fun anytime => by
      cases anytime with
      | false => exact hfinalBranch.le_repaired
      | true => exact hbestBranch.le_repaired
    le_best := by
      show ∀ u ∈ records.map (·.utility), u ≤ m.totalUtility (bestBranch m records).assignment
      rw [hbestUtility]
      exact List.forall_mem_map.2 hincumbent.le_of_mem }

/-- Without a time budget the rounds are the same for all four, unless agents that speak for others
find their mail in another order. -/
theorem Plays.returning {surroundings : Bool → Bool → Surroundings α}
    (hbudget : settings.timeBudgetMs = none)
    (hcourse : settings.parallel = true → Agent.Honest σ ∨
      ∀ anytime repair, (surroundings anytime repair).schedule =
        (surroundings false false).schedule)
    {anytime repair : Bool} {start last : List σ} {remaining : Nat}
    (h : Plays (settings.returning anytime repair) (surroundings anytime repair) m 1 start remaining
      records termination last)
    (hids : (start.map Agent.id).Nodup) (anytime' repair' : Bool) :
    Plays (settings.returning anytime' repair') (surroundings anytime' repair') m 1 start remaining
      records termination last := by
  have hfollow (hround : ∀ n (agents : List σ),
      playRound (settings.returning anytime repair) (surroundings anytime repair) n agents =
        playRound (settings.returning anytime' repair') (surroundings anytime' repair') n agents) :
      Plays (settings.returning anytime' repair') (surroundings anytime' repair') m 1 start
        remaining records termination last :=
    h.transfer (P := fun _ => True) trivial
      (fun n agents _ _ _ hplayed => ⟨hround n agents ▸ hplayed, trivial⟩) hbudget hbudget
  cases hparallel : settings.parallel with
  | false =>
    refine hfollow fun n agents => ?_
    simp only [playRound, Settings.returning, hparallel, Bool.false_eq_true, if_false]
  | true =>
    rcases hcourse hparallel with hhonest | hschedule
    · exact h.of_honest hids hbudget hbudget
    · refine hfollow fun n agents => ?_
      simp only [playRound, Settings.returning, hschedule anytime repair,
        hschedule anytime' repair']

/-- A solve without a time budget that succeeds, succeeds for all four; they agree on the
statistics, and each returns what it is asked for. Only agents that post in each other's names can
tell the courses of concurrent rounds apart; theirs are taken to be the same for all four. -/
theorem settings_choose_one_of_four [SummingScalar α]
    {surroundings : Bool → Bool → Surroundings α} (hbudget : settings.timeBudgetMs = none)
    (hcourse : settings.parallel = true → Agent.Honest σ ∨
      ∀ anytime repair, (surroundings anytime repair).schedule =
        (surroundings false false).schedule)
    {anytime repair : Bool} {solution : Solution α}
    (h : (solve factory (settings.returning anytime repair) oracle (surroundings anytime repair)
      inst).answer = .ok solution) :
    ∃ m agents, setUp factory settings oracle inst = .ok (m, agents) ∧
      ∃ answers : Bool → Bool → Solution α,
        (∀ anytime repair, (solve factory (settings.returning anytime repair) oracle
          (surroundings anytime repair) inst).answer = .ok (answers anytime repair)) ∧
        Returned m answers solution.stats := by
  obtain ⟨m, agents, records, termination, last, hsetUp, hplays, rfl⟩ := solve_eq_ok_iff.1 h
  obtain ⟨_, -, hvalid, -, -, hids⟩ := setUp_eq_ok_iff.1 hsetUp
  refine ⟨m, agents, hsetUp, _, fun anytime' repair' => solve_eq_ok_iff.2
    ⟨m, agents, records, termination, last, hsetUp,
      hplays.returning hbudget hcourse (hids ▸ m.agents_nodup) anytime' repair', rfl⟩, ?_⟩
  exact hplays.returned (maxRounds_ne_zero_of_validate hvalid) factory.name surroundings

end Solves

instance : Agent.Honest Scripted where
  sender_eq _ _ hm := absurd hm List.not_mem_nil
  id_send _ := rfl
  id_receive _ _ := rfl
  id_improve a := by
    show a.improve.agent.id = a.id
    unfold Scripted.improve
    split <;> rfl

/-- All agents take the first target, but then only the last one keeps any, which is the second. -/
def fading : Factory Rat Scripted :=
  let first := some (EntityId.ofNat 4)
  Scripted.factory [[first, none], [first, none], [first, some (EntityId.ofNat 5)]]

def abreast : Settings Rat := { Settings.default with parallel := true }

/-- Rounds go backwards if the best one is asked for. -/
def varied (anytime _repair : Bool) : Surroundings Rat :=
  { Surroundings.still with schedule := fun _ => if anytime then backwards else .inTurn }

/-- Repair helps the last round but not the best. -/
theorem fading_returns_one_of_four :
    ∃ solution,
      (solve fading (abreast.returning false false) (some appeal) (varied false false)
        crew).answer = .ok solution ∧
      (solution.stats.finalUtility, solution.stats.finalRepairedUtility,
        solution.stats.bestUtility, solution.stats.bestRepairedUtility,
        solution.stats.repairRegressions) = (3, 23, 30, 21, 1) ∧
      ∃ m agents, setUp fading abreast (some appeal) crew = .ok (m, agents) ∧
        ∃ answers : Bool → Bool → Solution Rat,
          (∀ anytime repair, (solve fading (abreast.returning anytime repair) (some appeal)
            (varied anytime repair) crew).answer = .ok (answers anytime repair)) ∧
          Returned m answers solution.stats := by
  have hstats : (solve fading (abreast.returning false false) (some appeal) (varied false false)
      crew).answer.toOption.map (fun s => (s.stats.finalUtility, s.stats.finalRepairedUtility,
        s.stats.bestUtility, s.stats.bestRepairedUtility, s.stats.repairRegressions)) =
          some (3, 23, 30, 21, 1) := by
    decide +kernel
  obtain ⟨solution, hsolved, hstats⟩ := eq_ok_of_map_eq_some hstats
  exact ⟨solution, hsolved, hstats,
    settings_choose_one_of_four rfl (fun _ => .inl inferInstance) hsolved⟩

/-- An agent with a target to announce, which takes the first target that it hears of. -/
structure Forger where
  id : EntityId
  announced : Option EntityId
  target : Option EntityId

namespace Forger

/-- What it has to announce it tells the third agent of the crew, in the name of a stranger. -/
def posts (a : Forger) : List (Message Rat) :=
  a.announced.toList.map fun t => ⟨.ofNat 9, .ofNat 3, .choice (some t)⟩

def receive (a : Forger) : List (Message Rat) → Reply Rat Forger Unit
  | ⟨_, _, .choice target⟩ :: _ => ⟨{ a with target }, [], .ok ()⟩
  | _ => ⟨a, [], .ok ()⟩

instance : Agent Rat Forger where
  id := id
  target := target
  send a := ⟨a, [], a.posts, .ok a.posts⟩
  receive := receive
  improve a := ⟨a, [], .ok false⟩
  checks _ := 0
  otherMessages _ := 0
  otherBytes _ := 0

end Forger

/-- The first two agents announce different targets. -/
def forged : Factory Rat Forger :=
  ⟨"Forged", fun m => .ok (List.zipWith (fun id announced => ⟨id, announced, none⟩) m.agents
    [some (.ofNat 4), some (.ofNat 5), none])⟩

/-- Which announcement comes first, and with it the statistics, hangs on the course of the round. -/
theorem forged_solves_differ :
    abreast.timeBudgetMs = none ∧ ∃ answers : Bool → Bool → Solution Rat,
      (∀ anytime repair, (solve forged (abreast.returning anytime repair) (some appeal)
        (varied anytime repair) crew).answer = .ok (answers anytime repair)) ∧
      (answers false false).stats.utilities = [10] ∧ (answers true false).stats.utilities = [3] ∧
      (answers true false).stats.untimed ≠ (answers false false).stats.untimed := by
  have hutilities : ∀ anytime repair, (solve forged (abreast.returning anytime repair)
      (some appeal) (varied anytime repair) crew).answer.toOption.map (fun s => s.stats.utilities) =
        some (if anytime then [3] else [10]) := by
    decide +kernel
  choose answers hanswers hutilities using
    fun anytime repair => eq_ok_of_map_eq_some (hutilities anytime repair)
  refine ⟨rfl, answers, hanswers, hutilities false false, hutilities true false, fun hsame => ?_⟩
  have hsame : (answers true false).stats.utilities = (answers false false).stats.utilities :=
    (congrArg Stats.utilities hsame :)
  rw [hutilities true false, hutilities false false] at hsame
  exact absurd hsame (by decide)

end Dispatch.Solver
