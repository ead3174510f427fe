import Mathlib
import Dispatch.Proofs.ScalarOrder
import Dispatch.Proofs.Trace
/-!
# The best round of a solve

A solve keeps the earliest of its best rounds. `Incumbent` says of a list of records which one that
is; a further record is the new one or leaves the old (`Incumbent.append`), so `bestRound` finds it
(`exists_incumbent`). `Solver.keeps_earliest_best_round` ties the statistics and the assignment of
a solve to the targets its agents held after each round.
-/

namespace Dispatch.Solver

variable {α σ : Type} [Scalar α]

/-! ## The incumbent -/

/-- The record at this position has the highest utility, and the ones before it have less. -/
structure Incumbent (records : List (RoundRecord α)) (i : Nat) (r : RoundRecord α) : Prop where
  here : records[i]? = some r
  less_before : ∀ b ∈ records.take i, b.utility < r.utility
  le_of_mem : ∀ b ∈ records, b.utility ≤ r.utility

section Incumbent
variable [OrderedScalar α] {records : List (RoundRecord α)}

omit [OrderedScalar α] in
theorem Incumbent.singleton {r : RoundRecord α} (hnumber : Scalar.IsNumber r.utility) :
    Incumbent [r] 0 r :=
  ⟨rfl, by simp, fun b hb => by rw [List.mem_singleton.1 hb]; exact hnumber⟩

/-- A further record takes over if its utility is strictly higher. -/
theorem Incumbent.append {i : Nat} {r next : RoundRecord α} (h : Incumbent records i r)
    (hnumbers : ∀ b ∈ records, Scalar.IsNumber b.utility)
    (hnext : Scalar.IsNumber next.utility) :
    ∃ j s, betterRound (some r) next = some s ∧ Incumbent (records ++ [next]) j s := by
  have hr := hnumbers r (List.mem_of_getElem? h.here)
  by_cases hlt : r.utility < next.utility
  · have hless : ∀ b ∈ records, b.utility < next.utility := by
      intro b hb
      have hnot := (OrderedScalar.le_iff_not_lt (hnumbers b hb) hr).1 (h.le_of_mem b hb)
      exact (OrderedScalar.lt_or_lt (hnumbers b hb) hlt).resolve_left hnot
    refine ⟨records.length, next, by rw [betterRound, if_pos hlt], List.getElem?_concat_length,
      ?_, ?_⟩
    · rwa [List.take_left]
    · intro b hb
      rcases List.mem_append.1 hb with hb | hb
      · exact OrderedScalar.le_of_lt (hnumbers b hb) hnext (hless b hb)
      · rw [List.mem_singleton.1 hb]
        exact hnext
  · -- also on a tie: the earlier one stays
    obtain ⟨hi, -⟩ := List.getElem?_eq_some_iff.1 h.here
    refine ⟨i, r, by rw [betterRound, if_neg hlt], ?_, ?_, ?_⟩
    · rw [List.getElem?_append_left hi, h.here]
    · rw [List.take_append_of_le_length (Nat.le_of_lt hi)]
      exact h.less_before
    · intro b hb
      rcases List.mem_append.1 hb with hb | hb
      · exact h.le_of_mem b hb
      · rw [List.mem_singleton.1 hb]
        exact (OrderedScalar.le_iff_not_lt hnext hr).2 hlt

/-- The best of some rounds is the incumbent of all. -/
theorem exists_incumbent (hne : records ≠ [])
    (hnumbers : ∀ b ∈ records, Scalar.IsNumber b.utility) :
    ∃ i r, bestRound records = some r ∧ Incumbent records i r := by
  -- the fold takes the rounds from the first on, so the last one is the step
  induction records using List.reverseRecOn with
  | nil => exact absurd rfl hne
  | append_singleton earlier next ih =>
    have hnext : Scalar.IsNumber next.utility := hnumbers next (by simp)
    have hearlier : ∀ b ∈ earlier, Scalar.IsNumber b.utility := fun b hb =>
      hnumbers b (List.mem_append_left _ hb)
    rw [bestRound, List.foldl_append]
    rcases List.eq_nil_or_concat earlier with rfl | ⟨_, _, hconcat⟩
    · exact ⟨0, next, rfl, .singleton hnext⟩
    · obtain ⟨i, r, hbest, hr⟩ := ih (by simp [hconcat]) hearlier
      rw [bestRound] at hbest
      rw [hbest]
      exact hr.append hearlier hnext

end Incumbent

/-! ## Branches -/

section Branches
variable (m : UtilityMatrix α)

theorem branch_utility (name : String) (x : Assignment) (utility : α) :
    (branch m name x utility).utility = utility := by
  unfold branch
  dsimp only
  split <;> rfl

theorem branch_assignment (name : String) (x : Assignment) (utility : α) :
    (branch m name x utility).assignment = x := by
  unfold branch
  dsimp only
  split <;> rfl

end Branches

/-! ## Rounds by their number -/

section Rounds
variable [Agent α σ] {settings : Settings α} {surroundings : Surroundings α} {m : UtilityMatrix α}

variable (settings surroundings m) in
/-- What the agents' targets are worth after so many rounds. -/
def worthAfter (start : List σ) (n : Nat) : α :=
  m.totalUtility (held (after settings surroundings start n))

theorem RecordOf.utility_eq_worthAfter {start : List σ} {n : Nat} {r : RoundRecord α}
    (h : RecordOf settings surroundings m start n r) :
    r.utility = worthAfter settings surroundings m start n := by
  rw [h.utility_eq, h.assignment_eq, worthAfter]

section FromStart
variable {start last : List σ} {remaining : Nat} {termination : Termination}
  {records : List (RoundRecord α)}
  (h : Plays settings surroundings m 1 start remaining records termination last)
include h

theorem Plays.recordOf_succ {i : Nat} {r : RoundRecord α} (hr : records[i]? = some r) :
    RecordOf settings surroundings m start (i + 1) r := by
  have hrecord := h.recordOf (k := 0) rfl rfl hr
  rwa [Nat.zero_add] at hrecord

/-- What the records say of their rounds, by the number of rounds before. -/
theorem Plays.map_records {β : Type} {f : RoundRecord α → β} {g : Nat → β}
    (hround : ∀ i r, RecordOf settings surroundings m start (i + 1) r → f r = g i) :
    records.map f = (List.range records.length).map g := by
  refine List.ext_getElem (by simp) fun i hi _ => ?_
  rw [List.length_map] at hi
  rw [List.getElem_map, List.getElem_map, List.getElem_range]
  exact hround i _ (h.recordOf_succ (List.getElem?_eq_getElem hi))

theorem Plays.utilities_eq :
    records.map (·.utility) = (List.range records.length).map
      fun i => worthAfter settings surroundings m start (i + 1) :=
  h.map_records fun _ _ hr => hr.utility_eq_worthAfter

theorem Plays.utility_of_mem {r : RoundRecord α} (hr : r ∈ records) :
    r.utility = m.totalUtility r.assignment := by
  obtain ⟨i, hi⟩ := List.mem_iff_getElem?.1 hr
  exact (h.recordOf_succ hi).utility_eq

theorem Plays.isNumber_utility [SummingScalar α] {r : RoundRecord α} (hr : r ∈ records) :
    Scalar.IsNumber r.utility := by
  rw [h.utility_of_mem hr]
  exact m.isNumber_totalUtility _

theorem Plays.exists_finalBranch (hremaining : remaining ≠ 0) :
    ∃ r, records.getLast? = some r ∧
      finalBranch m records = branch m "final" r.assignment r.utility := by
  have hlast := List.getLast?_eq_some_getLast (h.records_ne_nil hremaining)
  refine ⟨_, hlast, ?_⟩
  rw [finalBranch, lastAssignment, hlast, h.utility_of_mem (List.mem_of_getLast? hlast)]

theorem Plays.exists_bestBranch [SummingScalar α] (hremaining : remaining ≠ 0) :
    ∃ i r, Incumbent records i r ∧
      bestBranch m records = branch m "best" r.assignment r.utility := by
  obtain ⟨i, r, hbest, hr⟩ :=
    exists_incumbent (h.records_ne_nil hremaining) fun b => h.isNumber_utility
  exact ⟨i, r, hr, by rw [bestBranch, hbest]⟩

end FromStart

end Rounds

/-! ## Solves -/

/-- The utilities are what the agents' targets were worth after each round, and the final utility is
the last of them. The best utility is the highest, and the earliest round to have it is the one
whose assignment is returned if it is asked for unrepaired. -/
theorem keeps_earliest_best_round [SummingScalar α] [Agent α σ] {factory : Factory α σ}
    {settings : Settings α} {oracle : Option (Oracle α)} {surroundings : Surroundings α}
    {inst : Instance} {solution : Solution α}
    (h : (solve factory settings oracle surroundings inst).answer = .ok solution) :
    ∃ m agents, setUp factory settings oracle inst = .ok (m, agents) ∧
      let s := solution.stats
      s.utilities = (List.range s.rounds).map
        (fun i => worthAfter settings surroundings m agents (i + 1)) ∧
      s.utilities.getLast? = some s.finalUtility ∧
      ∃ i, s.utilities[i]? = some s.bestUtility ∧
        (∀ u ∈ s.utilities.take i, u < s.bestUtility) ∧ (∀ u ∈ s.utilities, u ≤ s.bestUtility) ∧
        (settings.anytime = true → settings.repair = false →
          solution.assignment = held (after settings surroundings agents (i + 1))) := by
  obtain ⟨m, agents, records, termination, last, hsetUp, hplays, rfl⟩ := solve_eq_ok_iff.1 h
  obtain ⟨_, -, hvalid, -⟩ := setUp_eq_ok_iff.1 hsetUp
  have hmax := maxRounds_ne_zero_of_validate hvalid
  obtain ⟨final, hfinal, hfinalBranch⟩ := hplays.exists_finalBranch hmax
  obtain ⟨i, best, hbest, hbestBranch⟩ := hplays.exists_bestBranch hmax
  have hbestUtility : (bestBranch m records).utility = best.utility := by
    rw [hbestBranch, branch_utility]
  refine ⟨m, agents, hsetUp, hplays.utilities_eq, ?_, i, ?_, ?_, ?_, fun hanytime hrepair => ?_⟩
  · show (records.map (·.utility)).getLast? = some (finalBranch m records).utility
    rw [List.getLast?_map, hfinal, hfinalBranch, branch_utility]
    rfl
  · show (records.map (·.utility))[i]? = some (bestBranch m records).utility
    rw [List.getElem?_map, hbest.here, hbestUtility]
    rfl
  · show ∀ u ∈ (records.map (·.utility)).take i, u < (bestBranch m records).utility
    rw [← List.map_take, hbestUtility]
    exact List.forall_mem_map.2 hbest.less_before
  · show ∀ u ∈ records.map (·.utility), u ≤ (bestBranch m records).utility
    rw [hbestUtility]
    exact List.forall_mem_map.2 hbest.le_of_mem
  · show select settings (finalBranch m records) (bestBranch m records) = _
    rw [select, hanytime, hrepair, hbestBranch]
    dsimp only
    rw [branch_assignment, (hplays.recordOf_succ hbest.here).assignment_eq]

/-- The crew takes the second target, then in pairs the first, then all but one give up. -/
def wavering : Factory Rat Scripted :=
  let first := some (EntityId.ofNat 4)
  let second := some (EntityId.ofNat 5)
  Scripted.factory [[second, first, first, none], [second, first, none, none],
    [second, none, first, second]]

def keeping : Settings Rat := { Settings.default with anytime := true }

/-- The second and the third round are worth the same, and the second is kept. -/
theorem wavering_keeps_second_round :
    ∃ solution, (solve wavering keeping (some appeal) .still crew).answer = .ok solution ∧
      (solution.stats.utilities, solution.stats.bestUtility, solution.stats.finalUtility) =
        ([6, 20, 20, 3], 20, 3) ∧
      ∃ m agents, setUp wavering keeping (some appeal) crew = .ok (m, agents) ∧
        let s := solution.stats
        s.utilities = (List.range s.rounds).map
          (fun i => worthAfter keeping .still m agents (i + 1)) ∧
        s.utilities.getLast? = some s.finalUtility ∧
        ∃ i, s.utilities[i]? = some s.bestUtility ∧
          (∀ u ∈ s.utilities.take i, u < s.bestUtility) ∧
          (∀ u ∈ s.utilities, u ≤ s.bestUtility) ∧
          (keeping.anytime = true → keeping.repair = false →
            solution.assignment = held (after keeping .still agents (i + 1))) := by
  have hstats : (solve wavering keeping (some appeal) .still crew).answer.toOption.map
      (fun s => (s.stats.utilities, s.stats.bestUtility, s.stats.finalUtility)) =
        some ([6, 20, 20, 3], 20, 3) := by
    decide +kernel
  obtain ⟨solution, hsolved, hstats⟩ := eq_ok_of_map_eq_some hstats
  exact ⟨solution, hsolved, hstats, keeps_earliest_best_round hsolved⟩

end Dispatch.Solver
