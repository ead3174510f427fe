import Mathlib
import Dispatch.Proofs.Accounts
import Dispatch.Proofs.Incumbent
/-!
# Tallies of checks

A solve adds up what the busiest agent of each round did in it. If no count ever falls, the agents'
own increases frame this: it is no less than the largest of them and no more than their sum
(`Solver.checks_add_up_by_rounds`). Agents whose counts never fall are `Agent.Counting`; those of
the built-in algorithms are.
-/

namespace Dispatch

variable {α σ : Type}

/-! ## Agents that count -/

/-- Agents that never lower their count of checks. -/
class Agent.Counting (σ : Type) [Agent α σ] : Prop where
  le_checks_send : ∀ a : σ, Agent.checks a ≤ Agent.checks (Agent.send a).agent
  le_checks_receive : ∀ (a : σ) (inbox : List (Message α)),
    Agent.checks a ≤ Agent.checks (Agent.receive a inbox).agent
  le_checks_improve : ∀ a : σ, Agent.checks a ≤ Agent.checks (Agent.improve a).agent

theorem Agent.Evolves.checks_le [Agent α σ] [Counting σ] {a b : σ} (h : Evolves a b) :
    Agent.checks a ≤ Agent.checks b := by
  induction h with
  | refl => exact le_rfl
  | send _ ih => exact ih.trans (Counting.le_checks_send _)
  | receive _ inbox ih => exact ih.trans (Counting.le_checks_receive _ inbox)
  | improve _ ih => exact ih.trans (Counting.le_checks_improve _)

namespace MaxSum.Agent
variable [Scalar α]

theorem checks_takeAll (a : Agent α) (inbox : List (Message α)) :
    (a.takeAll inbox).1.checks = a.checks := by
  induction inbox generalizing a with
  | nil => rfl
  | cons m rest ih =>
    rw [takeAll, ih]
    unfold take
    split
    · split <;> rfl
    · split <;> rfl
    · rfl

theorem le_checks_runUpdates (a : Agent α) (updates : List (NodeUpdate α)) :
    a.checks ≤ (a.runUpdates updates).agent.checks := by
  induction updates generalizing a with
  | nil => exact le_rfl
  | cons u rest ih =>
    rw [runUpdates]
    split
    · exact Nat.le_add_right _ _
    · have htail := ih { a with
        outbox := (emit a.outbox u.values).agent, checks := a.checks + u.checks }
      exact (Nat.le_add_right _ _).trans htail

instance : Dispatch.Agent.Counting (Agent α) where
  le_checks_send _ := le_rfl
  le_checks_receive a inbox := (a.checks_takeAll inbox).ge
  le_checks_improve a := by
    show a.checks ≤ a.improve.agent.checks
    rw [improve]
    split
    · exact a.le_checks_runUpdates _
    · exact a.le_checks_runUpdates _

end MaxSum.Agent

instance [Scalar α] : Agent.Counting (Dsa.Agent α) where
  le_checks_send _ := le_rfl
  le_checks_receive a inbox := (a.takeAll_keeps inbox).1.ge
  le_checks_improve a := (Nat.le_add_right _ _).trans a.checks_improve.ge

instance [Scalar α] : Agent.Counting (Algorithm.Agent α) where
  le_checks_send
    | .maxSum a => Agent.Counting.le_checks_send a
    | .dsa a => Agent.Counting.le_checks_send a
  le_checks_receive
    | .maxSum a, inbox => Agent.Counting.le_checks_receive a inbox
    | .dsa a, inbox => Agent.Counting.le_checks_receive a inbox
  le_checks_improve
    | .maxSum a => Agent.Counting.le_checks_improve a
    | .dsa a => Agent.Counting.le_checks_improve a

namespace Solver
variable [Scalar α] [Agent α σ]

/-! ## Counts by place and round -/

/-- How many checks the agent at a place has counted. -/
def checksAt (agents : List σ) (i : Nat) : Nat := (agents[i]?.map Agent.checks).getD 0

omit [Scalar α] in
theorem roundChecks_eq_sup {before after : List σ} (h : before.length = after.length) :
    roundChecks before after =
      (Finset.range before.length).sup fun i => checksAt after i - checksAt before i := by
  have hplaces : List.zipWith (fun b a => Agent.checks a - Agent.checks b) before after =
      (List.range before.length).map fun i => checksAt after i - checksAt before i := by
    refine List.ext_getElem (by simp [h]) fun i hi _ => ?_
    rw [List.length_zipWith, lt_min_iff] at hi
    simp [checksAt, List.getElem?_eq_getElem hi.1, List.getElem?_eq_getElem hi.2]
  rw [roundChecks, hplaces, foldl_max_map, Nat.zero_max, List.toFinset_range]

omit [Scalar α] in
theorem checksAt_le_of_evolved [Agent.Counting σ] {before after : List σ}
    (h : Agent.Evolved before after) (i : Nat) : checksAt before i ≤ checksAt after i := by
  induction h generalizing i with
  | nil => exact le_rfl
  | cons hab _ ih =>
    cases i with
    | zero => exact hab.checks_le
    | succ i => exact ih i

section Rounds
variable (settings : Settings α) (surroundings : Surroundings α)

/-- Between two rounds agents only send, receive and improve. -/
theorem evolved_after_succ (start : List σ) (n : Nat) :
    Agent.Evolved (after settings surroundings start n)
      (after settings surroundings start (n + 1)) := by
  show Agent.Evolved _ (playRound settings surroundings (n + 1) _).agents
  unfold playRound
  split
  · exact Round.evolved_runConcurrent (.refl _) _
  · exact Round.evolved_run (.refl _)

theorem length_after (start : List σ) (n : Nat) :
    (after settings surroundings start n).length = start.length := by
  induction n with
  | zero => rfl
  | succ n ih => rw [← (evolved_after_succ settings surroundings start n).length_eq, ih]

theorem checksAt_after_le [Agent.Counting σ] (start : List σ) (n i : Nat) :
    checksAt (after settings surroundings start n) i ≤
      checksAt (after settings surroundings start (n + 1)) i :=
  checksAt_le_of_evolved (evolved_after_succ settings surroundings start n) i

end Rounds

/-! ## Sums over the rounds -/

section Sums
variable {rounds places : Nat} {count : Nat → Nat → Nat}
  (hrises : ∀ n < rounds, ∀ i < places, count n i ≤ count (n + 1) i)
include hrises

theorem add_sum_increases {i : Nat} (hi : i < places) :
    count 0 i + ∑ n ∈ Finset.range rounds, (count (n + 1) i - count n i) = count rounds i := by
  induction rounds with
  | zero => simp
  | succ rounds ih =>
    have hlast := hrises rounds (Nat.lt_succ_self _) i hi
    rw [Finset.sum_range_succ, ← Nat.add_assoc,
      ih fun n hn => hrises n (Nat.lt_succ_of_lt hn), Nat.add_sub_cancel' hlast]

theorem increase_eq_sum {i : Nat} (hi : i < places) :
    count rounds i - count 0 i = ∑ n ∈ Finset.range rounds, (count (n + 1) i - count n i) := by
  rw [← add_sum_increases hrises hi, Nat.add_sub_cancel_left]

/-- What the busiest does in each round comes to no less than what anybody does in all of them. -/
theorem sup_increase_le :
    ((Finset.range places).sup fun i => count rounds i - count 0 i) ≤
      ∑ n ∈ Finset.range rounds, (Finset.range places).sup fun i => count (n + 1) i - count n i := by
  refine Finset.sup_le fun i hi => ?_
  rw [increase_eq_sum hrises (Finset.mem_range.1 hi)]
  exact Finset.sum_le_sum fun n _ =>
    Finset.le_sup (f := fun i => count (n + 1) i - count n i) hi

/-- And to no more than what all do together. -/
theorem le_sum_increase :
    (∑ n ∈ Finset.range rounds, (Finset.range places).sup fun i => count (n + 1) i - count n i) ≤
      ∑ i ∈ Finset.range places, (count rounds i - count 0 i) := by
  rw [Finset.sum_congr rfl fun i hi => increase_eq_sum hrises (Finset.mem_range.1 hi),
    Finset.sum_comm]
  refine Finset.sum_le_sum fun n _ => Finset.sup_le fun i hi => ?_
  exact Finset.single_le_sum (f := fun i => count (n + 1) i - count n i)
    (fun _ _ => Nat.zero_le _) hi

end Sums

/-! ## Solves -/

theorem Plays.checks_eq {settings : Settings α} {surroundings : Surroundings α}
    {m : UtilityMatrix α} {start last : List σ} {remaining : Nat} {termination : Termination}
    {records : List (RoundRecord α)}
    (h : Plays settings surroundings m 1 start remaining records termination last) :
    total (records.map (·.checks)) = ∑ n ∈ Finset.range records.length,
      (Finset.range start.length).sup fun i =>
        checksAt (after settings surroundings start (n + 1)) i -
          checksAt (after settings surroundings start n) i := by
  have hrounds : records.map (·.checks) = (List.range records.length).map fun n =>
      (Finset.range start.length).sup fun i =>
        checksAt (after settings surroundings start (n + 1)) i -
          checksAt (after settings surroundings start n) i := by
    refine h.map_records fun n r hr => ?_
    obtain ⟨outcome, -, rfl⟩ := hr
    show roundChecks (after settings surroundings start n) _ = _
    rw [roundChecks_eq_sup, length_after]
    rw [length_after, length_after]
  rw [total_eq_sum, hrounds]
  rfl

/-- The checks of a solve are the largest increases of any agent's count in each of its rounds,
added up. What was counted before the first round is left out. If no count falls from one round to
the next, no agent's increase over the whole solve is more than that, and all increases together are
no less; that of a single agent is the same. -/
theorem checks_add_up_by_rounds {factory : Factory α σ} {settings : Settings α}
    {oracle : Option (Oracle α)} {surroundings : Surroundings α} {inst : Instance}
    {solution : Solution α}
    (h : (solve factory settings oracle surroundings inst).answer = .ok solution) :
    ∃ m start, setUp factory settings oracle inst = .ok (m, start) ∧
      start.map Agent.id = inst.agents ∧
      let checked n i := checksAt (after settings surroundings start n) i
      let places := Finset.range inst.agents.length
      let s := solution.stats
      s.constraintChecks = ∑ n ∈ Finset.range s.rounds,
        places.sup (fun i => checked (n + 1) i - checked n i) ∧
      ((∀ n < s.rounds, ∀ i < inst.agents.length, checked n i ≤ checked (n + 1) i) →
        places.sup (fun i => checked s.rounds i - checked 0 i) ≤ s.constraintChecks ∧
        s.constraintChecks ≤ ∑ i ∈ places, (checked s.rounds i - checked 0 i) ∧
        (inst.agents.length = 1 → s.constraintChecks = checked s.rounds 0 - checked 0 0)) := by
  obtain ⟨m, start, records, termination, last, hsetUp, hplays, rfl⟩ := solve_eq_ok_iff.1 h
  obtain ⟨_, -, -, hbuild, -, hids⟩ := setUp_eq_ok_iff.1 hsetUp
  replace hids : start.map Agent.id = inst.agents := hids.trans (UtilityMatrix.build_eq_ok hbuild).1
  refine ⟨m, start, hsetUp, hids, ?_⟩
  rw [← hids, List.length_map]
  intro checked places s
  have hsum : s.constraintChecks = ∑ n ∈ Finset.range s.rounds,
      places.sup (fun i => checked (n + 1) i - checked n i) := hplays.checks_eq
  refine ⟨hsum, fun hrises => ?_⟩
  rw [hsum]
  refine ⟨sup_increase_le hrises, le_sum_increase hrises, fun hsingle => ?_⟩
  rw [increase_eq_sum hrises (hsingle ▸ Nat.zero_lt_one)]
  refine Finset.sum_congr rfl fun n _ => ?_
  show (Finset.range start.length).sup _ = _
  rw [hsingle, Finset.range_one, Finset.sup_singleton]

end Solver

/-! ## Diligent agents -/

/-- An agent that makes so many checks in one round after the other, and asks for another round while
some are left. -/
structure Diligent where
  id : EntityId
  checks : Nat
  plan : List Nat

namespace Diligent

def improve (a : Diligent) : Reply Rat Diligent Bool :=
  match a.plan with
  | [] => ⟨a, [], .ok false⟩
  | n :: plan => ⟨{ a with checks := a.checks + n, plan }, [], .ok (!plan.isEmpty)⟩

instance : Agent Rat Diligent where
  id := id
  target _ := none
  send a := ⟨a, [], [], .ok []⟩
  receive a _ := ⟨a, [], .ok ()⟩
  improve := improve
  checks := checks
  otherMessages _ := 0
  otherBytes _ := 0

instance : Agent.Counting Diligent where
  le_checks_send _ := le_rfl
  le_checks_receive _ _ := le_rfl
  le_checks_improve a := by
    show a.checks ≤ a.improve.agent.checks
    unfold improve
    split
    · exact le_rfl
    · exact Nat.le_add_right _ _

/-- Agents that have made ten checks before the first round, each with one of the plans. -/
def factory (plans : List (List Nat)) : Factory Rat Diligent :=
  ⟨"Diligent", fun m => .ok (List.zipWith (fun id plan => ⟨id, 10, plan⟩) m.agents plans)⟩

end Diligent

namespace Solver

def diligent : Factory Rat Diligent := Diligent.factory [[2, 0, 5], [1, 4, 0], [3, 3, 3]]

def lone : Instance := ⟨[.ofNat 1], [.ofNat 4, .ofNat 5], .empty⟩

/-- The busiest make 3, 4 and 5 checks, which is more than anybody makes in all three rounds. An
agent that runs Max-Sum on its own makes 4 in either of two. -/
theorem crew_checks_add_up :
    (∃ solution m start,
      (solve diligent Settings.default (some appeal) .still crew).answer = .ok solution ∧
      setUp diligent Settings.default (some appeal) crew = .ok (m, start) ∧
      solution.stats.rounds = 3 ∧ solution.stats.constraintChecks = 12 ∧
      let checked n i := checksAt (after Settings.default .still start n) i
      (∀ n i, checked n i ≤ checked (n + 1) i) ∧
      (Finset.range 3).sup (fun i => checked 3 i - checked 0 i) ≤ 12 ∧
      12 ≤ ∑ i ∈ Finset.range 3, (checked 3 i - checked 0 i)) ∧
    ∃ solution m start,
      (solveBuiltIn (fun _ _ _ => true) Settings.default (some appeal) .still lone).answer =
        .ok solution ∧
      setUp (Algorithm.default.factory fun _ _ _ => true) Settings.default (some appeal) lone =
        .ok (m, start) ∧
      solution.stats.rounds = 2 ∧ solution.stats.constraintChecks = 8 ∧
      let checked n i := checksAt (after Settings.default .still start n) i
      (∀ n i, checked n i ≤ checked (n + 1) i) ∧ checked 2 0 - checked 0 0 = 8 := by
  have hcrew : (solve diligent Settings.default (some appeal) .still crew).answer.toOption.map
      (fun s => (s.stats.rounds, s.stats.constraintChecks)) = some (3, 12) := by
    decide +kernel
  have hlone : (solveBuiltIn (fun _ _ _ => true) Settings.default (some appeal) .still
      lone).answer.toOption.map (fun s => (s.stats.rounds, s.stats.constraintChecks)) =
        some (2, 8) := by
    decide +kernel
  obtain ⟨solution, hsolved, hstats⟩ := eq_ok_of_map_eq_some hcrew
  obtain ⟨hrounds, hchecks⟩ := Prod.mk.inj hstats
  obtain ⟨m, start, hsetUp, -, -, hframe⟩ := checks_add_up_by_rounds hsolved
  have hrises := checksAt_after_le Settings.default .still start
  obtain ⟨hleast, hmost, -⟩ := hframe fun n _ i _ => hrises n i
  rw [hrounds, hchecks] at hleast hmost
  obtain ⟨solution', hsolved', hstats'⟩ := eq_ok_of_map_eq_some hlone
  obtain ⟨hrounds', hchecks'⟩ := Prod.mk.inj hstats'
  obtain ⟨m', start', hsetUp', -, -, hframe'⟩ := checks_add_up_by_rounds hsolved'
  have hrises' := checksAt_after_le Settings.default .still start'
  obtain ⟨-, -, hsame⟩ := hframe' fun n _ i _ => hrises' n i
  have hsame := hsame rfl
  rw [hrounds', hchecks'] at hsame
  exact ⟨⟨solution, m, start, hsolved, hsetUp, hrounds, hchecks, hrises, hleast, hmost⟩,
    solution', m', start', hsolved', hsetUp', hrounds', hchecks', hrises', hsame.symm⟩

end Solver

end Dispatch
