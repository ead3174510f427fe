import Mathlib
import Dispatch.Proofs.Rounds
import Dispatch.Scalar.Exact
import Dispatch.Solver
/-!
# How the rounds of a solve end

`Solver.Plays` relates the agents before a round to the records of the rounds from there on, the
reason why they end and the agents then; it is what `play` computes (`play_eq_iff`). From it,
`solve_ends_for_one_reason` says when a solve that succeeds reports which reason: it plays at least
one round and at most as many as allowed, goes on exactly while somebody asks for another round and
there is time, and of several reasons to end convergence comes first, then the round limit.
-/

namespace Dispatch.Solver

variable {α σ : Type} [Scalar α] [Agent α σ]

/-! ## Setting up -/

/-- A population matches if its agents are those of the matrix, in the same order. -/
theorem matchPopulation_eq_ok_iff {agents : List σ} {m : UtilityMatrix α} :
    matchPopulation agents m = .ok () ↔ agents.map Agent.id = m.agents := by
  unfold matchPopulation misplaced
  constructor
  · intro h
    split at h
    · cases h
    · rename_i hlength
      split at h
      · cases h
      · rename_i hnone
        have hlength : (agents.map Agent.id).length = m.agents.length := by
          simpa using hlength
        refine List.ext_getElem hlength fun i hi hj => ?_
        have hin : ((agents.map Agent.id)[i], m.agents[i]) ∈ (agents.map Agent.id).zip m.agents :=
          List.mem_iff_getElem.2 ⟨i, by rw [List.length_zip]; omega, List.getElem_zip⟩
        simpa using List.find?_eq_none.1 hnone _ hin
  · intro h
    have hlength : agents.length = m.agents.length := by rw [← h, List.length_map]
    have hnone : (List.zip (agents.map Agent.id) m.agents).find? (fun p => p.1 ≠ p.2) = none := by
      refine List.find?_eq_none.2 fun p hp => ?_
      rw [h] at hp
      obtain ⟨i, hi, rfl⟩ := List.mem_iff_getElem.1 hp
      simp
    rw [if_neg (not_not.2 hlength), hnone]

theorem setUp_eq_ok_iff {factory : Factory α σ} {settings : Solver.Settings α}
    {oracle : Option (Oracle α)} {inst : Instance} {m : UtilityMatrix α} {agents : List σ} :
    setUp factory settings oracle inst = .ok (m, agents) ↔
      ∃ o, oracle = some o ∧ settings.validate = .ok () ∧
        UtilityMatrix.build inst o settings.congestionPenalty = .ok m ∧
        factory.build m = .ok agents ∧ agents.map Agent.id = m.agents := by
  cases oracle with
  | none => simp [setUp]
  | some o =>
    simp only [setUp, bind, Except.bind, pure, Except.pure]
    constructor
    · intro h
      split at h
      · cases h
      · rename_i hvalid
        split at h
        · cases h
        · rename_i built hbuild
          split at h
          · cases h
          · rename_i people hagents
            split at h
            · cases h
            · rename_i hmatch
              cases h
              exact ⟨o, rfl, hvalid, hbuild, hagents, matchPopulation_eq_ok_iff.1 hmatch⟩
    · rintro ⟨other, hother, hvalid, hbuild, hagents, hids⟩
      cases hother
      simp only [hvalid, hbuild, hagents, matchPopulation_eq_ok_iff.2 hids]

theorem maxRounds_ne_zero_of_validate {settings : Solver.Settings α}
    (h : settings.validate = .ok ()) : settings.maxRounds ≠ 0 := by
  intro hzero
  rw [Settings.validate, if_pos hzero] at h
  cases h

/-! ## Courses -/

section Courses
variable (settings : Solver.Settings α) (surroundings : Surroundings α) (m : UtilityMatrix α)

/-- Rounds played to their end, from the number of the next one, the agents before it and how many
may still be played. -/
inductive Plays : (round : Nat) → (agents : List σ) → (remaining : Nat) →
    List (RoundRecord α) → Termination → List σ → Prop
  /-- The rounds are used up. -/
  | limit {round : Nat} {agents : List σ} : Plays round agents 0 [] .roundLimit agents
  /-- The time is. -/
  | late {round remaining budget : Nat} {agents : List σ}
      (htime : outOfTime settings surroundings round = some budget) :
      Plays round agents (remaining + 1) [] .timeBudget agents
  /-- Nobody asks for another round. -/
  | quiet {round remaining : Nat} {agents next : List σ} {outcome : Round.Outcome α}
      (htime : outOfTime settings surroundings round = none)
      (hround : (playRound settings surroundings round agents).EndsWith outcome next)
      (hquiet : true ∉ outcome.2) :
      Plays round agents (remaining + 1) [summarise m agents next outcome] .converged next
  /-- Somebody does, and the rounds go on. -/
  | again {round remaining : Nat} {agents next last : List σ} {outcome : Round.Outcome α}
      {records : List (RoundRecord α)} {termination : Termination}
      (htime : outOfTime settings surroundings round = none)
      (hround : (playRound settings surroundings round agents).EndsWith outcome next)
      (hrestless : true ∈ outcome.2)
      (hrest : Plays (round + 1) next remaining records termination last) :
      Plays round agents (remaining + 1) (summarise m agents next outcome :: records)
        termination last

variable {settings surroundings m}

theorem restless_summarise {before after : List σ} {outcome : Round.Outcome α} :
    (summarise m before after outcome).restless = true ↔ true ∈ outcome.2 := by
  simp [summarise]

theorem plays_of_play {round remaining : Nat} {agents last : List σ} {termination : Termination}
    (h : (play settings surroundings m round agents remaining).ending = .ok (termination, last)) :
    Plays settings surroundings m round agents remaining
      (play settings surroundings m round agents remaining).records termination last := by
  induction remaining generalizing round agents with
  | zero =>
    cases h
    exact .limit
  | succ remaining ih =>
    unfold play at h ⊢
    cases htime : outOfTime settings surroundings round with
    | some budget =>
      rw [htime] at h
      cases h
      exact .late htime
    | none =>
      simp only [htime] at h ⊢
      cases hanswer : (playRound settings surroundings round agents).answer with
      | error e =>
        simp only [hanswer] at h
        cases h
      | ok outcome =>
        simp only [hanswer] at h ⊢
        split at h
        · rename_i hrestless
          rw [if_pos hrestless]
          exact .again htime ⟨hanswer, rfl⟩ (restless_summarise.1 hrestless) (ih h)
        · rename_i hquiet
          rw [if_neg hquiet]
          cases h
          exact .quiet htime ⟨hanswer, rfl⟩ (mt restless_summarise.2 hquiet)

theorem play_of_plays {round remaining : Nat} {agents last : List σ} {termination : Termination}
    {records : List (RoundRecord α)}
    (h : Plays settings surroundings m round agents remaining records termination last) :
    (play settings surroundings m round agents remaining).records = records ∧
      (play settings surroundings m round agents remaining).ending = .ok (termination, last) := by
  induction h with
  | limit => exact ⟨rfl, rfl⟩
  | late htime => simp only [play, htime, and_self]
  | quiet htime hround hquiet =>
    obtain ⟨hanswer, rfl⟩ := hround
    simp only [play, htime, hanswer, if_neg (mt restless_summarise.1 hquiet), and_self]
  | again htime hround hrestless _ ih =>
    obtain ⟨hanswer, rfl⟩ := hround
    obtain ⟨hrecords, hending⟩ := ih
    simp only [play, htime, hanswer, if_pos (restless_summarise.2 hrestless), Course.cons,
      hrecords, hending, and_self]

theorem play_eq_iff {round remaining : Nat} {agents last : List σ} {termination : Termination}
    {records : List (RoundRecord α)} :
    (play settings surroundings m round agents remaining).records = records ∧
        (play settings surroundings m round agents remaining).ending = .ok (termination, last) ↔
      Plays settings surroundings m round agents remaining records termination last := by
  constructor
  · rintro ⟨rfl, hending⟩
    exact plays_of_play hending
  · exact play_of_plays

/-! ## What comes of a course -/

theorem Plays.length_le {round remaining : Nat} {agents last : List σ} {termination : Termination}
    {records : List (RoundRecord α)}
    (h : Plays settings surroundings m round agents remaining records termination last) :
    records.length ≤ remaining := by
  induction h with
  | limit => exact Nat.le_refl 0
  | late => exact Nat.zero_le _
  | quiet => exact Nat.succ_le_succ (Nat.zero_le _)
  | again _ _ _ _ ih => exact Nat.succ_le_succ ih

/-- All rounds but the last leave somebody asking for another, and time for it. -/
theorem Plays.goes_on {round remaining : Nat} {agents last : List σ} {termination : Termination}
    {records : List (RoundRecord α)}
    (h : Plays settings surroundings m round agents remaining records termination last) {i : Nat}
    {r : RoundRecord α} (hi : i + 1 < records.length) (hr : records[i]? = some r) :
    r.restless = true ∧ outOfTime settings surroundings (round + i + 1) = none := by
  induction h generalizing i with
  | limit => cases hi
  | late => cases hi
  | quiet => simp at hi
  | again _ _ hrestless hrest ih =>
    cases i with
    | zero =>
      cases hr
      refine ⟨restless_summarise.2 hrestless, ?_⟩
      -- the rest has a record, so it began with a round
      cases hrest with
      | limit => simp at hi
      | late => simp at hi
      | quiet htime _ _ => exact htime
      | again htime _ _ _ => exact htime
    | succ i =>
      have hnext := ih (Nat.lt_of_succ_lt_succ hi) hr
      rwa [Nat.add_assoc _ 1 i, Nat.add_comm 1 i] at hnext

/-- Why a course ended, in view of its last round if it has one. -/
inductive EndsFor (settings : Solver.Settings α) (surroundings : Surroundings α)
    (round remaining : Nat) (records : List (RoundRecord α)) : Termination → Prop
  | converged {r : RoundRecord α} (hlast : records.getLast? = some r)
      (hquiet : r.restless = false) :
      EndsFor settings surroundings round remaining records .converged
  | roundLimit (hlast : ∀ r, records.getLast? = some r → r.restless = true)
      (hfull : records.length = remaining) :
      EndsFor settings surroundings round remaining records .roundLimit
  | timeBudget (hlast : ∀ r, records.getLast? = some r → r.restless = true)
      (hroom : records.length < remaining)
      (htime : (outOfTime settings surroundings (round + records.length)).isSome) :
      EndsFor settings surroundings round remaining records .timeBudget

theorem Plays.endsFor {round remaining : Nat} {agents last : List σ} {termination : Termination}
    {records : List (RoundRecord α)}
    (h : Plays settings surroundings m round agents remaining records termination last) :
    EndsFor settings surroundings round remaining records termination := by
  induction h with
  | limit => exact .roundLimit (by simp) rfl
  | late htime => exact .timeBudget (by simp) (by simp) (by simp [htime])
  | quiet _ _ hquiet => exact .converged rfl (Bool.eq_false_iff.2 (mt restless_summarise.1 hquiet))
  | @again round remaining agents next last outcome records termination _ _ hrestless _ ih =>
    have hlast (hrest : ∀ r, records.getLast? = some r → r.restless = true) :
        ∀ r, (summarise m agents next outcome :: records).getLast? = some r →
          r.restless = true := by
      intro r hr
      rw [List.getLast?_cons] at hr
      cases hrecords : records.getLast? with
      | none =>
        rw [hrecords] at hr
        cases hr
        exact restless_summarise.2 hrestless
      | some r' =>
        rw [hrecords] at hr
        cases hr
        exact hrest _ hrecords
    cases ih with
    | converged hr hquiet => exact .converged (by rw [List.getLast?_cons, hr]; rfl) hquiet
    | roundLimit hrest hfull => exact .roundLimit (hlast hrest) (congrArg (· + 1) hfull)
    | timeBudget hrest hroom htime =>
      refine .timeBudget (hlast hrest) (Nat.succ_lt_succ hroom) ?_
      rwa [Nat.add_assoc, Nat.add_comm 1] at htime

/-! ## Rounds by their number -/

variable (settings surroundings m) in
/-- The record is that of the round of this number, which succeeds. -/
def RecordOf (start : List σ) (n : Nat) (r : RoundRecord α) : Prop :=
  ∃ outcome,
    (playRound settings surroundings n (after settings surroundings start (n - 1))).EndsWith
      outcome (after settings surroundings start n) ∧
    r = summarise m (after settings surroundings start (n - 1))
      (after settings surroundings start n) outcome

variable (settings surroundings) in
/-- The round of this number succeeds, and some agent asks for another. -/
def AsksAgain (start : List σ) (n : Nat) : Prop :=
  ∃ outcome,
    (playRound settings surroundings n (after settings surroundings start (n - 1))).answer =
      .ok outcome ∧ true ∈ outcome.2

variable (settings surroundings) in
/-- Before the round of this number the clock shows that the time budget is used up. -/
def TimeIsUp (n : Nat) : Prop :=
  ∃ budget, settings.timeBudgetMs = some budget ∧ budget * 1000000 ≤ surroundings.elapsed n

omit [Scalar α] in
theorem isSome_outOfTime {n : Nat} :
    (outOfTime settings surroundings n).isSome ↔ 1 < n ∧ TimeIsUp settings surroundings n := by
  unfold outOfTime TimeIsUp
  cases settings.timeBudgetMs with
  | none => simp
  | some budget => simp [Option.isSome_ite]

/-- Records stand in the order of their rounds. -/
theorem Plays.recordOf {start : List σ} {round remaining : Nat} {agents last : List σ}
    {termination : Termination} {records : List (RoundRecord α)}
    (h : Plays settings surroundings m round agents remaining records termination last) {k : Nat}
    (hround : round = k + 1) (hagents : agents = after settings surroundings start k) {i : Nat}
    {r : RoundRecord α} (hr : records[i]? = some r) :
    RecordOf settings surroundings m start (k + i + 1) r := by
  -- `k` rounds have been played before, so the agents are those after them
  induction h generalizing k i with
  | limit => cases hr
  | late => cases hr
  | quiet _ hplayed _ =>
    subst hround hagents
    obtain ⟨hanswer, rfl⟩ := hplayed
    cases i with
    | zero =>
      cases hr
      exact ⟨_, ⟨hanswer, rfl⟩, rfl⟩
    | succ i => cases hr
  | again _ hplayed _ _ ih =>
    subst hround hagents
    obtain ⟨hanswer, rfl⟩ := hplayed
    cases i with
    | zero =>
      cases hr
      exact ⟨_, ⟨hanswer, rfl⟩, rfl⟩
    | succ i =>
      have hnext := ih (k := k + 1) rfl rfl hr
      rwa [Nat.add_assoc k 1 i, Nat.add_comm 1 i] at hnext

theorem RecordOf.restless_iff {start : List σ} {n : Nat} {r : RoundRecord α}
    (h : RecordOf settings surroundings m start n r) :
    r.restless = true ↔ AsksAgain settings surroundings start n := by
  obtain ⟨outcome, ⟨hanswer, -⟩, rfl⟩ := h
  rw [restless_summarise]
  constructor
  · exact fun hrestless => ⟨outcome, hanswer, hrestless⟩
  · rintro ⟨other, hother, hrestless⟩
    cases hanswer.symm.trans hother
    exact hrestless

theorem RecordOf.assignment_eq {start : List σ} {n : Nat} {r : RoundRecord α}
    (h : RecordOf settings surroundings m start n r) :
    r.assignment = held (after settings surroundings start n) := by
  obtain ⟨outcome, -, rfl⟩ := h
  rfl

theorem RecordOf.succeeds {start : List σ} {n : Nat} {r : RoundRecord α}
    (h : RecordOf settings surroundings m start n r) :
    ∃ outcome, (playRound settings surroundings n
      (after settings surroundings start (n - 1))).answer = .ok outcome := by
  obtain ⟨outcome, ⟨hanswer, -⟩, -⟩ := h
  exact ⟨outcome, hanswer⟩

theorem RecordOf.utility_eq {start : List σ} {n : Nat} {r : RoundRecord α}
    (h : RecordOf settings surroundings m start n r) :
    r.utility = m.totalUtility r.assignment := by
  obtain ⟨outcome, -, rfl⟩ := h
  rfl

end Courses

/-! ## Solves -/

/-- What a solve returns once its rounds have ended. -/
def conclusion (name : String) (settings : Solver.Settings α) (surroundings : Surroundings α)
    (m : UtilityMatrix α) (records : List (RoundRecord α)) (termination : Termination)
    (last : List σ) : Solution α :=
  let final := finalBranch m records
  let best := bestBranch m records
  ⟨select settings final best,
    stats name m records termination last final best surroundings.totalMs⟩

section Solves
variable {factory : Factory α σ} {settings : Solver.Settings α} {oracle : Option (Oracle α)}
  {surroundings : Surroundings α} {inst : Instance} {solution : Solution α}

theorem solve_eq_ok_iff :
    (solve factory settings oracle surroundings inst).answer = .ok solution ↔
      ∃ m agents records termination last,
        setUp factory settings oracle inst = .ok (m, agents) ∧
        Plays settings surroundings m 1 agents settings.maxRounds records termination last ∧
        solution =
          conclusion factory.name settings surroundings m records termination last := by
  unfold solve
  constructor
  · intro h
    split at h
    · cases h
    · rename_i m agents hsetUp
      dsimp only at h
      split at h
      · cases h
      · rename_i termination last hending
        cases h
        exact ⟨m, agents, _, termination, last, hsetUp, plays_of_play hending, rfl⟩
  · rintro ⟨m, agents, records, termination, last, hsetUp, hplays, rfl⟩
    obtain ⟨hrecords, hending⟩ := play_of_plays hplays
    simp only [hsetUp, hending, hrecords]
    rfl

/-- What a solve says of its rounds, and why. -/
structure RoundsReported (settings : Solver.Settings α) (surroundings : Surroundings α)
    (start : List σ) (s : Stats α) : Prop where
  one_le : 1 ≤ s.rounds
  le_maxRounds : s.rounds ≤ settings.maxRounds
  length_utilities : s.utilities.length = s.rounds
  succeeds : ∀ n, 1 ≤ n → n ≤ s.rounds → ∃ outcome,
    (playRound settings surroundings n (after settings surroundings start (n - 1))).answer =
      .ok outcome
  goes_on : ∀ n, 1 ≤ n → n < s.rounds →
    AsksAgain settings surroundings start n ∧ ¬ TimeIsUp settings surroundings (n + 1)
  converged_iff : s.termination = .converged ↔ ¬ AsksAgain settings surroundings start s.rounds
  roundLimit_iff : s.termination = .roundLimit ↔
    AsksAgain settings surroundings start s.rounds ∧ s.rounds = settings.maxRounds
  timeBudget_iff : s.termination = .timeBudget ↔
    AsksAgain settings surroundings start s.rounds ∧ s.rounds < settings.maxRounds ∧
      TimeIsUp settings surroundings (s.rounds + 1)

section FromStart
variable {m : UtilityMatrix α} {start last : List σ} {remaining : Nat} {termination : Termination}
  {records : List (RoundRecord α)}
  (h : Plays settings surroundings m 1 start remaining records termination last)
include h

/-- The first round is played whatever the clock shows. -/
theorem Plays.records_ne_nil (hremaining : remaining ≠ 0) : records ≠ [] := by
  cases h with
  | limit => exact absurd rfl hremaining
  | late htime =>
    have hlate := isSome_outOfTime.1 (Option.isSome_of_eq_some htime)
    exact absurd hlate.1 (Nat.lt_irrefl 1)
  | quiet => simp
  | again => simp

theorem Plays.exists_record {n : Nat} (hpos : 1 ≤ n) (hn : n ≤ records.length) :
    ∃ r, records[n - 1]? = some r ∧ RecordOf settings surroundings m start n r := by
  have hr := List.getElem?_eq_getElem (show n - 1 < records.length by omega)
  have hrecord := h.recordOf (k := 0) rfl rfl hr
  rw [Nat.zero_add, Nat.sub_add_cancel hpos] at hrecord
  exact ⟨_, hr, hrecord⟩

theorem Plays.asksAgain_of_lt {n : Nat} (hpos : 1 ≤ n) (hn : n < records.length) :
    AsksAgain settings surroundings start n ∧ ¬ TimeIsUp settings surroundings (n + 1) := by
  obtain ⟨r, hr, hrecord⟩ := h.exists_record hpos (Nat.le_of_lt hn)
  obtain ⟨hrestless, htime⟩ := h.goes_on (by omega) hr
  refine ⟨hrecord.restless_iff.1 hrestless, fun hup => ?_⟩
  have hlate := isSome_outOfTime.2 ⟨Nat.succ_lt_succ hpos, hup⟩
  rw [show 1 + (n - 1) + 1 = n + 1 by omega] at htime
  simp [htime] at hlate

/-- Of several reasons to end, that nobody asks comes first, then that the rounds are used up. -/
theorem Plays.termination_iff (hremaining : remaining ≠ 0) :
    (termination = .converged ↔ ¬ AsksAgain settings surroundings start records.length) ∧
      (termination = .roundLimit ↔
        AsksAgain settings surroundings start records.length ∧ records.length = remaining) ∧
      (termination = .timeBudget ↔
        AsksAgain settings surroundings start records.length ∧ records.length < remaining ∧
          TimeIsUp settings surroundings (records.length + 1)) := by
  have hpos : 1 ≤ records.length := List.length_pos_iff.2 (h.records_ne_nil hremaining)
  obtain ⟨r, hr, hrecord⟩ := h.exists_record hpos (Nat.le_refl _)
  rw [← List.getLast?_eq_getElem?] at hr
  have hasks := hrecord.restless_iff
  -- each way to end settles what the last record says and how many rounds were left
  cases h.endsFor with
  | converged hlast hquiet =>
    obtain rfl := Option.some.inj (hr.symm.trans hlast)
    have hstill := mt hasks.2 (Bool.eq_false_iff.1 hquiet)
    simp [hstill]
  | roundLimit hlast hfull =>
    have hagain := hasks.1 (hlast r hr)
    subst hfull
    simp [hagain]
  | timeBudget hlast hroom htime =>
    have hagain := hasks.1 (hlast r hr)
    rw [Nat.add_comm, isSome_outOfTime] at htime
    simp [hagain, hroom, htime.2, Nat.ne_of_lt hroom]

/-- If nothing else stops it, a course ends with the first round that leaves nobody asking for
another. -/
theorem Plays.of_quiet {k : Nat} (hpos : 1 ≤ k) (hk : k ≤ remaining)
    (hrestless : ∀ n, 1 ≤ n → n < k →
      AsksAgain settings surroundings start n ∧ ¬ TimeIsUp settings surroundings (n + 1))
    (hquiet : ¬ AsksAgain settings surroundings start k) :
    records.length = k ∧ termination = .converged := by
  have hremaining : remaining ≠ 0 := by omega
  obtain ⟨hconverged, hlimit, hbudget⟩ := h.termination_iff hremaining
  have hsome : 1 ≤ records.length := List.length_pos_iff.2 (h.records_ne_nil hremaining)
  have hle : records.length ≤ k := by
    by_contra hgt
    exact hquiet (h.asksAgain_of_lt hpos (by omega)).1
  have hge : k ≤ records.length := by
    by_contra hlt
    obtain ⟨hagain, htime⟩ := hrestless _ hsome (by omega)
    cases termination with
    | converged => exact hconverged.1 rfl hagain
    | roundLimit => have := (hlimit.1 rfl).2; omega
    | timeBudget => exact htime (hbudget.1 rfl).2.2
  obtain rfl : records.length = k := Nat.le_antisymm hle hge
  exact ⟨rfl, hconverged.2 hquiet⟩

end FromStart

theorem Plays.roundsReported {m : UtilityMatrix α} {start last : List σ}
    {termination : Termination} {records : List (RoundRecord α)}
    (h : Plays settings surroundings m 1 start settings.maxRounds records termination last)
    (hmax : settings.maxRounds ≠ 0) (name : String) :
    RoundsReported settings surroundings start
      (conclusion name settings surroundings m records termination last).stats := by
  obtain ⟨hconverged, hlimit, hbudget⟩ := h.termination_iff hmax
  refine ⟨List.length_pos_iff.2 (h.records_ne_nil hmax), h.length_le, List.length_map _,
    fun n hpos hn => ?_, fun n hpos hn => h.asksAgain_of_lt hpos hn, hconverged, hlimit, hbudget⟩
  obtain ⟨r, -, hrecord⟩ := h.exists_record hpos hn
  exact hrecord.succeeds

omit [Scalar α] in
theorem outOfTime_clock {clock : Nat → Nat}
    (hclock : ∀ n, 1 < n → clock n = surroundings.elapsed n) (n : Nat) :
    outOfTime settings { surroundings with elapsed := clock } n =
      outOfTime settings surroundings n := by
  unfold outOfTime
  cases settings.timeBudgetMs with
  | none => rfl
  | some budget =>
    by_cases hn : 1 < n
    · simp only [hn, hclock n hn]
    · simp only [hn, false_and, if_false]

theorem play_clock {clock : Nat → Nat}
    (hclock : ∀ n, 1 < n → clock n = surroundings.elapsed n) (m : UtilityMatrix α)
    (round remaining : Nat) (agents : List σ) :
    play settings { surroundings with elapsed := clock } m round agents remaining =
      play settings surroundings m round agents remaining := by
  induction remaining generalizing round agents with
  | zero => rfl
  | succ remaining ih =>
    have hround : playRound (σ := σ) settings { surroundings with elapsed := clock } =
      playRound settings surroundings := rfl
    simp only [play, outOfTime_clock hclock, hround, ih]

/-- A solve that succeeds has played at least one round and no more than it may. It went on from
a round exactly if some agent asked for another, rounds were left and there was time; of these, the
first that failed is the reason it reports. The clock counts from the second round on. -/
theorem solve_ends_for_one_reason
    (h : (solve factory settings oracle surroundings inst).answer = .ok solution) :
    (∃ m agents, setUp factory settings oracle inst = .ok (m, agents) ∧
      RoundsReported settings surroundings agents solution.stats) ∧
    ∀ clock : Nat → Nat, (∀ n, 1 < n → clock n = surroundings.elapsed n) →
      solve factory settings oracle { surroundings with elapsed := clock } inst =
        solve factory settings oracle surroundings inst := by
  obtain ⟨m, agents, records, termination, last, hsetUp, hplays, rfl⟩ := solve_eq_ok_iff.1 h
  obtain ⟨_, -, hvalid, -⟩ := setUp_eq_ok_iff.1 hsetUp
  refine ⟨⟨m, agents, hsetUp, ?_⟩, fun clock hclock => ?_⟩
  · exact hplays.roundsReported (maxRounds_ne_zero_of_validate hvalid) factory.name
  · simp only [solve, play_clock hclock]

end Solves

/-! ## Scripts -/

/-- An agent that takes one target after the other and asks for another round while some are
left. -/
structure Scripted where
  id : EntityId
  target : Option EntityId
  script : List (Option EntityId)

namespace Scripted

def improve (a : Scripted) : Reply Rat Scripted Bool :=
  match a.script with
  | [] => ⟨a, [], .ok false⟩
  | target :: script => ⟨{ a with target, script }, [], .ok (!script.isEmpty)⟩

instance : Agent Rat Scripted where
  id := id
  target := target
  send a := ⟨a, [], [], .ok []⟩
  receive a _ := ⟨a, [], .ok ()⟩
  improve := improve
  checks _ := 0
  otherMessages _ := 0
  otherBytes _ := 0

/-- The agents of the matrix, in its order, each with one of the scripts. -/
def factory (scripts : List (List (Option EntityId))) : Factory Rat Scripted :=
  ⟨"Scripted", fun m => .ok (List.zipWith (fun id script => ⟨id, none, script⟩) m.agents scripts)⟩

end Scripted

theorem eq_ok_of_map_eq_some {ε β γ : Type} {x : Except ε β} {f : β → γ} {y : γ}
    (h : x.toOption.map f = some y) : ∃ b, x = .ok b ∧ f b = y := by
  cases x with
  | error e => cases h
  | ok b => exact ⟨b, rfl, Option.some.inj h⟩

/-- Three agents and two targets. -/
def crew : Instance := ⟨[.ofNat 1, .ofNat 2, .ofNat 3], [.ofNat 4, .ofNat 5], .empty⟩

/-- All like the first target best; the second is worth its own number to each. Either needs one
of them. -/
def appeal : Oracle Rat := ⟨fun a t => if t = .ofNat 4 then 10 else a.toNat, fun _ => 1⟩

/-- All agents take the first target, six times. -/
def restless : Factory Rat Scripted :=
  Scripted.factory (.replicate 3 (.replicate 6 (some (.ofNat 4))))

def hurried : Solver.Settings Rat :=
  { Solver.Settings.default with maxRounds := 5, timeBudgetMs := some 3 }

/-- A clock that shows as many milliseconds as the number of the round. -/
def ticking : Surroundings Rat := { Surroundings.still with elapsed := (· * 1000000) }

/-- The clock stops the agents before the third of five rounds. -/
theorem restless_end_for_one_reason :
    ∃ solution, (solve restless hurried (some appeal) ticking crew).answer = .ok solution ∧
      solution.stats.rounds = 2 ∧ solution.stats.termination = .timeBudget ∧
      (∃ m agents, setUp restless hurried (some appeal) crew = .ok (m, agents) ∧
        RoundsReported hurried ticking agents solution.stats) ∧
      ∀ clock : Nat → Nat, (∀ n, 1 < n → clock n = ticking.elapsed n) →
        solve restless hurried (some appeal) { ticking with elapsed := clock } crew =
          solve restless hurried (some appeal) ticking crew := by
  have hstats : (solve restless hurried (some appeal) ticking crew).answer.toOption.map
      (fun s => (s.stats.rounds, s.stats.termination)) = some (2, .timeBudget) := by
    decide +kernel
  obtain ⟨solution, hsolved, hstats⟩ := eq_ok_of_map_eq_some hstats
  obtain ⟨hrounds, htermination⟩ := Prod.mk.inj hstats
  exact ⟨solution, hsolved, hrounds, htermination, solve_ends_for_one_reason hsolved⟩

end Dispatch.Solver
