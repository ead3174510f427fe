import Mathlib
import Dispatch.Proofs.Chronicle
import Dispatch.Proofs.Determinism
/-!
# Stopping and resuming

Without a time budget, what a tick decides hangs on the city alone: neither its number nor a clock
nor the course of concurrent rounds counts (`Settings.solveTick_again`). A chronicle can therefore
be kept again, from another number on and in another world of the same ways and coins
(`Settings.Chronicle.again`), and `Settings.simulations_resume` says that a simulation may be
stopped at any tick and resumed from the city it left.
-/

namespace Dispatch.City

variable {α : Type} [Scalar α]

/-- Worlds of the same ways and the same coins. Their clocks may differ, and so may the course of
concurrent rounds. -/
structure World.Alike (world other : World α) : Prop where
  metric_eq : other.metric = world.metric
  coins_eq : other.coins = world.coins

namespace TickRecord

/-- The record without the times it took. -/
def untimed (r : TickRecord α) : TickRecord α :=
  { r with solveMs := Scalar.zero, stats := r.stats.untimed }

omit [Scalar α] in
/-- The record of the tick if `n` more went before it. -/
def delayed (n : Nat) (r : TickRecord α) : TickRecord α := { r with tick := r.tick + n }

end TickRecord

namespace Settings
variable {settings : Settings α} {world other : World α} {s t : Scenario α}

/-- The same city is solved alike at any time. -/
theorem solveTick_again (hbudget : settings.solver.timeBudgetMs = none)
    (halike : world.Alike other) {k : Nat} (j : Nat) {solution : Solution α}
    (hsolved : (settings.solveTick world k s).answer = .ok solution) :
    ∃ again, (settings.solveTick other j s).answer = .ok again ∧
      again.untimed = solution.untimed := by
  obtain ⟨hmeasured, hsolved⟩ := solveTick_eq_ok_iff.1 hsolved
  have huntimed : (settings.solveCity world k s).answer.map Solution.untimed =
      .ok solution.untimed := by
    rw [hsolved]
    rfl
  suffices hresolved : (settings.solveCity other j s).answer.map Solution.untimed =
      .ok solution.untimed by
    obtain ⟨again, hagain, hsame⟩ := Round.map_eq_ok hresolved
    exact ⟨again, solveTick_eq_ok_iff.2 ⟨halike.metric_eq ▸ hmeasured, hagain⟩, hsame⟩
  unfold solveCity at huntimed ⊢
  rw [halike.metric_eq, halike.coins_eq]
  exact Solver.solve_of_honest hbudget settings.solver.parallel settings.solver.parallel _ _
    huntimed

/-- The ticks of a chronicle can be repeated, with other numbers and at other times. -/
theorem Chronicle.again (hbudget : settings.solver.timeBudgetMs = none)
    (halike : world.Alike other) {j n : Nat} {records : List (TickRecord α)}
    (h : settings.Chronicle world (j + n) s records t) :
    ∃ again, settings.Chronicle other j s again t ∧
      again.map (fun r => (r.delayed n).untimed) = records.map TickRecord.untimed := by
  generalize hk : j + n = k at h
  induction h generalizing j with
  | nil => exact ⟨[], .nil, rfl⟩
  | @cons k s t solution records hburns hsolved _ ih =>
    obtain ⟨resolved, hresolved, hsame⟩ := solveTick_again hbudget halike j hsolved
    obtain ⟨again, hrest, hrecords⟩ := ih (j := j + 1) (by omega)
    have hassignment : resolved.assignment = solution.assignment :=
      (congrArg Solution.assignment hsame :)
    have hstats : resolved.stats.untimed = solution.stats.untimed :=
      (congrArg Solution.stats hsame :)
    -- the two solutions differ in times at most, so the city evolves as it did
    rw [← hassignment] at hrest
    refine ⟨_, .cons hburns hresolved hrest, ?_⟩
    rw [List.map_cons, List.map_cons, hrecords]
    simp only [TickRecord.untimed, TickRecord.delayed, TickRecord.of, hk, hassignment, hstats]

/-- A chronicle that fits into `n` ticks and more stops after `n` ticks in a city that either
takes the remaining ticks from there, or burns no more. -/
theorem Chronicle.stop {k n : Nat} {records : List (TickRecord α)}
    (h : settings.Chronicle world k s records t) (hout : records.length < n → t.burning = []) :
    ∃ city, settings.Chronicle world k s (records.take n) city ∧
      settings.Chronicle world (k + n) city (records.drop n) t ∧
      (records.length < n → city.burning = []) := by
  rcases lt_or_ge records.length n with hlt | hge
  -- everything is out before `n` ticks, and nothing is left for later ones
  · rw [List.take_of_length_le hlt.le, List.drop_eq_nil_of_le hlt.le]
    exact ⟨t, h, .nil, hout⟩
  · rw [← List.take_append_drop n records] at h
    obtain ⟨city, hbefore, hafter⟩ := append_iff.1 h
    rw [List.length_take_of_le hge] at hafter
    exact ⟨city, hbefore, hafter, fun hlt => absurd hge (Nat.not_le.2 hlt)⟩

/-- If a simulation without time budget ends within `n + m` ticks, then so does the simulation of
its first `n` ticks, and so do `m` more from the city that it leaves. They end in the same city, and
with the same records: the second ones follow on the first, `n` ticks later. What each of the three
reads off its clocks, and how its concurrent rounds run, does not matter. -/
theorem simulations_resume (settings : Settings α) (hbudget : settings.solver.timeBudgetMs = none)
    {world first second : World α} (hfirst : world.Alike first) (hsecond : world.Alike second)
    (recording recordingFirst recordingSecond : Bool) (n m : Nat) (s : Scenario α)
    {records : List (TickRecord α)} :
    let whole := ({ settings with ticks := n + m } : Settings α).simulate world recording s
    let start := ({ settings with ticks := n } : Settings α).simulate first recordingFirst s
    let rest := ({ settings with ticks := m } : Settings α).simulate second recordingSecond
      start.scenario
    whole.answer = .ok records →
      ∃ before after, start.answer = .ok before ∧ rest.answer = .ok after ∧
        rest.scenario = whole.scenario ∧
        before.map TickRecord.untimed ++ after.map (fun r => (r.delayed n).untimed) =
          records.map TickRecord.untimed := by
  intro whole start rest hwhole
  obtain ⟨hsettings, hvalid, hchronicle, hle, hout⟩ := (simulate_ok_iff recording).1 ⟨hwhole, rfl⟩
  dsimp only at hle hout
  obtain ⟨city, huntil, hthence, hcity⟩ :=
    (hchronicle.with_ticks settings.ticks).stop (n := n) fun hlt => hout (by omega)
  obtain ⟨before, hbefore, hbeforeRecords⟩ := huntil.again (n := 0) hbudget hfirst
  obtain ⟨after, hafter, hafterRecords⟩ := hthence.again hbudget hsecond
  have hbeforeLength : before.length = min n records.length := by
    simpa using congrArg List.length hbeforeRecords
  have hafterLength : after.length = records.length - n := by
    simpa using congrArg List.length hafterRecords
  obtain ⟨hstart, hleft⟩ : start.answer = .ok before ∧ start.scenario = city := by
    refine (simulate_ok_iff recordingFirst).2 ⟨hsettings, hvalid, hbefore.with_ticks n, ?_, ?_⟩
    · exact hbeforeLength ▸ min_le_left _ _
    · intro hlt
      dsimp only at hlt
      exact hcity (by omega)
  obtain ⟨hrest, hended⟩ : rest.answer = .ok after ∧ rest.scenario = whole.scenario := by
    refine (simulate_ok_iff recordingSecond).2
      ⟨hsettings, hleft ▸ hbefore.later.validate_eq hvalid, hleft ▸ hafter.with_ticks m, ?_, ?_⟩
    · dsimp only
      omega
    · intro hlt
      dsimp only at hlt
      exact hout (by omega)
  refine ⟨before, after, hstart, hrest, hended, ?_⟩
  have hjoined : before.map TickRecord.untimed = (records.take n).map TickRecord.untimed :=
    hbeforeRecords
  rw [hjoined, hafterRecords, ← List.map_append, List.take_append_drop]

/-- Another day in the same town. The rounds of its solves run concurrently, if they may. -/
def weekend : World Rat :=
  { weekday with
    surroundings := fun _ => ⟨fun round => round, 9, fun _ => ⟨[1], [1]⟩⟩
    solveMs := fun tick => tick }

def concurrent : Settings Rat :=
  { drill with solver := { drill.solver with parallel := true } }

/-- Two ticks put out the fires of the suburb. The second can wait for the weekend. -/
theorem suburb_drill_resumes :
    concurrent.solver.timeBudgetMs = none ∧ weekday.Alike weekend ∧
    let whole := ({ concurrent with ticks := 1 + 5 } : Settings Rat).simulate weekday true suburb
    let start := ({ concurrent with ticks := 1 } : Settings Rat).simulate weekday false suburb
    let rest := ({ concurrent with ticks := 5 } : Settings Rat).simulate weekend true start.scenario
    ∃ records before after, whole.answer = .ok records ∧ records.length = 2 ∧
      start.answer = .ok before ∧ rest.answer = .ok after ∧ rest.scenario = whole.scenario ∧
      before.map TickRecord.untimed ++ after.map (fun r => (r.delayed 1).untimed) =
        records.map TickRecord.untimed := by
  have halike : weekday.Alike weekend := ⟨rfl, rfl⟩
  refine ⟨rfl, halike, ?_⟩
  intro whole start rest
  have hlength : whole.answer.toOption.map List.length = some 2 := by decide +kernel
  obtain ⟨records, hwhole, hlength⟩ := Solver.eq_ok_of_map_eq_some hlength
  obtain ⟨before, after, hstart, hrest, hended, hjoined⟩ :=
    simulations_resume concurrent rfl ⟨rfl, rfl⟩ halike true false true 1 5 suburb hwhole
  exact ⟨records, before, after, hwhole, hlength, hstart, hrest, hended, hjoined⟩

end Settings

end Dispatch.City
