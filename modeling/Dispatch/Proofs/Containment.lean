import Mathlib
import Dispatch.Proofs.Appraisal
import Dispatch.Proofs.Recounting
/-!
# Crews of the size asked for

The oracle asks for as many brigades at a fire as take its intensity in one tick
(`TravelUtility.need_eq`). The fire grows before they take anything, which the oracle does not
count. So a crew of that size leaves at most what the fire grew by in the tick
(`Fire.contained_evolve`), and `Settings.required_crews_contain_fires` says so of every tick that a
simulation completes. Only without growth is the fire sure to be out
(`Settings.gale_outlasts_required_crew`).
-/

namespace Dispatch

theorem Assignment.count_lt_maxCount (x : Assignment) (t : EntityId) : x.count t < maxCount := by
  have hothers := Assignment.othersOn_lt (x := x) (fun b _ _ => b.mem_all) t.mem_all t
  rw [List.length_map, List.length_range] at hothers
  have hsize : UInt32.size < maxCount := by decide
  rw [x.count_eq_othersOn t]
  split <;> omega

namespace City

/-! ## A tick at one fire -/

/-- A burning fire and what is left of it after a tick with a crew that is large enough for the
intensity it had before. -/
structure Fire.Contained (capacity growth : Rat) (crew : Nat) (f g : Fire Rat) : Prop where
  id_eq : g.id = f.id
  /-- No more is left than what the fire grew by. -/
  intensity_le : g.intensity ≤ growth * f.intensity
  out_iff : g.isBurning = false ↔ f.intensity * (1 + growth) ≤ capacity * crew
  out_of_still : growth = 0 → g.isBurning = false

/-- A crew of as many brigades as take the intensity of a fire contains it. -/
theorem Fire.contained_evolve {capacity growth : Rat} (hcapacity : 0 < capacity)
    (hgrowth : 0 ≤ growth) {f : Fire Rat} (hburns : f.isBurning = true) {crew : Nat}
    (hcrew : ⌈f.intensity / capacity⌉₊ ≤ crew) :
    f.Contained capacity growth crew (f.evolve capacity growth crew) := by
  have hintensity : 0 < f.intensity := by
    rwa [isBurning, decide_eq_true_iff, Scalar.zero_rat] at hburns
  have htaken : f.intensity ≤ capacity * crew := by
    rw [← div_le_iff₀' hcapacity]
    exact Nat.ceil_le.1 hcrew
  have hleft : (f.evolve capacity growth crew).intensity =
      max (f.intensity * (1 + growth) - capacity * crew) 0 := intensity_evolve hburns growth crew
  have hgrown : 0 ≤ growth * f.intensity := mul_nonneg hgrowth hintensity.le
  have hout : (f.evolve capacity growth crew).isBurning = false ↔
      f.intensity * (1 + growth) ≤ capacity * crew := by
    rw [isBurning, decide_eq_false_iff_not, Scalar.zero_rat, hleft, not_lt]
    rw [max_le_iff, sub_nonpos, and_iff_left le_rfl]
  refine ⟨(f.later_evolve capacity growth crew).id_eq, ?_, hout, fun hstill => hout.2 ?_⟩
  · rw [hleft]
    exact max_le (by linarith) hgrown
  · rwa [hstill, add_zero, mul_one]

namespace Scenario
variable {s : Scenario Rat} {capacity growth : Rat}

/-- What a tick does to the fires whose crews are as large as the oracle asks for. -/
theorem contained_evolve (metric : Metric Rat) (hcapacity : 0 < capacity) (hgrowth : 0 ≤ growth)
    (hfires : (s.burning.map (·.id)).Nodup) (x : Assignment) :
    List.Forall₂ (fun f g => f.isBurning = true →
        (TravelUtility.ofScenario metric s capacity).need f.id ≤ x.count f.id →
        f.Contained capacity growth (x.count f.id) g)
      s.fires (s.evolve x capacity growth).fires := by
  rw [evolve, List.forall₂_map_right_iff, List.forall₂_same]
  intro f hf hburns hcrew
  have hin : f ∈ s.burning := List.mem_filter.2 ⟨hf, hburns⟩
  have hneed : (TravelUtility.ofScenario metric s capacity).need f.id =
      min maxCount ⌈f.intensity / capacity⌉₊ :=
    TravelUtility.need_eq hfires hin (Scalar.zero_rat.symm ▸ hcapacity)
  rw [hneed] at hcrew
  -- no crew is as large as the largest count, so the oracle has not asked for that
  have hceil := (min_le_iff.1 hcrew).resolve_left (not_le.2 (x.count_lt_maxCount f.id))
  exact Fire.contained_evolve hcapacity hgrowth hburns hceil

end Scenario

/-! ## Simulations -/

namespace Settings
variable {settings : Settings Rat} {world : World Rat} {k : Nat} {s : Scenario Rat}

theorem growth_nonneg (h : settings.validate = .ok ()) : 0 ≤ settings.growth := by
  unfold validate at h
  split at h
  · cases h
  · split at h
    · cases h
    · rename_i hgrowth
      rw [not_not, Scalar.IsAmount, Scalar.zero_rat] at hgrowth
      exact not_lt.1 hgrowth.2

/-- A city for which a solve succeeds does not list two burning fires under one number. -/
theorem nodup_burning_of_solveTick {solution : Solution Rat}
    (hsolved : (settings.solveTick world k s).answer = .ok solution) :
    (s.burning.map (·.id)).Nodup := by
  obtain ⟨m, hbuild⟩ := exists_matrix_of_solveTick hsolved
  obtain ⟨-, htargets⟩ := UtilityMatrix.build_eq_ok hbuild
  have hnodup := m.targets_nodup
  rwa [htargets] at hnodup

/-- In exact arithmetic, in every tick that a simulation completes, a burning fire that is given at
least as many brigades as the oracle asks for has, after the tick, at most what it grew by in the
tick. It is out just if its crew takes as much as its intensity with that growth, and so it always
is if fires do not grow. -/
theorem required_crews_contain_fires (settings : Settings Rat) (world : World Rat)
    (recording : Bool) {s : Scenario Rat} (hsettings : settings.validate = .ok ())
    (hvalid : s.validate = .ok ()) :
    ∃ records,
      settings.Completed world recording 1 s settings.ticks records
        (settings.simulate world recording s) ∧
      ∀ before r after, records = before ++ r :: after → ∃ city solution next,
        settings.Chronicle world 1 s before city ∧
        (settings.solveTick world (1 + before.length) city).answer = .ok solution ∧
        settings.Chronicle world 1 s (before ++ [r]) next ∧
        List.Forall₂ (fun f g => f.isBurning = true →
            (TravelUtility.ofScenario world.metric city settings.capacity).need f.id ≤
              solution.assignment.count f.id →
            f.Contained settings.capacity settings.growth (solution.assignment.count f.id) g)
          city.fires next.fires := by
  obtain ⟨records, hrun⟩ := simulate_completed world recording hsettings hvalid
  refine ⟨records, hrun, fun before r after hrecords => ?_⟩
  obtain ⟨city, solution, hbefore, hsolved, hnext⟩ := hrun.chronicle.tick_of hrecords
  refine ⟨city, solution, _, hbefore, hsolved, hnext, ?_⟩
  exact Scenario.contained_evolve world.metric (capacity_pos hsettings) (growth_nonneg hsettings)
    (nodup_burning_of_solveTick hsolved) solution.assignment

/-- One brigade at the only fire, which is as strong as a brigade. -/
def outpost : Scenario Rat where
  areas := [⟨.ofNat 1, 0, 0⟩]
  brigades := [⟨.ofNat 1, .ofNat 1⟩]
  fires := [⟨.ofNat 7, .ofNat 1, 2⟩]

/-- A tick in which fires grow by half. -/
def gale : Settings Rat := { Settings.default with ticks := 1, growth := 1 / 2 }

theorem gale_valid : gale.validate = .ok () := by decide +kernel

theorem outpost_valid : outpost.validate = .ok () := by decide +kernel

/-- The fire needs one brigade and gets it. -/
theorem outpost_gets_required_crew :
    (TravelUtility.ofScenario weekday.metric outpost gale.capacity).need (.ofNat 7) = 1 ∧
    ∃ solution, (gale.solveTick weekday 1 outpost).answer = .ok solution ∧
      solution.assignment.count (.ofNat 7) = 1 := by
  have hneed : (TravelUtility.ofScenario weekday.metric outpost gale.capacity).need (.ofNat 7) =
      1 := by
    decide +kernel
  have hcrew : (gale.solveTick weekday 1 outpost).answer.toOption.map
      (fun solution => solution.assignment.count (.ofNat 7)) = some 1 := by
    decide +kernel
  exact ⟨hneed, Solver.eq_ok_of_map_eq_some hcrew⟩

/-- So no more is left than what it grew by. -/
theorem outpost_crew_contains_fire :
    gale.validate = .ok () ∧ outpost.validate = .ok () ∧ ∃ solution g,
      (gale.solveTick weekday 1 outpost).answer = .ok solution ∧
      (gale.simulate weekday false outpost).scenario.fires = [g] ∧
      Fire.Contained 2 (1 / 2) (solution.assignment.count (.ofNat 7))
        ⟨.ofNat 7, .ofNat 1, 2⟩ g := by
  have hlength : (gale.simulate weekday false outpost).answer.toOption.map List.length =
      some 1 := by
    decide +kernel
  obtain ⟨hneed, solution, hsolution, hcrew⟩ := outpost_gets_required_crew
  obtain ⟨told, htold, hlength⟩ := Solver.eq_ok_of_map_eq_some hlength
  obtain ⟨records, hrun, hticks⟩ :=
    required_crews_contain_fires gale weekday false gale_valid outpost_valid
  obtain rfl := hrun.eq_of_ok htold
  obtain ⟨r, rfl⟩ := List.length_eq_one_iff.1 hlength
  obtain ⟨city, solved, next, hcity, hsolved, hnext, hfires⟩ := hticks [] r [] rfl
  cases hcity
  obtain rfl := Except.ok.inj (hsolved.symm.trans hsolution)
  rw [← hnext.unique hrun.chronicle] at hfires
  obtain ⟨g, rest, hfirst, hrest, hleft⟩ := List.forall₂_cons_left_iff.1 hfires
  obtain rfl := List.forall₂_nil_left_iff.1 hrest
  refine ⟨gale_valid, outpost_valid, solved, g, hsolution, hleft, hfirst (by decide) ?_⟩
  rw [hneed, hcrew]

/-- But that goes on burning. -/
theorem gale_outlasts_required_crew :
    gale.validate = .ok () ∧ outpost.validate = .ok () ∧
    (TravelUtility.ofScenario weekday.metric outpost gale.capacity).need (.ofNat 7) = 1 ∧
    (∃ solution, (gale.solveTick weekday 1 outpost).answer = .ok solution ∧
      solution.assignment.count (.ofNat 7) = 1) ∧
    (gale.simulate weekday false outpost).scenario.fires.map
      (fun f => (f.id, f.intensity, f.isBurning)) = [(.ofNat 7, 1, true)] := by
  obtain ⟨hneed, hcrew⟩ := outpost_gets_required_crew
  have hleft : (gale.simulate weekday false outpost).scenario.fires.map
      (fun f => (f.id, f.intensity, f.isBurning)) = [(.ofNat 7, 1, true)] := by
    decide +kernel
  exact ⟨gale_valid, outpost_valid, hneed, hcrew, hleft⟩

end Settings

end City

end Dispatch
