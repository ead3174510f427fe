import Mathlib
import Dispatch.Proofs.Extinction
import Dispatch.Proofs.Tables
/-!
# What a tick tells its solve

The oracle of a tick knows the way of every brigade to every burning fire and the intensity of each
such fire (`TravelUtility.utility_eq`, `TravelUtility.need_eq`): it enumerates the city on its own,
but where the problem lists no number twice and everybody stands in a known area, it leaves nothing
out. Ticks keep a city so, and in exact arithmetic a solve is therefore never told of a utility or
a need of zero (`Settings.ticks_appraise_every_pair`).
-/

namespace Dispatch.City

/-! ## What the oracle knows -/

namespace TravelUtility
variable {α : Type} [Scalar α] {metric : Metric α} {s : Scenario α} {capacity : α}

omit [Scalar α] in
theorem mem_ways {β : Type} {measure : Area → Area → β} {f : Fire α} {brigade fire : EntityId}
    {d : β} :
    ((brigade, fire), d) ∈ ways measure s f ↔ ∃ b ∈ s.brigades, ∃ here there,
      s.area? b.area = some here ∧ s.area? f.area = some there ∧
        b.id = brigade ∧ f.id = fire ∧ measure here there = d := by
  unfold ways
  split
  · rename_i hnone
    simp [hnone]
  · rename_i there hthere
    simp only [List.mem_filterMap, Option.map_eq_some_iff, Prod.mk.injEq, hthere,
      Option.some.injEq]
    constructor
    · rintro ⟨b, hb, here, hhere, ⟨hbrigade, hfire⟩, hd⟩
      exact ⟨b, hb, here, there, hhere, rfl, hbrigade, hfire, hd⟩
    · rintro ⟨b, hb, here, _, hhere, rfl, hbrigade, hfire, hd⟩
      exact ⟨b, hb, here, hhere, ⟨hbrigade, hfire⟩, hd⟩

section Known
variable (hbrigades : (s.brigades.map (·.id)).Nodup) (hfires : (s.burning.map (·.id)).Nodup)
  {b : Brigade} {f : Fire α} (hb : b ∈ s.brigades) (hf : f ∈ s.burning)

include hfires hf in
theorem get?_intensities :
    (ofScenario metric s capacity).intensities.get? f.id = some f.intensity := by
  refine SortedMap.get?_ofList_of_forall (List.mem_map.2 ⟨f, hf, rfl⟩) fun w hw => ?_
  obtain ⟨g, hg, hentry⟩ := List.mem_map.1 hw
  obtain ⟨hid, rfl⟩ := Prod.mk.inj hentry
  rw [List.inj_on_of_nodup_map hfires hg hf hid]

include hbrigades hfires hb hf in
theorem get?_distances {here there : Area} (hhere : s.area? b.area = some here)
    (hthere : s.area? f.area = some there) :
    (ofScenario metric s capacity).distances.get? (b.id, f.id) = some (metric here there) := by
  refine SortedMap.get?_ofList_of_forall ?_ fun w hw => ?_
  · exact List.mem_flatMap.2 ⟨f, hf, mem_ways.2 ⟨b, hb, here, there, hhere, hthere, rfl, rfl, rfl⟩⟩
  · obtain ⟨g, hg, hway⟩ := List.mem_flatMap.1 hw
    obtain ⟨c, hc, here', there', hhere', hthere', hbrigade, hfire, rfl⟩ := mem_ways.1 hway
    -- whatever else has these numbers is the same brigade and the same fire
    obtain rfl := List.inj_on_of_nodup_map hbrigades hc hb hbrigade
    obtain rfl := List.inj_on_of_nodup_map hfires hg hf hfire
    rw [Option.some.inj (hhere'.symm.trans hhere), Option.some.inj (hthere'.symm.trans hthere)]

include hbrigades hfires hb hf in
theorem utility_eq {here there : Area} (hhere : s.area? b.area = some here)
    (hthere : s.area? f.area = some there) :
    (ofScenario metric s capacity).utility b.id f.id =
      f.intensity * Scalar.ofNat 100 / (Scalar.ofNat 100 + metric here there) := by
  rw [utility, get?_distances hbrigades hfires hb hf hhere hthere, get?_intensities hfires hf]

include hfires hf in
theorem need_eq (hcapacity : Scalar.zero < capacity) :
    (ofScenario metric s capacity).need f.id = Scalar.ceilNat (f.intensity / capacity) := by
  rw [need, get?_intensities hfires hf]
  exact if_pos hcapacity

end Known

end TravelUtility

/-! ## What the matrix is told -/

/-- A brigade and a burning fire as the matrix of a solve has them. -/
structure Scenario.Appraised (s : Scenario Rat) (metric : Metric Rat) (capacity : Rat)
    (m : UtilityMatrix Rat) (b : Brigade) (f : Fire Rat) : Prop where
  exists_way : ∃ here there, s.area? b.area = some here ∧ s.area? f.area = some there ∧
    m.utility b.id f.id = f.intensity * 100 / (100 + metric here there)
  utility_pos : 0 < m.utility b.id f.id
  utility_le : m.utility b.id f.id ≤ f.intensity
  need_eq : m.need f.id = min maxCount ⌈f.intensity / capacity⌉₊
  one_le_need : 1 ≤ m.need f.id

/-- A fire is worth something wherever it is, and no more than its intensity. -/
theorem utility_bounds {intensity d : Rat} (hburns : 0 < intensity) (hd : 0 ≤ d) :
    0 < intensity * 100 / (100 + d) ∧ intensity * 100 / (100 + d) ≤ intensity := by
  have hway : 0 < 100 + d := by linarith
  refine ⟨div_pos (mul_pos hburns (by norm_num)) hway, ?_⟩
  rw [div_le_iff₀ hway]
  exact mul_le_mul_of_nonneg_left (by linarith) hburns.le

theorem Scenario.appraised_of_build {s : Scenario Rat} (hvalid : s.validate = .ok ())
    {metric : Metric Rat} (hmetric : ∀ a b, 0 ≤ metric a b) {capacity : Rat}
    (hcapacity : 0 < capacity) {penalty : Rat} {m : UtilityMatrix Rat}
    (hbuild : UtilityMatrix.build s.toInstance (TravelUtility.ofScenario metric s capacity).oracle
      penalty = .ok m) {b : Brigade} (hb : b ∈ s.brigades) {f : Fire Rat} (hf : f ∈ s.burning) :
    s.Appraised metric capacity m b f := by
  obtain ⟨hagents, htargets⟩ := UtilityMatrix.build_eq_ok hbuild
  have hbrigades : s.toInstance.agents.Nodup := hagents ▸ m.agents_nodup
  have hfires : s.toInstance.targets.Nodup := htargets ▸ m.targets_nodup
  obtain ⟨hlisted, hburns⟩ := List.mem_filter.1 hf
  rw [Scenario.validate_eq_ok_iff] at hvalid
  obtain ⟨here, hhere⟩ := Option.isSome_iff_exists.1
    (hvalid b.area (List.mem_append_left _ (List.mem_map_of_mem hb)))
  obtain ⟨there, hthere⟩ := Option.isSome_iff_exists.1
    (hvalid f.area (List.mem_append_right _ (List.mem_map_of_mem hlisted)))
  have hbid : b.id ∈ s.toInstance.agents := List.mem_map_of_mem hb
  have hfid : f.id ∈ s.toInstance.targets := List.mem_map_of_mem hf
  have hutility : m.utility b.id f.id = f.intensity * 100 / (100 + metric here there) := by
    rw [UtilityMatrix.utility_build hbuild, if_pos ⟨hbid, hfid⟩]
    exact TravelUtility.utility_eq hbrigades hfires hb hf hhere hthere
  have hneed : m.need f.id = min maxCount ⌈f.intensity / capacity⌉₊ := by
    rw [UtilityMatrix.need_build hbuild, if_pos hfid]
    exact TravelUtility.need_eq hfires hf (Scalar.zero_rat.symm ▸ hcapacity)
  have hintensity : 0 < f.intensity := by
    rwa [Fire.isBurning, decide_eq_true_iff, Scalar.zero_rat] at hburns
  obtain ⟨hpos, hle⟩ := utility_bounds hintensity (hmetric here there)
  refine ⟨⟨here, there, hhere, hthere, hutility⟩, hutility ▸ hpos, hutility ▸ hle, hneed, ?_⟩
  rw [hneed, le_min_iff]
  exact ⟨by decide, Nat.ceil_pos.2 (div_pos hintensity hcapacity)⟩

/-! ## Simulations -/

namespace Settings

theorem exists_matrix_of_solveTick {settings : Settings Rat} {world : World Rat} {k : Nat}
    {s : Scenario Rat} {solution : Solution Rat}
    (hsolved : (settings.solveTick world k s).answer = .ok solution) :
    ∃ m, UtilityMatrix.build s.toInstance
      (TravelUtility.ofScenario world.metric s settings.capacity).oracle
      settings.solver.congestionPenalty = .ok m := by
  obtain ⟨m, _, _, _, _, hsetUp, -⟩ :=
    Solver.solve_eq_ok_iff.1 (solveTick_eq_ok_iff.1 hsolved).2
  obtain ⟨-, hbuild, -⟩ := Solver.setUp_builtIn_iff.1 hsetUp
  exact ⟨m, hbuild⟩

/-- In exact arithmetic, where no way is negative, the matrix of every tick that a simulation
completes has a row for each brigade and a column for each burning fire. The fire is worth its
intensity to a brigade that stands there, less the longer the way is, and never nothing; it needs as
many brigades as take its intensity in one tick, and at least one. -/
theorem ticks_appraise_every_pair (settings : Settings Rat) {world : World Rat}
    (hmetric : ∀ a b, 0 ≤ world.metric a b) (recording : Bool) {s : Scenario Rat}
    (hsettings : settings.validate = .ok ()) (hvalid : s.validate = .ok ()) :
    ∃ records,
      settings.Completed world recording 1 s settings.ticks records
        (settings.simulate world recording s) ∧
      ∀ before r after, records = before ++ r :: after → ∃ city m,
        settings.Chronicle world 1 s before city ∧
        UtilityMatrix.build city.toInstance
          (TravelUtility.ofScenario world.metric city settings.capacity).oracle
          settings.solver.congestionPenalty = .ok m ∧
        m.agents = city.brigades.map (·.id) ∧ m.targets = city.burning.map (·.id) ∧
        ∀ b ∈ city.brigades, ∀ f ∈ city.burning,
          city.Appraised world.metric settings.capacity m b f := by
  obtain ⟨records, hrun⟩ := simulate_completed world recording hsettings hvalid
  refine ⟨records, hrun, fun before r after hrecords => ?_⟩
  obtain ⟨city, solution, hbefore, hsolved, -⟩ := hrun.chronicle.tick_of hrecords
  obtain ⟨m, hbuild⟩ := exists_matrix_of_solveTick hsolved
  obtain ⟨hagents, htargets⟩ := UtilityMatrix.build_eq_ok hbuild
  refine ⟨city, m, hbefore, hbuild, hagents, htargets, fun b hb f hf => ?_⟩
  exact Scenario.appraised_of_build (hbefore.later.validate_eq hvalid) hmetric
    (capacity_pos hsettings) hbuild hb hf

/-- Both ticks of the drill in the suburb. -/
theorem suburb_drill_appraises_every_pair :
    (∀ a b, 0 ≤ weekday.metric a b) ∧ drill.validate = .ok () ∧ suburb.validate = .ok () ∧
    ∃ records, (drill.simulate weekday true suburb).answer = .ok records ∧ records.length = 2 ∧
      ∀ before r after, records = before ++ r :: after → ∃ city m,
        drill.Chronicle weekday 1 suburb before city ∧
        UtilityMatrix.build city.toInstance
          (TravelUtility.ofScenario weekday.metric city drill.capacity).oracle
          drill.solver.congestionPenalty = .ok m ∧
        m.agents = city.brigades.map (·.id) ∧ m.targets = city.burning.map (·.id) ∧
        ∀ b ∈ city.brigades, ∀ f ∈ city.burning,
          city.Appraised weekday.metric drill.capacity m b f := by
  have hmetric : ∀ a b, 0 ≤ weekday.metric a b := by
    intro a b
    show 0 ≤ streets a b
    unfold streets
    positivity
  obtain ⟨told, htold, hlength⟩ := suburb_drill_ends
  obtain ⟨records, hrun, hticks⟩ :=
    ticks_appraise_every_pair drill hmetric true drill_valid suburb_valid
  obtain rfl := hrun.eq_of_ok htold
  exact ⟨hmetric, drill_valid, suburb_valid, records, htold, hlength, hticks⟩

end Settings

end Dispatch.City
