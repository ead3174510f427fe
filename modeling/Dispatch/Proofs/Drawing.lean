import Mathlib
import Dispatch.City.Drawing
import Dispatch.Proofs.Appraisal
import Dispatch.Proofs.Coverage
/-!
# Drawn cities

A drawn city is orderly (`Generation.Drawn.orderly`): everybody is in one of its areas, and no
brigade and no fire has the number of another. Ticks keep a city orderly, and in exact arithmetic a
solve asks for no more. Before it is solved, a tick measures ways; their differences of coordinates
cannot overflow unless the extent is wider than `2 ^ 31`. Nothing else ever ends the simulation of a
drawn city early (`Settings.drawn_cities_end_or_overflow`).
-/

namespace Dispatch

/-! ## Numbers and positions -/

namespace EntityId

theorem toNat_ofNat {n : Nat} (h : n < UInt32.size) : (ofNat n).toNat = n :=
  UInt32.toNat_ofNat_of_lt h

/-- Numbers that fit into an identifier are told apart by it. -/
theorem nodup_ofNat {first count : Nat} (h : first + count ≤ UInt32.size) :
    ((List.range' first count).map ofNat).Nodup := by
  refine List.Nodup.map_on (fun i hi j hj hij => ?_) (List.nodup_range' 1)
  obtain ⟨hi, hi'⟩ := List.mem_range'_1.1 hi
  obtain ⟨hj, hj'⟩ := List.mem_range'_1.1 hj
  rw [← toNat_ofNat (show i < UInt32.size by omega), hij, toNat_ofNat (by omega)]

end EntityId

variable {α β γ : Type}

/-- Coordinates and positions are drawn from the range that was asked for, positions at least if it
fits into 32 bits. -/
structure Draws.InRange (draws : Draws α γ) : Prop where
  coordinate : ∀ low high source, low < high →
    low ≤ (draws.coordinate low high source).1 ∧ (draws.coordinate low high source).1 < high
  index : ∀ count source, 0 < count → count < UInt32.size → (draws.index count source).1 < count

namespace Random.Source

theorem nextWord_lt (s : Source) : s.nextWord.1 < UInt32.size := UInt32.toNat_lt _

/-- The high half of a word times the range is below the range, and still is when the low halves of
two such products carry into it. -/
theorem below_lt {range : Nat} (hpos : 0 < range) (s : Source) : (s.below range).1 < range := by
  have hproduct : ∀ s : Source, s.nextWord.1 * range + range ≤ UInt32.size * range := by
    intro s
    rw [← Nat.succ_mul]
    exact Nat.mul_le_mul_right _ s.nextWord_lt
  have hhigh : ∀ s : Source, s.nextWord.1 * range / UInt32.size < range := fun s =>
    Nat.div_lt_of_lt_mul (by have := hproduct s; omega)
  unfold below
  dsimp only
  split
  · split
    · rename_i hcarry
      have hfirst := hproduct s
      have hsecond := hhigh s.nextWord.2
      have hsplit := Nat.div_add_mod (s.nextWord.1 * range) UInt32.size
      refine Nat.lt_of_mul_lt_mul_left (a := UInt32.size) ?_
      rw [Nat.mul_succ]
      omega
    · exact hhigh s
  · exact hhigh s

/-- The width of a range of coordinates fits into 32 bits without a sign. -/
theorem toNat_width {low high : Int32} (h : low < high) :
    ((high - low).toUInt32.toNat : Int) = high.toInt - low.toInt := by
  rw [Int32.lt_iff_toInt_lt] at h
  have hlow := low.le_toInt
  have hhigh := high.toInt_lt
  have hsigned : (high - low).toBitVec.toInt = (high.toInt - low.toInt).bmod (2 ^ 32) :=
    Int32.toInt_sub high low
  rw [BitVec.toInt_eq_toNat_bmod, Int.bmod_def, Int.bmod_def] at hsigned
  have hword := (high - low).toBitVec.isLt
  show ((high - low).toBitVec.toNat : Int) = _
  omega

/-- An offset that does not leave 32 bits is added as it is. -/
theorem toInt_add_toInt32 {low : Int32} {offset : Nat} (h : low.toInt + offset < 2 ^ 31) :
    (low + offset.toInt32).toInt = low.toInt + offset := by
  have hlow := low.le_toInt
  have hsum : (low + offset.toInt32).toInt =
      (low.toInt + (offset : Int).bmod (2 ^ 32)).bmod (2 ^ 32) := by
    rw [Int32.toInt_add, Int32.toInt_ofNat']
    rfl
  rw [hsum, Int.add_bmod_bmod]
  exact Int.bmod_eq_of_le (by omega) (by omega)

theorem coordinate_mem {low high : Int32} (h : low < high) (s : Source) :
    low ≤ (coordinate low high s).1 ∧ (coordinate low high s).1 < high := by
  have hwidth := toNat_width h
  have hhigh := high.toInt_lt
  rw [Int32.lt_iff_toInt_lt] at h
  have hoffset : (s.below (high - low).toUInt32.toNat).1 < (high - low).toUInt32.toNat :=
    below_lt (by omega) s
  have hbound : low.toInt + (s.below (high - low).toUInt32.toNat).1 < 2 ^ 31 := by omega
  have hsum : (coordinate low high s).1.toInt =
      low.toInt + (s.below (high - low).toUInt32.toNat).1 :=
    toInt_add_toInt32 hbound
  rw [Int32.le_iff_toInt_le, Int32.lt_iff_toInt_lt, hsum]
  omega

theorem inRange_draws : draws.InRange where
  coordinate _ _ source h := coordinate_mem h source
  index _ source hpos _ := below_lt hpos source

end Random.Source

namespace City

/-! ## Drawing one after another -/

/-- Whatever is drawn for the numbers from `first` on has these numbers. -/
theorem map_drawEach {draw : EntityId → γ → β × γ} {key : β → EntityId}
    (hkey : ∀ id source, key (draw id source).1 = id) (first count : Nat) (source : γ) :
    (drawEach draw first count source).1.map key = (List.range' first count).map .ofNat := by
  induction count generalizing first source with
  | zero => rfl
  | succ count ih =>
    rw [List.range'_succ, List.map_cons, ← ih (first + 1) (draw (.ofNat first) source).2]
    exact congrArg (· :: _) (hkey (.ofNat first) source)

theorem forall_mem_drawEach {draw : EntityId → γ → β × γ} {P : β → Prop}
    (hdraw : ∀ id source, P (draw id source).1) (first count : Nat) (source : γ) :
    ∀ x ∈ (drawEach draw first count source).1, P x := by
  induction count generalizing first source with
  | zero => exact List.forall_mem_nil P
  | succ count ih => exact List.forall_mem_cons.2 ⟨hdraw _ _, ih _ _⟩

/-- A place is drawn from the areas. -/
theorem drawPlace_mem {draws : Draws α γ} (hdraws : draws.InRange) {areas : List Area}
    (hne : areas ≠ []) (hlt : areas.length < UInt32.size) (source : γ) :
    ∃ a ∈ areas, (drawPlace draws areas source).1 = a.id := by
  have hi := hdraws.index areas.length source (List.length_pos_iff.2 hne) hlt
  refine ⟨areas[(draws.index areas.length source).1], List.getElem_mem hi, ?_⟩
  show (areas.getD _ default).id = _
  rw [List.getD_eq_getElem _ _ hi]

variable [Scalar α]

/-- Fires that are drawn begin with one of the next number in some area. -/
theorem drawFires_succ_eq_ok {draws : Draws α γ} {areas : List Area} {range : α × α}
    {first count : Nat} {source : γ} {fires : List (Fire α)}
    (h : drawFires draws areas range first (count + 1) source = .ok fires) :
    ∃ intensity source' rest, Scalar.IsAmount intensity ∧
      fires = ⟨.ofNat first, (drawPlace draws areas source).1, intensity⟩ :: rest ∧
      drawFires draws areas range (first + 1) count source' = .ok rest := by
  rw [drawFires] at h
  dsimp only at h
  split at h
  · cases h
  · split at h
    · cases h
    · rename_i intensity source' _
      unfold Fire.new at h
      by_cases hamount : Scalar.IsAmount intensity
      · rw [if_pos hamount] at h
        obtain ⟨rest, hrest, hfires⟩ := Round.map_eq_ok h
        exact ⟨intensity, source', rest, hamount, hfires.symm, hrest⟩
      · rw [if_neg hamount] at h
        cases h

/-- Fires that are drawn have the numbers from `first` on and are where areas are. -/
theorem drawFires_eq_ok {draws : Draws α γ} {areas : List Area} {range : α × α}
    {first count : Nat} {source : γ} {fires : List (Fire α)}
    (h : drawFires draws areas range first count source = .ok fires) :
    fires.map (·.id) = (List.range' first count).map .ofNat ∧
      ∀ f ∈ fires, ∃ source, f.area = (drawPlace draws areas source).1 := by
  induction count generalizing first source fires with
  | zero =>
    obtain rfl : [] = fires := Except.ok.inj h
    exact ⟨rfl, List.forall_mem_nil _⟩
  | succ count ih =>
    obtain ⟨intensity, source', rest, -, rfl, hrest⟩ := drawFires_succ_eq_ok h
    obtain ⟨hids, hplaces⟩ := ih hrest
    refine ⟨?_, List.forall_mem_cons.2 ⟨⟨source, rfl⟩, hplaces⟩⟩
    rw [List.map_cons, hids, List.range'_succ, List.map_cons]

/-! ## Orderly cities -/

/-- A city in order in which no brigade and no fire has the number of another. -/
structure Scenario.Orderly (s : Scenario α) : Prop where
  validate_eq : s.validate = .ok ()
  brigades_nodup : (s.brigades.map (·.id)).Nodup
  fires_nodup : (s.fires.map (·.id)).Nodup

namespace Scenario

/-- Ticks keep a city orderly. -/
theorem Orderly.later {s t : Scenario α} (h : s.Orderly) (hlater : s.Later t) : t.Orderly where
  validate_eq := hlater.validate_eq h.validate_eq
  brigades_nodup := hlater.brigades_eq ▸ h.brigades_nodup
  fires_nodup := hlater.fire_ids_eq ▸ h.fires_nodup

/-- An orderly city poses problems that a built-in algorithm can start on. -/
theorem Orderly.accepts {s : Scenario Rat} (h : s.Orderly) {settings : Solver.Settings Rat}
    (hsettings : settings.Valid) (oracle : Oracle Rat) :
    Solver.Accepts settings oracle s.toInstance where
  settings_valid := hsettings
  agents_nodup := h.brigades_nodup
  targets_nodup := h.fires_nodup.sublist (List.filter_sublist.map _)
  isFinite_utility _ _ _ _ := rfl

omit [Scalar α] in
theorem isSome_area? {s : Scenario α} {a : Area} (ha : a ∈ s.areas) : (s.area? a.id).isSome :=
  List.find?_isSome.2 ⟨a, ha, decide_eq_true rfl⟩

end Scenario

/-! ## Extents -/

/-- An area with both coordinates in the extent. -/
def Area.Within (a : Area) (extent : Int32 × Int32) : Prop :=
  (extent.1 ≤ a.x ∧ a.x < extent.2) ∧ extent.1 ≤ a.y ∧ a.y < extent.2

/-- Numbers from a range of at most `2 ^ 31` can be taken from one another. -/
theorem ssubOverflow_eq_false {low high a b : Int32} (hwidth : high.toInt - low.toInt ≤ 2 ^ 31)
    (ha : low ≤ a ∧ a < high) (hb : low ≤ b ∧ b < high) :
    BitVec.ssubOverflow a.toBitVec b.toBitVec = false := by
  simp only [Int32.le_iff_toInt_le, Int32.lt_iff_toInt_lt] at ha hb
  simp only [BitVec.ssubOverflow, Int32.toInt_toBitVec, Bool.or_eq_false_iff,
    decide_eq_false_iff_not]
  omega

theorem Area.overflows_eq_false {a b : Area} {extent : Int32 × Int32}
    (hwidth : extent.2.toInt - extent.1.toInt ≤ 2 ^ 31) (ha : a.Within extent)
    (hb : b.Within extent) : a.overflows b = false := by
  rw [overflows, ssubOverflow_eq_false hwidth ha.1 hb.1, ssubOverflow_eq_false hwidth ha.2 hb.2]
  rfl

/-- Measuring the ways fails only where differences are checked, and only in a wide extent. -/
theorem TravelUtility.wide_of_overflows {metric : Metric α} {s : Scenario α}
    {extent : Int32 × Int32} (hwithin : ∀ a ∈ s.areas, a.Within extent)
    (h : overflows metric s = true) :
    metric.overflowChecks = true ∧ 2 ^ 31 < extent.2.toInt - extent.1.toInt := by
  obtain ⟨hchecks, hany⟩ := Bool.and_eq_true_iff.1 h
  refine ⟨hchecks, not_le.1 fun hwidth => ?_⟩
  obtain ⟨⟨ids, overflow⟩, hway, rfl⟩ := List.any_eq_true.1 hany
  obtain ⟨f, -, hway⟩ := List.mem_flatMap.1 hway
  obtain ⟨b, -, here, there, hhere, hthere, -, -, hoverflow⟩ := mem_ways.1 hway
  rw [Area.overflows_eq_false hwidth (hwithin here (List.mem_of_find?_eq_some hhere))
    (hwithin there (List.mem_of_find?_eq_some hthere))] at hoverflow
  cases hoverflow

namespace Generation
variable {g : Generation α} {draws : Draws α γ} {anySeed : UInt64} {s : Scenario α}

/-- The course of a draw: the areas, then brigades and fires in some of them. -/
theorem draw_eq_ok (h : g.draw draws anySeed = .ok s) :
    g.extentOrDefault.1 < g.extentOrDefault.2 ∧
      (g.areas = 0 → g.brigades = 0 ∧ g.fires = 0) ∧ ∃ atAreas atBrigades atFires,
      s.areas = (drawEach (drawArea draws g.extentOrDefault) 1 g.areas atAreas).1 ∧
      s.brigades = (drawEach (drawBrigade draws s.areas) 1 g.brigades atBrigades).1 ∧
      drawFires draws s.areas g.intensityOrDefault 1 g.fires atFires = .ok s.fires := by
  unfold draw at h
  dsimp only at h
  split at h
  · cases h
  · rename_i hranges
    split at h
    · cases h
    · rename_i hplaced
      obtain ⟨fires, hfires, rfl⟩ := Round.map_eq_ok h
      exact ⟨Int32.not_le.1 fun hempty => hranges (.inl hempty), fun hnone => by omega,
        _, _, _, rfl, rfl, hfires⟩

variable (g draws s) in
/-- What a draw comes to: everything is numbered from one, and everybody is at a place that was
drawn. -/
structure Drawn : Prop where
  area_ids : s.areas.map (·.id) = (List.range' 1 g.areas).map .ofNat
  brigade_ids : s.brigades.map (·.id) = (List.range' 1 g.brigades).map .ofNat
  fire_ids : s.fires.map (·.id) = (List.range' 1 g.fires).map .ofNat
  exists_draw : ∀ id ∈ s.places, ∃ source, id = (drawPlace draws s.areas source).1
  exists_drawArea : ∀ a ∈ s.areas, ∃ source, a = (drawArea draws g.extentOrDefault a.id source).1
  extent_lt : g.extentOrDefault.1 < g.extentOrDefault.2
  nobody : g.areas = 0 → g.brigades = 0 ∧ g.fires = 0

theorem drawn_of_draw (h : g.draw draws anySeed = .ok s) : g.Drawn draws s := by
  obtain ⟨hextent, hnobody, atAreas, atBrigades, atFires, hareas, hbrigades, hfires⟩ :=
    draw_eq_ok h
  obtain ⟨hfireIds, hfirePlaces⟩ := drawFires_eq_ok hfires
  have hbrigadePlaces : ∀ b ∈ s.brigades, ∃ source, b.area = (drawPlace draws s.areas source).1 :=
    hbrigades ▸ forall_mem_drawEach (fun _ source => ⟨source, rfl⟩) 1 g.brigades atBrigades
  refine ⟨hareas ▸ map_drawEach (fun _ _ => rfl) 1 g.areas atAreas,
    hbrigades ▸ map_drawEach (fun _ _ => rfl) 1 g.brigades atBrigades, hfireIds, ?_,
    hareas ▸ forall_mem_drawEach (fun _ source => ⟨source, rfl⟩) 1 g.areas atAreas, hextent,
    hnobody⟩
  intro id hid
  rcases List.mem_append.1 hid with hid | hid
  · obtain ⟨b, hb, rfl⟩ := List.mem_map.1 hid
    exact hbrigadePlaces b hb
  · obtain ⟨f, hf, rfl⟩ := List.mem_map.1 hid
    exact hfirePlaces f hf

omit [Scalar α] in
theorem Drawn.length_areas (h : g.Drawn draws s) : s.areas.length = g.areas := by
  simpa using congrArg List.length h.area_ids

omit [Scalar α] in
theorem Drawn.within (h : g.Drawn draws s) (hdraws : draws.InRange) :
    ∀ a ∈ s.areas, a.Within g.extentOrDefault := by
  intro a ha
  obtain ⟨source, ha⟩ := h.exists_drawArea a ha
  rw [ha]
  exact ⟨hdraws.coordinate _ _ _ h.extent_lt, hdraws.coordinate _ _ _ h.extent_lt⟩

omit [Scalar α] in
/-- Without areas nobody is anywhere. -/
theorem Drawn.areas_ne_nil (h : g.Drawn draws s) {id : EntityId} (hid : id ∈ s.places) :
    s.areas ≠ [] := by
  intro hnone
  obtain ⟨hbrigades, hfires⟩ := h.nobody (by rw [← h.length_areas, hnone, List.length_nil])
  have hnoBrigades : s.brigades = [] := by simpa [hbrigades] using h.brigade_ids
  have hnoFires : s.fires = [] := by simpa [hfires] using h.fire_ids
  rw [Scenario.places, hnoBrigades, hnoFires] at hid
  cases hid

omit [Scalar α] in
/-- What is drawn in 32-bit numbers is an orderly city. -/
theorem Drawn.orderly (h : g.Drawn draws s) (hdraws : draws.InRange)
    (hareas : g.areas < UInt32.size) (hbrigades : g.brigades < UInt32.size)
    (hfires : g.fires < UInt32.size) : s.Orderly where
  validate_eq := by
    refine Scenario.validate_eq_ok_iff.2 fun id hid => ?_
    have hne := h.areas_ne_nil hid
    obtain ⟨source, rfl⟩ := h.exists_draw id hid
    obtain ⟨a, ha, hplace⟩ := drawPlace_mem hdraws hne (h.length_areas ▸ hareas) source
    exact hplace ▸ Scenario.isSome_area? ha
  brigades_nodup := h.brigade_ids ▸ EntityId.nodup_ofNat (by omega)
  fires_nodup := h.fire_ids ▸ EntityId.nodup_ofNat (by omega)

end Generation

/-! ## Simulations -/

namespace Settings

theorem solver_valid {settings : Settings α} (h : settings.validate = .ok ()) :
    settings.solver.Valid := by
  unfold validate at h
  split at h
  · cases h
  · split at h
    · cases h
    · split at h
      · cases h
      · rename_i hsolver
        exact settings.solver.checks_validate.eq_ok_iff.1 hsolver

/-- In exact arithmetic no solve of an orderly city fails, so its simulation ends unless it comes to
a city whose ways cannot be measured. -/
theorem simulate_orderly {settings : Settings Rat} {world : World Rat} (recording : Bool)
    {s : Scenario Rat} (hsettings : settings.validate = .ok ()) (h : s.Orderly) :
    (∃ records, (settings.simulate world recording s).answer = .ok records) ∨
      (settings.simulate world recording s).answer = .error .coordinateOverflow ∧
        ∃ t, s.Later t ∧ TravelUtility.overflows world.metric t = true := by
  obtain ⟨records, hrun⟩ := simulate_completed world recording hsettings h.validate_eq
  rcases hrun.ending with ⟨hok, -⟩ | ⟨e, hanswer, -, -, hfailed⟩
  · exact .inl ⟨records, hok⟩
  · have hlater := hrun.chronicle.later
    rcases solveTick_eq_error_iff.1 hfailed with ⟨hoverflows, rfl⟩ | ⟨-, cause, herror, -⟩
    · exact .inr ⟨hanswer, _, hlater, hoverflows⟩
    · obtain ⟨-, solution, -, hsolved⟩ :=
        ((h.later hlater).accepts (solver_valid hsettings) _).exists_solution world.coins
          (world.surroundings (1 + records.length))
      cases herror.symm.trans hsolved

/-- In exact arithmetic, whatever source a city of up to `2 ^ 32 - 1` areas, brigades and fires is
drawn from, it is in order, no brigade and no fire has the number of another, and a simulation of it
under valid settings ends without a failure, however many ticks it takes. One thing can stop it: the
difference of two coordinates, if such differences are checked and the extent is wider than
`2 ^ 31`. -/
theorem drawn_cities_end_or_overflow {draws : Draws Rat γ} (hdraws : draws.InRange)
    {g : Generation Rat} (hareas : g.areas < UInt32.size) (hbrigades : g.brigades < UInt32.size)
    (hfires : g.fires < UInt32.size) {anySeed : UInt64} {s : Scenario Rat}
    (hdrawn : g.draw draws anySeed = .ok s) :
    s.validate = .ok () ∧ (s.brigades.map (·.id)).Nodup ∧ (s.fires.map (·.id)).Nodup ∧
      ∀ (settings : Settings Rat) (world : World Rat) (recording : Bool),
        settings.validate = .ok () →
        (∃ records, (settings.simulate world recording s).answer = .ok records) ∨
          (settings.simulate world recording s).answer = .error .coordinateOverflow ∧
            world.metric.overflowChecks = true ∧
            2 ^ 31 < g.extentOrDefault.2.toInt - g.extentOrDefault.1.toInt := by
  have hdrawn := Generation.drawn_of_draw hdrawn
  have horderly := hdrawn.orderly hdraws hareas hbrigades hfires
  refine ⟨horderly.validate_eq, horderly.brigades_nodup, horderly.fires_nodup,
    fun settings world recording hsettings => ?_⟩
  rcases simulate_orderly recording hsettings horderly with hended | ⟨hanswer, t, hlater, hstopped⟩
  · exact .inl hended
  · have hwithin : ∀ a ∈ t.areas, a.Within g.extentOrDefault :=
      hlater.areas_eq.symm ▸ hdrawn.within hdraws
    exact .inr ⟨hanswer, TravelUtility.wide_of_overflows hwithin hstopped⟩

/-- The draws of the stream, with intensities that are not rounded. -/
def exactDraws : Draws Rat Random.Source where
  ofSeed := .ofSeed
  coordinate := Random.Source.coordinate
  index := Random.Source.below
  intensity low high source :=
    let (v, source) := source.nextDoubleWord
    some (low + (high - low) * (v / 4096 : Nat) / 2 ^ 52, source)

theorem inRange_exactDraws : exactDraws.InRange :=
  ⟨Random.Source.inRange_draws.coordinate, Random.Source.inRange_draws.index⟩

def hamlet : Generation Rat := ⟨2, 1, 2, none, none, some 42⟩

/-- One brigade and two fires in two areas of the usual extent. -/
theorem hamlet_never_fails :
    exactDraws.InRange ∧ ∃ s, hamlet.draw exactDraws 0 = .ok s ∧
      s.burning.map (·.id) = [.ofNat 1, .ofNat 2] ∧ s.validate = .ok () ∧
      drill.validate = .ok () ∧ weekday.metric.overflowChecks = true ∧
      ∃ records, (drill.simulate weekday true s).answer = .ok records := by
  have hburning : (hamlet.draw exactDraws 0).toOption.map (fun s => s.burning.map (·.id)) =
      some [.ofNat 1, .ofNat 2] := by
    decide +kernel
  obtain ⟨s, hdrawn, hburning⟩ := Solver.eq_ok_of_map_eq_some hburning
  obtain ⟨hvalid, -, -, hsimulated⟩ := drawn_cities_end_or_overflow inRange_exactDraws
    (g := hamlet) (by decide) (by decide) (by decide) hdrawn
  refine ⟨inRange_exactDraws, s, hdrawn, hburning, hvalid, drill_valid, rfl, ?_⟩
  rcases hsimulated drill weekday true drill_valid with hended | ⟨-, -, hwide⟩
  · exact hended
  · exact absurd hwide (by decide)

/-- The widest extent there is. -/
def frontier : Generation Rat := ⟨2, 1, 1, some (-2147483648, 2147483647), none, some 1⟩

/-- The brigade of the frontier is too far from the fire for checked differences. -/
theorem frontier_overflows :
    exactDraws.InRange ∧ drill.validate = .ok () ∧
      ∃ s, frontier.draw exactDraws 0 = .ok s ∧ s.validate = .ok () ∧
        (drill.simulate weekday true s).answer = .error .coordinateOverflow := by
  have hfailed : (frontier.draw exactDraws 0).toOption.map
      (fun s => (drill.simulate weekday true s).answer.map List.length) =
        some (.error .coordinateOverflow) := by
    decide +kernel
  obtain ⟨s, hdrawn, hfailed⟩ := Solver.eq_ok_of_map_eq_some hfailed
  have horderly := (Generation.drawn_of_draw hdrawn).orderly inRange_exactDraws (by decide)
    (by decide) (by decide)
  refine ⟨inRange_exactDraws, drill_valid, s, hdrawn, horderly.validate_eq, ?_⟩
  cases hanswer : (drill.simulate weekday true s).answer with
  | ok records =>
    rw [hanswer] at hfailed
    cases hfailed
  | error e =>
    rw [hanswer] at hfailed
    exact congrArg Except.error (Except.error.inj hfailed)

end Settings

end City

end Dispatch
