import Mathlib
import Dispatch.Proofs.Chronicle
import Dispatch.Proofs.Coverage
/-!
# How long fires burn

A fire that does not grow needs as many brigades for a tick as are left of its brigade-ticks, and a
brigade takes one of them away (`Fire.need_evolve`). Every tick that is solved sends each brigade
to some burning fire, so what a city needs in all falls tick by tick (`Scenario.need_evolve_lt`).
`Settings.fires_go_out` bounds the ticks of a simulation by what its city needs at first.
-/

namespace Dispatch

theorem Assignment.count_pos {x : Assignment} {a t : EntityId} (h : x.get? a = some t) :
    0 < x.count t := by
  rw [x.count_eq_othersOn a, if_pos h]
  exact Nat.succ_pos _

namespace City

/-! ## Brigade-ticks -/

namespace Fire

/-- How many brigades would put the fire out in one tick, or one brigade in how many ticks, if it
did not grow. -/
def need (capacity : Rat) (f : Fire Rat) : Nat := ⌈f.intensity / capacity⌉₊

variable {capacity : Rat} (hcapacity : 0 < capacity)
include hcapacity

/-- Just what burns needs brigades. -/
theorem need_pos_iff {f : Fire Rat} : 0 < f.need capacity ↔ f.isBurning = true := by
  rw [need, Nat.ceil_pos, div_pos_iff_of_pos_right hcapacity, isBurning, decide_eq_true_iff,
    Scalar.zero_rat]

theorem need_of_out {f : Fire Rat} (hout : f.isBurning = false) : f.need capacity = 0 := by
  refine Nat.eq_zero_of_not_pos fun hpos => ?_
  rw [(need_pos_iff hcapacity).1 hpos] at hout
  cases hout

omit hcapacity in
/-- A burning fire grows first, and then loses what its crew takes. -/
theorem intensity_evolve {f : Fire Rat} (hburns : f.isBurning = true) (growth : Rat) (crew : Nat) :
    (f.evolve capacity growth crew).intensity =
      max (f.intensity * (1 + growth) - capacity * crew) 0 := by
  rw [evolve, if_pos hburns, Scalar.one_rat, Scalar.zero_rat]
  rfl

/-- Without growth, every brigade takes a brigade-tick away. -/
theorem need_evolve (f : Fire Rat) (crew : Nat) :
    (f.evolve capacity 0 crew).need capacity = f.need capacity - crew := by
  cases hburns : f.isBurning with
  | true =>
    have hleft : max (f.intensity - capacity * crew) 0 / capacity =
        max (f.intensity / capacity - crew) 0 := by
      rw [← max_div_div_right hcapacity.le, sub_div, mul_div_cancel_left₀ _ hcapacity.ne',
        zero_div]
    rw [need, intensity_evolve hburns, add_zero, mul_one, hleft, Nat.ceil_mono.map_max,
      Nat.ceil_zero, Nat.max_zero, Nat.ceil_sub_natCast, need]
  | false =>
    rw [evolve, if_neg (by simp [hburns]), need_of_out hcapacity hburns, Nat.zero_sub]

end Fire

namespace Scenario

/-- The brigade-ticks that the burning fires need. -/
def need (capacity : Rat) (s : Scenario Rat) : Nat := (s.burning.map (Fire.need capacity)).sum

variable {capacity : Rat} {s : Scenario Rat} (hcapacity : 0 < capacity)
include hcapacity

/-- What is out needs nothing. -/
theorem need_eq (s : Scenario Rat) : s.need capacity = (s.fires.map (Fire.need capacity)).sum :=
  sum_map_filter_of_zero fun _ _ hout => Fire.need_of_out hcapacity hout

theorem burning_eq_nil_of_need (h : s.need capacity = 0) : s.burning = [] := by
  refine List.eq_nil_iff_forall_not_mem.2 fun f hf => ?_
  have hzero := List.sum_eq_zero_iff.1 h _ (List.mem_map_of_mem hf)
  have hpos := (Fire.need_pos_iff hcapacity).2 (List.mem_filter.1 hf).2
  omega

/-- A tick in which somebody fights a burning fire lowers the need. -/
theorem need_evolve_lt {x : Assignment} {a : EntityId} {f : Fire Rat} (hf : f ∈ s.burning)
    (ha : x.get? a = some f.id) : (s.evolve x capacity 0).need capacity < s.need capacity := by
  obtain ⟨hin, hburns⟩ := List.mem_filter.1 hf
  have hpos := (Fire.need_pos_iff hcapacity).2 hburns
  have hcrew := Assignment.count_pos ha
  rw [need_eq hcapacity, need_eq hcapacity, evolve, List.map_map]
  refine List.sum_lt_sum _ _ (fun g _ => ?_) ⟨f, hin, ?_⟩
  · rw [Function.comp_apply, Fire.need_evolve hcapacity]
    exact Nat.sub_le _ _
  · rw [Function.comp_apply, Fire.need_evolve hcapacity]
    omega

end Scenario

/-! ## Simulations -/

namespace Settings
variable {settings : Settings Rat} {world : World Rat} {k : Nat} {s t : Scenario Rat}

theorem capacity_pos (h : settings.validate = .ok ()) : 0 < settings.capacity := by
  unfold validate at h
  split at h
  · cases h
  · rename_i hcapacity
    rw [not_not, Scalar.zero_rat] at hcapacity
    exact not_le.1 hcapacity.2

/-- A tick that is solved sends every brigade to a burning fire, and nobody else to any. -/
theorem complete_of_solveTick {solution : Solution Rat} (hburns : s.burning ≠ [])
    (hsolved : (settings.solveTick world k s).answer = .ok solution) :
    solution.assignment.Complete s.toInstance := by
  replace hsolved := (solveTick_eq_ok_iff.1 hsolved).2
  obtain ⟨m, agents, records, termination, last, hsetUp, -⟩ := Solver.solve_eq_ok_iff.1 hsolved
  obtain ⟨-, -, rfl⟩ := Solver.setUp_builtIn_iff.1 hsetUp
  refine (Solver.picksFrom_returned hsetUp hsolved).complete ?_
  simpa [Scenario.toInstance] using hburns

/-- Every tick of a chronicle takes away at least one brigade-tick. -/
theorem Chronicle.need_add_length_le (hcapacity : 0 < settings.capacity)
    (hgrowth : settings.growth = 0) {records : List (TickRecord Rat)}
    (h : settings.Chronicle world k s records t) (hbrigades : s.brigades ≠ []) :
    t.need settings.capacity + records.length ≤ s.need settings.capacity := by
  induction h with
  | nil => exact le_rfl
  | @cons k s t solution records hburns hsolved _ ih =>
    obtain ⟨b, hb⟩ := List.exists_mem_of_ne_nil _ hbrigades
    obtain ⟨id, hid, htarget⟩ :=
      (complete_of_solveTick hburns hsolved).exists_target b.id (List.mem_map_of_mem hb)
    obtain ⟨f, hf, rfl⟩ := List.mem_map.1 hid
    -- whichever fire that brigade got, it loses a brigade-tick
    have hfalls := Scenario.need_evolve_lt hcapacity hf htarget
    have hrest := ih (by simpa [Scenario.evolve] using hbrigades)
    rw [hgrowth] at hrest
    rw [List.length_cons]
    omega

/-- In exact arithmetic and without growth, a simulation that ends has taken no more ticks than the
burning fires need brigade-ticks at first, provided that there is a brigade at all. If it may take
as many, every fire is out in the end. -/
theorem fires_go_out (settings : Settings Rat) (hgrowth : settings.growth = 0) (world : World Rat)
    (recording : Bool) {s : Scenario Rat} (hbrigades : s.brigades ≠ [])
    {records : List (TickRecord Rat)} :
    let run := settings.simulate world recording s
    run.answer = .ok records →
      records.length ≤ s.need settings.capacity ∧
        (s.need settings.capacity ≤ settings.ticks →
          ∀ f ∈ run.scenario.fires, f.isBurning = false) := by
  intro run hended
  obtain ⟨hsettings, -, hchronicle, hle, hout⟩ := (simulate_ok_iff recording).1 ⟨hended, rfl⟩
  have hcapacity := capacity_pos hsettings
  have hfalls : run.scenario.need settings.capacity + records.length ≤ s.need settings.capacity :=
    hchronicle.need_add_length_le hcapacity hgrowth hbrigades
  refine ⟨by omega, fun hticks => ?_⟩
  have hnone : run.scenario.burning = [] := by
    rcases Nat.lt_or_ge records.length settings.ticks with hlt | hge
    · exact hout hlt
    · exact Scenario.burning_eq_nil_of_need hcapacity (by omega)
  intro f hf
  simpa using List.filter_eq_nil_iff.1 hnone f hf

/-- A drill in dull weather, with agents that toss coins and repaired assignments. -/
def dullDrill : Settings Rat :=
  { drill with
    ticks := 3
    growth := 0
    solver := { Solver.Settings.default with algorithm := .dsa .default, repair := true } }

/-- The suburb needs two brigade-ticks at the larger fire and one at the smaller. -/
theorem suburb_fires_go_out :
    dullDrill.growth = 0 ∧ suburb.brigades ≠ [] ∧
      suburb.need dullDrill.capacity = 3 ∧ ∃ records,
        (dullDrill.simulate weekday false suburb).answer = .ok records ∧ records.length ≤ 3 ∧
        ∀ f ∈ (dullDrill.simulate weekday false suburb).scenario.fires, f.isBurning = false := by
  have hbrigades : suburb.brigades ≠ [] := by decide
  have hneed : suburb.need dullDrill.capacity = 3 := by decide +kernel
  have hended : (dullDrill.simulate weekday false suburb).answer.toOption.map (fun _ => ()) =
      some () := by
    decide +kernel
  obtain ⟨records, hended, -⟩ := Solver.eq_ok_of_map_eq_some hended
  obtain ⟨hlength, hout⟩ := fires_go_out dullDrill rfl weekday false hbrigades hended
  rw [hneed] at hlength hout
  exact ⟨rfl, hbrigades, hneed, records, hended, hlength, hout le_rfl⟩

end Settings

end City

end Dispatch
