import Mathlib
import Dispatch.Proofs.Chronicle
import Dispatch.Random.Draws
/-!
# Where brigades stand

A tick sends a brigade to the fire that the city lists last under the number it was given
(`Scenario.Moves`), and `Settings.brigades_go_to_last_listed_fires` says so of every tick that a
simulation completes. Problems are made of burning fires only, but what is out stays listed. If it
has the number of a burning fire and is listed after it, a brigade that was given the burning one
does not get there (`Settings.rekindled_brigade_goes_astray`).
-/

namespace Dispatch.City

variable {α : Type} [Scalar α]

namespace Scenario

omit [Scalar α] in
/-- The last fire that the city lists under a number, whether it burns or not. -/
def lastListed? (s : Scenario α) (id : EntityId) : Option (Fire α) :=
  s.fires.reverse.find? fun f => f.id = id

omit [Scalar α] in
theorem get?_fireAreas (s : Scenario α) (id : EntityId) :
    s.fireAreas.get? id = (s.lastListed? id).map (·.area) := by
  rw [fireAreas, SortedMap.get?_ofList_eq_find?, ← List.map_reverse, List.find?_map, lastListed?,
    Option.map_map]
  rfl

variable {s : Scenario α} {f : Fire α}

omit [Scalar α] in
theorem exists_lastListed (hf : f ∈ s.fires) : ∃ g, s.lastListed? f.id = some g := by
  refine Option.isSome_iff_exists.1 (List.find?_isSome.2 ⟨f, List.mem_reverse.2 hf, ?_⟩)
  exact decide_eq_true rfl

omit [Scalar α] in
/-- A number that is listed once stands for one fire. -/
theorem lastListed?_of_nodup (hnodup : (s.fires.map (·.id)).Nodup) (hf : f ∈ s.fires) :
    s.lastListed? f.id = some f := by
  obtain ⟨g, hg⟩ := exists_lastListed hf
  have hin : g ∈ s.fires := List.mem_reverse.1 (List.mem_of_find?_eq_some hg)
  have hid : g.id = f.id := by simpa using List.find?_some hg
  rw [hg, List.inj_on_of_nodup_map hnodup hin hf hid]

/-- Where a tick under an assignment takes a brigade. -/
structure Moves (s : Scenario α) (x : Assignment) (b c : Brigade) : Prop where
  id_eq : c.id = b.id
  stays : x.get? b.id = none → c.area = b.area
  goes : ∀ f ∈ s.burning, x.get? b.id = some f.id →
    ∃ g, s.lastListed? f.id = some g ∧ c.area = g.area

theorem moves_move (s : Scenario α) (x : Assignment) (b : Brigade) : s.Moves x b (s.move x b) where
  id_eq := s.id_move x b
  stays hnone := by rw [move, hnone, Option.bind_none]
  goes f hf hfire := by
    obtain ⟨g, hg⟩ := exists_lastListed (List.mem_filter.1 hf).1
    refine ⟨g, hg, ?_⟩
    rw [move, hfire, Option.bind_some, get?_fireAreas, hg]
    rfl

theorem moves_evolve (s : Scenario α) (x : Assignment) (capacity growth : α) :
    List.Forall₂ (s.Moves x) s.brigades (s.evolve x capacity growth).brigades := by
  rw [evolve, List.forall₂_map_right_iff, List.forall₂_same]
  exact fun b _ => s.moves_move x b

end Scenario

namespace Settings

/-- In every tick that a simulation completes, a brigade without a fire stays where it is, and one
that was given a burning fire goes to the fire that is listed last under the number of that fire. If
no number is listed twice, this is the fire it was given. -/
theorem brigades_go_to_last_listed_fires (settings : Settings α) (world : World α)
    (recording : Bool) {s : Scenario α} (hsettings : settings.validate = .ok ())
    (hvalid : s.validate = .ok ()) :
    ∃ records,
      settings.Completed world recording 1 s settings.ticks records
        (settings.simulate world recording s) ∧
      ∀ before r after, records = before ++ r :: after → ∃ city solution next,
        settings.Chronicle world 1 s before city ∧
        (settings.solveTick world (1 + before.length) city).answer = .ok solution ∧
        settings.Chronicle world 1 s (before ++ [r]) next ∧
        List.Forall₂ (city.Moves solution.assignment) city.brigades next.brigades ∧
        ((s.fires.map (·.id)).Nodup → ∀ f ∈ city.burning, city.lastListed? f.id = some f) := by
  obtain ⟨records, hrun⟩ := simulate_completed world recording hsettings hvalid
  refine ⟨records, hrun, fun before r after hrecords => ?_⟩
  obtain ⟨city, solution, hbefore, hsolved, hnext⟩ := hrun.chronicle.tick_of hrecords
  refine ⟨city, solution, _, hbefore, hsolved, hnext,
    city.moves_evolve solution.assignment settings.capacity settings.growth,
    fun hnodup f hf => ?_⟩
  refine Scenario.lastListed?_of_nodup ?_ (List.mem_filter.1 hf).1
  rwa [hbefore.later.fire_ids_eq]

/-- No fire of the suburb has the number of another, so in both ticks of the drill the brigades get
to the fires they were given. -/
theorem suburb_brigades_reach_their_fires :
    drill.validate = .ok () ∧ suburb.validate = .ok () ∧ (suburb.fires.map (·.id)).Nodup ∧
    ∃ records, (drill.simulate weekday true suburb).answer = .ok records ∧ records.length = 2 ∧
      ∀ before r after, records = before ++ r :: after → ∃ city solution next,
        drill.Chronicle weekday 1 suburb before city ∧
        (drill.solveTick weekday (1 + before.length) city).answer = .ok solution ∧
        drill.Chronicle weekday 1 suburb (before ++ [r]) next ∧
        List.Forall₂ (city.Moves solution.assignment) city.brigades next.brigades ∧
        ∀ f ∈ city.burning, city.lastListed? f.id = some f := by
  have hnodup : (suburb.fires.map (·.id)).Nodup := by decide
  obtain ⟨told, htold, hlength⟩ := suburb_drill_ends
  obtain ⟨records, hrun, hticks⟩ :=
    brigades_go_to_last_listed_fires drill weekday true drill_valid suburb_valid
  obtain rfl := hrun.eq_of_ok htold
  refine ⟨drill_valid, suburb_valid, hnodup, records, htold, hlength,
    fun before r after hrecords => ?_⟩
  obtain ⟨city, solution, next, hbefore, hsolved, hnext, hmoves, hunique⟩ :=
    hticks before r after hrecords
  exact ⟨city, solution, next, hbefore, hsolved, hnext, hmoves, hunique hnodup⟩

/-- A fire burns in the second area. Another one, in the first, had its number and is out. -/
def rekindled : Scenario Float where
  areas := [⟨.ofNat 1, 0, 0⟩, ⟨.ofNat 2, 300, 400⟩]
  brigades := [⟨.ofNat 1, .ofNat 1⟩]
  fires := [⟨.ofNat 7, .ofNat 2, 3⟩, ⟨.ofNat 7, .ofNat 1, 0⟩]

def fieldDay : World Float :=
  ⟨⟨fun a b => if a = b then 0 else 500, true⟩, Random.toss, fun _ => .still, fun _ => 0⟩

def shortDrill : Settings Float := { Settings.default with ticks := 1 }

/-- The brigade is given the fire that burns in the second area, and stands in the first one when
the tick is over. -/
theorem rekindled_brigade_goes_astray :
    rekindled.validate = .ok () ∧
    rekindled.burning.map (fun f => (f.id, f.area)) = [(.ofNat 7, .ofNat 2)] ∧
    let run := shortDrill.simulate fieldDay false rekindled
    run.answer.toOption.map (fun records => records.map (·.brigades)) =
      some [[⟨.ofNat 1, .ofNat 1, some (.ofNat 7)⟩]] ∧
    run.scenario.brigades = [⟨.ofNat 1, .ofNat 1⟩] := by
  have hplan : (shortDrill.simulate fieldDay false rekindled).answer.toOption.map
      (fun records => records.map (·.brigades)) =
        some [[⟨.ofNat 1, .ofNat 1, some (.ofNat 7)⟩]] := by
    decide +kernel
  have hend : (shortDrill.simulate fieldDay false rekindled).scenario.brigades =
      [⟨.ofNat 1, .ofNat 1⟩] := by
    decide +kernel
  exact ⟨by decide +kernel, by decide +kernel, hplan, hend⟩

end Settings

end Dispatch.City
