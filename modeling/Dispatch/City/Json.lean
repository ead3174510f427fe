import Dispatch.City.Report
import Dispatch.Json.Printer
import Dispatch.Json.Settings
import Dispatch.Json.Stats
/-!
# JSON forms of simulations

What scenarios, settings of simulations and reports look like in JSON.
-/

namespace Dispatch.City

open Json

/-! ## Scenarios -/

namespace Area

def ofJson? (j : Json) : Option Area := do
  match ← j.fields? ["id", "x", "y"] with
  | [id, x, y] => return ⟨← required toId? id, ← required toInt32? x, ← required toInt32? y⟩
  | _ => none

def toJson (a : Area) : Json :=
  record [("id", ofId a.id), ("x", ofInt a.x.toInt), ("y", ofInt a.y.toInt)]

end Area

namespace Brigade

def ofJson? (j : Json) : Option Brigade := do
  match ← j.fields? ["id", "area"] with
  | [id, area] => return ⟨← required toId? id, ← required toId? area⟩
  | _ => none

def toJson (b : Brigade) : Json := record [("id", ofId b.id), ("area", ofId b.area)]

end Brigade

namespace Fire

def ofJson? (j : Json) : Option (Fire Float) := do
  match ← j.fields? ["id", "area", "intensity"] with
  | [id, area, intensity] =>
    return ⟨← required toId? id, ← required toId? area, ← required toDouble? intensity⟩
  | _ => none

def toJson (f : Fire Float) : Json :=
  record [("id", ofId f.id), ("area", ofId f.area), ("intensity", ofDouble f.intensity)]

end Fire

namespace Scenario

def ofJson? (j : Json) : Option (Scenario Float) := do
  match ← j.fields? ["areas", "brigades", "fires"] with
  | [areas, brigades, fires] =>
    return ⟨← required (toList? Area.ofJson?) areas, ← required (toList? Brigade.ofJson?) brigades,
      ← required (toList? Fire.ofJson?) fires⟩
  | _ => none

def toJson (s : Scenario Float) : Json :=
  record [("areas", array (s.areas.map Area.toJson)),
    ("brigades", array (s.brigades.map Brigade.toJson)), ("fires", array (s.fires.map Fire.toJson))]

/-- The text of a scenario file. -/
def fileText (s : Scenario Float) : String := s.toJson.pretty

end Scenario

/-! ## Settings -/

namespace Source

def name : Source → String
  | random => "random"
  | file => "file"

def ofJson? (j : Json) : Option Source :=
  j.unitVariant?.bind fun name => [random, file].find? fun s => s.name = name

def toJson (s : Source) : Json := ofString s.name

end Source

namespace Generation

def ofJson? (j : Json) : Option (Generation Float) := do
  match ← j.fields? ["areas", "brigades", "fires", "extent", "intensity_range", "seed"] with
  | [areas, brigades, fires, extent, range, seed] =>
    let d : Generation Float := default
    return ⟨← orElse d.areas toCount? areas, ← orElse d.brigades toCount? brigades,
      ← orElse d.fires toCount? fires, ← orElse none (toOption? (toPair? toInt32?)) extent,
      ← orElse none (toOption? (toPair? toDouble?)) range, ← orElse none (toOption? toSeed?) seed⟩
  | _ => none

def toJson (g : Generation Float) : Json :=
  record [("areas", ofNat g.areas), ("brigades", ofNat g.brigades), ("fires", ofNat g.fires),
    ("extent", ofOption (fun r => array [ofInt r.1.toInt, ofInt r.2.toInt]) g.extent),
    ("intensity_range", ofOption (fun r => array [ofDouble r.1, ofDouble r.2]) g.intensityRange),
    ("seed", ofOption (fun s => ofNat s.toNat) g.seed)]

end Generation

namespace Settings

def fieldNames : List String :=
  ["ticks", "capacity", "growth", "source", "scenario_path", "generation", "solver"]

/-- Fields that are left out have their default. -/
def ofJson? (j : Json) : Option (Settings Float) := do
  match ← j.fields? fieldNames with
  | [ticks, capacity, growth, source, path, generation, solver] =>
    let d : Settings Float := default
    return ⟨← orElse d.ticks toCount? ticks, ← orElse d.capacity toDouble? capacity,
      ← orElse d.growth toDouble? growth, ← orElse d.source Source.ofJson? source,
      ← orElse none (toOption? toString?) path,
      ← orElse d.generation Generation.ofJson? generation,
      ← orElse d.solver (Solver.Settings.ofJson? 1) solver⟩
  | _ => none

def toJson (settings : Settings Float) : Json :=
  record [("ticks", ofNat settings.ticks), ("capacity", ofDouble settings.capacity),
    ("growth", ofDouble settings.growth), ("source", settings.source.toJson),
    ("scenario_path", ofOption ofString settings.scenarioPath),
    ("generation", settings.generation.toJson), ("solver", settings.solver.toJson)]

end Settings

/-! ## Reports -/

def BrigadeRecord.toJson (b : BrigadeRecord) : Json :=
  record [("brigade_id", ofId b.brigade), ("area_id", ofId b.area),
    ("fire_id", ofOption ofId b.fire)]

def TickRecord.toJson (t : TickRecord Float) : Json :=
  record [("tick", ofNat t.tick), ("burning_fires", ofNat t.burningFires),
    ("total_intensity", ofDouble t.burningIntensity), ("solve_ms", ofDouble t.solveMs),
    ("brigades", array (t.brigades.map BrigadeRecord.toJson)), ("stats", t.stats.toJson)]

def FinalFire.toJson (f : FinalFire Float) : Json :=
  record [("fire_id", ofId f.fire), ("intensity", ofDouble f.intensity)]

def Report.toJson (r : Report Float) : Json :=
  record [("ticks", array (r.ticks.map TickRecord.toJson)),
    ("final_fires", array (r.finalFires.map FinalFire.toJson)),
    ("extinguished", bool r.extinguished), ("total_duration_ms", ofDouble r.totalDurationMs),
    ("time_per_tick_ms", ofDouble r.timePerTickMs), ("brigade_count", ofNat r.brigadeCount),
    ("fire_count", ofNat r.fireCount)]

end Dispatch.City
