import Dispatch.Assignment
import Dispatch.Json.Decode
/-!
# JSON forms of problems

What assignments, problems and oracles look like in JSON.
-/

namespace Dispatch

open Json

namespace Assignment

def ofJson? (j : Json) : Option Assignment := do
  match ← j.fields? ["assignments"] with
  | [targets] => return ⟨← required (toIdMap? toId?) targets⟩
  | _ => none

def toJson (x : Assignment) : Json := record [("assignments", ofIdMap ofId x.targets)]

end Assignment

namespace Instance

def ofJson? (j : Json) : Option Instance := do
  match ← j.fields? ["agents", "targets", "agent_locations"] with
  | [agents, targets, locations] =>
    return ⟨← required (toList? toId?) agents, ← required (toList? toId?) targets,
      ← orElse .empty (toIdMap? toId?) locations⟩
  | _ => none

def toJson (inst : Instance) : Json :=
  record [("agents", array (inst.agents.map ofId)), ("targets", array (inst.targets.map ofId)),
    ("agent_locations", ofIdMap ofId inst.locations)]

end Instance

namespace UtilityTable

/-- Pairs cannot be keys in JSON, so only a table without utilities has a JSON form. -/
def ofJson? (j : Json) : Option (UtilityTable Float) := do
  match ← j.fields? ["utilities", "required", "default_required"] with
  | [some (object []), needs, fallback] =>
    return ⟨.empty, ← required (toIdMap? toCount?) needs, ← required toCount? fallback⟩
  | _ => none

def toJson? (t : UtilityTable Float) : Option Json :=
  if t.utilities.toList.isEmpty then
    some (record [("utilities", record []), ("required", ofIdMap ofNat t.needs),
      ("default_required", ofNat t.defaultNeed)])
  else none

end UtilityTable

end Dispatch
