import Dispatch.Json.Decode
import Dispatch.Message
/-!
# JSON forms of messages

What nodes, payloads and messages look like in JSON. Reading gives nothing where a text does not
have the form.
-/

namespace Dispatch

open Json

def Node.ofJson? (j : Json) : Option Node := do
  match ← j.variant? with
  | ("Variable", some id) => return .ofAgent (← id.toId?)
  | ("Function", some id) => return .ofTarget (← id.toId?)
  | _ => none

def Node.toJson : Node → Json
  | .ofAgent id => record [("Variable", ofId id)]
  | .ofTarget id => record [("Function", ofId id)]

namespace Payload

def factorOfJson? (j : Json) : Option (Payload Float) := do
  match ← j.fields? ["from", "to", "value"] with
  | [source, dest, v] =>
    return .factor ⟨← required Node.ofJson? source, ← required Node.ofJson? dest⟩
      (← required toDouble? v)
  | _ => none

def ofJson? (j : Json) : Option (Payload Float) := do
  match ← j.variant? with
  | ("Value", some v) => return .value (← v.toDouble?)
  | ("Assignment", some target) => return .choice (← target.toOption? toId?)
  | ("Factor", some content) => factorOfJson? content
  | _ => none

def toJson : Payload Float → Json
  | value v => record [("Value", ofDouble v)]
  | choice target => record [("Assignment", ofOption ofId target)]
  | factor edge v => record [("Factor", record
      [("from", edge.source.toJson), ("to", edge.dest.toJson), ("value", ofDouble v)])]

end Payload

namespace Message

def ofJson? (j : Json) : Option (Message Float) := do
  match ← j.fields? ["sender", "recipient", "payload"] with
  | [sender, recipient, payload] =>
    return ⟨← required toId? sender, ← required toId? recipient, ← required Payload.ofJson? payload⟩
  | _ => none

def toJson (m : Message Float) : Json :=
  record [("sender", ofId m.sender), ("recipient", ofId m.recipient), ("payload", m.payload.toJson)]

end Message

end Dispatch
