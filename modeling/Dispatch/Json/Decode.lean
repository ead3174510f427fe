import Dispatch.Decimal.Layout
import Dispatch.Decimal.Reading
import Dispatch.Json.Value
import Dispatch.Problem
/-!
# Reading and writing fields

How numbers, optional values, tuples, maps, records and variants are told apart in JSON. A record
is an object whose other members are ignored, or an array of its fields in order; a variant is its
name, or an object of one member under that name.
-/

namespace Dispatch.Json

/-! ## Plain values -/

def toBool? : Json → Option Bool
  | bool b => some b
  | _ => none

def toString? : Json → Option String
  | text t => t.content
  | _ => none

/-- A whole number up to a limit. -/
def toNatUpTo? (limit : Nat) : Json → Option Nat
  | number n => n.toNat?.filter (· ≤ limit)
  | _ => none

def toCount? : Json → Option Nat := toNatUpTo? maxCount

def toSeed? (j : Json) : Option UInt64 := j.toCount?.map Nat.toUInt64

def toInt32? : Json → Option Int32
  | number n => (n.toInt?.filter fun k =>
      Int32.minValue.toInt ≤ k ∧ k ≤ Int32.maxValue.toInt).map Int32.ofInt
  | _ => none

def toDouble? : Json → Option Float
  | number n => n.toDouble?
  | _ => none

/-- Values that are not finite are written as null. -/
def ofDouble (x : Float) : Json :=
  match Decimal.json.numeral? x with
  | some n => number n
  | none => null

/-- Null is nothing. -/
def toOption? {β : Type} (read : Json → Option β) : Json → Option (Option β)
  | null => some none
  | j => (read j).map some

def toList? {β : Type} (read : Json → Option β) : Json → Option (List β)
  | array items => items.mapM read
  | _ => none

/-- An array of exactly two. -/
def toPair? {β : Type} (read : Json → Option β) : Json → Option (β × β)
  | array [a, b] => do return (← read a, ← read b)
  | _ => none

/-! ## Records -/

/-- The members under a name. -/
def membersNamed (name : String) (members : List (JsonText × Json)) : List Json :=
  (members.filter fun m => m.1.content = some name).map (·.2)

/-- The member under a name, if there is one; two are refused. -/
def memberNamed? (members : List (JsonText × Json)) (name : String) : Option (Option Json) :=
  match membersNamed name members with
  | [] => some none
  | [j] => some (some j)
  | _ => none

/-- The fields of a record in the order of their names, each absent or present. Every key has to
stand for a string; an array may leave out its last fields. -/
def fields? (names : List String) : Json → Option (List (Option Json))
  | object members =>
    if members.all fun m => m.1.content.isSome then names.mapM (memberNamed? members) else none
  | array items =>
    if items.length ≤ names.length then
      some (items.map some ++ List.replicate (names.length - items.length) none)
    else none
  | _ => none

/-- A field that has to be there. -/
def required {β : Type} (read : Json → Option β) (field : Option Json) : Option β := field.bind read

/-- A field that may be left out. -/
def orElse {β : Type} (fallback : β) (read : Json → Option β) : Option Json → Option β
  | none => some fallback
  | some j => read j

/-! ## Variants -/

/-- The name of a variant and what it holds. -/
def variant? : Json → Option (String × Option Json)
  | text t => t.content.map fun name => (name, none)
  | object [(key, j)] => key.content.map fun name => (name, some j)
  | _ => none

/-- A variant that holds nothing. -/
def unitVariant? : Json → Option String := fun j =>
  match j.variant? with
  | some (name, none) | some (name, some null) => some name
  | _ => none

/-! ## Identifiers and maps -/

def toId? (j : Json) : Option EntityId := (j.toNatUpTo? (UInt32.size - 1)).map EntityId.ofNat

def ofId (id : EntityId) : Json := ofNat id.toNat

/-- A key that is the number of an identifier, in digits and nothing else. -/
def toIdKey? (key : JsonText) : Option EntityId :=
  if key.bare then
    match key.content.bind fun s => Decimal.Numeral.scan s.toList with
    | some (n, []) => (n.toNat?.filter (· < UInt32.size)).map EntityId.ofNat
    | _ => none
  else none

/-- An object whose keys are identifiers; of members with one key the last one counts. -/
def toIdMap? {β : Type} (read : Json → Option β) : Json → Option (SortedMap EntityId β)
  | object members =>
    (members.mapM fun (key, j) => do return (← toIdKey? key, ← read j)).map .ofList
  | _ => none

def ofIdMap {β : Type} (write : β → Json) (m : SortedMap EntityId β) : Json :=
  record (m.toList.map fun e => (toString e.1, write e.2))

end Dispatch.Json
