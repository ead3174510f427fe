import Dispatch.Json.Value
/-!
# Writing JSON texts

Three forms: compact without blanks, the same with the members of every object sorted by key, and
one element per line with an indent of two.
-/

namespace Dispatch.Json

/-! ## Texts -/

def hexDigit (n : Nat) : Char := Nat.digitChar n

/-- Quotes, backslashes and control characters are escaped, everything else stands for itself. -/
def escape (c : Char) : List Char :=
  if c = '"' then ['\\', '"']
  else if c = '\\' then ['\\', '\\']
  else if c = '\x08' then ['\\', 'b']
  else if c = '\x0c' then ['\\', 'f']
  else if c = '\n' then ['\\', 'n']
  else if c = '\r' then ['\\', 'r']
  else if c = '\t' then ['\\', 't']
  else if c.toNat < 0x20 then
    ['\\', 'u', '0', '0', hexDigit (c.toNat / 16), hexDigit (c.toNat % 16)]
  else [c]

def quote (s : String) : String := "\"" ++ String.ofList (s.toList.flatMap escape) ++ "\""

def textString (t : JsonText) : String := t.content.getD ""

/-! ## Compact form -/

mutual

def compact : Json → String
  | null => "null"
  | bool true => "true"
  | bool false => "false"
  | number n => n.text
  | text t => quote (textString t)
  | array items => "[" ++ ",".intercalate (compactItems items) ++ "]"
  | object members => "\x7b" ++ ",".intercalate (compactMembers members) ++ "\x7d"

def compactItems : List Json → List String
  | [] => []
  | item :: rest => compact item :: compactItems rest

def compactMembers : List (JsonText × Json) → List String
  | [] => []
  | (key, item) :: rest => (quote (textString key) ++ ":" ++ compact item) :: compactMembers rest

end

/-! ## Sorted members -/

/-- Puts a member before the first one with a larger key. -/
def insertMember (m : JsonText × Json) : List (JsonText × Json) → List (JsonText × Json)
  | [] => [m]
  | n :: rest =>
    if textString n.1 < textString m.1 then n :: insertMember m rest else m :: n :: rest

mutual

/-- The value with the members of every object in ascending order of their keys. -/
def sorted : Json → Json
  | array items => array (sortedItems items)
  | object members => object (sortedMembers members)
  | other => other

def sortedItems : List Json → List Json
  | [] => []
  | item :: rest => sorted item :: sortedItems rest

def sortedMembers : List (JsonText × Json) → List (JsonText × Json)
  | [] => []
  | (key, item) :: rest => insertMember (key, sorted item) (sortedMembers rest)

end

/-! ## One element per line -/

def newline (depth : Nat) : String := "\n" ++ String.ofList (List.replicate (2 * depth) ' ')

/-- Puts every element on its own line, one step deeper than the brackets. -/
def block (opening closing : String) (depth : Nat) (elements : List String) : String :=
  if elements.isEmpty then opening ++ closing
  else opening ++ newline (depth + 1) ++ ("," ++ newline (depth + 1)).intercalate elements ++
    newline depth ++ closing

mutual

def prettyAt (depth : Nat) : Json → String
  | array items => block "[" "]" depth (prettyItems (depth + 1) items)
  | object members => block "\x7b" "\x7d" depth (prettyMembers (depth + 1) members)
  | other => compact other

def prettyItems (depth : Nat) : List Json → List String
  | [] => []
  | item :: rest => prettyAt depth item :: prettyItems depth rest

def prettyMembers (depth : Nat) : List (JsonText × Json) → List String
  | [] => []
  | (key, item) :: rest =>
    (quote (textString key) ++ ": " ++ prettyAt depth item) :: prettyMembers depth rest

end

/-- One element per line, without a newline at the end. -/
def pretty (j : Json) : String := prettyAt 0 j

end Dispatch.Json
