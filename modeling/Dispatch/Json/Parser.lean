import Dispatch.Json.Value
/-!
# Reading JSON texts

The grammar is strict: no comments, no trailing commas, no leading zeros, and no control
characters in texts. `Json.parse` accepts exactly one value with blanks around it.
-/

namespace Dispatch.Json

/-! ## Blanks and words -/

def isBlank (c : Char) : Bool := c = ' ' || c = '\t' || c = '\n' || c = '\r'

def skipBlanks (cs : List Char) : List Char := cs.dropWhile isBlank

/-- The rest after a word. -/
def expect (word : List Char) (cs : List Char) : Option (List Char) :=
  if word.isPrefixOf cs then some (cs.drop word.length) else none

/-! ## Texts -/

def hexValue? (c : Char) : Option Nat :=
  if '0' ≤ c ∧ c ≤ '9' then some (c.toNat - '0'.toNat)
  else if 'a' ≤ c ∧ c ≤ 'f' then some (c.toNat - 'a'.toNat + 10)
  else if 'A' ≤ c ∧ c ≤ 'F' then some (c.toNat - 'A'.toNat + 10)
  else none

/-- Four hexadecimal digits. -/
def scanUnit : List Char → Option (Nat × List Char)
  | a :: b :: c :: d :: rest => do
    let a ← hexValue? a
    let b ← hexValue? b
    let c ← hexValue? c
    let d ← hexValue? d
    return (((a * 16 + b) * 16 + c) * 16 + d, rest)
  | _ => none

def isHighSurrogate (n : Nat) : Bool := 0xD800 ≤ n && n < 0xDC00

def isLowSurrogate (n : Nat) : Bool := 0xDC00 ≤ n && n < 0xE000

/-- The character that a surrogate pair stands for. -/
def joinSurrogates (high low : Nat) : Char :=
  Char.ofNat (0x10000 + (high - 0xD800) * 0x400 + (low - 0xDC00))

/-- The character of a one-letter escape. -/
def escapeChar? : Char → Option Char
  | '"' => some '"'
  | '\\' => some '\\'
  | '/' => some '/'
  | 'b' => some '\x08'
  | 'f' => some '\x0c'
  | 'n' => some '\n'
  | 'r' => some '\r'
  | 't' => some '\t'
  | _ => none

/-- What has been read of a text: its characters backwards, whether they stand for a string, and
whether none was escaped. -/
structure TextState where
  chars : List Char
  sound : Bool
  bare : Bool

namespace TextState

def push (s : TextState) (c : Char) : TextState := { s with chars := c :: s.chars }

def pushEscaped (s : TextState) (c : Char) : TextState := ⟨c :: s.chars, s.sound, false⟩

def spoil (s : TextState) : TextState := ⟨s.chars, false, false⟩

def finish (s : TextState) : JsonText :=
  ⟨if s.sound then some (String.ofList s.chars.reverse) else none, s.bare⟩

end TextState

/-- The escape after `\u`: a character, or half a surrogate pair with its other half. -/
def scanUnicode (cs : List Char) : Option (Option Char × List Char) :=
  match scanUnit cs with
  | none => none
  | some (n, rest) =>
    if isHighSurrogate n then
      match rest with
      | '\\' :: 'u' :: more =>
        match scanUnit more with
        | none => none
        | some (k, after) =>
          if isLowSurrogate k then some (some (joinSurrogates n k), after) else some (none, rest)
      | _ => some (none, rest)
    else if isLowSurrogate n then some (none, rest)
    else some (some (Char.ofNat n), rest)

/-- Reads the rest of a text up to its closing quote; `fuel` bounds its characters. -/
def scanText : (fuel : Nat) → TextState → List Char → Option (JsonText × List Char)
  | 0, _, _ => none
  | fuel + 1, s, cs =>
    match cs with
    | [] => none
    | '"' :: rest => some (s.finish, rest)
    | '\\' :: 'u' :: rest =>
      match scanUnicode rest with
      | none => none
      | some (some c, rest) => scanText fuel (s.pushEscaped c) rest
      | some (none, rest) => scanText fuel s.spoil rest
    | '\\' :: c :: rest =>
      match escapeChar? c with
      | some c => scanText fuel (s.pushEscaped c) rest
      | none => none
    | c :: rest => if c.toNat < 0x20 ∨ c = '\\' then none else scanText fuel (s.push c) rest

/-- The text after an opening quote. -/
def scanQuoted (cs : List Char) : Option (JsonText × List Char) :=
  scanText (cs.length + 1) ⟨[], true, true⟩ cs

/-! ## Values -/

mutual

/-- Reads a value off the front; `fuel` bounds the values and commas ahead. -/
def scanValue : (fuel : Nat) → List Char → Option (Json × List Char)
  | 0, _ => none
  | fuel + 1, cs =>
    match skipBlanks cs with
    | [] => none
    | '"' :: rest => (scanQuoted rest).map fun (t, rest) => (.text t, rest)
    | '[' :: rest =>
      match skipBlanks rest with
      | ']' :: rest => some (.array [], rest)
      | _ => (scanItems fuel rest).map fun (items, rest) => (.array items, rest)
    | '{' :: rest =>
      match skipBlanks rest with
      | '}' :: rest => some (.object [], rest)
      | _ => (scanMembers fuel rest).map fun (members, rest) => (.object members, rest)
    | c :: rest =>
      if c = 't' then (expect ['r', 'u', 'e'] rest).map fun rest => (.bool true, rest)
      else if c = 'f' then (expect ['a', 'l', 's', 'e'] rest).map fun rest => (.bool false, rest)
      else if c = 'n' then (expect ['u', 'l', 'l'] rest).map fun rest => (.null, rest)
      else (Decimal.Numeral.scan (c :: rest)).map fun (n, rest) => (.number n, rest)

/-- Reads the items of an array up to its bracket. -/
def scanItems : (fuel : Nat) → List Char → Option (List Json × List Char)
  | 0, _ => none
  | fuel + 1, cs =>
    match scanValue fuel cs with
    | none => none
    | some (item, rest) =>
      match skipBlanks rest with
      | ',' :: rest => (scanItems fuel rest).map fun (items, rest) => (item :: items, rest)
      | ']' :: rest => some ([item], rest)
      | _ => none

/-- Reads the members of an object up to its brace. -/
def scanMembers : (fuel : Nat) → List Char → Option (List (JsonText × Json) × List Char)
  | 0, _ => none
  | fuel + 1, cs =>
    match skipBlanks cs with
    | '"' :: rest =>
      match scanQuoted rest with
      | none => none
      | some (key, rest) =>
        match skipBlanks rest with
        | ':' :: rest =>
          match scanValue fuel rest with
          | none => none
          | some (item, rest) =>
            match skipBlanks rest with
            | ',' :: rest =>
              (scanMembers fuel rest).map fun (members, rest) => ((key, item) :: members, rest)
            | '}' :: rest => some ([(key, item)], rest)
            | _ => none
        | _ => none
    | _ => none

end

/-- Reads a text that holds one value. Every value and every comma takes a character, so the fuel
never runs out. -/
def parse (text : String) : Option Json :=
  let cs := text.toList
  match scanValue (2 * cs.length + 2) cs with
  | some (value, rest) => if (skipBlanks rest).isEmpty then some value else none
  | none => none

end Dispatch.Json
