import Dispatch.Text.Extending
import Dispatch.Text.Unprintable
/-!
# Quoted texts

A text between double quotes, in which every character is either shown as it is or escaped. Escaped
are the quote and the backslash, and what a reader could not make out: characters without a shape,
characters that extend the one before, and fillers.
-/

namespace Dispatch.Text

/-- A letter that is there to be left out of sight: one of the four fillers of the Hangul script. -/
def isFiller (c : Char) : Bool := [0x115F, 0x1160, 0x3164, 0xFFA0].contains c.toNat

/-- The escape of a character by its code point, in hexadecimal digits. -/
def codePointEscape (c : Char) : String :=
  "\\u\x7b" ++ String.ofList (Nat.toDigits 16 c.toNat) ++ "\x7d"

/-- The character as it stands in a quoted text. -/
def quotedChar (c : Char) : String :=
  if c = '"' then "\\\""
  else if c = '\\' then "\\\\"
  else if c = '\t' then "\\t"
  else if c = '\n' then "\\n"
  else if c = '\r' then "\\r"
  else if c = '\x00' then "\\0"
  else if isUnprintable c || isExtending c || isFiller c then codePointEscape c
  else c.toString

/-- The text between quotes. -/
def quoted (text : String) : String := "\"" ++ String.join (text.toList.map quotedChar) ++ "\""

end Dispatch.Text
