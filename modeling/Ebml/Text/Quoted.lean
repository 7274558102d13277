import Ebml.Text.Extender
import Ebml.Text.Ignorable
import Ebml.Text.Unprintable

/-!
# Quoted text

A text between quotes is written so that every character of it can be told: a quote and a backslash
are escaped, the usual controls have a letter, and every other character that would not show by
itself is given by its number.
-/

namespace Ebml.Text

/-- Whether a character would not show by itself. -/
def isHidden (c : Char) : Bool := isAttached c || isIgnorable c || isUnprintable c

/-- The number of a character between braces. -/
def quoteNumber (c : Char) : String :=
  "\\u\x7b" ++ String.ofList (Nat.toDigits 16 c.toNat) ++ "\x7d"

/-- A character as it is written between quotes. -/
def quoteChar (c : Char) : String :=
  if c = '"' then "\\\""
  else if c = '\\' then "\\\\"
  else if c = '\n' then "\\n"
  else if c = '\r' then "\\r"
  else if c = '\t' then "\\t"
  else if c = '\x00' then "\\0"
  else if isHidden c then quoteNumber c
  else c.toString

/-- A text between quotes. -/
def quote (text : String) : String :=
  "\"" ++ String.join (text.toList.map quoteChar) ++ "\""

end Ebml.Text
