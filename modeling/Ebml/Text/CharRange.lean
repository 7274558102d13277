/-!
# Ranges of characters

A property of characters is given by the ranges of the characters that have it.
-/

namespace Ebml.Text

/-- The characters from one number to another, both included. -/
structure CharRange where
  /-- The number of the first character. -/
  first : Nat
  /-- The number of the last character. -/
  last : Nat

/-- Whether a character lies in the range. -/
def CharRange.contains (range : CharRange) (c : Char) : Bool :=
  range.first ≤ c.toNat && c.toNat ≤ range.last

end Ebml.Text
