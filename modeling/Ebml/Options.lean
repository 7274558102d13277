import Ebml.Error

/-!
# Options

How strictly a cluster is read, how much memory a body may take, and how wide the space for a size
is that is written before the size is known.
-/

namespace Ebml

/-- How strictly a cluster is read. -/
inductive ParsingMode where
  /-- Nothing is skipped before the blocks. -/
  | strict
  /-- Padding and checksums are skipped. -/
  | bestAttempt
  /-- Everything that is not known is skipped. -/
  | relaxed
deriving DecidableEq, Repr

/-- The mode of a reader that asks for none. -/
instance : Inhabited ParsingMode := ⟨.bestAttempt⟩

/-- The allocation limit that holds until another is set: 16 MiB. -/
def defaultAllocationLimit : Nat := 16 * 1024 * 1024

/-- The number of octets that a size is written in before it is known. -/
structure PlaceholderLength where
  /-- The number of octets. -/
  octets : Nat
  /-- A variable-length integer takes one to eight octets. -/
  inRange : 1 ≤ octets ∧ octets ≤ 8
deriving DecidableEq

namespace PlaceholderLength

/-- Room for every size. -/
instance : Inhabited PlaceholderLength := ⟨⟨8, by decide⟩⟩

/-- A placeholder of a given number of octets. -/
def ofOctets (octets : Nat) : Except Error PlaceholderLength :=
  if inRange : 1 ≤ octets ∧ octets ≤ 8 then .ok ⟨octets, inRange⟩
  else .error (.valueOutOfRange "size placeholders must be between 1 and 8 octets")

end PlaceholderLength

end Ebml
