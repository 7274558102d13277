/-!
# UTF-8 text

`Utf8.decode` turns bytes into text.  Where that fails, a `Utf8.Fault` says how far the text was
sound and how long the ill-formed sequence after it is: the longest run of bytes that starts like
a sequence, or nothing if the bytes ended inside one that was well-formed so far.
-/

namespace Ebml.Utf8

/-- Where and how bytes stop being UTF-8. -/
structure Fault where
  /-- The length of the longest well-formed beginning. -/
  index : Nat
  /-- The length of the ill-formed sequence after it.  It is absent if the bytes end inside a
  sequence that was well-formed so far. -/
  length : Option Nat
deriving DecidableEq, Repr, Inhabited

/-- The fault in words. -/
def Fault.message (fault : Fault) : String :=
  let index := fault.index
  match fault.length with
  | some length => s!"invalid utf-8 sequence of {length} bytes from index {index}"
  | none => s!"incomplete utf-8 byte sequence from index {index}"

/-- What a lead byte asks of the bytes after it: their number, and the range of the first of
them.  The ranges leave out overlong forms, surrogates and numbers past the last character. -/
def lead? (byte : UInt8) : Option (Nat × UInt8 × UInt8) :=
  if byte < 0x80 then some (0, 0x80, 0xBF)
  else if byte < 0xC2 then none
  else if byte < 0xE0 then some (1, 0x80, 0xBF)
  else if byte = 0xE0 then some (2, 0xA0, 0xBF)
  else if byte = 0xED then some (2, 0x80, 0x9F)
  else if byte < 0xF0 then some (2, 0x80, 0xBF)
  else if byte = 0xF0 then some (3, 0x90, 0xBF)
  else if byte < 0xF4 then some (3, 0x80, 0xBF)
  else if byte = 0xF4 then some (3, 0x80, 0x8F)
  else none

/-- The fault in a sequence at `index` of which `seen` bytes are sound, `count` more are due, and
the next lies between `low` and `high`. -/
def sequenceFault? (index : Nat) (seen : Nat) : Nat → UInt8 → UInt8 → List UInt8 → Option Fault
  | 0, _, _, _ => none
  | _ + 1, _, _, [] => some ⟨index, none⟩
  | count + 1, low, high, byte :: bytes =>
    if low ≤ byte ∧ byte ≤ high then sequenceFault? index (seen + 1) count 0x80 0xBF bytes
    else some ⟨index, some seen⟩

/-- The first fault of bytes that are not UTF-8 and stand at `index` of a longer string. -/
def faultFrom (index : Nat) : List UInt8 → Fault
  | [] => ⟨index, none⟩
  | byte :: bytes =>
    match lead? byte with
    | none => ⟨index, some 1⟩
    | some (count, low, high) =>
      match sequenceFault? index 1 count low high bytes with
      | some fault => fault
      | none => faultFrom (index + 1 + count) (bytes.drop count)
termination_by bytes => bytes.length

/-- The text that the bytes encode, or the first fault. -/
def decode (bytes : List UInt8) : Except Fault String :=
  match String.fromUTF8? ⟨bytes.toArray⟩ with
  | some text => .ok text
  | none => .error (faultFrom 0 bytes)

/-- The bytes of a text. -/
def encode (text : String) : List UInt8 := text.toUTF8.data.toList

end Ebml.Utf8
