import Ebml.Bytes.BigEndian
import Ebml.Bytes.Buffer
import Ebml.Stream.Reader

/-!
# Variable-length integers

A variable-length integer takes one to eight octets.  The leading zeros of the first octet count
the octets after it, a marker bit follows them, and the other bits, seven for each octet, are the
payload.  A value may be stored in more octets than it needs.

The payload of eight octets that is all ones is reserved, so `VarInt.max` is one less.  A reader
meets it as a value like any other, and a writer never writes it.
-/

namespace Ebml.VarInt

/-- The most octets that an integer may take. -/
def maxLength : Nat := 8

/-- The largest value that can be stored. -/
def max : Nat := 128 ^ maxLength - 2

/-- The fewest octets whose payload has room for the value.  No bound is set on the value, and a
value past `max` may need more than `maxLength`. -/
def octetLength (value : Nat) : Nat := value.log2 / 7 + 1

/-- The number of octets that the value is stored in. -/
def size (value : Nat) : Except Error Nat :=
  if value > max then .error (.varIntTooBig value) else .ok (octetLength value)

/-- The value in exactly `length` octets: the marker is the bit above the payload. -/
def encodeSized (value length : Nat) : Except Error (List UInt8) :=
  if 1 ≤ length ∧ length ≤ maxLength ∧ octetLength value ≤ length ∧ value ≤ max then
    .ok (BigEndian.encode length (value + 128 ^ length))
  else .error (.varIntTooBig value)

/-- The value in as few octets as possible. -/
def encode (value : Nat) : Except Error (List UInt8) := do
  encodeSized value (← size value)

/-- The buffer with the value at its start, and the octets that it took. -/
def encodeInto (value : Nat) (buffer : List UInt8) : Except Error (List UInt8 × Nat) := do
  Buffer.store (← encode value) buffer

/-- The number of octets that a first octet announces.  A first octet of zero has no marker. -/
def lengthOf (first : UInt8) : Except Error Nat :=
  if first = 0 then .error .invalidVarInt else .ok (maxLength - first.toNat.log2)

/-- The octet without its highest bit. -/
def clearMarker (first : UInt8) : UInt8 := UInt8.ofNat (first.toNat - 2 ^ first.toNat.log2)

/-- The value at the start of a buffer, and the octets that it took. -/
def decode : List UInt8 → Except Error (Nat × Nat)
  | [] => .error (.bufferTooSmall 1 0)
  | first :: rest => do
    let length ← lengthOf first
    if rest.length + 1 < length then .error (.bufferTooSmall length (rest.length + 1))
    else .ok (BigEndian.decode (clearMarker first :: rest.take (length - 1)), length)

/-! ## On streams -/

/-- Writes the value in exactly `length` octets. -/
def writeSized (value length : Nat) : Writer Nat := do
  Writer.emitCounted (← Writer.ofExcept (encodeSized value length))

/-- Writes the value in as few octets as possible. -/
def write (value : Nat) : Writer Nat := do
  writeSized value (← Writer.ofExcept (size value))

/-- Reads the octets after a first one.  The value keeps the marker bit. -/
def readRest (first : UInt8) : Reader (Nat × Nat) := do
  let length ← Reader.ofExcept (lengthOf first)
  let rest ← Reader.take (length - 1)
  return (BigEndian.decode (first :: rest), length)

/-- Reads a value, and the octets that it took. -/
def read : Reader (Nat × Nat) := do
  let (marked, length) ← readRest (← Reader.next)
  return (marked % 128 ^ length, length)

end Ebml.VarInt
