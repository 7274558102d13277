import Ebml.ElementId
import Ebml.VarInt

/-!
# Coded element IDs

An ID is written as it is listed, since its marker bit is part of the number.  The octets of an ID
are those of a variable-length integer, so it is read like one and then checked.
-/

namespace Ebml.ElementId

/-- The octets of the ID. -/
def encode (id : ElementId) : List UInt8 := BigEndian.encode id.size id.value

/-- The buffer with the ID of a given number at its start, and the octets that it took. -/
def encodeInto (value : Nat) (buffer : List UInt8) : Except Error (List UInt8 × Nat) := do
  Buffer.store (encode (← verify value)) buffer

/-- The ID at the start of a buffer, and the octets that it took. -/
def decode : List UInt8 → Except Error (ElementId × Nat)
  | [] => .error (.bufferTooSmall 1 0)
  | first :: rest =>
    if first = 0 then .error (.invalidEbmlId 0)
    else do
      let (payload, length) ← VarInt.decode (first :: rest)
      return (← verify (payload + 128 ^ length), length)

/-- Writes the ID. -/
def write (id : ElementId) : Writer Nat := Writer.emitCounted id.encode

/-- Reads an ID, which takes as many octets as it has. -/
def read : Reader ElementId := do
  let first ← Reader.next
  if first = 0 then throw (.invalidEbmlId 0)
  let (value, _) ← VarInt.readRest first
  Reader.ofExcept (verify value)

end Ebml.ElementId
