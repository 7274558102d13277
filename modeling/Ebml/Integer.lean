import Ebml.Bytes.BigEndian
import Ebml.Bytes.Buffer
import Ebml.Stream.Reader

/-!
# Integer bodies

The body of an integer element is a big-endian number of up to eight octets, and its length is the
size of the element.  Signed numbers are in two's complement.  A number is written in the fewest
octets, at least one, and read from any number of them: no octets stand for zero.
-/

namespace Ebml.Integer

/-- The most octets of an integer. -/
def maxLength : Nat := 8

/-- The failure of a body that is too long. -/
def tooLong : Error := .valueOutOfRange "integers cannot be larger than 8 octets"

/-! ## Unsigned numbers -/

/-- The fewest octets of an unsigned number. -/
def unsignedSize (value : UInt64) : Nat := max 1 (byteLength value.toNat)

/-- The octets of an unsigned number. -/
def encodeUnsigned (value : UInt64) : List UInt8 :=
  BigEndian.encode (unsignedSize value) value.toNat

/-- The unsigned number of some octets. -/
def ofOctetsUnsigned (octets : List UInt8) : UInt64 := UInt64.ofNat (BigEndian.decode octets)

/-- The unsigned number that is a whole body. -/
def decodeUnsigned (octets : List UInt8) : Except Error UInt64 :=
  if octets.length ≤ maxLength then .ok (ofOctetsUnsigned octets) else .error tooLong

/-- Writes an unsigned number. -/
def writeUnsigned (value : UInt64) : Writer Nat := Writer.emitCounted (encodeUnsigned value)

/-- Reads an unsigned number of `length` octets. -/
def readUnsigned (length : Nat) : Reader UInt64 := do
  if length > maxLength then throw tooLong
  return ofOctetsUnsigned (← Reader.take length)

/-! ## Signed numbers -/

/-- What the bits of a signed number hold beside its sign: the number, or its complement if it is
negative. -/
def significand : Int → Nat
  | .ofNat n => n
  | .negSucc n => n

/-- The fewest octets of a signed number, with one bit more than the significand for the sign. -/
def signedSize (value : Int64) : Nat := max 1 (byteLength (2 * significand value.toInt))

/-- The octets of a signed number. -/
def encodeSigned (value : Int64) : List UInt8 :=
  let size := signedSize value
  BigEndian.encode size (value.toInt % 256 ^ size).toNat

/-- The signed number of some octets. -/
def ofOctetsSigned (octets : List UInt8) : Int64 :=
  Int64.ofInt ((BigEndian.decode octets : Int).bmod (256 ^ octets.length))

/-- The signed number that is a whole body. -/
def decodeSigned (octets : List UInt8) : Except Error Int64 :=
  if octets.length ≤ maxLength then .ok (ofOctetsSigned octets) else .error tooLong

/-- Writes a signed number. -/
def writeSigned (value : Int64) : Writer Nat := Writer.emitCounted (encodeSigned value)

/-- Reads a signed number of `length` octets. -/
def readSigned (length : Nat) : Reader Int64 := do
  if length > maxLength then throw tooLong
  return ofOctetsSigned (← Reader.take length)

/-! ## Into buffers -/

/-- The buffer with an unsigned number at its start, and the octets that it took. -/
def encodeUnsignedInto (value : UInt64) (buffer : List UInt8) :
    Except Error (List UInt8 × Nat) :=
  Buffer.store (encodeUnsigned value) buffer

/-- The buffer with a signed number at its start, and the octets that it took. -/
def encodeSignedInto (value : Int64) (buffer : List UInt8) : Except Error (List UInt8 × Nat) :=
  Buffer.store (encodeSigned value) buffer

end Ebml.Integer
