import Ebml.Bytes.Double
import Ebml.ElementId
import Ebml.Integer

/-!
# Values of primitive elements

A primitive element holds a number, a text, a date or bytes.  The kind of value is fixed for an
element, and tells how a body is read.
-/

namespace Ebml

/-- What a primitive element holds. -/
inductive Value where
  /-- A signed number. -/
  | int (value : Int64)
  /-- An unsigned number. -/
  | uint (value : UInt64)
  /-- A floating-point number.  It is written in eight octets, and read from none, four or
  eight. -/
  | float (value : Double)
  /-- A text. -/
  | string (value : String)
  /-- Nanoseconds since the beginning of 2001, in universal time. -/
  | date (value : Int64)
  /-- Bytes. -/
  | binary (value : List UInt8)
deriving Repr, Inhabited

namespace Value

/-- The kinds of values. -/
inductive Kind where
  | int
  | uint
  | float
  | string
  | date
  | binary
deriving DecidableEq, Repr, Inhabited

/-- The kind of a value. -/
def kind : Value → Kind
  | int _ => .int
  | uint _ => .uint
  | float _ => .float
  | string _ => .string
  | date _ => .date
  | binary _ => .binary

/-- The empty or zero value of a kind. -/
def Kind.zero : Kind → Value
  | int => .int 0
  | uint => .uint 0
  | float => .float .zero
  | string => .string ""
  | date => .date 0
  | binary => .binary []

/-- The signed number that the value is. -/
def int? : Value → Option Int64
  | int value => some value
  | _ => none

/-- The unsigned number that the value is. -/
def uint? : Value → Option UInt64
  | uint value => some value
  | _ => none

/-- The floating-point number that the value is. -/
def float? : Value → Option Double
  | float value => some value
  | _ => none

/-- The text that the value is. -/
def string? : Value → Option String
  | string value => some value
  | _ => none

/-- The date that the value is. -/
def date? : Value → Option Int64
  | date value => some value
  | _ => none

/-- The bytes that the value is. -/
def binary? : Value → Option (List UInt8)
  | binary value => some value
  | _ => none

/-- Equality of values.  Floating-point numbers are compared as numbers. -/
instance : BEq Value where
  beq
    | int x, int y => x == y
    | uint x, uint y => x == y
    | float x, float y => x == y
    | string x, string y => x == y
    | date x, date y => x == y
    | binary x, binary y => x == y
    | _, _ => false

/-- Whether two values are of one kind. -/
def sameKind (x y : Value) : Bool := x.kind = y.kind

/-- The size of a body that holds the value. -/
def bodySize : Value → Nat
  | int value | date value => Integer.signedSize value
  | uint value => Integer.unsignedSize value
  | float _ => 8
  | string value => value.utf8ByteSize
  | binary value => value.length

/-- Writes the value as a body. -/
def write : Value → Writer Nat
  | int value | date value => Integer.writeSigned value
  | uint value => Integer.writeUnsigned value
  | float value => Writer.emitCounted (BigEndian.encode 8 value.bits.toNat)
  | string value => Writer.emitCounted (Utf8.encode value)
  | binary value => Writer.emitCounted value

/-- Bytes without the zeros at their end, which may fill up the body of a string. -/
def stripPadding (bytes : List UInt8) : List UInt8 :=
  (bytes.reverse.dropWhile (· = 0)).reverse

/-- Reads a number whose body may have at most eight octets. -/
def readNumber {α : Type} (id : ElementId) (size : Nat) (number : Nat → Reader α) : Reader α := do
  if size > Integer.maxLength then throw (.badBodySize id.value size 0)
  number size

/-- Reads a floating-point number. -/
def readFloat (id : ElementId) (size : Nat) : Reader Double :=
  match size with
  | 0 => return .zero
  | 4 => return .ofSingle (UInt32.ofNat (BigEndian.decode (← Reader.take 4)))
  | 8 => return ⟨UInt64.ofNat (BigEndian.decode (← Reader.take 8))⟩
  | _ => throw (.badBodySize id.value size 0)

/-- Reads a text. -/
def readText (size : Nat) : Reader String := do
  match Utf8.decode (stripPadding (← Reader.body size)) with
  | .ok text => return text
  | .error fault => throw (.stringFromUtf8 fault)

/-- Reads a value of a kind from a body of `size` bytes of the element `id`. -/
def read (kind : Kind) (id : ElementId) (size : Nat) : Reader Value :=
  match kind with
  | .int => return .int (← readNumber id size Integer.readSigned)
  | .uint => return .uint (← readNumber id size Integer.readUnsigned)
  | .float => return .float (← readFloat id size)
  | .string => return .string (← readText size)
  | .date => return .date (← readNumber id size Integer.readSigned)
  | .binary => return .binary (← Reader.body size)

end Value

end Ebml
