import Ebml.Element
import Ebml.Value

/-!
# Primitive elements

A primitive element holds one value, whose kind stays the same.  It may have a default, and a
master element leaves out a child that is at its default.
-/

namespace Ebml

/-- An element that holds one value. -/
structure PrimitiveElement where
  /-- The ID. -/
  id : ElementId
  /-- The value. -/
  value : Value
  /-- The default, which is of the kind of the value. -/
  default? : Option Value := none
  /-- Where the element was last read. -/
  offset : Nat := 0

namespace PrimitiveElement

/-- An element with an ID given by its number. -/
def ofIdValue (id : Nat) (value : Value) : Except Error PrimitiveElement := do
  return { id := ← ElementId.ofValue id, value }

/-- The element with another ID. -/
def setId (e : PrimitiveElement) (id : Nat) : Except Error PrimitiveElement := do
  return { e with id := ← ElementId.ofValue id }

/-- The element with another value of the same kind. -/
def setValue (e : PrimitiveElement) (value : Value) : Except Error PrimitiveElement :=
  if e.value.sameKind value then .ok { e with value } else .error .valueTypeMismatch

/-- The element with another default of the same kind. -/
def setDefault (e : PrimitiveElement) (value : Value) : Except Error PrimitiveElement :=
  if e.value.sameKind value then .ok { e with default? := some value }
  else .error .valueTypeMismatch

/-- The element without a default. -/
def removeDefault (e : PrimitiveElement) : PrimitiveElement := { e with default? := none }

/-- Whether the value is the default. -/
def isDefault (e : PrimitiveElement) : Bool := e.default? == some e.value

/-- Equality of ID, value and default, wherever the elements were read. -/
instance : BEq PrimitiveElement where
  beq a b := a.id == b.id && a.value == b.value && a.default? == b.default?

instance : Element PrimitiveElement where
  id e := e.id
  offset e := e.offset
  setOffset e offset := { e with offset }
  bodySize e := e.value.bodySize
  writeBody e := do
    Writer.note (.writingPrimitive e.id)
    e.value.write
  readBody e size := do
    Reader.note (.readingPrimitive e.id size)
    return { e with value := ← Value.read e.value.kind e.id size }

/-! ## Children of master elements -/

/-- Reads the rest of a child that holds a value of some kind, and counts the bytes read. -/
def readChild (id : ElementId) (kind : Value.Kind) : Reader (Value × Nat) := do
  let (e, count) ← Element.read ({ id, value := kind.zero } : PrimitiveElement)
  return (e.value, count)

/-- Reads the rest of a child that holds an unsigned number. -/
def readUnsignedChild (id : ElementId) : Reader (UInt64 × Nat) := do
  let (value, count) ← readChild id .uint
  return (value.uint?.getD 0, count)

/-- Reads the rest of a child that holds a signed number. -/
def readSignedChild (id : ElementId) : Reader (Int64 × Nat) := do
  let (value, count) ← readChild id .int
  return (value.int?.getD 0, count)

/-- Reads the rest of a child that holds bytes. -/
def readBinaryChild (id : ElementId) : Reader (List UInt8 × Nat) := do
  let (value, count) ← readChild id .binary
  return (value.binary?.getD [], count)

end PrimitiveElement

end Ebml
