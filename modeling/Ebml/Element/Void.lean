import Ebml.Element.Children

/-!
# Void elements

Readers pass over a void element.  It reserves space for what is written later, or blanks out an
element without moving what comes after it.  To fit an exact space, the size of a void element may
be stored in more octets than it needs.
-/

namespace Ebml

/-- An element without contents. -/
structure VoidElement where
  /-- The size of the body. -/
  size : Nat
  /-- The octets that the size is stored in. -/
  sizeLength : Nat := VarInt.octetLength size
  /-- Whether the body is filled with zeros when it is written. -/
  fill : Bool
  /-- Where the element was last read. -/
  offset : Nat := 0
deriving DecidableEq

namespace VoidElement

/-- The element with another body size, stored in as few octets as it needs. -/
def setSize (e : VoidElement) (size : Nat) : VoidElement :=
  { e with size, sizeLength := VarInt.octetLength size }

/-- The number of octets for the size of a void element whose size and body take `space` bytes:
the first for which the rest of the space is a size that they can hold. -/
def fitting? (space : Nat) : Option Nat :=
  (List.range' 1 VarInt.maxLength).find? fun length =>
    VarInt.octetLength (space - length) ≤ length

/-- A void element of a given total size, of which the ID takes one byte.  In one byte or none, the
smallest void element is made. -/
def ofTotalSize (total : Nat) (fill : Bool) : VoidElement :=
  let space := total - 1
  match fitting? space with
  | some sizeLength => { size := space - sizeLength, sizeLength, fill }
  | none => { size := space, fill }

/-- A void element that takes the place of another element. -/
def replacing {ε : Type} [Element ε] (e : ε) (fill : Bool) : VoidElement :=
  ofTotalSize (Element.totalSize e) fill

instance : Element VoidElement where
  id _ := .void
  offset e := e.offset
  setOffset e offset := { e with offset }
  bodySize e := e.size
  totalSize e := 1 + e.sizeLength + e.size
  writeSize e := VarInt.writeSized e.size e.sizeLength
  writeBody e := do
    Writer.emitZeros e.size
    return e.size
  readBody e size := do
    Reader.skip size
    return e.setSize size

/-- Writes the element, and moves past its body instead of writing it if it is not to be filled.
What the stream holds there stays. -/
def writeAround (e : VoidElement) : Writer Nat :=
  if e.fill then Element.write e
  else do
    let idLength ← Element.writeId e
    let sizeLength ← Element.writeSize e
    Writer.skip e.size
    return idLength + sizeLength + e.size

end VoidElement

end Ebml
