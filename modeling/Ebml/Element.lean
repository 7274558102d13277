import Ebml.ElementId.Coding
import Ebml.Stream.Held

/-!
# Elements

Everything in an EBML stream is an element: an ID, the size of the body as a variable-length
integer, and the body.

A kind of element says what its ID is, how large its body is and how the body is written and read.
Reading is shared between the caller, who reads the ID and so decides on the kind, and the element,
which reads the rest.  `Element.readBody` makes a whole element or fails, so an element that could
not be read keeps its contents; only the offset is recorded before the body is looked at.
-/

namespace Ebml

/-- A kind of element. -/
class Element (ε : Type) where
  /-- The ID. -/
  id : ε → ElementId
  /-- The position of the first octet of the ID when the element was last read, and zero before. -/
  offset : ε → Nat
  /-- The element with another offset. -/
  setOffset : ε → Nat → ε
  /-- The size of the body. -/
  bodySize : ε → Nat
  /-- The size of the whole element. -/
  totalSize : ε → Nat := fun e =>
    (id e).size + VarInt.octetLength (bodySize e) + bodySize e
  /-- Writes the size of the body. -/
  writeSize : ε → Writer Nat := fun e => VarInt.write (bodySize e)
  /-- Writes the body. -/
  writeBody : ε → Writer Nat
  /-- The element with a body of a given size read from the stream. -/
  readBody : ε → Nat → Reader ε

namespace Element

variable {ε : Type} [Element ε]

/-- Writes the ID. -/
def writeId (e : ε) : Writer Nat := (id e).write

/-- Writes the whole element and returns the number of bytes written. -/
def write (e : ε) : Writer Nat := do
  let idLength ← writeId e
  let sizeLength ← writeSize e
  let body ← writeBody e
  return idLength + sizeLength + body

/-- The element with its offset recorded, where its ID has just been read. -/
def locate (e : ε) : Reader ε := do
  return setOffset e ((← Reader.position) - (id e).size)

/-- Reads the size and the body.  The result counts the bytes after the ID. -/
def read (e : ε) : Reader (ε × Nat) := do
  let e ← locate e
  let (size, sizeLength) ← VarInt.read
  let e ← readBody e size
  return (e, sizeLength + size)

/-- Reads the size and the body into an element.  If that fails, only the offset has changed. -/
def fill : Filling ε Nat := do
  let located ← Filling.lift (locate (← Filling.object))
  Filling.change fun _ => located
  let (e, count) ← Filling.lift (read located)
  Filling.change fun _ => e
  return count

/-- Reads a body of a given size into an element.  If that fails, nothing has changed. -/
def fillBody (size : Nat) : Filling ε Nat := do
  let e ← Filling.lift (readBody (← Filling.object) size)
  Filling.change fun _ => e
  return size

/-- The total size of a list of elements. -/
def childrenSize (children : List ε) : Nat := (children.map totalSize).sum

end Element

end Ebml
