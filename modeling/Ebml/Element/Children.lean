import Ebml.Element

/-!
# Children of master elements

The body of a master element is a sequence of elements.  `Element.readChildren` goes through a
body of known size and hands every child to the caller, with its ID read.  The caller says how much
it read, and the children have to fill the body exactly.
-/

namespace Ebml

/-- The ID and size of an element. -/
structure Header where
  /-- The ID. -/
  id : ElementId
  /-- The size of the body. -/
  size : Nat
  /-- The number of octets of the ID and the size. -/
  length : Nat

namespace Header

/-- Reads an ID and a size. -/
def read : Reader Header := do
  let id ← ElementId.read
  let (size, sizeLength) ← VarInt.read
  return { id, size, length := id.size + sizeLength }

/-- The size of the whole element. -/
def totalSize (header : Header) : Nat := header.length + header.size

end Header

namespace Element

/-- Moves past the rest of an element whose ID was read, and counts the bytes skipped. -/
def skipRest : Reader Nat := do
  let (size, sizeLength) ← VarInt.read
  Reader.skip size
  return sizeLength + size

/-- Moves past a whole element and counts the bytes skipped. -/
def skip : Reader Nat := do
  let id ← ElementId.read
  return id.size + (← skipRest)

/-- Reads the children in what is left of a body of `size` bytes, of which `consumed` are read.
What `handle` makes of each child is handed to it with the next. -/
def readChildrenFrom {α : Type} (parent : ElementId) (size : Nat)
    (handle : α → ElementId → Reader (α × Nat)) (consumed : Nat) (acc : α) : Reader α := do
  if consumed < size then
    let child ← ElementId.read
    Reader.note (.readingChild child parent)
    let (acc, count) ← handle acc child
    readChildrenFrom parent size handle (consumed + child.size + count) acc
  else if consumed = size then return acc
  else throw (.badBodySize parent.value size consumed)
termination_by size - consumed
decreasing_by
  have := child.size_pos
  omega

/-- Reads the children that fill a body of `size` bytes.  `handle` is given what it made of the
children before and the ID of the next, and returns what it makes of that one and how many bytes
it read. -/
def readChildren {α : Type} (parent : ElementId) (size : Nat) (init : α)
    (handle : α → ElementId → Reader (α × Nat)) : Reader α :=
  readChildrenFrom parent size handle 0 init

/-- Handles a child and adds up the bytes of the children so far, their IDs included. -/
def counting {α : Type} (handle : α → ElementId → Reader (α × Nat)) (acc : α × Nat)
    (child : ElementId) : Reader ((α × Nat) × Nat) := do
  let (next, count) ← handle acc.1 child
  return ((next, acc.2 + child.size + count), count)

/-- Reads the children that fill a body of `size` bytes, and counts the bytes they take up. -/
def consumeChildren {α : Type} (parent : ElementId) (size : Nat) (init : α)
    (handle : α → ElementId → Reader (α × Nat)) : Reader (α × Nat) :=
  readChildren parent size (init, 0) (counting handle)

end Element

end Ebml
