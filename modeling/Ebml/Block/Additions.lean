import Ebml.Element.Children
import Ebml.Element.Primitive

/-!
# Block additions

Additional data goes with a block, such as an alpha channel.  Each addition has an ID that says how
it is meant.  The IDs start at 1, which is also the default and then not written.
-/

namespace Ebml

/-- A single addition. -/
structure Addition where
  /-- How the data is meant. -/
  addId : UInt64
  /-- The data. -/
  data : List UInt8
deriving DecidableEq

namespace Addition

/-- The ID of an addition that names none. -/
def defaultAddId : UInt64 := 1

/-- The children of the element that holds the addition. -/
def children (a : Addition) : List PrimitiveElement :=
  let addId : PrimitiveElement :=
    { id := .blockAddId, value := .uint a.addId, default? := some (.uint defaultAddId) }
  (if addId.isDefault then [] else [addId]) ++
    [{ id := .blockAdditional, value := .binary a.data }]

/-- The size of the body of the element that holds the addition. -/
def bodySize (a : Addition) : Nat := Element.childrenSize a.children

/-- The size of the whole element that holds the addition. -/
def totalSize (a : Addition) : Nat :=
  ElementId.blockMore.size + VarInt.octetLength a.bodySize + a.bodySize

/-- Writes the element that holds the addition. -/
def write (a : Addition) : Writer Nat := do
  let idLength ← ElementId.blockMore.write
  let sizeLength ← VarInt.write a.bodySize
  let body ← Writer.each Element.write a.children
  return idLength + sizeLength + body

/-- What has been read of an addition: its ID, and its data if that has been met. -/
structure Draft where
  /-- The ID met last. -/
  addId : UInt64 := defaultAddId
  /-- The data met last. -/
  data? : Option (List UInt8) := none

/-- Reads a child of the element that holds an addition. -/
def readChild (draft : Draft) (id : ElementId) : Reader (Draft × Nat) := do
  if id = .blockAddId then
    let (addId, count) ← PrimitiveElement.readUnsignedChild id
    return ({ draft with addId }, count)
  else if id = .blockAdditional then
    let (data, count) ← PrimitiveElement.readBinaryChild id
    return ({ draft with data? := some data }, count)
  else if id = .void then
    return (draft, ← Element.skipRest)
  else throw (.invalidChildId ElementId.blockMore.value id.value)

/-- Reads an addition from a body of `size` bytes.  It has to have data. -/
def readBody (size : Nat) : Reader Addition := do
  let draft ← Element.readChildren .blockMore size {} readChild
  match draft.data? with
  | some data => return { addId := draft.addId, data }
  | none => throw (.missingChild ElementId.blockMore.value ElementId.blockAdditional.value)

end Addition

/-- The additions of a block. -/
structure BlockAdditions where
  /-- The additions, in order. -/
  entries : List Addition := []
  /-- Where the additions were last read. -/
  offset : Nat := 0

namespace BlockAdditions

/-- Equality of the entries, wherever they were read. -/
instance : BEq BlockAdditions where
  beq a b := a.entries == b.entries

/-- The additions with one more, whose ID is not zero. -/
def push (a : BlockAdditions) (addId : UInt64) (data : List UInt8) :
    Except Error BlockAdditions :=
  if addId = 0 then .error (.valueOutOfRange "block addition IDs start at 1")
  else .ok { a with entries := a.entries ++ [{ addId, data }] }

/-- No additions. -/
def clear (a : BlockAdditions) : BlockAdditions := { a with entries := [] }

/-- Reads a child of the additions, which holds a single one. -/
def readChild (entries : List Addition) (id : ElementId) : Reader (List Addition × Nat) := do
  if id ≠ .blockMore then throw (.invalidChildId ElementId.blockAdditions.value id.value)
  let (size, sizeLength) ← VarInt.read
  let entry ← Addition.readBody size
  return (entries ++ [entry], sizeLength + size)

instance : Element BlockAdditions where
  id _ := .blockAdditions
  offset a := a.offset
  setOffset a offset := { a with offset }
  bodySize a := (a.entries.map Addition.totalSize).sum
  writeBody a := Writer.each Addition.write a.entries
  readBody a size := do
    return { a with entries := ← Element.readChildren .blockAdditions size [] readChild }

end BlockAdditions

end Ebml
