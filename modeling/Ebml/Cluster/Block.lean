import Ebml.Block.Group
import Ebml.Block.Simple

/-!
# Blocks of a cluster

A cluster holds simple blocks and block groups.  Both have a block with a timecode, by which a
cluster orders them.  Blocks with one timecode keep the order in which they came.
-/

namespace Ebml

/-- A block as a cluster holds it. -/
inductive ClusterBlock where
  /-- A simple block. -/
  | simple (block : SimpleBlock)
  /-- A block group. -/
  | group (block : BlockGroup)

namespace ClusterBlock

/-- Equality of what the blocks hold, wherever they were read. -/
instance : BEq ClusterBlock where
  beq
    | simple a, simple b => a == b
    | group a, group b => a == b
    | _, _ => false

/-- The block with the frames. -/
def block : ClusterBlock → Block
  | simple b => b.block
  | group b => b.block

/-- Changes the block with the frames. -/
def mapBlock (f : Block → Block) : ClusterBlock → ClusterBlock
  | simple b => simple { b with block := f b.block }
  | group b => group { b with block := f b.block }

/-- The timecode, relative to the cluster. -/
def timecode (b : ClusterBlock) : Int16 := b.block.timecode

/-- A block of the kind that an ID stands for, without frames. -/
def ofId? (id : ElementId) : Option ClusterBlock :=
  if id = .simpleBlock then some (simple {})
  else if id = .blockGroup then some (group {})
  else none

instance : Element ClusterBlock where
  id
    | simple b => Element.id b
    | group b => Element.id b
  offset
    | simple b => Element.offset b
    | group b => Element.offset b
  setOffset
    | simple b, offset => simple (Element.setOffset b offset)
    | group b, offset => group (Element.setOffset b offset)
  bodySize
    | simple b => Element.bodySize b
    | group b => Element.bodySize b
  writeBody
    | simple b => Element.writeBody b
    | group b => Element.writeBody b
  readBody
    | simple b, size => simple <$> Element.readBody b size
    | group b, size => group <$> Element.readBody b size

end ClusterBlock

/-! ## Order by timecode -/

namespace Timeline

variable {α : Type}

/-- The items by timecode.  Items with one timecode keep their order. -/
def sort (timecode : α → Int16) (items : List α) : List α :=
  items.mergeSort fun a b => timecode a ≤ timecode b

/-- Whether there is an item at an index of which `p` holds. -/
def probe (p : α → Bool) (items : List α) (index : Nat) : Bool := items[index]?.any p

/-- The place after the last item of which `p` holds, among `size` items from `base` on.  It is
looked for by halving. -/
def bisectFrom (p : α → Bool) (items : List α) (base size : Nat) : Nat :=
  if 1 < size then
    let half := size / 2
    bisectFrom p items (if probe p items (base + half) then base + half else base) (size - half)
  else if probe p items base then base + 1 else base
termination_by size

/-- The place after the last item of which `p` holds, if these come before all others. -/
def bisect (p : α → Bool) (items : List α) : Nat :=
  if items.isEmpty then 0 else bisectFrom p items 0 items.length

/-- The items with one more, which goes where halving finds the last item that is not later.  In a
list in order that is before the first item with a later timecode. -/
def insert (timecode : α → Int16) (item : α) (items : List α) : List α :=
  items.insertIdx (bisect (fun a => timecode a ≤ timecode item) items) item

end Timeline

end Ebml
