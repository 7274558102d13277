import Ebml.Stream.Writer

/-!
# Reading from a stream

A `Reader` is a computation over the bytes of a stream, which it cannot change.  It moves a
position, notes events and may fail.  Where it stood when it failed is kept.

Sizes are read from the stream before the bytes they count, so a corrupt size could ask for any
amount of memory.  The allocation limit bounds what a body may ask for.
-/

namespace Ebml

/-- What a reader is given and cannot change. -/
structure Source where
  /-- The bytes of the stream. -/
  bytes : List UInt8
  /-- The largest size of a body that may be read into memory. -/
  limit : Nat

/-- What a reader changes: its position, and the events noted so far. -/
structure Cursor where
  /-- Where the next read starts. -/
  pos : Nat
  /-- The events. -/
  log : Log

/-- A computation that reads from a stream. -/
abbrev Reader := ReaderT Source (EStateM Error Cursor)

namespace Reader

/-- Notes an event. -/
def note (event : Event) : Reader Unit :=
  modify fun cursor => { cursor with log := cursor.log.push event }

/-- The position in the stream. -/
def position : Reader Nat := do return (← get).pos

/-- Moves to a position, which may lie past the end. -/
def seek (pos : Nat) : Reader Unit :=
  modify fun cursor => { cursor with pos }

/-- The number of bytes in the stream. -/
def streamLength : Reader Nat := do return (← read).bytes.length

/-- Reads exactly `count` bytes.  If fewer are left, the position moves to the end. -/
def take (count : Nat) : Reader (List UInt8) := fun source cursor =>
  let taken := (source.bytes.drop cursor.pos).take count
  if taken.length = count then .ok taken { cursor with pos := cursor.pos + count }
  else .error (.readError .unfilled) { cursor with pos := source.bytes.length }

/-- Reads one byte. -/
def next : Reader UInt8 := fun source cursor =>
  match source.bytes[cursor.pos]? with
  | some byte => .ok byte { cursor with pos := cursor.pos + 1 }
  | none => .error (.readError .unfilled) { cursor with pos := source.bytes.length }

/-- Moves on by `count` bytes, which may lead past the end. -/
def skip (count : Nat) : Reader Unit := do
  if count ≥ Stream.reach then throw .tooMuchData
  let pos := (← position) + count
  if !Stream.admits (← streamLength) pos then throw (.readError .unreachable)
  seek pos

/-- No collection is of this size. -/
def collectionBound : Nat := 0x8000000000000000

/-- Memory of this size is not to be had, unless the stream itself is in memory and as large. -/
def memoryBound : Nat := 0x10000000000

/-- Checks that a body of `size` bytes may be read into memory.  An empty body always may. -/
def allocate (size : Nat) : Reader Unit := do
  if size = 0 then return
  if size > (← read).limit then
    note (.allocationRefused size)
    throw .tooMuchData
  if size ≥ memoryBound then
    if size ≤ (← streamLength) then return
    throw (.alloc (if size ≥ collectionBound then .overflow else .refused))

/-- Reads a body of `size` bytes, if it may be read into memory. -/
def body (size : Nat) : Reader (List UInt8) := do
  allocate size
  take size

/-- A result that needs no stream. -/
def ofExcept {α : Type} : Except Error α → Reader α
  | .ok a => pure a
  | .error e => throw e

/-- Reads from the stream that a writer works on. -/
def onSink {α : Type} (limit : Nat) (reader : Reader α) : Writer α := fun sink =>
  let after (cursor : Cursor) : Sink :=
    { stream := { sink.stream with pos := cursor.pos }, log := cursor.log }
  match reader ⟨sink.stream.data, limit⟩ ⟨sink.stream.pos, sink.log⟩ with
  | .ok a cursor => .ok a (after cursor)
  | .error e cursor => .error e (after cursor)

end Reader

end Ebml
