import Ebml.Log
import Ebml.Stream

/-!
# Writing to a stream

A `Writer` is a computation that may write to a stream, move in it, note events and fail.  What it
did to the stream before it failed stays done.
-/

namespace Ebml

/-- What a writer works on: the stream, and the events noted so far. -/
structure Sink where
  /-- The stream. -/
  stream : Stream
  /-- The events. -/
  log : Log

/-- A computation that writes to a stream. -/
abbrev Writer := EStateM Error Sink

namespace Writer

/-- Notes an event. -/
def note (event : Event) : Writer Unit :=
  modify fun sink => { sink with log := sink.log.push event }

/-- The position of the stream. -/
def position : Writer Nat := do return (← get).stream.pos

/-- Moves to a position. -/
def seek (pos : Nat) : Writer Unit :=
  modify fun sink => { sink with stream := { sink.stream with pos } }

/-- Moves on by `count` bytes. -/
def skip (count : Nat) : Writer Unit := do
  if count ≥ Stream.reach then throw .tooMuchData
  let stream := (← get).stream
  if !Stream.admits stream.data.length (stream.pos + count) then throw (.writeError .unreachable)
  seek (stream.pos + count)

/-- Ends a write: it fails if not all bytes were stored. -/
def finish (written : Stream × Bool) : Writer Unit := fun sink =>
  if written.2 then .ok () { sink with stream := written.1 }
  else .error (.writeError .unwritten) { sink with stream := written.1 }

/-- Writes bytes. -/
def emit (bytes : List UInt8) : Writer Unit := fun sink =>
  finish (sink.stream.write bytes) sink

/-- Writes zeros.  If there are none, nothing is written, and a gap stays open. -/
def emitZeros (count : Nat) : Writer Unit := fun sink =>
  if count = 0 then .ok () sink else finish (sink.stream.writeZeros count) sink

/-- Writes bytes and returns their number. -/
def emitCounted (bytes : List UInt8) : Writer Nat := do
  emit bytes
  return bytes.length

/-- Writes the items of a list in order and returns the sum of what each wrote. -/
def each {α : Type} (write : α → Writer Nat) : List α → Writer Nat
  | [] => return 0
  | item :: items => do
    let first ← write item
    let rest ← each write items
    return first + rest

/-- A result that needs no stream. -/
def ofExcept {α : Type} : Except Error α → Writer α
  | .ok a => pure a
  | .error e => throw e

end Writer

end Ebml
