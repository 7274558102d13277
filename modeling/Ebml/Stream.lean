/-!
# Streams

A stream is a byte string with a position.  It grows as it is written to, unless it is fixed.  The
position may lie past the end: a stream that grows then fills the gap with zeros when it is
written to, even if no bytes are written, and a fixed one has no room there.
-/

namespace Ebml

/-- A byte string with a position in it. -/
structure Stream where
  /-- The bytes that the stream holds. -/
  data : List UInt8 := []
  /-- Where the next read or write starts. -/
  pos : Nat := 0
  /-- Whether the stream keeps its length. -/
  fixed : Bool := false
deriving DecidableEq, Repr, Inhabited

namespace Stream

/-- A single move in a stream covers less than this many bytes. -/
def reach : Nat := 0x8000000000000000

/-- Whether a position can be moved to.  A position is a number of 64 bits, which is no bound on
what lies within the stream. -/
def admits (length pos : Nat) : Bool := pos < UInt64.size || pos ≤ length

/-- How many bytes lie between the position and the end. -/
def room (s : Stream) : Nat := s.data.length - s.pos

/-- The stream with zeros up to its position, if that lies past the end. -/
def fillGap (s : Stream) : Stream :=
  { s with data := s.data ++ List.replicate (s.pos - s.data.length) 0 }

/-- The stream with bytes laid over those at its position, and the position after them. -/
def overlay (s : Stream) (bytes : List UInt8) : Stream :=
  { s with
    data := s.data.take s.pos ++ bytes ++ s.data.drop (s.pos + bytes.length)
    pos := s.pos + bytes.length }

/-- Writes bytes, as many as the stream has room for if it is fixed, and tells whether that was
all of them. -/
def write (s : Stream) (bytes : List UInt8) : Stream × Bool :=
  if s.fixed then (s.overlay (bytes.take s.room), bytes.length ≤ s.room)
  else (s.fillGap.overlay bytes, true)

/-- Writes `count` zeros, as `write` does, without making more of them than are stored. -/
def writeZeros (s : Stream) (count : Nat) : Stream × Bool :=
  if s.fixed then (s.overlay (List.replicate (min count s.room) 0), count ≤ s.room)
  else (s.fillGap.overlay (List.replicate count 0), true)

/-- Zeros are written like any other bytes. -/
theorem writeZeros_eq (s : Stream) (count : Nat) :
    s.writeZeros count = s.write (List.replicate count 0) := by
  simp [writeZeros, write, List.take_replicate, Nat.min_comm]

end Stream

end Ebml
