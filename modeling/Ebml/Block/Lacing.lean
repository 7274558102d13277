import Ebml.Error

/-!
# Lacing

A block that holds several frames laces them: its header says where one frame ends and the next
begins.  The kind of lacing is stored in two bits of the flags of the block.
-/

namespace Ebml

/-- How the frames of a block are packed. -/
inductive Lacing where
  /-- One frame, with nothing before it. -/
  | none
  /-- Up to 255 frames.  The size of each but the last is stored, from the second on as the
  difference from the size before. -/
  | ebml
  /-- Up to 255 frames, all of one size. -/
  | fixed
deriving DecidableEq, Repr, Inhabited

namespace Lacing

/-- How many frames a block can hold.  The number of laced frames is stored in one byte. -/
def maxCount : Lacing → Nat
  | none => 1
  | ebml | fixed => 255

theorem maxCount_le (lacing : Lacing) : lacing.maxCount ≤ 255 := by
  cases lacing <;> decide

/-- The flags that hold the kind of lacing. -/
def mask : UInt8 := 0x60

/-- The lacing as flags. -/
def flags : Lacing → UInt8
  | none => 0
  | ebml => 0x60
  | fixed => 0x40

/-- The lacing that the flags of a block name.  The remaining value of the two bits is Xiph
lacing, which is not read. -/
def ofFlags (bits : UInt8) : Except Error Lacing :=
  if bits &&& mask = flags ebml then .ok ebml
  else if bits &&& mask = flags fixed then .ok fixed
  else if bits &&& mask = 0x20 then .error (.valueOutOfRange "Xiph lacing is not supported")
  else .ok none

/-- The name of the lacing, as log messages show it. -/
def name : Lacing → String
  | none => "None"
  | ebml => "Ebml"
  | fixed => "Fixed"

end Lacing

end Ebml
