/-!
# Double-precision numbers

A float body holds an IEEE 754 number of 64 or 32 bits.  The number is kept as its 64 bits, so a
NaN keeps its payload when it is written back.  Equality is that of the numbers: a NaN differs
from itself, and the two zeros are equal.
-/

namespace Ebml

/-- A double-precision number, as its bits. -/
structure Double where
  /-- The sign, exponent and fraction bits. -/
  bits : UInt64
deriving DecidableEq, Repr, Inhabited

namespace Double

/-- Positive zero. -/
def zero : Double := ⟨0⟩

/-- The number with a sign, a biased exponent and a fraction. -/
def assemble (sign exponent fraction : Nat) : Double :=
  ⟨UInt64.ofNat (sign <<< 63 + exponent <<< 52 + fraction)⟩

/-- The bits without the sign. -/
def magnitude (x : Double) : UInt64 := x.bits &&& 0x7FFFFFFFFFFFFFFF

/-- Whether the bits are those of a NaN: the largest exponent and a fraction. -/
def isNaN (x : Double) : Bool := x.magnitude > 0x7FF0000000000000

/-- Whether the number is one of the two zeros. -/
def isZero (x : Double) : Bool := x.magnitude = 0

/-- Equality of the numbers and not of their bits. -/
instance : BEq Double where
  beq x y := !x.isNaN && !y.isNaN && (x.bits == y.bits || x.isZero && y.isZero)

/-- The number that 32 bits stand for in single precision.  Every such number has a double, so
nothing is rounded.  A NaN keeps its sign and payload and becomes quiet. -/
def ofSingle (bits : UInt32) : Double :=
  let sign := bits.toNat >>> 31
  let exponent := bits.toNat >>> 23 % 0x100
  let fraction := bits.toNat % 0x800000
  if exponent = 0xFF then
    if fraction = 0 then assemble sign 0x7FF 0
    else assemble sign 0x7FF (fraction <<< 29 ||| 0x8000000000000)
  else if exponent ≠ 0 then assemble sign (exponent + 896) (fraction <<< 29)
  else if fraction = 0 then assemble sign 0 0
  else
    let leading := fraction.log2
    assemble sign (leading + 874) ((fraction - 1 <<< leading) <<< (52 - leading))

end Double

end Ebml
