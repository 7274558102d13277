import Ebml.VarInt

/-!
# Signed offsets

The difference between two frame sizes is stored as a variable-length integer with a bias: the
middle of the payload range of the chosen length stands for zero.  The range is symmetric, so its
largest payload, all ones, is never used.
-/

namespace Ebml.VarInt.Offset

/-- What is added to an offset that is stored in `length` octets. -/
def bias (length : Nat) : Nat := 2 ^ (7 * length - 1) - 1

/-- The payload of an offset in the fewest octets, and their number. -/
def encode (offset : Int) : Except Error (Nat × Nat) :=
  match (List.range' 1 maxLength).find? fun length => offset.natAbs ≤ bias length with
  | some length => .ok ((offset + bias length).toNat, length)
  | none => .error (.varIntTooBig offset.natAbs)

/-- The offset of a payload of `length` octets, wrapped to 64 bits. -/
def decode (payload length : Nat) : Int :=
  (Int64.ofInt (payload - bias length)).toInt

end Ebml.VarInt.Offset
