import Ebml.Error

/-!
# Buffers

A buffer is a byte string of fixed length whose beginning an encoder overwrites.
-/

namespace Ebml.Buffer

/-- The buffer with its beginning overwritten, and how many bytes that took. -/
def store (bytes buffer : List UInt8) : Except Error (List UInt8 × Nat) :=
  if buffer.length < bytes.length then .error (.bufferTooSmall bytes.length buffer.length)
  else .ok (bytes ++ buffer.drop bytes.length, bytes.length)

end Ebml.Buffer
