import Ebml.Bytes.Buffer
import Ebml.Proofs.Stream.Emission

/-!
# Encoding in place

`Buffer.store` gives a buffer as it is after an encoder.  Here the buffer is changed in place, a byte
at a time, and what was done to it before a failure stays done.  That nothing is done before a
failure is then a fact about the order of the steps: the room is checked before the first byte is
put (`overwrite_eq`).

A writer and an encoder that compute the same octets store the same bytes, and the encoder in place
comes to what `Buffer.store` says (`agrees_of_octets`).
-/

namespace Ebml.Buffer

/-- A computation that changes a buffer in place. -/
abbrev Encoder := EStateM Error (List UInt8)

/-- Checks that the buffer has room. -/
def reserve (length : Nat) : Encoder Unit := do
  let available := (← get).length
  if available < length then throw (.bufferTooSmall length available)

/-- Puts bytes into a buffer from a place on, one after another. -/
def put (place : Nat) : List UInt8 → Encoder Unit
  | [] => return ()
  | byte :: bytes => do
    modify fun buffer => buffer.set place byte
    put (place + 1) bytes

/-- Overwrites the beginning of a buffer, and returns how many bytes that took. -/
def overwrite (bytes : List UInt8) : Encoder Nat := do
  reserve bytes.length
  put 0 bytes
  return bytes.length

/-- A result that needs no buffer. -/
def ofExcept {α : Type} : Except Error α → Encoder α
  | .ok a => pure a
  | .error e => throw e

/-! ## What is in a buffer afterwards -/

/-- The bytes lie where they were put, and all others stay. -/
theorem put_eq (place : Nat) (bytes buffer : List UInt8)
    (h : place + bytes.length ≤ buffer.length) :
    put place bytes buffer =
      .ok () (buffer.take place ++ bytes ++ buffer.drop (place + bytes.length)) := by
  induction bytes generalizing place buffer with
  | nil =>
      have hsame : buffer.take place ++ [] ++ buffer.drop (place + 0) = buffer := by simp
      rw [List.length_nil, hsame]
      rfl
  | cons byte bytes ih =>
      rw [List.length_cons] at h ⊢
      have hplace : place < buffer.length := by omega
      have hroom : place + 1 + bytes.length ≤ (buffer.set place byte).length := by
        rw [List.length_set]
        omega
      have hbefore : (buffer.set place byte).take (place + 1) = buffer.take place ++ [byte] := by
        have hlength := List.length_take_of_le (Nat.le_of_lt hplace)
        rw [List.set_eq_take_append_cons_drop, if_pos hplace, List.take_append,
          List.take_of_length_le (by omega), hlength, Nat.add_sub_cancel_left]
        rfl
      have hafter : (buffer.set place byte).drop (place + 1 + bytes.length) =
          buffer.drop (place + (bytes.length + 1)) := by
        rw [List.drop_set_of_lt (by omega), Nat.add_assoc, Nat.add_comm 1]
      show put (place + 1) bytes (buffer.set place byte) = _
      rw [ih _ _ hroom, hbefore, hafter]
      simp

theorem reserve_of_le {length : Nat} {buffer : List UInt8} (h : length ≤ buffer.length) :
    reserve length buffer = .ok () buffer := by
  show (if buffer.length < length then throw (.bufferTooSmall length buffer.length) else pure () :
    Encoder Unit) buffer = _
  rw [if_neg (Nat.not_lt.mpr h)]
  rfl

theorem reserve_of_lt {length : Nat} {buffer : List UInt8} (h : buffer.length < length) :
    reserve length buffer = .error (.bufferTooSmall length buffer.length) buffer := by
  show (if buffer.length < length then throw (.bufferTooSmall length buffer.length) else pure () :
    Encoder Unit) buffer = _
  rw [if_pos h]
  rfl

/-- The bytes are at the start of the buffer if there is room for all of them, and none of them is
if there is not. -/
theorem overwrite_eq (bytes buffer : List UInt8) :
    overwrite bytes buffer =
      if bytes.length ≤ buffer.length then .ok bytes.length (bytes ++ buffer.drop bytes.length)
      else .error (.bufferTooSmall bytes.length buffer.length) buffer := by
  rw [overwrite]
  by_cases h : bytes.length ≤ buffer.length
  · have hput := put_eq 0 bytes buffer (by omega)
    rw [List.take_zero, List.nil_append, Nat.zero_add] at hput
    rw [if_pos h, Writer.bind_ok (reserve_of_le h), Writer.bind_ok hput]
    rfl
  · rw [if_neg h, Writer.bind_error (reserve_of_lt (Nat.lt_of_not_le h))]

/-! ## Encoders and writers -/

/-- A writer stores the bytes of an encoder in place, which comes to what is told of a buffer. -/
structure Agrees (write : Writer Nat) (encode : Encoder Nat)
    (into : List UInt8 → Except Error (List UInt8 × Nat)) : Prop where
  /-- Either there are octets, and both store them, or both refuse for one reason.  A buffer without
  room for the octets, or for which there are none, stays as it was. -/
  stores :
    (∃ octets, write = Writer.emitCounted octets ∧ ∀ buffer, encode buffer =
      if octets.length ≤ buffer.length then .ok octets.length (octets ++ buffer.drop octets.length)
      else .error (.bufferTooSmall octets.length buffer.length) buffer) ∨
    ∃ e, (∀ sink, write sink = .error e sink) ∧ ∀ buffer, encode buffer = .error e buffer
  /-- What is told of a buffer is done to it, and a buffer of which nothing is told stays. -/
  in_place (buffer : List UInt8) : encode buffer =
    match into buffer with
    | .ok (after, length) => .ok length after
    | .error e => .error e buffer

/-- They agree if they compute the same octets before they do anything. -/
theorem agrees_of_octets (octets : Except Error (List UInt8)) {write : Writer Nat}
    {encode : Encoder Nat} {into : List UInt8 → Except Error (List UInt8 × Nat)}
    (hwrite : write = do Writer.emitCounted (← Writer.ofExcept octets))
    (hencode : encode = do overwrite (← ofExcept octets))
    (hinto : ∀ buffer, into buffer = do store (← octets) buffer) : Agrees write encode into := by
  cases octets with
  | error e =>
      refine ⟨Or.inr ⟨e, fun sink => ?_, fun buffer => ?_⟩, fun buffer => ?_⟩
      · rw [hwrite]
        rfl
      · rw [hencode]
        rfl
      · rw [hencode, hinto]
        rfl
  | ok octets =>
      have hplaced : ∀ buffer, encode buffer = overwrite octets buffer := by
        intro buffer
        rw [hencode]
        rfl
      refine ⟨Or.inl ⟨octets, ?_, fun buffer => ?_⟩, fun buffer => ?_⟩
      · rw [hwrite]
        rfl
      · rw [hplaced, overwrite_eq]
      · have hstored : into buffer = store octets buffer := hinto buffer
        rw [hplaced, overwrite_eq, hstored, store]
        by_cases h : octets.length ≤ buffer.length
        · rw [if_pos h, if_neg (Nat.not_lt.mpr h)]
        · rw [if_neg h, if_pos (Nat.lt_of_not_le h)]

end Ebml.Buffer
