import Ebml.Proofs.Buffer
import Ebml.Proofs.ElementId.Coding
import Ebml.Proofs.Integer

/-!
# Buffers and streams

Integers of variable length, IDs and plain integers are each coded twice, in a buffer and on a
stream.  The two ways of reading one are different: a decoder takes the marker off the first octet
and then adds the others to it, a reader keeps it and takes it off in the end, or keeps it for good.
They come to the same (`readRest_of_decode`), also where nothing can be read
(`readRest_of_decode_error`).  Only what is missing has another name: a buffer is too small, a stream
has ended (`Error.onStream`).

A writer stores the octets that an encoder puts into a buffer, or refuses what it refuses
(`Buffer.Agrees`).
-/

namespace Ebml

/-- The failure of a reader where a decoder has this one. -/
def Error.onStream : Error → Error
  | .bufferTooSmall _ _ => .readError .unfilled
  | e => e

namespace Reader

variable {α : Type} {source : Source} {cursor : Cursor}

/-- The reader comes to what was decoded, and has then moved over as many bytes as `length` tells of
it.  If nothing was decoded, it fails for the same reason. -/
def Mirrors (r : Reader α) (source : Source) (cursor : Cursor) (length : α → Nat) :
    Except Error α → Prop
  | .ok a => r source cursor = .ok a { cursor with pos := cursor.pos + length a }
  | .error e => ∃ pos, r source cursor = .error e.onStream { cursor with pos }

theorem next_of_nil (h : source.bytes.drop cursor.pos = []) :
    next source cursor = .error (.readError .unfilled) { cursor with pos := source.bytes.length } := by
  have hnone : source.bytes[cursor.pos]? = none := List.getElem?_eq_none (List.drop_eq_nil_iff.mp h)
  rw [next, hnone]

theorem next_of_cons {first : UInt8} {rest : List UInt8}
    (h : source.bytes.drop cursor.pos = first :: rest) :
    next source cursor = .ok first { cursor with pos := cursor.pos + 1 } := by
  have hfirst : source.bytes[cursor.pos]? = some first := by
    rw [← Nat.add_zero cursor.pos, ← List.getElem?_drop, h]
    rfl
  rw [next, hfirst]

theorem take_of_holds {bytes : List UInt8} (h : source.Holds cursor.pos bytes) :
    take bytes.length source cursor = .ok bytes { cursor with pos := cursor.pos + bytes.length } := by
  rw [take, h.take_eq]
  exact if_pos rfl

theorem take_of_short {count : Nat} (h : (source.bytes.drop cursor.pos).length < count) :
    take count source cursor =
      .error (.readError .unfilled) { cursor with pos := source.bytes.length } := by
  have hshort : ((source.bytes.drop cursor.pos).take count).length ≠ count := by
    rw [List.take_of_length_le (Nat.le_of_lt h)]
    exact Nat.ne_of_lt h
  exact if_neg hshort

end Reader

variable {source : Source} {cursor : Cursor}

/-! ## Integers of variable length -/

namespace VarInt

section

variable {first : UInt8} {rest : List UInt8}

/-- After the first octet of a value that is decoded, the value is read with its marker. -/
theorem readRest_of_decode {value length : Nat} (hleft : source.bytes.drop cursor.pos = first :: rest)
    (h : decode (first :: rest) = .ok (value, length)) :
    readRest first source { cursor with pos := cursor.pos + 1 } =
      .ok (value + 128 ^ length, length) { cursor with pos := cursor.pos + length } := by
  obtain ⟨hpayload, hprefix⟩ := decode_eq_ok.mp h
  rw [← hleft] at hprefix
  obtain ⟨octet, octets, hsized, rfl, hfirst, hmarked⟩ := sized_eq_cons hpayload
  have hheld : source.Holds cursor.pos (octet :: octets) := hsized ▸ hprefix
  have hsame : octet = first := by
    rw [hsized, hleft, List.cons_prefix_cons] at hprefix
    exact hprefix.1
  have hlength : Reader.ofExcept (lengthOf octet) source { cursor with pos := cursor.pos + 1 } =
      .ok (octets.length + 1) { cursor with pos := cursor.pos + 1 } := by
    rw [hfirst]
    rfl
  rw [← hsame, readRest, Reader.bind_of_ok hlength, Nat.add_sub_cancel,
    Reader.bind_of_ok (Reader.take_of_holds hheld.tail), hmarked, Nat.add_comm octets.length 1,
    ← Nat.add_assoc]
  rfl

/-- After the first octet of what is not decoded, nothing is read, for the same reason. -/
theorem readRest_of_decode_error {e : Error} (hleft : source.bytes.drop cursor.pos = first :: rest)
    (h : decode (first :: rest) = .error e) :
    ∃ pos, readRest first source { cursor with pos := cursor.pos + 1 } =
      .error e.onStream { cursor with pos } := by
  have hrest : source.bytes.drop (cursor.pos + 1) = rest := by
    rw [← List.drop_drop, hleft]
    rfl
  cases decode_eq_error.mp h with
  | unmarked => exact ⟨cursor.pos + 1, rfl⟩
  | @truncated _ _ length hannounces hshort =>
      have hlength : Reader.ofExcept (lengthOf first) source { cursor with pos := cursor.pos + 1 } =
          .ok length { cursor with pos := cursor.pos + 1 } := by
        rw [lengthOf_eq_ok.mpr hannounces]
        rfl
      have hends : (source.bytes.drop (cursor.pos + 1)).length < length - 1 := by
        rw [hrest]
        omega
      rw [readRest, Reader.bind_of_ok hlength, Reader.bind_of_error (Reader.take_of_short hends)]
      exact ⟨_, rfl⟩

end

theorem mirrors_read (source : Source) (cursor : Cursor) :
    read.Mirrors source cursor Prod.snd (decode (source.bytes.drop cursor.pos)) := by
  cases hleft : source.bytes.drop cursor.pos with
  | nil => exact ⟨_, Reader.bind_of_error (Reader.next_of_nil hleft)⟩
  | cons first rest =>
      have hnext := Reader.next_of_cons hleft
      cases hdecode : decode (first :: rest) with
      | error e =>
          obtain ⟨pos, hfails⟩ := readRest_of_decode_error hleft hdecode
          exact ⟨pos, (Reader.bind_of_ok hnext).trans (Reader.bind_of_error hfails)⟩
      | ok coded =>
          obtain ⟨value, length⟩ := coded
          have hlt := (decode_eq_ok.mp hdecode).1.value_lt
          have hvalue : (value + 128 ^ length) % 128 ^ length = value := by
            rw [Nat.add_mod_right, Nat.mod_eq_of_lt hlt]
          show read source cursor = .ok (value, length) { cursor with pos := cursor.pos + length }
          rw [read, Reader.bind_of_ok hnext,
            Reader.bind_of_ok (readRest_of_decode hleft hdecode)]
          show EStateM.Result.ok ((value + 128 ^ length) % 128 ^ length, length) _ = _
          rw [hvalue]

/-- Encodes the value at the start of a buffer in place. -/
def encodeInPlace (value : Nat) : Buffer.Encoder Nat := do
  let length ← Buffer.ofExcept (size value)
  Buffer.overwrite (← Buffer.ofExcept (encodeSized value length))

theorem agrees (value : Nat) :
    Buffer.Agrees (write value) (encodeInPlace value) (encodeInto value) := by
  apply Buffer.agrees_of_octets (encode value)
  case hwrite =>
    rw [write, encode]
    cases size value with
    | error => rfl
    | ok => rfl
  case hencode =>
    rw [encodeInPlace, encode]
    cases size value with
    | error => rfl
    | ok => rfl
  case hinto =>
    intro buffer
    rfl

end VarInt

/-! ## IDs -/

namespace ElementId

/-- Reads an ID, and the octets that it took. -/
def readCounted : Reader (ElementId × Nat) := do
  let first ← Reader.next
  if first = 0 then throw (.invalidEbmlId 0)
  let (value, length) ← VarInt.readRest first
  return (← Reader.ofExcept (verify value), length)

/-- The count is left out where an ID is read. -/
theorem read_eq : read = Prod.fst <$> readCounted := by
  rw [read, readCounted, map_bind]
  congr 1
  funext first
  by_cases hfirst : first = 0
  · rw [if_pos hfirst, if_pos hfirst]
    rfl
  · rw [if_neg hfirst, if_neg hfirst]
    simp

/-- What is left to do after the octets of a number is to check that it is an ID. -/
theorem readCounted_of_decode {first : UInt8} {rest : List UInt8} {payload length : Nat}
    (hleft : source.bytes.drop cursor.pos = first :: rest) (hfirst : first ≠ 0)
    (h : VarInt.decode (first :: rest) = .ok (payload, length)) :
    readCounted source cursor =
      (do return (← Reader.ofExcept (verify (payload + 128 ^ length)), length) :
        Reader (ElementId × Nat)) source { cursor with pos := cursor.pos + length } := by
  rw [readCounted, Reader.bind_of_ok (Reader.next_of_cons hleft), if_neg hfirst]
  exact Reader.bind_of_ok (VarInt.readRest_of_decode hleft h)

theorem readCounted_of_decode_error {first : UInt8} {rest : List UInt8} {e : Error}
    (hleft : source.bytes.drop cursor.pos = first :: rest) (hfirst : first ≠ 0)
    (h : VarInt.decode (first :: rest) = .error e) :
    ∃ pos, readCounted source cursor = .error e.onStream { cursor with pos } := by
  obtain ⟨pos, hfails⟩ := VarInt.readRest_of_decode_error hleft h
  refine ⟨pos, ?_⟩
  rw [readCounted, Reader.bind_of_ok (Reader.next_of_cons hleft), if_neg hfirst]
  exact Reader.bind_of_error hfails

theorem mirrors_readCounted (source : Source) (cursor : Cursor) :
    readCounted.Mirrors source cursor Prod.snd (decode (source.bytes.drop cursor.pos)) := by
  cases hleft : source.bytes.drop cursor.pos with
  | nil => exact ⟨_, Reader.bind_of_error (Reader.next_of_nil hleft)⟩
  | cons first rest =>
      by_cases hfirst : first = 0
      · subst hfirst
        exact ⟨_, (Reader.bind_of_ok (Reader.next_of_cons hleft)).trans rfl⟩
      · cases hdecode : VarInt.decode (first :: rest) with
        | error e =>
            rw [decode_cons hfirst, hdecode]
            exact readCounted_of_decode_error hleft hfirst hdecode
        | ok coded =>
            obtain ⟨payload, length⟩ := coded
            have hchecks := readCounted_of_decode hleft hfirst hdecode
            rw [decode_of_varInt hdecode]
            by_cases hvalid : IsElementId (payload + 128 ^ length)
            · have hverify : verify (payload + 128 ^ length) = .ok ⟨_, hvalid⟩ := dif_pos hvalid
              rw [hverify] at hchecks ⊢
              exact hchecks
            · have hverify : verify (payload + 128 ^ length) =
                  .error (.invalidEbmlId (payload + 128 ^ length)) := dif_neg hvalid
              rw [hverify] at hchecks ⊢
              exact ⟨_, hchecks⟩

/-- Encodes the ID of a given number at the start of a buffer in place. -/
def encodeInPlace (value : Nat) : Buffer.Encoder Nat := do
  Buffer.overwrite (encode (← Buffer.ofExcept (verify value)))

/-- Writes the ID of a given number. -/
def writeValue (value : Nat) : Writer Nat := do
  write (← Writer.ofExcept (verify value))

theorem agrees (value : Nat) :
    Buffer.Agrees (writeValue value) (encodeInPlace value) (encodeInto value) := by
  apply Buffer.agrees_of_octets (encode <$> verify value)
  case hwrite =>
    rw [writeValue]
    cases verify value with
    | error => rfl
    | ok => rfl
  case hencode =>
    rw [encodeInPlace]
    cases verify value with
    | error => rfl
    | ok => rfl
  case hinto =>
    intro buffer
    rw [encodeInto]
    cases verify value with
    | error => rfl
    | ok => rfl

end ElementId

/-! ## Integers of given length -/

namespace Integer

theorem mirrors_take_decode {α : Type} {octets : List UInt8} (decode : List UInt8 → α)
    (h : source.Holds cursor.pos octets) :
    Reader.Mirrors (do
      if octets.length > maxLength then throw tooLong
      return decode (← Reader.take octets.length) : Reader α) source cursor
      (fun _ => octets.length)
      (if octets.length ≤ maxLength then .ok (decode octets) else .error tooLong) := by
  by_cases hle : octets.length ≤ maxLength
  · rw [if_pos hle, if_neg (Nat.not_lt.mpr hle)]
    exact Reader.bind_of_ok (Reader.take_of_holds h)
  · rw [if_neg hle, if_pos (Nat.lt_of_not_le hle)]
    exact ⟨cursor.pos, rfl⟩

/-- Encodes an unsigned number at the start of a buffer in place. -/
def encodeUnsignedInPlace (value : UInt64) : Buffer.Encoder Nat :=
  Buffer.overwrite (encodeUnsigned value)

/-- Encodes a signed number at the start of a buffer in place. -/
def encodeSignedInPlace (value : Int64) : Buffer.Encoder Nat :=
  Buffer.overwrite (encodeSigned value)

theorem agrees_unsigned (value : UInt64) : Buffer.Agrees (writeUnsigned value)
    (encodeUnsignedInPlace value) (encodeUnsignedInto value) :=
  Buffer.agrees_of_octets (.ok (encodeUnsigned value)) rfl rfl fun _ => rfl

theorem agrees_signed (value : Int64) : Buffer.Agrees (writeSigned value)
    (encodeSignedInPlace value) (encodeSignedInto value) :=
  Buffer.agrees_of_octets (.ok (encodeSigned value)) rfl rfl fun _ => rfl

end Integer

/-! ## All of them -/

/-- What is left of a stream is read as it is decoded from a buffer, and a stream that holds octets
gives the integer that they are as a whole.  The reader then has moved over as many bytes as were
decoded.  Where nothing is decoded nothing is read, for the same reason, but that a stream has ended
where a buffer is too small.  Every writer stores the octets that are put into a buffer.  The buffer
keeps its other bytes, and all of them if nothing is put into it. -/
theorem buffers_mirror_streams :
    (∀ source cursor,
        VarInt.read.Mirrors source cursor Prod.snd
            (VarInt.decode (source.bytes.drop cursor.pos)) ∧
          ElementId.readCounted.Mirrors source cursor Prod.snd
            (ElementId.decode (source.bytes.drop cursor.pos))) ∧
      (∀ source cursor octets, source.Holds cursor.pos octets →
        (Integer.readUnsigned octets.length).Mirrors source cursor (fun _ => octets.length)
            (Integer.decodeUnsigned octets) ∧
          (Integer.readSigned octets.length).Mirrors source cursor (fun _ => octets.length)
            (Integer.decodeSigned octets)) ∧
      ElementId.read = Prod.fst <$> ElementId.readCounted ∧
      (∀ value, Buffer.Agrees (VarInt.write value) (VarInt.encodeInPlace value)
        (VarInt.encodeInto value)) ∧
      (∀ value, Buffer.Agrees (ElementId.writeValue value) (ElementId.encodeInPlace value)
        (ElementId.encodeInto value)) ∧
      (∀ value, Buffer.Agrees (Integer.writeUnsigned value) (Integer.encodeUnsignedInPlace value)
        (Integer.encodeUnsignedInto value)) ∧
      ∀ value, Buffer.Agrees (Integer.writeSigned value) (Integer.encodeSignedInPlace value)
        (Integer.encodeSignedInto value) := by
  refine ⟨fun source cursor => ?_, fun source cursor octets h => ?_, ElementId.read_eq,
    VarInt.agrees, ElementId.agrees, Integer.agrees_unsigned, Integer.agrees_signed⟩
  · exact ⟨VarInt.mirrors_read source cursor, ElementId.mirrors_readCounted source cursor⟩
  · exact ⟨Integer.mirrors_take_decode Integer.ofOctetsUnsigned h,
      Integer.mirrors_take_decode Integer.ofOctetsSigned h⟩

/-- A stream holds a number of two octets and then ends within another one.  A value of two octets
changes the first two of three bytes, and the only one of a buffer of one byte stays. -/
theorem buffers_mirror_streams_truncated :
    Integer.readSigned 2 ⟨[0xaa, 0xff, 0x7f, 0x20], 0⟩ ⟨1, #[]⟩ = .ok (-129) ⟨3, #[]⟩ ∧
      (∃ pos, VarInt.read ⟨[0xaa, 0xff, 0x7f, 0x20], 0⟩ ⟨3, #[]⟩ =
        .error (.readError .unfilled) ⟨pos, #[]⟩) ∧
      VarInt.decode [0x20] = .error (.bufferTooSmall 3 1) ∧
      VarInt.encodeInPlace 0x0b35 [0xaa, 0xaa, 0xaa] = .ok 2 [0x4b, 0x35, 0xaa] ∧
      VarInt.encodeInPlace 0x0b35 [0xaa] = .error (.bufferTooSmall 2 1) [0xaa] := by
  obtain ⟨hcoded, hplain, -, hvarInt, -⟩ := buffers_mirror_streams
  have hdecode : VarInt.decode [0x20] = .error (.bufferTooSmall 3 1) := rfl
  have hoctets : Integer.ofOctetsSigned [0xff, 0x7f] = -129 := by decide +kernel
  have hsigned : Integer.decodeSigned [0xff, 0x7f] = .ok (-129) := congrArg Except.ok hoctets
  have hheld := (hplain ⟨[0xaa, 0xff, 0x7f, 0x20], 0⟩ ⟨1, #[]⟩ [0xff, 0x7f] ⟨[0x20], rfl⟩).2
  have hends := (hcoded ⟨[0xaa, 0xff, 0x7f, 0x20], 0⟩ ⟨3, #[]⟩).1
  have hplaced := (hvarInt 0x0b35).in_place [0xaa, 0xaa, 0xaa]
  have hrefused := (hvarInt 0x0b35).in_place [0xaa]
  rw [hsigned] at hheld
  exact ⟨hheld, hends, hdecode, hplaced, hrefused⟩

end Ebml
