import Ebml.Proofs.ElementId
import Ebml.Proofs.VarInt.Coding

/-!
# IDs and their octets

A number is an ID if it is the marker of some octets with a payload that is not all ones below it
(`isElementId_iff`).  This is also what the octets of an ID are as a variable-length integer
(`coded_eq_sized`), though the check looks at the number and the decoder at the octets.  So an ID
and its octets determine each other, whatever follows the octets (`decode_eq_ok`), and of the octets
of a variable-length integer only those of a size that is not known are no ID (`decode_eq_error`).

Numbers become IDs where an element is made or an ID is read.  Either way the ID can be written
(`octets_identify`).
-/

namespace Ebml.ElementId

/-! ## The marker and the payload -/

/-- The octets of an ID are those of a payload that is not all ones. -/
theorem coded_eq_sized (id : ElementId) : ∃ payload, VarInt.Payload payload id.size ∧
    payload + 1 ≠ 128 ^ id.size ∧ id.value = payload + 128 ^ id.size ∧
      id.encode = VarInt.sized payload id.size := by
  obtain ⟨-, hlength⟩ := lengthOf_encode id
  have hcons := encode_eq_cons id
  generalize UInt8.ofNat (id.value / 256 ^ (id.size - 1)) = first at hlength hcons
  generalize BigEndian.encode (id.size - 1) id.value = rest at hcons
  have hcount : rest.length + 1 = id.size := by
    rw [← length_encode, hcons, List.length_cons]
  obtain ⟨-, hpos, hle⟩ := VarInt.lengthOf_bounds hlength
  obtain ⟨hlow, hhigh⟩ := VarInt.marked_bounds (hcount.symm ▸ hlength)
  rw [← hcons, decode_encode, hcount] at hlow hhigh
  have hvalue : id.value - 128 ^ id.size + 128 ^ id.size = id.value := Nat.sub_add_cancel hlow
  refine ⟨id.value - 128 ^ id.size, ⟨hpos, hle, by omega⟩, fun hones => ?_, hvalue.symm, ?_⟩
  · have hreserved : id.value ≠ 2 ^ (7 * id.size + 1) - 1 := id.valid.2.2
    rw [Nat.pow_succ', ← VarInt.pow_128] at hreserved
    omega
  · rw [VarInt.sized, hvalue, encode]

/-- A marker with a payload that is not all ones is an ID. -/
theorem isElementId_marked {payload length : Nat} (h : VarInt.Payload payload length)
    (hones : payload + 1 ≠ 128 ^ length) :
    IsElementId (payload + 128 ^ length) ∧ byteLength (payload + 128 ^ length) = length := by
  obtain ⟨hpos, hle, hlt⟩ := h
  have hmarker : 0 < 128 ^ length := Nat.pow_pos (by decide)
  have hwidth : byteLength (payload + 128 ^ length) = length :=
    byteLength_of_marked ⟨hpos, hle⟩ (Nat.le_add_left _ _) (by omega)
  obtain ⟨-, -, hlog⟩ := VarInt.log2_first ⟨hpos, hle⟩
    (Nat.le_add_left (128 ^ length) payload) (by omega)
  refine ⟨⟨by omega, ?_, ?_⟩, hwidth⟩
  · rw [hwidth, hlog]
    exact Nat.sub_add_cancel hle
  · rw [hwidth, Nat.pow_succ', ← VarInt.pow_128]
    omega

theorem isElementId_iff {value : Nat} : IsElementId value ↔
    ∃ length payload, (1 ≤ length ∧ length ≤ VarInt.maxLength) ∧
      payload < 2 ^ (7 * length) - 1 ∧ value = 2 ^ (7 * length) + payload := by
  constructor
  · intro hvalid
    obtain ⟨payload, ⟨hpos, hle, hlt⟩, hones, hvalue, -⟩ := coded_eq_sized ⟨value, hvalid⟩
    rw [VarInt.pow_128] at hlt hones hvalue
    exact ⟨_, payload, ⟨hpos, hle⟩, by omega, hvalue.trans (Nat.add_comm _ _)⟩
  · rintro ⟨length, payload, ⟨hpos, hle⟩, hlt, rfl⟩
    rw [← VarInt.pow_128] at hlt ⊢
    rw [Nat.add_comm]
    exact (isElementId_marked ⟨hpos, hle, by omega⟩ (by omega)).1

/-! ## Decoding -/

theorem decode_cons {first : UInt8} {rest : List UInt8} (h : first ≠ 0) :
    decode (first :: rest) = (do
      let (payload, length) ← VarInt.decode (first :: rest)
      return (← verify (payload + 128 ^ length), length)) := if_neg h

/-- The octets of an integer are decoded as an ID by the check of its number. -/
theorem decode_of_varInt {buffer : List UInt8} {payload length : Nat}
    (h : VarInt.decode buffer = .ok (payload, length)) :
    decode buffer = (do return (← verify (payload + 128 ^ length), length)) := by
  cases buffer with
  | nil => cases h
  | cons first rest =>
      have hfirst : first ≠ 0 := by
        rintro rfl
        cases h
      rw [decode_cons hfirst, h]
      rfl

/-- What no ID begins with, and what is said of it. -/
inductive Undecodable : List UInt8 → Error → Prop where
  /-- There is no octet. -/
  | empty : Undecodable [] (.bufferTooSmall 1 0)
  /-- The first octet has no marker. -/
  | unmarked {rest : List UInt8} : Undecodable (0 :: rest) (.invalidEbmlId 0)
  /-- There are fewer octets than the first one announces. -/
  | truncated {first : UInt8} {rest : List UInt8} {length : Nat} :
      VarInt.Announces first length → rest.length + 1 < length →
      Undecodable (first :: rest) (.bufferTooSmall length (rest.length + 1))
  /-- There are only ones after the marker. -/
  | reserved {length : Nat} {rest : List UInt8} :
      1 ≤ length → length ≤ VarInt.maxLength →
      Undecodable (VarInt.unknown length ++ rest) (.invalidEbmlId (2 ^ (7 * length + 1) - 1))

/-- The number whose bits are all ones below the marker. -/
theorem reserved_eq (length : Nat) :
    128 ^ length - 1 + 128 ^ length = 2 ^ (7 * length + 1) - 1 := by
  have hmarker : 0 < 128 ^ length := Nat.pow_pos (by decide)
  rw [Nat.pow_succ', ← VarInt.pow_128]
  omega

theorem decode_reserved {length : Nat} (hpos : 1 ≤ length) (hle : length ≤ VarInt.maxLength)
    (rest : List UInt8) : decode (VarInt.unknown length ++ rest) =
      .error (.invalidEbmlId (2 ^ (7 * length + 1) - 1)) := by
  have hmarker : 0 < 128 ^ length := Nat.pow_pos (by decide)
  have hpayload : VarInt.Payload (128 ^ length - 1) length := ⟨hpos, hle, by omega⟩
  have hwidth : byteLength (128 ^ length - 1 + 128 ^ length) = length :=
    byteLength_of_marked ⟨hpos, hle⟩ (Nat.le_add_left _ _) (by omega)
  have hreserved : ¬ IsElementId (128 ^ length - 1 + 128 ^ length) := by
    rintro ⟨-, -, hne⟩
    rw [hwidth] at hne
    exact hne (reserved_eq length)
  rw [VarInt.unknown, decode_of_varInt (VarInt.decode_eq_ok.mpr ⟨hpayload, List.prefix_append _ _⟩),
    verify, dif_neg hreserved, reserved_eq]
  rfl

/-- A buffer begins with an ID or is refused. -/
theorem decode_cases (buffer : List UInt8) :
    (∃ id : ElementId, id.encode <+: buffer ∧ decode buffer = .ok (id, id.size)) ∨
      ∃ e, Undecodable buffer e ∧ decode buffer = .error e := by
  cases hvar : VarInt.decode buffer with
  | error e =>
      right
      cases VarInt.decode_eq_error.mp hvar with
      | empty => exact ⟨_, .empty, rfl⟩
      | unmarked => exact ⟨_, .unmarked, rfl⟩
      | @truncated first rest length hannounces hshort =>
          have hbounds := VarInt.lengthOf_bounds (VarInt.lengthOf_eq_ok.mpr hannounces)
          refine ⟨_, .truncated hannounces hshort, ?_⟩
          rw [decode_cons hbounds.1, hvar]
          rfl
  | ok coded =>
      obtain ⟨payload, length⟩ := coded
      obtain ⟨hpayload, hprefix⟩ := VarInt.decode_eq_ok.mp hvar
      by_cases hones : payload + 1 = 128 ^ length
      · right
        obtain ⟨rest, rfl⟩ := hprefix
        have hall : payload = 128 ^ length - 1 := by omega
        subst hall
        exact ⟨_, .reserved hpayload.length_pos hpayload.length_le,
          decode_reserved hpayload.length_pos hpayload.length_le rest⟩
      · left
        obtain ⟨hvalid, hwidth⟩ := isElementId_marked hpayload hones
        refine ⟨⟨_, hvalid⟩, ?_, ?_⟩
        · rw [encode, size, hwidth]
          exact hprefix
        · rw [decode_of_varInt hvar, verify, dif_pos hvalid, size, hwidth]
          rfl

/-- The octets at the start of the buffer are those of the ID that is decoded. -/
theorem decode_eq_ok {buffer : List UInt8} {id : ElementId} {length : Nat} :
    decode buffer = .ok (id, length) ↔ length = id.size ∧ id.encode <+: buffer := by
  constructor
  · intro h
    rcases decode_cases buffer with ⟨found, hprefix, hfound⟩ | ⟨_, -, herror⟩
    · rw [hfound] at h
      cases h
      exact ⟨rfl, hprefix⟩
    · rw [herror] at h
      cases h
  · rintro ⟨rfl, hprefix⟩
    obtain ⟨payload, hpayload, hones, hvalue, hencode⟩ := coded_eq_sized id
    rw [hencode] at hprefix
    rw [decode_of_varInt (VarInt.decode_eq_ok.mpr ⟨hpayload, hprefix⟩), ← hvalue, verify_value]
    rfl

theorem decode_eq_error {buffer : List UInt8} {e : Error} :
    decode buffer = .error e ↔ Undecodable buffer e := by
  constructor
  · intro h
    rcases decode_cases buffer with ⟨_, -, hfound⟩ | ⟨_, hrefused, herror⟩
    · rw [hfound] at h
      cases h
    · rw [herror] at h
      cases h
      exact hrefused
  · intro h
    cases h with
    | empty => rfl
    | unmarked => rfl
    | truncated hannounces hshort =>
        have hbounds := VarInt.lengthOf_bounds (VarInt.lengthOf_eq_ok.mpr hannounces)
        rw [decode_cons hbounds.1, VarInt.decode_eq_error.mpr (.truncated hannounces hshort)]
        rfl
    | reserved hpos hle => exact decode_reserved hpos hle _

/-! ## IDs that were made or read -/

/-- The ID passes the check of coded numbers, and is stored wherever there is room for it. -/
structure Storable (id : ElementId) : Prop where
  /-- A buffer keeps what lies behind the octets of the ID. -/
  stores : ∀ buffer, id.size ≤ buffer.length →
    encodeInto id.value buffer = .ok (id.encode ++ buffer.drop id.size, id.size)
  /-- A stream that grows has room. -/
  writes : ∀ stream log, stream.fixed = false →
    write id ⟨stream, log⟩ = .ok id.size ⟨stream.fillGap.overlay id.encode, log⟩

theorem storable (id : ElementId) : Storable id where
  stores buffer hroom := by
    have hfits : ¬ buffer.length < id.encode.length := by
      rw [length_encode]
      exact Nat.not_lt.mpr hroom
    rw [encodeInto, verify_value]
    show Buffer.store id.encode buffer = _
    rw [Buffer.store, if_neg hfits, length_encode]
  writes stream log hgrow := by
    rw [write, Writer.emitCounted_of_growing hgrow, length_encode]

/-- The numbers that are IDs are the markers of one to eight octets with a payload that is not all
ones.  An ID is decoded from its octets whatever follows, and octets that are decoded are those of
the ID.  Only a first octet of zero and a payload that is all ones are said to be no ID.  Whatever
ID was made or read can be written, an ID that was read as it stands in the stream. -/
theorem octets_identify :
    (∀ value, IsElementId value ↔ ∃ length payload, (1 ≤ length ∧ length ≤ VarInt.maxLength) ∧
        payload < 2 ^ (7 * length) - 1 ∧ value = 2 ^ (7 * length) + payload) ∧
      (∀ length payload, 1 ≤ length → length ≤ VarInt.maxLength → payload < 2 ^ (7 * length) - 1 →
        ∃ id, verify (2 ^ (7 * length) + payload) = .ok id ∧ id.size = length) ∧
      (∀ (id : ElementId) rest, decode (id.encode ++ rest) = .ok (id, id.size)) ∧
      (∀ buffer id length, decode buffer = .ok (id, length) →
        length = id.size ∧ length ≤ buffer.length ∧ id.encode = buffer.take length) ∧
      (∀ buffer value, decode buffer = .error (.invalidEbmlId value) ↔
        (∃ rest, buffer = 0 :: rest) ∧ value = 0 ∨
          ∃ length rest, (1 ≤ length ∧ length ≤ VarInt.maxLength) ∧
            buffer = VarInt.unknown length ++ rest ∧ value = 2 ^ (7 * length + 1) - 1) ∧
      (∀ value, IsElementId value ↔
        ∃ id, ofValue value = .ok id ∧ id.value = value ∧ Storable id) ∧
      ∀ source cursor id cursor', read source cursor = .ok id cursor' →
        cursor'.pos = cursor.pos + id.size ∧ source.Holds cursor.pos id.encode ∧ Storable id := by
  refine ⟨fun _ => isElementId_iff, ?size, fun id rest => ?decoded, ?encoded, ?invalid, ?made,
    ?read⟩
  case size =>
    intro length payload hpos hle hlt
    rw [← VarInt.pow_128] at hlt ⊢
    rw [Nat.add_comm]
    have hpayload : VarInt.Payload payload length := ⟨hpos, hle, by omega⟩
    obtain ⟨hvalid, hwidth⟩ := isElementId_marked hpayload (by omega)
    exact ⟨⟨_, hvalid⟩, dif_pos hvalid, hwidth⟩
  case decoded =>
    exact decode_eq_ok.mpr ⟨rfl, List.prefix_append _ _⟩
  case encoded =>
    intro buffer id length h
    obtain ⟨rfl, hprefix⟩ := decode_eq_ok.mp h
    have hle := hprefix.length_le
    have htake := List.prefix_iff_eq_take.mp hprefix
    rw [length_encode] at hle htake
    exact ⟨rfl, hle, htake⟩
  case invalid =>
    intro buffer value
    rw [decode_eq_error]
    constructor
    · intro h
      cases h with
      | unmarked => exact Or.inl ⟨⟨_, rfl⟩, rfl⟩
      | reserved hpos hle => exact Or.inr ⟨_, _, ⟨hpos, hle⟩, rfl, rfl⟩
    · rintro (⟨⟨rest, rfl⟩, rfl⟩ | ⟨length, rest, ⟨hpos, hle⟩, rfl, rfl⟩)
      · exact .unmarked
      · exact .reserved hpos hle
  case made =>
    intro value
    constructor
    · intro hvalid
      exact ⟨⟨value, hvalid⟩, dif_pos hvalid, rfl, storable _⟩
    · rintro ⟨id, -, rfl, -⟩
      exact id.valid
  case read =>
    intro source cursor id cursor' h
    obtain ⟨_, hheld, hpos, rfl⟩ := parses_read _ _ _ h
    rw [length_encode] at hpos
    exact ⟨hpos, hheld, storable id⟩

/-- The number of the IDs of clusters has four octets.  The octets are read from behind one byte and
can be written again.  All ones in two octets are no ID. -/
theorem octets_identify_cluster :
    (∃ id, verify 0x1F43B675 = .ok id ∧ id.size = 4) ∧
      decode [0x1F, 0x43, 0xB6, 0x75, 0xAA] = .ok (cluster, 4) ∧
        cluster.encode = [0x1F, 0x43, 0xB6, 0x75] ∧
          (∃ cursor, read ⟨[0xAA, 0x1F, 0x43, 0xB6, 0x75, 0xAA], 0⟩ ⟨1, #[]⟩ = .ok cluster cursor ∧
            cursor.pos = 5 ∧ Storable cluster) ∧
            decode [0x7F, 0xFF, 0xAA] = .error (.invalidEbmlId 0x7FFF) := by
  obtain ⟨-, hsize, hdecoded, hencoded, hinvalid, -, hread⟩ := octets_identify
  have hbuffer : decode [0x1F, 0x43, 0xB6, 0x75, 0xAA] = .ok (cluster, 4) := hdecoded cluster [0xAA]
  have hstream : ∃ cursor, read ⟨[0xAA, 0x1F, 0x43, 0xB6, 0x75, 0xAA], 0⟩ ⟨1, #[]⟩ =
      .ok cluster cursor := ⟨⟨5, #[]⟩, rfl⟩
  obtain ⟨cursor, hstream⟩ := hstream
  obtain ⟨hpos, -, hstorable⟩ := hread _ _ _ _ hstream
  have hreserved := (hinvalid [0x7F, 0xFF, 0xAA] 0x7FFF).mpr
    (Or.inr ⟨2, [0xAA], by decide, by decide, by decide⟩)
  exact ⟨hsize 4 0xF43B675 (by decide) (by decide) (by decide), hbuffer,
    (hencoded _ _ _ hbuffer).2.2, ⟨cursor, hstream, hpos, hstorable⟩, hreserved⟩

end Ebml.ElementId
