import Ebml.ElementId.Coding
import Ebml.Proofs.VarInt

/-!
# Element IDs on streams

What makes a number an ID (`IsElementId`) is just what a reader needs to know: the first octet of
the number announces as many octets as the number has (`lengthOf_encode`).  So an ID is read back
from its encoding (`yields_read`), and the reader of an ID moved over its encoding (`parses_read`).
-/

namespace Ebml

theorem lt_pow_byteLength (n : Nat) : n < 256 ^ byteLength n := by
  rw [byteLength]
  split
  next h => simp [h]
  next h =>
    rw [VarInt.pow_256, ← Nat.log2_lt h]
    omega

theorem byteLength_eq {n width : Nat} (hlow : 256 ^ width ≤ n) (hhigh : n < 256 ^ (width + 1)) :
    byteLength n = width + 1 := by
  have hpos : 0 < 256 ^ width := Nat.pow_pos (by decide)
  have hne : n ≠ 0 := by omega
  rw [VarInt.pow_256] at hlow hhigh
  have h₁ := (Nat.le_log2 hne).mpr hlow
  have h₂ := (Nat.log2_lt hne).mpr hhigh
  rw [byteLength, if_neg hne]
  omega

/-- A number whose highest bit is the marker of some octets has as many of them. -/
theorem byteLength_of_marked {number length : Nat}
    (hlength : 1 ≤ length ∧ length ≤ VarInt.maxLength)
    (hlow : 128 ^ length ≤ number) (hhigh : number < 2 * 128 ^ length) :
    byteLength number = length := by
  obtain ⟨hmin, hmax⟩ := hlength
  have hfloor : 256 ^ (length - 1) ≤ 128 ^ length := by
    rw [VarInt.pow_256, VarInt.pow_128]
    exact Nat.pow_le_pow_right (by decide) (by rw [VarInt.maxLength] at hmax; omega)
  have hceil : 2 * 128 ^ length ≤ 256 ^ (length - 1 + 1) := by
    rw [Nat.sub_add_cancel hmin]
    exact VarInt.two_mul_pow_le hmin
  exact (byteLength_eq (by omega) (by omega)).trans (Nat.sub_add_cancel hmin)

namespace ElementId

variable {source : Source} {pos : Nat} {sure : Prop}

@[simp] theorem length_encode (id : ElementId) : id.encode.length = id.size :=
  BigEndian.length_encode _ _

theorem encode_ne_nil (id : ElementId) : id.encode ≠ [] := by
  rw [← List.length_pos_iff, length_encode]
  exact id.size_pos

theorem emits_write (id : ElementId) : Writer.Emits sure id.write id.encode id.size :=
  (Writer.Emits.emitCounted _).cast rfl (length_encode id)

theorem fillsGap_write (id : ElementId) : Writer.FillsGap id.write :=
  (Writer.fillsGap_emit id.encode_ne_nil).bind _

/-- The encoding, with its first octet apart. -/
theorem encode_eq_cons (id : ElementId) :
    id.encode = UInt8.ofNat (id.value / 256 ^ (id.size - 1)) ::
      BigEndian.encode (id.size - 1) id.value := by
  have hpos := id.size_pos
  rw [encode]
  obtain ⟨n, hn⟩ : ∃ n, id.size = n + 1 := ⟨id.size - 1, by omega⟩
  rw [hn]
  rfl

theorem decode_encode (id : ElementId) : BigEndian.decode id.encode = id.value := by
  have hlt : id.value < 256 ^ id.size := lt_pow_byteLength id.value
  rw [encode, BigEndian.decode_encode, Nat.mod_eq_of_lt hlt]

/-- The first octet announces as many octets as the ID has. -/
theorem lengthOf_encode (id : ElementId) :
    UInt8.ofNat (id.value / 256 ^ (id.size - 1)) ≠ 0 ∧
      VarInt.lengthOf (UInt8.ofNat (id.value / 256 ^ (id.size - 1))) = .ok id.size := by
  have hlog : (id.value / 256 ^ (id.size - 1)).log2 + id.size = 8 := id.valid.2.1
  have hpos := id.size_pos
  have hlt : id.value / 256 ^ (id.size - 1) < 256 := by
    rw [Nat.div_lt_iff_lt_mul (Nat.pow_pos (by decide)), ← Nat.pow_succ']
    have hsize : (id.size - 1).succ = id.size := by omega
    rw [hsize]
    exact lt_pow_byteLength id.value
  have htoNat : (UInt8.ofNat (id.value / 256 ^ (id.size - 1))).toNat =
      id.value / 256 ^ (id.size - 1) := UInt8.toNat_ofNat_of_lt' hlt
  -- the logarithm of zero is zero, which would leave an ID of eight octets below 256 ^ 7
  have hne : id.value / 256 ^ (id.size - 1) ≠ 0 := by
    intro h0
    rw [Nat.div_eq_zero_iff_lt (Nat.pow_pos (by decide))] at h0
    have hvalue : id.value ≠ 0 := id.valid.1
    have hlow : 256 ^ (id.size - 1) ≤ id.value := by
      rw [VarInt.pow_256, ← Nat.le_log2 hvalue, size, byteLength, if_neg hvalue]
      omega
    omega
  have hfirst : UInt8.ofNat (id.value / 256 ^ (id.size - 1)) ≠ 0 := by
    intro h
    rw [h] at htoNat
    exact hne htoNat.symm
  refine ⟨hfirst, ?_⟩
  rw [VarInt.lengthOf, if_neg hfirst, htoNat, VarInt.maxLength]
  congr 1
  omega

theorem verify_value (id : ElementId) : verify id.value = .ok id := dif_pos id.valid

theorem yields_read {id : ElementId} (h : source.Holds pos id.encode) :
    Reader.Yields read source pos id (pos + id.size) := by
  have hdecode := decode_encode id
  obtain ⟨hfirst, hlength⟩ := lengthOf_encode id
  have hpos := id.size_pos
  rw [encode_eq_cons] at h hdecode
  have hsize : (BigEndian.encode (id.size - 1) id.value).length + 1 = id.size := by
    rw [BigEndian.length_encode]
    omega
  have hrest := VarInt.yields_readRest h.tail (by rw [hsize]; exact hlength)
  rw [hdecode] at hrest
  refine (Reader.Yields.next h.head).bind ?_
  rw [if_neg hfirst]
  exact (hrest.bind (Reader.Yields.ofExcept (verify_value id))).cast (by omega)

theorem verify_eq_ok {value : Nat} {id : ElementId} : verify value = .ok id ↔ id.value = value := by
  constructor
  · intro h
    rw [verify] at h
    split at h
    next => cases h; rfl
    next => cases h
  · rintro rfl
    exact verify_value id

/-- The octets of an ID that was read are its encoding. -/
theorem parses_read : Reader.Parses read source fun id bytes => bytes = id.encode := by
  refine Reader.Parses.next.bind fun first bytes hfirst => ?_
  subst hfirst
  split
  next => exact Reader.Parses.throw
  next =>
    refine (VarInt.parses_readRest first).bind fun marked rest hmarked => ?_
    obtain ⟨rfl, hlength⟩ := hmarked
    obtain ⟨hlow, hhigh⟩ := VarInt.marked_bounds hlength
    have hbounds := (VarInt.lengthOf_bounds hlength).2
    refine (Reader.Parses.ofExcept _).mono fun id bytes hid => ?_
    obtain ⟨rfl, hverify⟩ := hid
    have hvalue := verify_eq_ok.mp hverify
    have hsize : id.size = rest.length + 1 := by
      rw [size, hvalue]
      exact byteLength_of_marked hbounds hlow hhigh
    rw [List.append_nil, encode, hsize, hvalue]
    exact (BigEndian.encode_decode (first :: rest)).symm

/-- An ID that was read has as many octets as the reader moved over. -/
theorem spans_read : Reader.Spans read fun id n => n = id.size := by
  refine (Reader.Parses.spans (fun _ => parses_read) fun source pos id bytes h hheld => ?_).mono
    fun id n h => ?_
  · subst h
    rw [length_encode]
    exact yields_read hheld
  · obtain ⟨_, rfl, rfl⟩ := h
    exact length_encode id

end ElementId

end Ebml
