import Ebml.Integer
import Ebml.Proofs.ElementId

/-!
# Integer bodies on streams

An integer takes at most eight octets, and its octets determine it: unsigned ones as a number,
signed ones in two's complement (`twosComplement`).  The octets that a writer chooses have room for
the sign (`two_mul_significand_lt`), which is what the reader relies on.
-/

namespace Ebml.Integer

variable {source : Source} {pos size : Nat}

theorem byteLength_le {n width : Nat} (h : n < 256 ^ width) : byteLength n ≤ width := by
  rw [byteLength]
  split
  next => exact Nat.zero_le _
  next hne =>
    rw [VarInt.pow_256, ← Nat.log2_lt hne] at h
    omega

theorem spans_take_decode {α : Type} (length : Nat) (decode : List UInt8 → α) :
    Reader.Spans (do
      if length > maxLength then throw tooLong
      return decode (← Reader.take length) : Reader α) fun _ n => n = length := by
  by_cases hlong : length > maxLength
  · rw [if_pos hlong]
    exact Reader.Spans.throw_bind
  · rw [if_neg hlong]
    exact (Reader.Spans.take length).bind fun _ _ h => Reader.Spans.pure h.1

theorem yields_take_decode {α : Type} {octets : List UInt8} (decode : List UInt8 → α)
    (hlength : octets.length ≤ maxLength) (h : source.Holds pos octets) :
    Reader.Yields (do
      if octets.length > maxLength then throw tooLong
      return decode (← Reader.take octets.length) : Reader α) source pos (decode octets)
      (pos + octets.length) := by
  rw [if_neg (Nat.not_lt.mpr hlength)]
  exact (Reader.Yields.take h).map rfl

/-! ## Unsigned numbers -/

theorem unsignedSize_le (value : UInt64) : unsignedSize value ≤ maxLength := by
  have hlt : value.toNat < 256 ^ 8 := value.toNat_lt
  exact Nat.max_le.mpr ⟨by decide, byteLength_le hlt⟩

@[simp] theorem length_encodeUnsigned (value : UInt64) :
    (encodeUnsigned value).length = unsignedSize value := BigEndian.length_encode _ _

theorem ofOctetsUnsigned_encodeUnsigned (value : UInt64) :
    ofOctetsUnsigned (encodeUnsigned value) = value := by
  have hlt : value.toNat < 256 ^ unsignedSize value :=
    Nat.lt_of_lt_of_le (lt_pow_byteLength _)
      (Nat.pow_le_pow_right (by decide) (Nat.le_max_right _ _))
  rw [ofOctetsUnsigned, encodeUnsigned, BigEndian.decode_encode, Nat.mod_eq_of_lt hlt]
  exact UInt64.ofNat_toNat

theorem yields_readUnsigned {value : UInt64} (h : source.Holds pos (encodeUnsigned value)) :
    Reader.Yields (readUnsigned (unsignedSize value)) source pos value
      (pos + unsignedSize value) := by
  have hread := yields_take_decode ofOctetsUnsigned
    (by rw [length_encodeUnsigned]; exact unsignedSize_le value) h
  rwa [ofOctetsUnsigned_encodeUnsigned, length_encodeUnsigned] at hread

theorem spans_readUnsigned (length : Nat) :
    Reader.Spans (readUnsigned length) fun _ n => n = length :=
  spans_take_decode length ofOctetsUnsigned

/-- The octets of a number whose body has `size` of them. -/
structure Stored (source : Source) (pos size : Nat) (octets : List UInt8) : Prop where
  length_eq : octets.length = size
  size_le : size ≤ maxLength
  held : source.Holds pos octets

theorem Stored.unique {octets octets' : List UInt8} (h : Stored source pos size octets)
    (h' : Stored source pos size octets') : octets = octets' :=
  h.held.unique h'.held (h.length_eq.trans h'.length_eq.symm)

theorem toNat_ofOctetsUnsigned {octets : List UInt8} (h : octets.length ≤ maxLength) :
    (ofOctetsUnsigned octets).toNat = BigEndian.decode octets := by
  have hlt : BigEndian.decode octets < UInt64.size :=
    Nat.lt_of_lt_of_le (BigEndian.decode_lt octets) (Nat.pow_le_pow_right (by decide) h)
  exact UInt64.toNat_ofNat_of_lt hlt

/-- Zero is stored in zeros, or in no octets. -/
theorem ofOctetsUnsigned_eq_zero {octets : List UInt8} (h : octets.length ≤ maxLength) :
    ofOctetsUnsigned octets = 0 ↔ ∀ octet ∈ octets, octet = 0 := by
  rw [← BigEndian.decode_eq_zero, ← toNat_ofOctetsUnsigned h, ← UInt64.toNat_inj]
  rfl

/-! ## Signed numbers -/

/-- With one bit more than its significand a number is within the range of two's complement. -/
theorem bounds_of_significand {i : Int} {m : Nat} (h : 2 * significand i < m) (heven : m % 2 = 0) :
    -(m : Int) ≤ i * 2 ∧ i * 2 < m := by
  cases i with
  | ofNat n =>
      have hn : 2 * n < m := h
      rw [Int.ofNat_eq_natCast]
      omega
  | negSucc n =>
      have hn : 2 * n < m := h
      rw [Int.negSucc_eq]
      omega

theorem significand_lt (value : Int64) : 2 * significand value.toInt < 256 ^ maxLength := by
  have hlow := value.le_toInt
  have hhigh := value.toInt_lt
  have hpow : 256 ^ maxLength = 0x10000000000000000 := by decide
  rw [hpow]
  generalize value.toInt = i at hlow hhigh
  cases i with
  | ofNat n =>
      simp only [significand, Int.ofNat_eq_natCast] at *
      omega
  | negSucc n =>
      simp only [significand, Int.negSucc_eq] at *
      omega

theorem signedSize_le (value : Int64) : signedSize value ≤ maxLength :=
  Nat.max_le.mpr ⟨by decide, byteLength_le (significand_lt value)⟩

@[simp] theorem length_encodeSigned (value : Int64) :
    (encodeSigned value).length = signedSize value := BigEndian.length_encode _ _

/-- The octets of a signed number have room for one bit beside its significand. -/
theorem two_mul_significand_lt (value : Int64) :
    2 * significand value.toInt < 256 ^ signedSize value :=
  Nat.lt_of_lt_of_le (lt_pow_byteLength _)
    (Nat.pow_le_pow_right (by decide) (Nat.le_max_right _ _))

theorem ofOctetsSigned_encodeSigned (value : Int64) :
    ofOctetsSigned (encodeSigned value) = value := by
  have hroom := two_mul_significand_lt value
  have hpos : 0 < 256 ^ signedSize value := Nat.pow_pos (by decide)
  rw [ofOctetsSigned, length_encodeSigned, encodeSigned, BigEndian.decode_encode]
  generalize hm : 256 ^ signedSize value = m at hroom hpos
  have hcast : (256 : Int) ^ signedSize value = (m : Int) := by
    rw [← hm, Int.natCast_pow]
    rfl
  have hmod : 0 ≤ value.toInt % (m : Int) := Int.emod_nonneg _ (by omega)
  have hlt : value.toInt % (m : Int) < m := Int.emod_lt_of_pos _ (by omega)
  have heven : m % 2 = 0 := by
    have hsize : signedSize value = signedSize value - 1 + 1 := by
      have hmin : 1 ≤ signedSize value := Nat.le_max_left _ _
      omega
    rw [← hm, hsize, Nat.pow_succ, Nat.mul_mod]
    exact Nat.mod_eq_of_lt (by omega)
  obtain ⟨hlow, hhigh⟩ := bounds_of_significand hroom heven
  rw [hcast, Nat.mod_eq_of_lt (by omega), Int.toNat_of_nonneg hmod, Int.emod_bmod,
    Int.bmod_eq_of_le_mul_two hlow hhigh, Int64.ofInt_toInt]

theorem yields_readSigned {value : Int64} (h : source.Holds pos (encodeSigned value)) :
    Reader.Yields (readSigned (signedSize value)) source pos value (pos + signedSize value) := by
  have hread := yields_take_decode ofOctetsSigned
    (by rw [length_encodeSigned]; exact signedSize_le value) h
  rwa [ofOctetsSigned_encodeSigned, length_encodeSigned] at hread

/-- The number that octets stand for in two's complement.  The upper half of the numbers of as many
octets are the negative ones. -/
def twosComplement (octets : List UInt8) : Int :=
  if 2 * BigEndian.decode octets < 256 ^ octets.length then (BigEndian.decode octets : Int)
  else BigEndian.decode octets - (256 ^ octets.length : Nat)

theorem toInt_ofOctetsSigned {octets : List UInt8} (h : octets.length ≤ maxLength) :
    (ofOctetsSigned octets).toInt = twosComplement octets := by
  have hlt := BigEndian.decode_lt octets
  have hmost : 256 ^ octets.length ≤ Int64.size := Nat.pow_le_pow_right (by decide) h
  rw [ofOctetsSigned, Int64.toInt_ofInt, twosComplement]
  generalize BigEndian.decode octets = number at *
  generalize 256 ^ octets.length = count at *
  have hmod : (number : Int) % (count : Nat) = number := Int.emod_eq_of_lt (by omega) (by omega)
  have hhalf : (number : Int) < ((count : Nat) + 1) / 2 ↔ 2 * number < count := by omega
  have hbmod : (number : Int).bmod count =
      if 2 * number < count then (number : Int) else number - (count : Nat) := by
    rw [Int.bmod_def, hmod]
    exact ite_congr (propext hhalf) (fun _ => rfl) fun _ => rfl
  rw [hbmod]
  refine Int.bmod_eq_of_le_mul_two ?_ ?_
  · split <;> omega
  · split <;> omega

theorem spans_readSigned (length : Nat) : Reader.Spans (readSigned length) fun _ n => n = length :=
  spans_take_decode length ofOctetsSigned

end Ebml.Integer
