import Ebml.Proofs.Integer

/-!
# The octets of integers

What octets stand for is said here by their places.  An unsigned number is the sum of the octets,
each as often as its place counts (`placeValue`).  A signed one is less by what the next place would
count if the highest bit of the first octet is set (`signedValue`).  So an octet that repeats the
sign may be put in front (`signedValue_replicate`).

The number of octets that a writer takes is worked out from the number alone.  It is the least that
any octets of the number have, because octets of which fewer are needed would leave the range of
their count (`unsignedSize_le_length`, `signedSize_le_length`).  Both kinds of numbers are coded in
the same way (`Codec`), and the same is said of them (`bodies_exact`).
-/

namespace Ebml.Integer

/-! ## Numbers by places -/

/-- The sum of the octets, each times 256 for every octet after it. -/
def placeValue (octets : List UInt8) : Nat :=
  (octets.reverse.mapIdx fun place octet => octet.toNat * 256 ^ place).sum

theorem placeValue_cons (first : UInt8) (rest : List UInt8) :
    placeValue (first :: rest) = first.toNat * 256 ^ rest.length + placeValue rest := by
  rw [placeValue, List.reverse_cons, List.mapIdx_concat, List.sum_append, List.length_reverse,
    List.sum_singleton, Nat.add_comm, placeValue]

theorem placeValue_eq (octets : List UInt8) : placeValue octets = BigEndian.decode octets := by
  induction octets with
  | nil => rfl
  | cons first rest ih => rw [placeValue_cons, BigEndian.decode_cons, ih]

/-- The highest bit of the first octet is set. -/
def Negative (octets : List UInt8) : Prop := 128 ≤ (octets.headD 0).toNat

instance : DecidablePred Negative := fun _ => inferInstanceAs (Decidable (_ ≤ _))

/-- The number of octets in two's complement. -/
def signedValue (octets : List UInt8) : Int :=
  placeValue octets - (if Negative octets then 256 ^ octets.length else 0 : Nat)

/-- The octet that repeats the sign of others before them. -/
def signOctet (octets : List UInt8) : UInt8 := if Negative octets then 0xff else 0

/-- The sign is that of the upper half of the numbers of as many octets. -/
theorem negative_iff (octets : List UInt8) :
    Negative octets ↔ 256 ^ octets.length ≤ 2 * BigEndian.decode octets := by
  cases octets with
  | nil => decide
  | cons first rest =>
      have hrest := BigEndian.decode_lt rest
      rw [Negative, List.headD_cons, BigEndian.decode_cons, List.length_cons, Nat.pow_succ']
      generalize 256 ^ rest.length = m at hrest ⊢
      constructor
      · intro hfirst
        have hhalf := Nat.mul_le_mul_right m hfirst
        omega
      · intro hhalf
        refine Nat.le_of_not_lt fun hfirst => ?_
        have hbelow := Nat.mul_le_mul_right m (Nat.le_of_lt_succ hfirst)
        omega

theorem signedValue_eq (octets : List UInt8) : signedValue octets = twosComplement octets := by
  rw [signedValue, twosComplement, placeValue_eq]
  by_cases hnegative : Negative octets
  · rw [if_pos hnegative, if_neg (Nat.not_lt.mpr ((negative_iff octets).mp hnegative))]
  · rw [if_neg hnegative, if_pos (Nat.lt_of_not_le (mt (negative_iff octets).mpr hnegative))]
    omega

/-! ## Octets in front -/

theorem placeValue_replicate (octets : List UInt8) (count : Nat) :
    placeValue (List.replicate count 0 ++ octets) = placeValue octets := by
  induction count with
  | zero => rfl
  | succ count ih =>
      rw [List.replicate_succ, List.cons_append, placeValue_cons, ih, UInt8.toNat_zero, Nat.zero_mul,
        Nat.zero_add]

theorem signedValue_signOctet (octets : List UInt8) :
    signedValue (signOctet octets :: octets) = signedValue octets := by
  rw [signedValue, signedValue, placeValue_cons, List.length_cons, Nat.pow_succ']
  by_cases hnegative : Negative octets
  · have hoctet : signOctet octets = 0xff := if_pos hnegative
    have hsign : Negative (0xff :: octets) := by
      show 128 ≤ (0xff : UInt8).toNat
      decide
    rw [hoctet, if_pos hsign, if_pos hnegative, show (0xff : UInt8).toNat = 255 from rfl]
    omega
  · have hoctet : signOctet octets = 0 := if_neg hnegative
    have hsign : ¬ Negative (0 :: octets) := by
      show ¬ 128 ≤ (0 : UInt8).toNat
      decide
    rw [hoctet, if_neg hsign, if_neg hnegative, UInt8.toNat_zero, Nat.zero_mul, Nat.zero_add]

theorem signOctet_replicate (octets : List UInt8) (count : Nat) :
    signOctet (List.replicate count (signOctet octets) ++ octets) = signOctet octets := by
  cases count with
  | zero => rfl
  | succ count =>
      by_cases hnegative : Negative octets
      · have hoctet : signOctet octets = 0xff := if_pos hnegative
        rw [hoctet]
        rfl
      · have hoctet : signOctet octets = 0 := if_neg hnegative
        rw [hoctet]
        rfl

theorem signedValue_replicate (octets : List UInt8) (count : Nat) :
    signedValue (List.replicate count (signOctet octets) ++ octets) = signedValue octets := by
  induction count with
  | zero => rfl
  | succ count ih =>
      have hnext := signedValue_signOctet (List.replicate count (signOctet octets) ++ octets)
      rw [signOctet_replicate, ih] at hnext
      rw [List.replicate_succ, List.cons_append, hnext]

/-! ## The fewest octets -/

/-- No number takes more octets than it is found in. -/
theorem unsignedSize_le_length {octets : List UInt8} (hne : octets ≠ [])
    (hlength : octets.length ≤ maxLength) :
    unsignedSize (ofOctetsUnsigned octets) ≤ octets.length := by
  refine Nat.max_le.mpr ⟨List.length_pos_iff.mpr hne, byteLength_le ?_⟩
  rw [toNat_ofOctetsUnsigned hlength]
  exact BigEndian.decode_lt octets

/-- The number of octets in two's complement leaves one bit of them to the sign. -/
theorem two_mul_significand_twosComplement (octets : List UInt8) :
    2 * significand (twosComplement octets) < 256 ^ octets.length := by
  have hlt := BigEndian.decode_lt octets
  rw [twosComplement]
  split
  next hlow => exact hlow
  next hhigh =>
    have hnegative : (BigEndian.decode octets : Int) - (256 ^ octets.length : Nat) =
        Int.negSucc (256 ^ octets.length - BigEndian.decode octets - 1) := by
      rw [Int.negSucc_eq]
      omega
    rw [hnegative, significand]
    omega

theorem signedSize_le_length {octets : List UInt8} (hne : octets ≠ [])
    (hlength : octets.length ≤ maxLength) :
    signedSize (ofOctetsSigned octets) ≤ octets.length := by
  refine Nat.max_le.mpr ⟨List.length_pos_iff.mpr hne, byteLength_le ?_⟩
  rw [toInt_ofOctetsSigned hlength]
  exact two_mul_significand_twosComplement octets

/-! ## Bodies of both kinds -/

/-- How the numbers of a type are coded. -/
structure Codec (α : Type) where
  /-- The number that a value is. -/
  toInt : α → Int
  /-- The number of octets of a value. -/
  size : α → Nat
  /-- The octets of a value. -/
  encode : α → List UInt8
  /-- The buffer with a value at its start, and the octets that it took. -/
  encodeInto : α → List UInt8 → Except Error (List UInt8 × Nat)
  /-- The value that is a whole body. -/
  decode : List UInt8 → Except Error α

/-- How unsigned numbers are coded. -/
def unsigned : Codec UInt64 where
  toInt value := value.toNat
  size := unsignedSize
  encode := encodeUnsigned
  encodeInto := encodeUnsignedInto
  decode := decodeUnsigned

/-- How signed numbers are coded. -/
def signed : Codec Int64 where
  toInt := Int64.toInt
  size := signedSize
  encode := encodeSigned
  encodeInto := encodeSignedInto
  decode := decodeSigned

namespace Codec

variable {α : Type}

/-- Octets are decoded by what they mean, and no value is encoded in more octets than it is decoded
from. -/
structure Exact (codec : Codec α) (meaning : List UInt8 → Int) (lead : List UInt8 → UInt8) :
    Prop where
  /-- A value has as many octets as it is said to have. -/
  length_encode (value : α) : (codec.encode value).length = codec.size value
  /-- These octets are what a buffer gets that has room for them. -/
  stores (value : α) (buffer : List UInt8) : codec.size value ≤ buffer.length →
    codec.encodeInto value buffer =
      .ok (codec.encode value ++ buffer.drop (codec.size value), codec.size value)
  /-- The value is decoded from its octets. -/
  decode_encode (value : α) : codec.decode (codec.encode value) = .ok value
  /-- It is decoded from no fewer octets, unless from none. -/
  size_le (value : α) (octets : List UInt8) : octets ≠ [] → codec.decode octets = .ok value →
    codec.size value ≤ octets.length
  /-- Up to eight octets are decoded as the number that they mean. -/
  decodes (octets : List UInt8) : octets.length ≤ maxLength →
    ∃ value, codec.decode octets = .ok value ∧ codec.toInt value = meaning octets
  /-- Octets in front that change nothing are ignored. -/
  decode_padded (octets : List UInt8) (count : Nat) : count + octets.length ≤ maxLength →
    codec.decode (List.replicate count (lead octets) ++ octets) = codec.decode octets
  /-- What was decoded is encoded in no more octets. -/
  length_le (octets : List UInt8) (value : α) : octets ≠ [] → codec.decode octets = .ok value →
    (codec.encode value).length ≤ octets.length

/-- What is proved of a codec by itself.  The number of octets is one bound on what is encoded, and
the value of octets says what is decoded. -/
structure Grounded (codec : Codec α) (ofOctets : List UInt8 → α) (meaning : List UInt8 → Int)
    (lead : List UInt8 → UInt8) : Prop where
  /-- Values that are one number are one value. -/
  toInt_inj (a b : α) : codec.toInt a = codec.toInt b → a = b
  /-- A value has as many octets as it is said to have. -/
  length_encode (value : α) : (codec.encode value).length = codec.size value
  /-- They are never too many. -/
  size_le_maxLength (value : α) : codec.size value ≤ maxLength
  /-- A buffer gets them. -/
  encodeInto_eq (value : α) : codec.encodeInto value = Buffer.store (codec.encode value)
  /-- The value of octets is decoded, unless they are too many. -/
  decode_eq (octets : List UInt8) : codec.decode octets =
    if octets.length ≤ maxLength then .ok (ofOctets octets) else .error tooLong
  /-- A value is that of its octets. -/
  ofOctets_encode (value : α) : ofOctets (codec.encode value) = value
  /-- The value of octets is the number that they mean. -/
  toInt_ofOctets (octets : List UInt8) : octets.length ≤ maxLength →
    codec.toInt (ofOctets octets) = meaning octets
  /-- Octets in front do not change what the others mean. -/
  meaning_replicate (octets : List UInt8) (count : Nat) :
    meaning (List.replicate count (lead octets) ++ octets) = meaning octets
  /-- The value of octets does not need more of them. -/
  size_ofOctets_le (octets : List UInt8) : octets ≠ [] → octets.length ≤ maxLength →
    codec.size (ofOctets octets) ≤ octets.length

namespace Grounded

variable {codec : Codec α} {ofOctets : List UInt8 → α} {meaning : List UInt8 → Int}
  {lead : List UInt8 → UInt8} {octets : List UInt8}

theorem decode_of_le (h : codec.Grounded ofOctets meaning lead)
    (hle : octets.length ≤ maxLength) : codec.decode octets = .ok (ofOctets octets) := by
  rw [h.decode_eq, if_pos hle]

theorem size_le_of_decode (h : codec.Grounded ofOctets meaning lead) {value : α}
    (hne : octets ≠ []) (hdecode : codec.decode octets = .ok value) :
    codec.size value ≤ octets.length := by
  rw [h.decode_eq] at hdecode
  split at hdecode
  next hle =>
    cases hdecode
    exact h.size_ofOctets_le octets hne hle
  next => cases hdecode

theorem decode_padded (h : codec.Grounded ofOctets meaning lead) {count : Nat}
    (hle : count + octets.length ≤ maxLength) :
    codec.decode (List.replicate count (lead octets) ++ octets) = codec.decode octets := by
  have hpadded : (List.replicate count (lead octets) ++ octets).length ≤ maxLength := by
    rw [List.length_append, List.length_replicate]
    exact hle
  have hbare : octets.length ≤ maxLength := by omega
  rw [h.decode_of_le hpadded, h.decode_of_le hbare]
  congr 1
  apply h.toInt_inj
  rw [h.toInt_ofOctets _ hpadded, h.toInt_ofOctets _ hbare, h.meaning_replicate]

theorem exact (h : codec.Grounded ofOctets meaning lead) : codec.Exact meaning lead where
  length_encode := h.length_encode
  stores := by
    intro value buffer hroom
    rw [h.encodeInto_eq, Buffer.store, h.length_encode, if_neg (Nat.not_lt.mpr hroom)]
  decode_encode := by
    intro value
    have hle : (codec.encode value).length ≤ maxLength := by
      rw [h.length_encode]
      exact h.size_le_maxLength value
    rw [h.decode_of_le hle, h.ofOctets_encode]
  size_le := by
    intro value octets hne hdecode
    exact h.size_le_of_decode hne hdecode
  decodes := by
    intro octets hle
    exact ⟨ofOctets octets, h.decode_of_le hle, h.toInt_ofOctets octets hle⟩
  decode_padded := by
    intro octets count hle
    exact h.decode_padded hle
  length_le := by
    intro octets value hne hdecode
    rw [h.length_encode]
    exact h.size_le_of_decode hne hdecode

end Grounded

end Codec

theorem unsigned_grounded :
    unsigned.Grounded ofOctetsUnsigned (fun octets => placeValue octets) (fun _ => 0) where
  toInt_inj _ _ h := UInt64.toNat_inj.mp (Int.ofNat_inj.mp h)
  length_encode := length_encodeUnsigned
  size_le_maxLength := unsignedSize_le
  encodeInto_eq _ := rfl
  decode_eq _ := rfl
  ofOctets_encode := ofOctetsUnsigned_encodeUnsigned
  toInt_ofOctets octets h := by
    rw [placeValue_eq, ← toNat_ofOctetsUnsigned h]
    rfl
  meaning_replicate octets count := by rw [placeValue_replicate]
  size_ofOctets_le _ := unsignedSize_le_length

theorem signed_grounded : signed.Grounded ofOctetsSigned signedValue signOctet where
  toInt_inj _ _ h := Int64.toInt_inj.mp h
  length_encode := length_encodeSigned
  size_le_maxLength := signedSize_le
  encodeInto_eq _ := rfl
  decode_eq _ := rfl
  ofOctets_encode := ofOctetsSigned_encodeSigned
  toInt_ofOctets octets h := by
    rw [signedValue_eq]
    exact toInt_ofOctetsSigned h
  meaning_replicate := signedValue_replicate
  size_ofOctets_le _ := signedSize_le_length

/-- Unsigned numbers are stored by places, and may have zeros in front.  Signed numbers are stored in
two's complement, and may have their sign repeated in front.  Either way a number is encoded in as
many octets as it is said to take, is decoded from them, and is decoded from no fewer, so that octets
that were decoded do not get more when they are encoded again. -/
theorem bodies_exact :
    unsigned.Exact (fun octets => placeValue octets) (fun _ => 0) ∧
      signed.Exact signedValue signOctet := by
  exact ⟨unsigned_grounded.exact, signed_grounded.exact⟩

/-- The first negative number of two octets is decoded from three as well, and from no single one.
An unsigned number loses the zeros in front when it is encoded again. -/
theorem bodies_exact_minus_129 :
    (signedSize (-129) = 2 ∧ encodeSigned (-129) = [0xff, 0x7f] ∧
      decodeSigned [0xff, 0x7f] = .ok (-129) ∧ decodeSigned [0xff, 0xff, 0x7f] = .ok (-129) ∧
        ∀ octets, octets ≠ [] → decodeSigned octets = .ok (-129) → 2 ≤ octets.length) ∧
      decodeUnsigned [0, 0, 1] = .ok 1 ∧ (encodeUnsigned 1).length ≤ 3 := by
  obtain ⟨hunsigned, hsigned⟩ := bodies_exact
  have hsize : signedSize (-129) = 2 := by decide +kernel
  have hencode : encodeSigned (-129) = [0xff, 0x7f] := by decide +kernel
  have hdecode := hsigned.decode_encode (-129)
  have hpadded := hsigned.decode_padded [0xff, 0x7f] 1 (by decide)
  have hone : decodeUnsigned [0, 0, 1] = .ok 1 := rfl
  dsimp only [signed] at hdecode hpadded
  rw [hencode] at hdecode
  refine ⟨⟨hsize, hencode, hdecode, hpadded.trans hdecode, fun octets hne h => ?_⟩, hone,
    hunsigned.length_le [0, 0, 1] 1 (by decide) hone⟩
  have hle := hsigned.size_le (-129) octets hne h
  dsimp only [signed] at hle
  rwa [hsize] at hle

end Ebml.Integer
