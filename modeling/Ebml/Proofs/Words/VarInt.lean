import Ebml.Proofs.Lacing.Grammar
import Ebml.Proofs.Words.Arithmetic

/-!
# Variable-length integers read into words

A variable-length integer is read into a word of 64 bits, and its number of octets is a word of
eight.  A signed offset is unbiased in 128 bits and kept in 64.  No first octet, and nothing that
may follow it, leads to a trap (`follows_read`, `offset_eq`).
-/

namespace Ebml.VarInt.Words

/-- The number of octets that a first octet announces. -/
def lengthOf (first : BitVec 8) : Guarded (BitVec 8) := do
  if first = 0 then Guarded.fail .invalidVarInt
  let zeros ← Guarded.log2 first
  Guarded.sub (BitVec.ofNat 8 maxLength) (zeros.setWidth 8)

/-- The number with one octet more. -/
def append (value : BitVec 64) (octet : UInt8) : Guarded (BitVec 64) := do
  let high ← Guarded.shiftLeft value 8
  return high ||| octet.toBitVec.setWidth 64

/-- Reads the octets after a first one into a buffer that has room for the most there may be.  The
value keeps the marker bit. -/
def readRest (first : UInt8) : Guarded (BitVec 64 × BitVec 8) := do
  let length ← lengthOf first.toBitVec
  let count ← Guarded.sub (length.setWidth 64) 1
  Guarded.within count (maxLength - 1)
  let rest ← Reader.take count.toNat
  let value ← rest.foldlM append (first.toBitVec.setWidth 64)
  return (value, length)

/-- The word whose `bits` lowest bits are set. -/
def lowBits (bits : BitVec 32) : Guarded (BitVec 64) := do
  let high ← Guarded.shiftLeft 1 bits
  Guarded.sub high 1

/-- The bits of the payload of `length` octets. -/
def payloadMask (length : BitVec 8) : Guarded (BitVec 64) := do
  let bits ← Guarded.mul (length.setWidth 32) 7
  lowBits bits

/-- Reads a value, and the octets that it took. -/
def read : Guarded (BitVec 64 × BitVec 8) := do
  let first ← Reader.next
  let (marked, length) ← readRest first
  let mask ← payloadMask length
  return (marked &&& mask, length)

/-- What is added to an offset that is stored in `length` octets. -/
def bias (length : BitVec 8) : Guarded (BitVec 64) := do
  let bits ← Guarded.mul (length.setWidth 32) 7
  let below ← Guarded.sub bits 1
  lowBits below

/-- The offset of a payload of `length` octets. -/
def offset (payload : BitVec 64) (length : BitVec 8) : Guarded (BitVec 64) := do
  let added ← bias length
  let difference ← Guarded.subSigned (payload.setWidth 128) (added.setWidth 128)
  return difference.setWidth 64

/-! ## Values -/

theorem follows_lengthOf (first : UInt8) :
    Guarded.Follows (fun word length => word.toNat = length) (lengthOf first.toBitVec)
      (Reader.ofExcept (VarInt.lengthOf first)) := by
  rw [lengthOf, VarInt.lengthOf]
  by_cases hzero : first = 0
  · subst hzero
    exact Guarded.Follows.fail_bind fun _ _ => rfl
  · have hword : first.toBitVec ≠ 0 := fun h => hzero (UInt8.toBitVec_inj.mp h)
    have hnat : first.toNat ≠ 0 := fun h => hzero (UInt8.toNat_inj.mp h)
    have hlog : first.toNat.log2 < 8 := (Nat.log2_lt hnat).mpr first.toNat_lt
    have hzeros : ((BitVec.ofNat 32 first.toNat.log2).setWidth 8).toNat = first.toNat.log2 := by
      rw [BitVec.toNat_setWidth, BitVec.toNat_ofNat]
      omega
    have hle : ((BitVec.ofNat 32 first.toNat.log2).setWidth 8).toNat ≤
        (BitVec.ofNat 8 maxLength).toNat := by
      rw [hzeros]
      exact Nat.le_of_lt hlog
    rw [if_neg hword, if_neg hzero]
    dsimp only
    rw [Guarded.log2_of_ne hword, pure_bind, UInt8.toNat_toBitVec, Guarded.sub_of_le hle]
    refine Guarded.Follows.pure ?_
    rw [BitVec.toNat_sub_of_le hle, hzeros]
    rfl

/-- An octet is put below a value that leaves room for it. -/
theorem toNat_append {value : BitVec 64} {octet : UInt8}
    (h : value.toNat * 256 + octet.toNat < UInt64.size) :
    (value <<< 8 ||| octet.toBitVec.setWidth 64).toNat = value.toNat * 256 + octet.toNat := by
  have hoctet : octet.toNat < 2 ^ 8 := octet.toNat_lt
  have hlow : (octet.toBitVec.setWidth 64).toNat = octet.toNat :=
    BitVec.toNat_setWidth_of_le (by decide)
  have hroom : value.toNat * 2 ^ 8 < 2 ^ 64 := Nat.lt_of_le_of_lt (Nat.le_add_right _ _) h
  have hhigh : (value <<< 8).toNat = value.toNat <<< 8 := by
    rw [BitVec.toNat_shiftLeft, Nat.shiftLeft_eq, Nat.mod_eq_of_lt hroom]
  rw [BitVec.toNat_or, hlow, hhigh, ← Nat.shiftLeft_add_eq_or_of_lt hoctet, Nat.shiftLeft_eq]

/-- The octets after the first do not lead out of 64 bits if the number that they make does not. -/
theorem foldlM_append (octets : List UInt8) (value : BitVec 64)
    (h : octets.foldl (fun n octet => n * 256 + octet.toNat) value.toNat < UInt64.size) :
    ∃ number, octets.foldlM append value = pure number ∧
      number.toNat = octets.foldl (fun n octet => n * 256 + octet.toNat) value.toNat := by
  induction octets generalizing value with
  | nil => exact ⟨value, rfl, rfl⟩
  | cons octet octets ih =>
      rw [List.foldl_cons] at h ⊢
      have hkept : value.toNat * 256 + octet.toNat < UInt64.size := by
        rw [BigEndian.foldl_eq] at h
        have hscale := Nat.le_mul_of_pos_right (value.toNat * 256 + octet.toNat)
          (Nat.pow_pos (by decide) : 0 < 256 ^ octets.length)
        omega
      rw [← toNat_append hkept] at h ⊢
      rw [List.foldlM_cons, append, Guarded.shiftLeft_of_lt (by decide), pure_bind, pure_bind]
      exact ih _ h

theorem follows_readRest (first : UInt8) :
    Guarded.Follows
      (fun word number => (word.1.toNat = number.1 ∧ word.2.toNat = number.2) ∧
        1 ≤ number.2 ∧ number.2 ≤ maxLength)
      (readRest first) (VarInt.readRest first) := by
  refine ((follows_lengthOf first).ensuring fun _ => Reader.Ensures.ofExcept _).bind
    fun word length h => ?_
  obtain ⟨rfl, hlength⟩ := h
  obtain ⟨hne, hpos, hle⟩ := lengthOf_bounds hlength
  have hwide : (word.setWidth 64).toNat = word.toNat := BitVec.toNat_setWidth_of_le (by decide)
  have hone : (1 : BitVec 64).toNat ≤ (word.setWidth 64).toNat := by
    rw [hwide]
    exact hpos
  have hcount : (word.setWidth 64 - 1).toNat = word.toNat - 1 := by
    rw [BitVec.toNat_sub_of_le hone, hwide]
    rfl
  have hroom : (word.setWidth 64 - 1).toNat ≤ maxLength - 1 := by
    rw [hcount]
    exact Nat.sub_le_sub_right hle 1
  rw [Guarded.sub_of_le hone, pure_bind, Guarded.within_of_le hroom, pure_bind, hcount]
  refine ((Guarded.Follows.lift _).ensuring fun _ =>
    Reader.Ensures.of_spans (Reader.Spans.take _)).bind fun rest _ h => ?_
  obtain ⟨rfl, _, _, hrest⟩ := h
  have hfirst : (first.toBitVec.setWidth 64).toNat = first.toNat :=
    BitVec.toNat_setWidth_of_le (by decide)
  have hdecode : rest.foldl (fun n octet => n * 256 + octet.toNat)
      (first.toBitVec.setWidth 64).toNat = BigEndian.decode (first :: rest) := by
    rw [hfirst, BigEndian.foldl_eq, BigEndian.decode_cons]
  have hlt : BigEndian.decode (first :: rest) < UInt64.size := by
    have hroom : 256 ^ (rest.length + 1) ≤ 256 ^ maxLength :=
      Nat.pow_le_pow_right (by decide) (by omega)
    exact Nat.lt_of_lt_of_le (BigEndian.decode_lt _) (Nat.le_trans hroom (by decide))
  obtain ⟨number, hnumber, hvalue⟩ := foldlM_append rest (first.toBitVec.setWidth 64)
    (by rw [hdecode]; exact hlt)
  rw [hnumber, pure_bind]
  exact Guarded.Follows.pure ⟨⟨hvalue.trans hdecode, rfl⟩, hpos, hle⟩

/-- The word has as many low bits set as were asked for, if it has more than these. -/
theorem lowBits_eq {bits : BitVec 32} (h : bits.toNat < 64) :
    ∃ mask, lowBits bits = pure mask ∧ mask.toNat = 2 ^ bits.toNat - 1 := by
  have hpow : 2 ^ bits.toNat < 2 ^ 64 := Nat.pow_lt_pow_right (by decide) h
  have hhigh : ((1 : BitVec 64) <<< bits.toNat).toNat = 2 ^ bits.toNat := by
    rw [BitVec.toNat_shiftLeft, Nat.shiftLeft_eq, show (1 : BitVec 64).toNat = 1 from rfl,
      Nat.one_mul, Nat.mod_eq_of_lt hpow]
  have hle : (1 : BitVec 64).toNat ≤ ((1 : BitVec 64) <<< bits.toNat).toNat := by
    rw [hhigh]
    exact Nat.two_pow_pos _
  refine ⟨((1 : BitVec 64) <<< bits.toNat) - 1, ?_, ?_⟩
  · rw [lowBits, Guarded.shiftLeft_of_lt h, pure_bind, Guarded.sub_of_le hle]
  · rw [BitVec.toNat_sub_of_le hle, hhigh]
    rfl

section

variable {length : BitVec 8}

/-- Seven times the number of octets. -/
theorem toNat_bits (h : length.toNat ≤ maxLength) :
    (length.setWidth 32 * 7).toNat = 7 * length.toNat ∧
      Guarded.mul (length.setWidth 32) 7 = pure (length.setWidth 32 * 7) := by
  have hle : length.toNat ≤ 8 := h
  have hwide : (length.setWidth 32).toNat = length.toNat :=
    BitVec.toNat_setWidth_of_le (by decide)
  have hlt : (length.setWidth 32).toNat * (7 : BitVec 32).toNat < 2 ^ 32 := by
    rw [hwide, show (7 : BitVec 32).toNat = 7 from rfl]
    omega
  refine ⟨?_, Guarded.mul_of_lt hlt⟩
  rw [BitVec.toNat_mul_of_lt hlt, hwide, Nat.mul_comm]
  rfl

theorem payloadMask_eq (h : length.toNat ≤ maxLength) :
    ∃ mask, payloadMask length = pure mask ∧ mask.toNat = 128 ^ length.toNat - 1 := by
  obtain ⟨hbits, hmul⟩ := toNat_bits h
  have hlt : (length.setWidth 32 * 7).toNat < 64 := by
    rw [hbits]
    rw [maxLength] at h
    omega
  obtain ⟨mask, hmask, hvalue⟩ := lowBits_eq hlt
  refine ⟨mask, ?_, ?_⟩
  · rw [payloadMask, hmul, pure_bind, hmask]
  · rw [hvalue, hbits, pow_128]

theorem bias_eq (hpos : 1 ≤ length.toNat) (h : length.toNat ≤ maxLength) :
    ∃ added, bias length = pure added ∧ added.toNat = Offset.bias length.toNat := by
  obtain ⟨hbits, hmul⟩ := toNat_bits h
  have hone : (1 : BitVec 32).toNat ≤ (length.setWidth 32 * 7).toNat := by
    rw [hbits, show (1 : BitVec 32).toNat = 1 from rfl]
    omega
  have hbelow : (length.setWidth 32 * 7 - 1).toNat = 7 * length.toNat - 1 := by
    rw [BitVec.toNat_sub_of_le hone, hbits]
    rfl
  have hlt : (length.setWidth 32 * 7 - 1).toNat < 64 := by
    rw [hbelow]
    rw [maxLength] at h
    omega
  obtain ⟨added, hadded, hvalue⟩ := lowBits_eq hlt
  refine ⟨added, ?_, ?_⟩
  · rw [bias, hmul, pure_bind, Guarded.sub_of_le hone, pure_bind, hadded]
  · rw [hvalue, hbelow, Offset.bias]

end

/-- A value in words is that of a reader, and a payload of its octets. -/
structure Stands (word : BitVec 64 × BitVec 8) (number : Nat × Nat) : Prop where
  /-- The values are one. -/
  value_eq : word.1.toNat = number.1
  /-- The numbers of octets are one. -/
  length_eq : word.2.toNat = number.2
  /-- The value is a payload of the octets. -/
  payload : Payload number.1 number.2

theorem follows_read : Guarded.Follows Stands read VarInt.read := by
  refine (Guarded.Follows.lift _).bind fun first _ h => ?_
  subst h
  refine (follows_readRest first).bind fun word number h => ?_
  obtain ⟨marked, length⟩ := word
  obtain ⟨value, octets⟩ := number
  obtain ⟨⟨rfl, rfl⟩, hpos, hle⟩ := h
  dsimp only at hpos hle ⊢
  obtain ⟨mask, hmask, hvalue⟩ := payloadMask_eq hle
  rw [hmask, pure_bind]
  refine Guarded.Follows.pure ⟨?_, rfl, hpos, hle, Nat.mod_lt _ (Nat.pow_pos (by decide))⟩
  rw [BitVec.toNat_and, hvalue, pow_128, Nat.and_two_pow_sub_one_eq_mod]

/-! ## Offsets -/

theorem toInt_setWidth_128 (value : BitVec 64) : (value.setWidth 128).toInt = value.toNat := by
  have hkept : (value.setWidth 128).toNat = value.toNat :=
    BitVec.toNat_setWidth_of_le (by decide)
  rw [BitVec.toInt_eq_toNat_of_lt (by rw [hkept]; omega), hkept]

/-- In 128 bits, the difference of two numbers of 64 bits is what it is among all numbers. -/
theorem subSigned_eq (a b : BitVec 64) :
    Guarded.subSigned (a.setWidth 128) (b.setWidth 128) =
        pure (a.setWidth 128 - b.setWidth 128) ∧
      (a.setWidth 128 - b.setWidth 128).toInt = (a.toNat : Int) - b.toNat := by
  have hrange : ¬ (a.setWidth 128).ssubOverflow (b.setWidth 128) = true := by
    rw [BitVec.ssubOverflow, toInt_setWidth_128, toInt_setWidth_128, Bool.or_eq_true,
      decide_eq_true_eq, decide_eq_true_eq]
    omega
  refine ⟨if_neg hrange, ?_⟩
  rw [BitVec.toInt_sub_of_not_ssubOverflow hrange, toInt_setWidth_128, toInt_setWidth_128]

/-- The offset of as many octets as can be read has no trap, and is that which a reader has. -/
theorem offset_eq (payload : BitVec 64) {length : BitVec 8} (hpos : 1 ≤ length.toNat)
    (h : length.toNat ≤ maxLength) :
    ∃ word, offset payload length = pure word ∧
      word.toInt = Offset.decode payload.toNat length.toNat := by
  obtain ⟨added, hadded, hbias⟩ := bias_eq hpos h
  obtain ⟨hsub, hdifference⟩ := subSigned_eq payload added
  refine ⟨(payload.setWidth 128 - added.setWidth 128).setWidth 64, ?_, ?_⟩
  · rw [offset, hadded, pure_bind, hsub, pure_bind]
  · calc ((payload.setWidth 128 - added.setWidth 128).setWidth 64).toInt
        = (payload.setWidth 128 - added.setWidth 128).toInt.bmod (2 ^ 64) := by
          rw [BitVec.toInt_setWidth, BitVec.toInt_eq_toNat_bmod,
            Int.bmod_bmod_of_dvd (Nat.pow_dvd_pow 2 (by decide))]
      _ = ((payload.toNat : Int) - Offset.bias length.toNat).bmod (2 ^ 64) := by
          rw [hdifference, hbias]
      _ = Offset.decode payload.toNat length.toNat := Int64.toInt_ofInt.symm

end Ebml.VarInt.Words
