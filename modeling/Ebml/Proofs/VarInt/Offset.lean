import Ebml.Proofs.VarInt.Coding
import Ebml.VarInt.Offset

/-!
# Signed offsets and their payloads

The payloads of `length` octets stand for the offsets from `-bias length` to `bias length`, and the
payload that is all ones for none (`two_mul_bias`).  An offset is stored in the fewest octets whose
range it is in (`encode_cases`), and every payload stands for the offset that it is the bias away
from (`decode_eq`).  So a payload that is not all ones stands for an offset that is stored in as
many octets or fewer (`coded_minimally`).
-/

namespace Ebml.VarInt.Offset

/-! ## The range of a number of octets -/

/-- The payloads are twice as many as the bias, and one in the middle, and one that is all ones. -/
theorem two_mul_bias {length : Nat} (h : 1 ≤ length) : 2 * bias length + 2 = 128 ^ length := by
  have hpow : 128 ^ length = 2 * 2 ^ (7 * length - 1) := by
    rw [pow_128, ← Nat.pow_succ']
    congr 1
    omega
  have hpos : 0 < 2 ^ (7 * length - 1) := Nat.two_pow_pos _
  rw [bias]
  omega

theorem bias_le {length other : Nat} (h : length ≤ other) : bias length ≤ bias other :=
  Nat.sub_le_sub_right (Nat.pow_le_pow_right (by decide) (by omega)) 1

/-- No offset that can be read needs more than 64 bits. -/
theorem decode_eq {payload length : Nat} (h : Payload payload length) :
    decode payload length = (payload : Int) - bias length := by
  have hbias := two_mul_bias h.length_pos
  have hpow : 128 ^ length ≤ 128 ^ maxLength := Nat.pow_le_pow_right (by decide) h.length_le
  have hmax : 128 ^ maxLength < 2 ^ 63 := by decide
  have hvalue := h.value_lt
  exact Int64.toInt_ofInt_of_le (by omega) (by omega)

/-! ## Offsets that are stored -/

/-- An offset is stored in the fewest octets whose range it is in, if the most octets have room for
it. -/
theorem encode_cases (offset : Int) :
    (∃ length, (1 ≤ length ∧ length ≤ maxLength) ∧ offset.natAbs ≤ bias length ∧
      (∀ shorter, 1 ≤ shorter → offset.natAbs ≤ bias shorter → length ≤ shorter) ∧
        encode offset = .ok ((offset + bias length).toNat, length)) ∨
      bias maxLength < offset.natAbs ∧ encode offset = .error (.varIntTooBig offset.natAbs) := by
  rw [encode]
  split
  next length hfind =>
    rw [List.find?_range'_eq_some, List.mem_range'_1] at hfind
    obtain ⟨hroom, hbounds, hfirst⟩ := hfind
    refine Or.inl ⟨length, by omega, of_decide_eq_true hroom, fun shorter hmin h => ?_, rfl⟩
    refine Nat.le_of_not_lt fun hlt => ?_
    have hfail := hfirst shorter hmin hlt
    rw [decide_eq_true h] at hfail
    cases hfail
  next hfind =>
    have hnone := List.find?_eq_none.mp hfind maxLength (by decide)
    rw [decide_eq_true_eq] at hnone
    exact Or.inr ⟨Nat.lt_of_not_le hnone, rfl⟩

theorem exists_encode_eq_ok {offset : Int} :
    (∃ coded, encode offset = .ok coded) ↔ offset.natAbs ≤ bias maxLength := by
  rcases encode_cases offset with ⟨length, hlength, hroom, -, hencode⟩ | ⟨hlarge, hencode⟩
  · exact ⟨fun _ => Nat.le_trans hroom (bias_le hlength.2), fun _ => ⟨_, hencode⟩⟩
  · rw [hencode]
    constructor
    · rintro ⟨_, h⟩
      cases h
    · intro h
      exact absurd h (Nat.not_le.mpr hlarge)

section

variable {offset : Int} {length : Nat}

/-- The payload of an offset is not all ones, and stands for that offset. -/
theorem payload_spec (hlength : 1 ≤ length ∧ length ≤ maxLength)
    (hroom : offset.natAbs ≤ bias length) :
    Fits (offset + bias length).toNat length ∧ (offset + bias length).toNat + 2 ≤ 128 ^ length ∧
      ((offset + bias length).toNat : Int) = offset + bias length ∧
        decode (offset + bias length).toNat length = offset := by
  obtain ⟨hpos, hle⟩ := hlength
  have hbias := two_mul_bias hpos
  have hmost : 128 ^ length ≤ 128 ^ maxLength := Nat.pow_le_pow_right (by decide) hle
  have hpayload : ((offset + bias length).toNat : Int) = offset + bias length := by omega
  have hlt : (offset + bias length).toNat + 2 ≤ 128 ^ length := by omega
  have hfits : Fits (offset + bias length).toNat length :=
    ⟨hpos, hle, (octetLength_le_iff hpos).mpr (by omega), by rw [VarInt.max]; omega⟩
  refine ⟨hfits, hlt, hpayload, ?_⟩
  rw [decode_eq hfits.payload, hpayload]
  omega

theorem fits_payload (hlength : 1 ≤ length ∧ length ≤ maxLength)
    (hroom : offset.natAbs ≤ bias length) : Fits (offset + bias length).toNat length :=
  (payload_spec hlength hroom).1

end

/-- A payload that is not all ones stands for an offset in the range of its octets. -/
theorem natAbs_decode_le {payload length : Nat} (h : Payload payload length)
    (hones : payload + 2 ≤ 128 ^ length) : (decode payload length).natAbs ≤ bias length := by
  have hbias := two_mul_bias h.length_pos
  rw [decode_eq h]
  omega

/-- Just the offsets whose magnitude has fewer than 56 bits are stored.  Each is stored in the
fewest octets that have room for it, as a payload that is not all ones, which can always be written
and is read back.  The payload stands for the offset.  Every payload, all ones apart, stands for an
offset that needs no more octets. -/
theorem coded_minimally :
    (∀ offset : Int, (∃ coded, encode offset = .ok coded) ↔
        offset.natAbs ≤ 2 ^ (7 * maxLength - 1) - 1) ∧
      (∀ (offset : Int) payload length, encode offset = .ok (payload, length) →
        ((1 ≤ length ∧ length ≤ maxLength) ∧ offset.natAbs ≤ 2 ^ (7 * length - 1) - 1 ∧
          ∀ shorter, 1 ≤ shorter → offset.natAbs ≤ 2 ^ (7 * shorter - 1) - 1 → length ≤ shorter) ∧
        ((payload : Int) = offset + (2 ^ (7 * length - 1) - 1 : Nat) ∧
          payload ≤ 2 ^ (7 * length) - 2) ∧
        (∃ octets, writeSized payload length = Writer.emitCounted octets ∧
          octets ≠ unknown length ∧
            (∀ rest, VarInt.decode (octets ++ rest) = .ok (payload, length)) ∧
              ∀ source pos, source.Holds pos octets →
                Reader.Yields read source pos (payload, length) (pos + length)) ∧
        decode payload length = offset) ∧
      ∀ payload length, 1 ≤ length → length ≤ maxLength → payload ≤ 2 ^ (7 * length) - 2 →
        ∃ payload' length', encode (decode payload length) = .ok (payload', length') ∧
          length' ≤ length ∧ decode payload' length' = decode payload length := by
  refine ⟨fun _ => exists_encode_eq_ok, ?coded, ?payloads⟩
  case coded =>
    intro offset payload length h
    rcases encode_cases offset with ⟨found, hlength, hroom, hleast, hencode⟩ | ⟨-, hencode⟩
    · rw [hencode] at h
      cases h
      obtain ⟨hfits, hlt, hpayload, hback⟩ := payload_spec hlength hroom
      have hones : sized (offset + bias length).toNat length ≠ unknown length := by
        have hpos : 0 < 128 ^ length := Nat.pow_pos (by decide)
        rw [unknown, Ne, sized_inj hfits.payload ⟨hlength.1, hlength.2, by omega⟩]
        omega
      refine ⟨⟨hlength, hroom, hleast⟩, ⟨hpayload, ?_⟩,
        ⟨_, writeSized_of_fits hfits, hones, ?_, ?_⟩, hback⟩
      · rw [← pow_128]
        omega
      · intro rest
        exact decode_eq_ok.mpr ⟨hfits.payload, List.prefix_append _ _⟩
      · intro source pos hheld
        exact yields_read hfits.payload hheld
    · rw [hencode] at h
      cases h
  case payloads =>
    intro payload length hpos hle hlt
    have hroom : 2 ≤ 128 ^ length :=
      Nat.le_trans (by decide) (Nat.pow_le_pow_right (by decide) hpos)
    rw [← pow_128] at hlt
    have hpayload : Payload payload length := ⟨hpos, hle, by omega⟩
    have hrange := natAbs_decode_le hpayload (by omega)
    rcases encode_cases (decode payload length) with
      ⟨found, hlength, hfound, hleast, hencode⟩ | ⟨hlarge, -⟩
    · exact ⟨_, found, hencode, hleast length hpos hrange, (payload_spec hlength hfound).2.2.2⟩
    · have hmost := bias_le hle
      omega

/-- An offset of 64 needs two octets, and one of 3 is found in as many, though it needs only one. -/
theorem coded_minimally_near_64 :
    (∃ coded, encode 64 = .ok coded) ∧
      encode 64 = .ok (8255, 2) ∧
        (∀ shorter, 1 ≤ shorter → 64 ≤ 2 ^ (7 * shorter - 1) - 1 → 2 ≤ shorter) ∧
        (∃ octets, writeSized 8255 2 = Writer.emitCounted octets ∧ octets ≠ unknown 2 ∧
          VarInt.decode (octets ++ [0xaa]) = .ok (8255, 2)) ∧
        decode 8255 2 = 64 ∧
      decode 8194 2 = 3 ∧
        ∃ payload length, encode (decode 8194 2) = .ok (payload, length) ∧ length ≤ 2 ∧
          decode payload length = 3 := by
  obtain ⟨hstored, hcoded, hpayloads⟩ := coded_minimally
  have hencode : encode 64 = .ok (8255, 2) := rfl
  have hthree : decode 8194 2 = 3 := by decide +kernel
  obtain ⟨⟨-, -, hleast⟩, -, ⟨octets, hwrite, hones, hread, -⟩, hback⟩ := hcoded 64 8255 2 hencode
  obtain ⟨payload, length, hencode', hle, hsame⟩ :=
    hpayloads 8194 2 (by decide) (by decide) (by decide)
  exact ⟨(hstored 64).mpr (by decide), hencode, hleast, ⟨octets, hwrite, hones, hread [0xaa]⟩,
    hback, hthree, payload, length, hencode', hle, hsame.trans hthree⟩

end Ebml.VarInt.Offset
