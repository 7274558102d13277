import Ebml.Proofs.VarInt

/-!
# The octets of variable-length integers

A value may be stored in different numbers of octets, but octets stand for one value in one length
only.  The decoder accepts the octets of every payload and nothing else (`decode_eq_ok`), and what
it refuses has no first octet, no marker or not all of the octets that were announced
(`decode_eq_error`).

A writer stores every payload but one, that of eight octets which is all ones.  So octets that were
decoded are those that are written again, if they are not the octets of that payload
(`octets_exact`).
-/

namespace Ebml.VarInt

/-! ## What a first octet announces -/

/-- The highest bit of the octet is the marker of `length` octets. -/
structure Announces (first : UInt8) (length : Nat) : Prop where
  /-- There is an octet. -/
  length_pos : 1 ≤ length
  /-- There are not too many of them. -/
  length_le : length ≤ maxLength
  /-- The marker is set. -/
  le_first : 2 ^ (maxLength - length) ≤ first.toNat
  /-- No higher bit is set. -/
  first_lt : first.toNat < 2 ^ (maxLength - length + 1)

theorem lengthOf_eq_ok {first : UInt8} {length : Nat} :
    lengthOf first = .ok length ↔ Announces first length := by
  constructor
  · intro h
    obtain ⟨hne, hpos, hle⟩ := lengthOf_bounds h
    have hnat : first.toNat ≠ 0 := fun h0 => hne (UInt8.toNat_inj.mp h0)
    rw [lengthOf, if_neg hne, Except.ok.injEq] at h
    have hlog : first.toNat.log2 < maxLength := (Nat.log2_lt hnat).mpr first.toNat_lt
    have hmarker : maxLength - length = first.toNat.log2 := by omega
    refine ⟨hpos, hle, ?_, ?_⟩
    · rw [hmarker]
      exact Nat.log2_self_le hnat
    · rw [hmarker]
      exact Nat.lt_log2_self
  · rintro ⟨hpos, hle, hlow, hhigh⟩
    have hpow : 0 < 2 ^ (maxLength - length) := Nat.two_pow_pos _
    have hnat : first.toNat ≠ 0 := by omega
    have hne : first ≠ 0 := fun h => hnat (congrArg UInt8.toNat h)
    have h₁ := (Nat.le_log2 hnat).mpr hlow
    have h₂ := (Nat.log2_lt hnat).mpr hhigh
    rw [lengthOf, if_neg hne, Except.ok.injEq]
    omega

/-- An octet that is not zero announces a number of octets. -/
theorem exists_announces {first : UInt8} (h : first ≠ 0) : ∃ length, Announces first length :=
  ⟨_, lengthOf_eq_ok.mp (if_neg h)⟩

/-! ## Decoding -/

theorem decode_cons {first : UInt8} {rest : List UInt8} {length : Nat}
    (h : Announces first length) :
    decode (first :: rest) =
      if rest.length + 1 < length then .error (.bufferTooSmall length (rest.length + 1))
      else .ok (BigEndian.decode (clearMarker first :: rest.take (length - 1)), length) := by
  rw [decode, lengthOf_eq_ok.mpr h]
  rfl

/-- Without the marker the octets are a payload. -/
theorem decode_clearMarker {first : UInt8} {rest : List UInt8}
    (h : lengthOf first = .ok (rest.length + 1)) :
    BigEndian.decode (clearMarker first :: rest) + 128 ^ (rest.length + 1) =
      BigEndian.decode (first :: rest) := by
  obtain ⟨hnat, hmarker⟩ := marker_eq h
  have hfloor : 2 ^ first.toNat.log2 ≤ first.toNat := Nat.log2_self_le hnat
  have hbyte : first.toNat < 256 := first.toNat_lt
  have hclear : (clearMarker first).toNat = first.toNat - 2 ^ first.toNat.log2 :=
    UInt8.toNat_ofNat_of_lt' (Nat.lt_of_le_of_lt (Nat.sub_le _ _) hbyte)
  have hlow := Nat.mul_le_mul_right (256 ^ rest.length) hfloor
  rw [BigEndian.decode_cons, BigEndian.decode_cons, hclear, hmarker, Nat.sub_mul]
  omega

/-- The octets at the start of the buffer are those of the payload that is decoded. -/
theorem decode_eq_ok {buffer : List UInt8} {value length : Nat} :
    decode buffer = .ok (value, length) ↔
      Payload value length ∧ sized value length <+: buffer := by
  constructor
  · intro h
    cases buffer with
    | nil => cases h
    | cons first rest =>
        by_cases hzero : first = 0
        · rw [decode, hzero] at h
          cases h
        obtain ⟨found, hfound⟩ := exists_announces hzero
        rw [decode_cons hfound] at h
        split at h
        next => cases h
        next hroom =>
          cases h
          have hpos := hfound.length_pos
          have hcount : (rest.take (length - 1)).length + 1 = length := by
            rw [List.length_take]
            omega
          have hannounced : lengthOf first = .ok ((rest.take (length - 1)).length + 1) := by
            rw [hcount]
            exact lengthOf_eq_ok.mpr hfound
          have hmarked := decode_clearMarker hannounced
          have hhigh := (marked_bounds hannounced).2
          rw [hcount] at hmarked hhigh
          refine ⟨⟨hpos, hfound.length_le, by omega⟩, ?_⟩
          have hoctets := BigEndian.encode_decode (first :: rest.take (length - 1))
          rw [List.length_cons, hcount] at hoctets
          rw [sized, hmarked, hoctets, List.cons_prefix_cons]
          exact ⟨rfl, List.take_prefix _ _⟩
  · rintro ⟨hpayload, after, rfl⟩
    obtain ⟨first, rest, hsized, hlength, hfirst, hmarked⟩ := sized_eq_cons hpayload
    have hclear := decode_clearMarker hfirst
    rw [hlength, hmarked] at hclear
    have hannounces := lengthOf_eq_ok.mp hfirst
    have hroom : ¬ (rest ++ after).length + 1 < rest.length + 1 := by
      rw [List.length_append]
      omega
    rw [hsized, List.cons_append, decode_cons hannounces, if_neg hroom, Nat.add_sub_cancel,
      List.take_left, hlength, Nat.add_right_cancel hclear]

/-- What no integer begins with, and what is said of it. -/
inductive Undecodable : List UInt8 → Error → Prop where
  /-- There is no octet. -/
  | empty : Undecodable [] (.bufferTooSmall 1 0)
  /-- The first octet has no marker. -/
  | unmarked {rest : List UInt8} : Undecodable (0 :: rest) .invalidVarInt
  /-- There are fewer octets than the first one announces. -/
  | truncated {first : UInt8} {rest : List UInt8} {length : Nat} :
      Announces first length → rest.length + 1 < length →
      Undecodable (first :: rest) (.bufferTooSmall length (rest.length + 1))

theorem decode_eq_error {buffer : List UInt8} {e : Error} :
    decode buffer = .error e ↔ Undecodable buffer e := by
  constructor
  · intro h
    cases buffer with
    | nil =>
        cases h
        exact .empty
    | cons first rest =>
        by_cases hzero : first = 0
        · subst hzero
          cases h
          exact .unmarked
        · obtain ⟨length, hannounces⟩ := exists_announces hzero
          rw [decode_cons hannounces] at h
          split at h
          next hshort =>
            cases h
            exact .truncated hannounces hshort
          next => cases h
  · rintro (_ | _ | ⟨hannounces, hshort⟩)
    · rfl
    · rfl
    · rw [decode_cons hannounces, if_pos hshort]

/-! ## Writing -/

section

variable {value length : Nat}

theorem size_eq_ok : size value = .ok length ↔ value ≤ max ∧ octetLength value = length := by
  by_cases hmax : value ≤ max
  · rw [size_of_le hmax, Except.ok.injEq]
    exact ⟨fun h => ⟨hmax, h⟩, fun h => h.2⟩
  · rw [size_of_not_le hmax]
    constructor
    · intro h
      cases h
    · intro h
      exact absurd h.1 hmax

/-- The least number of octets that have room for a value. -/
theorem octetLength_eq_iff : octetLength value = length ↔
    (1 ≤ length ∧ value < 2 ^ (7 * length)) ∧
      ∀ shorter, 1 ≤ shorter → value < 2 ^ (7 * shorter) → length ≤ shorter := by
  have hroom : ∀ {n}, 1 ≤ n → (octetLength value ≤ n ↔ value < 2 ^ (7 * n)) := fun hn => by
    rw [octetLength_le_iff hn, pow_128]
  constructor
  · rintro rfl
    have hpos := octetLength_pos value
    exact ⟨⟨hpos, (hroom hpos).mp (Nat.le_refl _)⟩, fun shorter hmin h => (hroom hmin).mpr h⟩
  · rintro ⟨⟨hpos, hlt⟩, hleast⟩
    have hself := (hroom (octetLength_pos value)).mp (Nat.le_refl _)
    exact Nat.le_antisymm ((hroom hpos).mpr hlt) (hleast _ (octetLength_pos value) hself)

theorem fits_iff_size : Fits value length ↔
    ∃ fewest, size value = .ok fewest ∧ fewest ≤ length ∧ length ≤ maxLength := by
  constructor
  · rintro ⟨_, hle, hroom, hmax⟩
    exact ⟨_, size_of_le hmax, hroom, hle⟩
  · rintro ⟨fewest, hsize, hroom, hle⟩
    obtain ⟨hmax, rfl⟩ := size_eq_ok.mp hsize
    exact ⟨Nat.le_trans (octetLength_pos value) hroom, hle, hroom, hmax⟩

theorem writeSized_of_fits (h : Fits value length) :
    writeSized value length = Writer.emitCounted (sized value length) := by
  rw [writeSized, encodeSized_of_fits h]
  rfl

/-- The marker is a bit of its own above the payload. -/
theorem sized_eq_or (h : value < 128 ^ length) :
    sized value length = BigEndian.encode length (value ||| 1 <<< (7 * length)) := by
  rw [pow_128] at h
  rw [sized, Nat.shiftLeft_eq, Nat.one_mul, Nat.or_comm, pow_128, Nat.add_comm]
  have hor := Nat.two_pow_add_eq_or_of_lt h 1
  rw [Nat.mul_one] at hor
  rw [hor]

/-- The only payload that is not written is that of the most octets which is all ones. -/
theorem Payload.fits_or (h : Payload value length) :
    Fits value length ∨ length = maxLength ∧ value = 128 ^ maxLength - 1 := by
  obtain ⟨hpos, hle, hlt⟩ := h
  have hroom := (octetLength_le_iff hpos).mpr hlt
  by_cases hmax : value ≤ max
  · exact Or.inl ⟨hpos, hle, hroom, hmax⟩
  · have hmost : 128 ^ (maxLength - 1) ≤ max := by decide
    rcases Nat.lt_or_eq_of_le hle with hless | rfl
    · have hpow : 128 ^ length ≤ 128 ^ (maxLength - 1) :=
        Nat.pow_le_pow_right (by decide) (by omega)
      omega
    · rw [max] at hmax
      exact Or.inr ⟨rfl, by omega⟩

end

/-- A value is stored in any number of octets from the least that has room for it, and is decoded
from them whatever follows.  Nothing else is written.  Octets that are decoded are those that are
written for their value, or a size that is not known in the most octets.  Buffers of which nothing
is decoded have no first octet, no marker, or not all of the octets that were announced. -/
theorem octets_exact :
    (∀ value length, size value = .ok length ↔ value ≤ max ∧
      (1 ≤ length ∧ length ≤ maxLength ∧ value < 2 ^ (7 * length)) ∧
        ∀ shorter, 1 ≤ shorter → value < 2 ^ (7 * shorter) → length ≤ shorter) ∧
      (∀ value fewest length, size value = .ok fewest → fewest ≤ length → length ≤ maxLength →
        ∃ octets, octets = BigEndian.encode length (value ||| 1 <<< (7 * length)) ∧
          writeSized value length = Writer.emitCounted octets ∧
            ∀ rest, decode (octets ++ rest) = .ok (value, length)) ∧
      (∀ value length,
        (¬ ∃ fewest, size value = .ok fewest ∧ fewest ≤ length ∧ length ≤ maxLength) →
        ∀ sink, writeSized value length sink = .error (.varIntTooBig value) sink) ∧
      (∀ buffer value length, decode buffer = .ok (value, length) →
        (1 ≤ length ∧ length ≤ maxLength ∧ length ≤ buffer.length) ∧
          (value ≤ max ∧ writeSized value length = Writer.emitCounted (buffer.take length) ∨
            length = maxLength ∧ buffer.take length = unknown maxLength)) ∧
      ∀ buffer e, decode buffer = .error e ↔ Undecodable buffer e := by
  refine ⟨?size, ?written, ?refused, ?decoded, fun _ _ => decode_eq_error⟩
  case size =>
    intro value length
    rw [size_eq_ok, octetLength_eq_iff]
    constructor
    · rintro ⟨hmax, ⟨hpos, hroom⟩, hleast⟩
      have hmost : max < 2 ^ (7 * maxLength) := by decide
      have hle := hleast maxLength (by decide) (Nat.lt_of_le_of_lt hmax hmost)
      exact ⟨hmax, ⟨hpos, hle, hroom⟩, hleast⟩
    · rintro ⟨hmax, ⟨hpos, -, hroom⟩, hleast⟩
      exact ⟨hmax, ⟨hpos, hroom⟩, hleast⟩
  case written =>
    intro value fewest length hsize hroom hle
    have hfits : Fits value length := fits_iff_size.mpr ⟨fewest, hsize, hroom, hle⟩
    exact ⟨sized value length, sized_eq_or hfits.payload.value_lt, writeSized_of_fits hfits,
      fun rest => decode_eq_ok.mpr ⟨hfits.payload, List.prefix_append _ _⟩⟩
  case refused =>
    intro value length h
    exact writeSized_of_not_fits fun hfits => h (fits_iff_size.mp hfits)
  case decoded =>
    intro buffer value length h
    obtain ⟨hpayload, hprefix⟩ := decode_eq_ok.mp h
    have hle := hprefix.length_le
    have htake := (List.prefix_iff_eq_take.mp hprefix).symm
    rw [length_sized] at hle htake
    refine ⟨⟨hpayload.length_pos, hpayload.length_le, hle⟩, ?_⟩
    rw [htake]
    rcases hpayload.fits_or with hfits | ⟨rfl, rfl⟩
    · exact Or.inl ⟨hfits.2.2.2, writeSized_of_fits hfits⟩
    · exact Or.inr ⟨rfl, rfl⟩

/-- Two takes one octet, may take three, and cannot take nine.  It is decoded from two octets just
as it would be written in them. -/
theorem octets_exact_two :
    size 2 = .ok 1 ∧
      (writeSized 2 3 = Writer.emitCounted [0x20, 0x00, 0x02] ∧
        decode [0x20, 0x00, 0x02, 0xaa] = .ok (2, 3)) ∧
      (∀ sink, writeSized 2 9 sink = .error (.varIntTooBig 2) sink) ∧
      decode [0x40, 0x02, 0xaa] = .ok (2, 2) ∧
        writeSized 2 2 = Writer.emitCounted [0x40, 0x02] := by
  obtain ⟨hsize, hwritten, hrefused, hdecoded, -⟩ := octets_exact
  have hone : size 2 = .ok 1 := (hsize 2 1).mpr ⟨by decide, by decide, fun _ hmin _ => hmin⟩
  have htwo : decode [0x40, 0x02, 0xaa] = .ok (2, 2) := rfl
  obtain ⟨_, rfl, hwrite, hdecode⟩ := hwritten 2 1 3 hone (by decide) (by decide)
  obtain ⟨-, ⟨-, hback⟩ | ⟨hmost, -⟩⟩ := hdecoded _ _ _ htwo
  · refine ⟨hone, ⟨hwrite, hdecode [0xaa]⟩, hrefused 2 9 ?_, htwo, hback⟩
    rintro ⟨_, _, _, hle⟩
    exact absurd hle (by decide)
  · cases hmost

end Ebml.VarInt
