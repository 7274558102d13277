import Ebml.Proofs.Stream.Emission
import Ebml.Proofs.Stream.Parsing
import Ebml.VarInt

/-!
# Variable-length integers on streams

`VarInt.sized` is the value in a given number of octets and `VarInt.minimal` the value in as few as
possible.  They are what the writers emit, and the reader gives the value back from them, in however
many octets it was stored (`yields_read`).  Whatever it reads was stored in this way
(`parses_read`).
-/

namespace Ebml.VarInt

/-- The value in `length` octets: the marker is the bit above the payload. -/
def sized (value length : Nat) : List UInt8 := BigEndian.encode length (value + 128 ^ length)

/-- The value in as few octets as possible. -/
def minimal (value : Nat) : List UInt8 := sized value (octetLength value)

/-- The octets of a size that is not known: there are only ones after the marker. -/
def unknown (length : Nat) : List UInt8 := sized (128 ^ length - 1) length

example : unknown 1 = [0xff] ∧ unknown 2 = [0x7f, 0xff] := by decide

/-- The value can be stored in `length` octets. -/
def Fits (value length : Nat) : Prop :=
  1 ≤ length ∧ length ≤ maxLength ∧ octetLength value ≤ length ∧ value ≤ max

/-- The value is a payload of `length` octets.  That of eight octets that are all ones is one. -/
structure Payload (value length : Nat) : Prop where
  /-- There is an octet. -/
  length_pos : 1 ≤ length
  /-- There are not too many of them. -/
  length_le : length ≤ maxLength
  /-- They have room for the value. -/
  value_lt : value < 128 ^ length

instance (value length : Nat) : Decidable (Fits value length) :=
  inferInstanceAs (Decidable (_ ∧ _ ∧ _ ∧ _))

@[simp] theorem length_sized (value length : Nat) : (sized value length).length = length :=
  BigEndian.length_encode _ _

@[simp] theorem length_minimal (value : Nat) : (minimal value).length = octetLength value :=
  length_sized _ _

theorem octetLength_pos (value : Nat) : 0 < octetLength value := Nat.succ_pos _

/-! ## Sizes -/

theorem pow_128 (length : Nat) : 128 ^ length = 2 ^ (7 * length) := by
  rw [Nat.pow_mul]

theorem pow_256 (length : Nat) : 256 ^ length = 2 ^ (8 * length) := by
  rw [Nat.pow_mul]

/-- The octets have room for a value exactly if it needs no more of them. -/
theorem octetLength_le_iff {value length : Nat} (hlength : 1 ≤ length) :
    octetLength value ≤ length ↔ value < 128 ^ length := by
  rw [octetLength, pow_128]
  by_cases h0 : value = 0
  · subst h0
    have hpos : 0 < 2 ^ (7 * length) := Nat.two_pow_pos _
    simp only [Nat.log2_zero, Nat.zero_div]
    omega
  · rw [← Nat.log2_lt h0]
    omega

theorem octetLength_le_maxLength {value : Nat} (h : value ≤ max) :
    octetLength value ≤ maxLength := by
  rw [octetLength_le_iff (by decide)]
  exact Nat.lt_of_le_of_lt h (by decide)

theorem fits_octetLength {value : Nat} (h : value ≤ max) : Fits value (octetLength value) :=
  ⟨octetLength_pos value, octetLength_le_maxLength h, Nat.le_refl _, h⟩

theorem Fits.payload {value length : Nat} (h : Fits value length) : Payload value length :=
  ⟨h.1, h.2.1, (octetLength_le_iff h.1).mp h.2.2.1⟩

theorem encodeSized_of_fits {value length : Nat} (h : Fits value length) :
    encodeSized value length = .ok (sized value length) := if_pos h

theorem size_of_le {value : Nat} (h : value ≤ max) : size value = .ok (octetLength value) :=
  if_neg (Nat.not_lt.mpr h)

theorem size_of_not_le {value : Nat} (h : ¬ value ≤ max) :
    size value = .error (.varIntTooBig value) := if_pos (Nat.lt_of_not_le h)

/-- A size is at most a sum that it is part of. -/
theorem le_sum_of_mem {sizes : List Nat} {size : Nat} (h : size ∈ sizes) : size ≤ sizes.sum := by
  induction sizes with
  | nil => cases h
  | cons first sizes ih =>
      rw [List.sum_cons]
      rcases List.mem_cons.mp h with rfl | h
      · omega
      · have hle := ih h
        omega

/-! ## Writing -/

section

variable {sure : Prop}

theorem emits_writeSized {value length : Nat} (h : sure → Fits value length) :
    Writer.Emits sure (writeSized value length) (sized value length) length := by
  rw [writeSized]
  by_cases hfits : Fits value length
  · rw [encodeSized_of_fits hfits]
    exact ((Writer.Emits.pure _).bind (Writer.Emits.emitCounted _)).cast (List.nil_append _)
      (length_sized _ _)
  · have herror : encodeSized value length = .error (.varIntTooBig value) := if_neg hfits
    rw [herror]
    have hthrow : Writer.Emits (α := List UInt8) sure
        (Writer.ofExcept (.error (.varIntTooBig value))) [] (sized value length) :=
      Writer.Emits.throw fun hs => hfits (h hs)
    exact (hthrow.bind (Writer.Emits.emitCounted _)).cast (List.nil_append _) (length_sized _ _)

/-- What does not fit is reported, and nothing is written. -/
theorem writeSized_of_not_fits {value length : Nat} (h : ¬ Fits value length) (sink : Sink) :
    writeSized value length sink = .error (.varIntTooBig value) sink := by
  have herror : encodeSized value length = .error (.varIntTooBig value) := if_neg h
  rw [writeSized, herror]
  rfl

theorem fits_of_writeSized {value length written : Nat} {sink sink' : Sink}
    (hok : writeSized value length sink = .ok written sink') : Fits value length := by
  by_cases hfits : Fits value length
  · exact hfits
  · rw [writeSized_of_not_fits hfits] at hok
    cases hok

theorem emits_write {value : Nat} (h : sure → value ≤ max) :
    Writer.Emits sure (write value) (minimal value) (octetLength value) := by
  rw [write]
  by_cases hle : value ≤ max
  · rw [size_of_le hle]
    exact ((Writer.Emits.pure _).bind (emits_writeSized fun _ => fits_octetLength hle)).cast
      (List.nil_append _) rfl
  · rw [size_of_not_le hle]
    have hthrow : Writer.Emits (α := Nat) sure
        (Writer.ofExcept (.error (.varIntTooBig value))) [] (octetLength value) :=
      Writer.Emits.throw fun hs => hle (h hs)
    exact (hthrow.bind (emits_writeSized fun hs => absurd (h hs) hle)).cast (List.nil_append _) rfl

/-- What can be written as a number can be stored. -/
theorem le_max_of_write {value written : Nat} {sink sink' : Sink}
    (hok : write value sink = .ok written sink') : value ≤ max := by
  by_cases hle : value ≤ max
  · exact hle
  · rw [write, size_of_not_le hle] at hok
    obtain ⟨_, _, hthrow, _⟩ := Writer.bind_eq_ok.mp hok
    cases hthrow

end

/-! ## Reading -/

/-- The first octet of a number that has its highest bit where the marker of `length` octets is. -/
theorem log2_first {number length : Nat} (hlength : 1 ≤ length ∧ length ≤ maxLength)
    (hlow : 128 ^ length ≤ number) (hhigh : number < 2 * 128 ^ length) :
    number / 256 ^ (length - 1) < 256 ∧ number / 256 ^ (length - 1) ≠ 0 ∧
      (number / 256 ^ (length - 1)).log2 = maxLength - length := by
  obtain ⟨hmin, hmax⟩ := hlength
  rw [maxLength] at hmax ⊢
  have hdiv : ∀ k, 2 ^ (7 * length + k) = 2 ^ (8 - length + k) * 256 ^ (length - 1) := by
    intro k
    rw [pow_256, ← Nat.pow_add]
    congr 1
    omega
  have hfloor : 2 ^ (8 - length) ≤ number / 256 ^ (length - 1) := by
    rw [Nat.le_div_iff_mul_le (Nat.pow_pos (by decide)), ← Nat.add_zero (8 - length), ← hdiv,
      Nat.add_zero, ← pow_128]
    exact hlow
  have hceil : number / 256 ^ (length - 1) < 2 ^ (8 - length + 1) := by
    rw [Nat.div_lt_iff_lt_mul (Nat.pow_pos (by decide)), ← hdiv, Nat.pow_succ, ← pow_128,
      Nat.mul_comm]
    exact hhigh
  have hbyte : number / 256 ^ (length - 1) < 256 :=
    Nat.lt_of_lt_of_le hceil (Nat.pow_le_pow_right (by decide) (by omega : 8 - length + 1 ≤ 8))
  have hpos : 0 < 2 ^ (8 - length) := Nat.two_pow_pos _
  have hne : number / 256 ^ (length - 1) ≠ 0 := by omega
  have h₁ := (Nat.le_log2 hne).mpr hfloor
  have h₂ := (Nat.log2_lt hne).mpr hceil
  exact ⟨hbyte, hne, by omega⟩

/-- That first octet announces `length` octets. -/
theorem lengthOf_first {number length : Nat} (hlength : 1 ≤ length ∧ length ≤ maxLength)
    (hlow : 128 ^ length ≤ number) (hhigh : number < 2 * 128 ^ length) :
    lengthOf (UInt8.ofNat (number / 256 ^ (length - 1))) = .ok length := by
  obtain ⟨hbyte, hne, hlog⟩ := log2_first hlength hlow hhigh
  have htoNat : (UInt8.ofNat (number / 256 ^ (length - 1))).toNat = number / 256 ^ (length - 1) :=
    UInt8.toNat_ofNat_of_lt' hbyte
  have hfirst : UInt8.ofNat (number / 256 ^ (length - 1)) ≠ 0 := by
    intro h
    rw [h] at htoNat
    exact hne htoNat.symm
  rw [lengthOf, if_neg hfirst, htoNat, hlog, Nat.sub_sub_self hlength.2]

/-- There is room for the marker above the payload. -/
theorem two_mul_pow_le {length : Nat} (h : 1 ≤ length) : 2 * 128 ^ length ≤ 256 ^ length := by
  rw [pow_128, pow_256, ← Nat.pow_succ']
  exact Nat.pow_le_pow_right (by decide) (by omega)

theorem marked_lt {value length : Nat} (h : Payload value length) :
    value + 128 ^ length < 256 ^ length := by
  have hroom := two_mul_pow_le h.length_pos
  have hvalue := h.value_lt
  omega

/-- The octets of payloads tell them apart. -/
theorem sized_inj {a b length : Nat} (ha : Payload a length) (hb : Payload b length) :
    sized a length = sized b length ↔ a = b := by
  refine ⟨fun h => ?_, fun h => congrArg (sized · length) h⟩
  have hdecode := congrArg BigEndian.decode h
  rw [sized, sized, BigEndian.decode_encode, BigEndian.decode_encode,
    Nat.mod_eq_of_lt (marked_lt ha), Nat.mod_eq_of_lt (marked_lt hb)] at hdecode
  omega

/-- The octets of a payload: the first one announces all of them, and together they are the payload
with its marker. -/
theorem sized_eq_cons {value length : Nat} (h : Payload value length) :
    ∃ first rest, sized value length = first :: rest ∧ rest.length + 1 = length ∧
      lengthOf first = .ok (rest.length + 1) ∧
        BigEndian.decode (first :: rest) = value + 128 ^ length := by
  have hmarked := marked_lt h
  obtain ⟨hmin, hmax, hvalue⟩ := h
  obtain ⟨n, rfl⟩ : ∃ n, length = n + 1 := ⟨length - 1, by omega⟩
  have hfirst : lengthOf (UInt8.ofNat ((value + 128 ^ (n + 1)) / 256 ^ n)) = .ok (n + 1) :=
    lengthOf_first ⟨hmin, hmax⟩ (Nat.le_add_left _ _) (by omega)
  refine ⟨_, _, rfl, ?_, ?_, ?_⟩
  · rw [BigEndian.length_encode]
  · rw [BigEndian.length_encode]
    exact hfirst
  · rw [← BigEndian.encode, BigEndian.decode_encode, Nat.mod_eq_of_lt hmarked]

section

variable {source : Source} {pos : Nat}

/-- The octets after a first one that announces as many. -/
theorem yields_readRest {first : UInt8} {rest : List UInt8} (h : source.Holds pos rest)
    (hlength : lengthOf first = .ok (rest.length + 1)) :
    Reader.Yields (readRest first) source pos (BigEndian.decode (first :: rest), rest.length + 1)
      (pos + rest.length) :=
  (Reader.Yields.ofExcept hlength).bind ((Reader.Yields.take h).map rfl)

theorem yields_read {value length : Nat} (hpayload : Payload value length)
    (h : source.Holds pos (sized value length)) :
    Reader.Yields read source pos (value, length) (pos + length) := by
  obtain ⟨first, rest, hsized, hlength, hfirst, hdecode⟩ := sized_eq_cons hpayload
  rw [hsized] at h
  have hread := yields_readRest h.tail hfirst
  rw [hdecode] at hread
  refine ((Reader.Yields.next h.head).bind (hread.map ?_)).cast (by omega)
  show Pure.pure ((value + 128 ^ length) % 128 ^ (rest.length + 1), rest.length + 1) = _
  rw [hlength, Nat.add_mod_right, Nat.mod_eq_of_lt hpayload.value_lt]

theorem yields_read_minimal {value : Nat} (hvalue : value ≤ max)
    (h : source.Holds pos (minimal value)) :
    Reader.Yields read source pos (value, octetLength value) (pos + octetLength value) :=
  yields_read (fits_octetLength hvalue).payload h

end

theorem lengthOf_bounds {first : UInt8} {length : Nat} (h : lengthOf first = .ok length) :
    first ≠ 0 ∧ 1 ≤ length ∧ length ≤ maxLength := by
  rw [lengthOf] at h
  split at h
  next => cases h
  next hne =>
    cases h
    have hbyte : first.toNat < 2 ^ 8 := first.toNat_lt
    have hnat : first.toNat ≠ 0 := fun h0 => hne (UInt8.toNat_inj.mp h0)
    have hlog := (Nat.log2_lt hnat).mpr hbyte
    refine ⟨hne, ?_, Nat.sub_le _ _⟩
    rw [maxLength]
    omega

/-! ### The octets of a number that was read -/

/-- The highest bit of the first octet is the marker of the octets. -/
theorem marker_eq {first : UInt8} {rest : List UInt8}
    (h : lengthOf first = .ok (rest.length + 1)) :
    first.toNat ≠ 0 ∧ 128 ^ (rest.length + 1) = 2 ^ first.toNat.log2 * 256 ^ rest.length := by
  rw [lengthOf] at h
  split at h
  next => cases h
  next hne =>
    have hnat : first.toNat ≠ 0 := fun h0 => hne (UInt8.toNat_inj.mp h0)
    have hlog : first.toNat.log2 < 8 := (Nat.log2_lt hnat).mpr first.toNat_lt
    have hlength : maxLength - first.toNat.log2 = rest.length + 1 := Except.ok.inj h
    rw [maxLength] at hlength
    refine ⟨hnat, ?_⟩
    rw [pow_128, pow_256, ← Nat.pow_add]
    congr 1
    omega

theorem marked_bounds {first : UInt8} {rest : List UInt8}
    (h : lengthOf first = .ok (rest.length + 1)) :
    128 ^ (rest.length + 1) ≤ BigEndian.decode (first :: rest) ∧
      BigEndian.decode (first :: rest) < 2 * 128 ^ (rest.length + 1) := by
  obtain ⟨hnat, hmarker⟩ := marker_eq h
  have hfloor : 2 ^ first.toNat.log2 ≤ first.toNat := Nat.log2_self_le hnat
  have hceil : first.toNat < 2 ^ (first.toNat.log2 + 1) := Nat.lt_log2_self
  have hlow := Nat.mul_le_mul_right (256 ^ rest.length) hfloor
  have hhigh := Nat.mul_le_mul_right (256 ^ rest.length) hceil
  have hdecode := BigEndian.decode_lt rest
  rw [Nat.pow_succ', Nat.succ_mul] at hhigh
  rw [BigEndian.decode_cons, hmarker, ← Nat.mul_assoc]
  omega

theorem parses_readRest {source : Source} (first : UInt8) :
    Reader.Parses (readRest first) source fun read bytes =>
      read = (BigEndian.decode (first :: bytes), bytes.length + 1) ∧
        lengthOf first = .ok (bytes.length + 1) := by
  refine (Reader.Parses.ofExcept _).bind fun length bytes hlength => ?_
  obtain ⟨rfl, hlength⟩ := hlength
  have hpos := (lengthOf_bounds hlength).2.1
  refine (Reader.Parses.take _).map fun rest bytes hrest => ?_
  obtain ⟨rfl, hcount⟩ := hrest
  rw [List.nil_append, hcount, Nat.sub_add_cancel hpos]
  exact ⟨rfl, hlength⟩

/-- The octets of a number that was read are those of its payload. -/
theorem parses_read {source : Source} :
    Reader.Parses read source fun read bytes =>
      Payload read.1 read.2 ∧ bytes = sized read.1 read.2 := by
  refine Reader.Parses.next.bind fun first bytes hfirst => ?_
  subst hfirst
  refine (parses_readRest first).map fun marked rest hmarked => ?_
  obtain ⟨rfl, hlength⟩ := hmarked
  have hbounds := (lengthOf_bounds hlength).2
  obtain ⟨hlow, hhigh⟩ := marked_bounds hlength
  have hmod : BigEndian.decode (first :: rest) % 128 ^ (rest.length + 1) + 128 ^ (rest.length + 1) =
      BigEndian.decode (first :: rest) := by
    rw [Nat.mod_eq_sub_mod hlow, Nat.mod_eq_of_lt (by omega)]
    omega
  refine ⟨⟨hbounds.1, hbounds.2, Nat.mod_lt _ (Nat.pow_pos (by decide))⟩, ?_⟩
  rw [sized, hmod]
  exact (BigEndian.encode_decode (first :: rest)).symm

/-- A number that was read moved the reader over the octets that were counted. -/
theorem spans_read :
    Reader.Spans read fun read n => n = read.2 ∧ 1 ≤ n ∧ n ≤ maxLength ∧ read.1 < 128 ^ read.2 := by
  refine (Reader.Parses.spans (fun _ => parses_read) fun source pos value bytes h hheld => ?_).mono
    fun value n h => ?_
  · obtain ⟨hpayload, rfl⟩ := h
    rw [length_sized]
    exact yields_read hpayload hheld
  · obtain ⟨_, rfl, hpayload, rfl⟩ := h
    rw [length_sized]
    exact ⟨rfl, hpayload.length_pos, hpayload.length_le, hpayload.value_lt⟩

/-- A number that was read is there for whoever comes to it. -/
theorem of_read {source : Source} {value length : Nat} {cursor cursor' : Cursor}
    (hok : read source cursor = .ok (value, length) cursor') :
    cursor'.pos = cursor.pos + length ∧
      Reader.Yields read source cursor.pos (value, length) (cursor.pos + length) :=
  have hadvances : Reader.Advances read Prod.snd := .of_spans (spans_read.mono fun _ _ h => h.1)
  hadvances _ _ _ _ hok

/-- A number that was read is one of 64 bits. -/
theorem lt_size {value length : Nat}
    (h : 1 ≤ length ∧ length ≤ maxLength ∧ value < 128 ^ length) : value < UInt64.size := by
  have hpow : 128 ^ length ≤ 128 ^ maxLength := Nat.pow_le_pow_right (by decide) h.2.1
  have hsize : 128 ^ maxLength < UInt64.size := by decide
  omega

theorem lt_size_of_yields {source : Source} {pos pos' value length : Nat}
    (h : Reader.Yields read source pos (value, length) pos') : value < UInt64.size := by
  obtain ⟨_, hok⟩ := h #[]
  obtain ⟨_, _, ⟨rfl, hbounds⟩, _, _⟩ := spans_read _ _ _ _ hok
  exact lt_size hbounds

end Ebml.VarInt
