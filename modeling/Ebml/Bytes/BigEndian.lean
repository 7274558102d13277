/-!
# Big-endian numbers

A number and a byte string of fixed width determine each other, most significant byte first.
`BigEndian.encode` keeps the low bytes of a number, `BigEndian.decode` reads any byte string, and
`decode_encode` and `encode_decode` say that each undoes the other.
-/

namespace Ebml

/-! Powers and sums of numbers are those of the core library, also beside one that generalises
them. -/
attribute [scoped instance (2000)] instPowNat Zero.ofOfNat0

/-- The number of bytes that the significant bits of `n` occupy.  Zero has none. -/
def byteLength (n : Nat) : Nat := if n = 0 then 0 else n.log2 / 8 + 1

theorem byteLength_pos {n : Nat} (h : n ≠ 0) : 0 < byteLength n := by
  simp [byteLength, h]

namespace BigEndian

/-- The `width` low bytes of `n`, the most significant first. -/
def encode : Nat → Nat → List UInt8
  | 0, _ => []
  | width + 1, n => UInt8.ofNat (n / 256 ^ width) :: encode width n

/-- The number that a byte string stands for.  The empty string stands for zero. -/
def decode (bytes : List UInt8) : Nat :=
  bytes.foldl (fun n byte => n * 256 + byte.toNat) 0

@[simp] theorem length_encode (width n : Nat) : (encode width n).length = width := by
  induction width with
  | zero => rfl
  | succ width ih => simp [encode, ih]

@[simp] theorem decode_nil : decode [] = 0 := rfl

/-- A leading byte counts for as many powers of 256 as bytes follow it. -/
theorem foldl_eq (bytes : List UInt8) (n : Nat) :
    bytes.foldl (fun n byte => n * 256 + byte.toNat) n = n * 256 ^ bytes.length + decode bytes := by
  induction bytes generalizing n with
  | nil => simp [decode]
  | cons byte bytes ih =>
    have h := ih byte.toNat
    simp only [List.foldl_cons, List.length_cons, decode] at *
    rw [ih, Nat.zero_mul, Nat.zero_add, h, Nat.pow_succ', Nat.add_mul, Nat.mul_assoc]
    omega

theorem decode_cons (byte : UInt8) (bytes : List UInt8) :
    decode (byte :: bytes) = byte.toNat * 256 ^ bytes.length + decode bytes := by
  have h := foldl_eq bytes (0 * 256 + byte.toNat)
  simpa [decode] using h

theorem decode_lt (bytes : List UInt8) : decode bytes < 256 ^ bytes.length := by
  induction bytes with
  | nil => simp
  | cons byte bytes ih =>
    have hb : byte.toNat + 1 ≤ 256 := byte.toNat_lt
    have hm := Nat.mul_le_mul_right (256 ^ bytes.length) hb
    rw [Nat.add_mul, Nat.one_mul] at hm
    rw [decode_cons, List.length_cons, Nat.pow_succ']
    omega

/-- Only zeros come to zero. -/
theorem decode_eq_zero {bytes : List UInt8} :
    decode bytes = 0 ↔ ∀ byte ∈ bytes, byte = 0 := by
  induction bytes with
  | nil => simp
  | cons byte bytes ih =>
      have hpos : 0 < 256 ^ bytes.length := Nat.pow_pos (by decide)
      rw [decode_cons, Nat.add_eq_zero_iff, ih, List.forall_mem_cons, Nat.mul_eq_zero]
      constructor
      · rintro ⟨hbyte, hrest⟩
        exact ⟨UInt8.toNat_inj.mp (hbyte.resolve_right (by omega)), hrest⟩
      · rintro ⟨rfl, hrest⟩
        exact ⟨Or.inl rfl, hrest⟩

theorem decode_encode (width n : Nat) : decode (encode width n) = n % 256 ^ width := by
  induction width with
  | zero => simp [encode, Nat.mod_one]
  | succ width ih =>
    have h : (UInt8.ofNat (n / 256 ^ width)).toNat = n / 256 ^ width % 256 := by simp
    rw [encode, decode_cons, ih, length_encode, h, Nat.pow_succ, Nat.mod_mul, Nat.mul_comm,
      Nat.add_comm]

theorem encode_add_mul (width n k : Nat) : encode width (n + k * 256 ^ width) = encode width n := by
  induction width generalizing k with
  | zero => rfl
  | succ width ih =>
    have hk : k * 256 ^ (width + 1) = 256 ^ width * (k * 256) := by
      rw [Nat.pow_succ, Nat.mul_comm k, Nat.mul_assoc, Nat.mul_comm 256]
    have hd : (n + k * 256 ^ (width + 1)) / 256 ^ width = n / 256 ^ width + k * 256 := by
      rw [hk, Nat.add_mul_div_left _ _ (Nat.pow_pos (by decide))]
    have he : encode width (n + k * 256 ^ (width + 1)) = encode width n := by
      rw [hk, Nat.mul_comm]
      exact ih (k * 256)
    rw [encode, encode, hd, he]
    congr 1
    apply UInt8.toNat_inj.1
    simp

theorem encode_decode (bytes : List UInt8) : encode bytes.length (decode bytes) = bytes := by
  induction bytes with
  | nil => rfl
  | cons byte bytes ih =>
    have hpos : 0 < 256 ^ bytes.length := Nat.pow_pos (by decide)
    have hd : (byte.toNat * 256 ^ bytes.length + decode bytes) / 256 ^ bytes.length
        = byte.toNat := by
      rw [Nat.mul_comm, Nat.mul_add_div hpos, Nat.div_eq_of_lt (decode_lt bytes), Nat.add_zero]
    rw [decode_cons, List.length_cons, encode, hd, Nat.add_comm, encode_add_mul, ih]
    simp

end BigEndian

end Ebml
