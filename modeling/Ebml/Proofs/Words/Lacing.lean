import Ebml.Proofs.Element.Validity
import Ebml.Proofs.Stream.Conduct
import Ebml.Proofs.Words.VarInt

/-!
# Lace headers read into words

The sizes in a lace header are whatever its octets say.  Here they are read into words of 64 bits,
operation by operation, and most of the operations are made without a check.

None of them traps.  A payload has 56 bits, so in the at most 254 steps of the loop no size leaves
64 of them (`Stored.Fits`).  The total of the sizes may leave them, and is cut off then.  What is
left of the block for the last frame is still worked out as a reader that counts with numbers does
it (`Stored.rest_cases`), and if the total was cut off, nothing is left.
-/

namespace Ebml.Lacing.Words

/-- Reads the number of frames, which is not zero, from a block with `remaining` bytes left. -/
def readCount (remaining : BitVec 64) : Guarded (BitVec 64) := do
  if remaining = 0 then Guarded.fail .badLacedFrameSize
  let count ← Reader.next
  if count = 0 then Guarded.fail .badLacedFrameSize
  return count.toBitVec.setWidth 64

/-- What is kept while sizes are read. -/
structure Stored where
  /-- The sizes so far. -/
  sizes : List (BitVec 64)
  /-- Their sum, or the largest word if that is less. -/
  total : BitVec 64
  /-- The octets of the header so far. -/
  header : BitVec 64

/-- The size that the next difference is from. -/
def Stored.last (stored : Stored) : BitVec 64 := stored.sizes.getLast?.getD 0

/-- One size more, with the header up to it. -/
def Stored.snoc (stored : Stored) (size header : BitVec 64) : Stored :=
  ⟨stored.sizes ++ [size], Guarded.saturatingAdd stored.total size, header⟩

/-- Takes in the next difference. -/
def Stored.push (stored : Stored) (payload : BitVec 64) (length : BitVec 8) : Guarded Stored := do
  let header ← Guarded.add stored.header (length.setWidth 64)
  let difference ← VarInt.Words.offset payload length
  match Guarded.checkedAddSigned stored.last difference with
  | Option.none => Guarded.fail .badLacedFrameSize
  | some size => return stored.snoc size header

/-- Reads `count` more sizes, each stored as the difference from the size before. -/
def Stored.extend (stored : Stored) : Nat → Guarded Stored
  | 0 => return stored
  | count + 1 => do
    let (payload, length) ← VarInt.Words.read
    (← stored.push payload length).extend count

/-- Reads the sizes of all frames but the last, if there are `count` frames. -/
def readStored (count : BitVec 64) : Guarded Stored := do
  if count ≤ 1 then return ⟨[], 0, 1⟩
  let (first, length) ← VarInt.Words.read
  let header ← Guarded.add 1 (length.setWidth 64)
  let total ← Guarded.add 0 first
  let stop ← Guarded.sub count 1
  Stored.extend ⟨[first], total, header⟩ (stop.toNat - 1)

/-- What the header and the stored sizes leave for the last frame, if they leave something. -/
def Stored.rest (stored : Stored) (remaining : BitVec 64) : Option (BitVec 64) :=
  (Guarded.checkedSub remaining stored.header).bind fun frames =>
    Guarded.checkedSub frames stored.total

/-- Checks that no frame is empty. -/
def checked (sizes : List (BitVec 64)) (header : BitVec 64) :
    Guarded (List (BitVec 64) × BitVec 64) := do
  if sizes.contains 0 then Guarded.fail .emptyFrame
  return (sizes, header)

/-- Works out the size of the last frame, if the other sizes leave room for it. -/
def Stored.finish (stored : Stored) (remaining : BitVec 64) :
    Guarded (List (BitVec 64) × BitVec 64) :=
  match stored.rest remaining with
  | Option.none => do
    Reader.note (.oversizedLace stored.total.toNat remaining.toNat)
    Guarded.fail .badLacedFrameSize
  | some last => checked (stored.sizes ++ [last]) stored.header

/-- Reads the lace header of a block with `remaining` bytes left, and returns the sizes of the
frames and of the header. -/
def readHeader (lacing : Lacing) (remaining : BitVec 64) (id : ElementId) (declared : Nat) :
    Guarded (List (BitVec 64) × BitVec 64) :=
  match lacing with
  | none => do
    if remaining = 0 then Guarded.fail (.badBodySize id.value declared declared)
    return ([remaining], 0)
  | fixed => do
    let count ← readCount remaining
    let available ← Guarded.sub remaining 1
    let uneven ← Guarded.rem available count
    if uneven ≠ 0 then
      Reader.note (.indivisibleLace count.toNat available.toNat)
      Guarded.fail .badLacedFrameSize
    let size ← Guarded.div available count
    checked (List.replicate count.toNat size) 1
  | ebml => do
    let count ← readCount remaining
    let stored ← readStored count
    stored.finish remaining

/-- The sum of sizes as it is kept while they are read. -/
def runningTotal (sizes : List (BitVec 64)) : BitVec 64 :=
  sizes.foldl Guarded.saturatingAdd 0

/-- What was read, as numbers. -/
def numbers (read : List (BitVec 64) × BitVec 64) : List Nat × Nat :=
  (read.1.map BitVec.toNat, read.2.toNat)

/-! ## The loop over the differences -/

theorem toNat_foldl_saturatingAdd (sizes : List (BitVec 64)) (total : BitVec 64) :
    (sizes.foldl Guarded.saturatingAdd total).toNat =
      (sizes.map BitVec.toNat).foldl (fun total size => min (total + size) (UInt64.size - 1))
        total.toNat := by
  induction sizes generalizing total with
  | nil => rfl
  | cons size sizes ih =>
      rw [List.foldl_cons, ih, List.map_cons, List.foldl_cons, Guarded.toNat_saturatingAdd]

theorem toNat_runningTotal (sizes : List (BitVec 64)) :
    (runningTotal sizes).toNat = cappedSum (sizes.map BitVec.toNat) :=
  toNat_foldl_saturatingAdd sizes 0

/-- The words that were stored show the sizes that a reader has, and the octets that it counted. -/
structure Stored.Stands (stored : Stored) (read : List Nat × Nat) : Prop where
  /-- The sizes are one. -/
  sizes_eq : stored.sizes.map BitVec.toNat = read.1
  /-- The octet with the number of frames is part of the header. -/
  header_eq : stored.header.toNat = 1 + read.2
  /-- The total is that of the sizes. -/
  total_eq : stored.total = runningTotal stored.sizes

theorem Stored.Stands.toNat_total {stored : Stored} {read : List Nat × Nat}
    (h : stored.Stands read) : stored.total.toNat = cappedSum read.1 := by
  rw [h.total_eq, toNat_runningTotal, h.sizes_eq]

theorem Stored.last_snoc (stored : Stored) (size header : BitVec 64) :
    (stored.snoc size header).last = size := by
  rw [last, snoc, List.getLast?_append, List.getLast?_singleton]
  rfl

theorem Stored.Stands.snoc {stored : Stored} {read : List Nat × Nat} (h : stored.Stands read)
    {size header : BitVec 64} {length : Nat}
    (hheader : header.toNat = stored.header.toNat + length) :
    (stored.snoc size header).Stands (read.1 ++ [size.toNat], read.2 + length) := by
  refine ⟨?_, ?_, ?_⟩
  · rw [Stored.snoc, List.map_append, h.sizes_eq]
    rfl
  · rw [Stored.snoc, hheader, h.header_eq, Nat.add_assoc]
  · rw [Stored.snoc, runningTotal, List.foldl_append, ← runningTotal, h.total_eq]
    rfl

/-- Payloads are smaller than this, in however many octets. -/
def payloadBound : Nat := 128 ^ VarInt.maxLength

theorem lt_payloadBound {payload length : Nat} (h : VarInt.Payload payload length) :
    payload < payloadBound :=
  Nat.lt_of_lt_of_le h.value_lt (Nat.pow_le_pow_right (by decide) h.length_le)

/-- The octets of a number can be added to a header that has room for as many as there may be. -/
theorem add_octets (header : BitVec 64) {payload : Nat} {length : BitVec 8}
    (h : VarInt.Payload payload length.toNat)
    (hroom : header.toNat + VarInt.maxLength < UInt64.size) :
    ∃ sum, Guarded.add header (length.setWidth 64) = pure sum ∧
      sum.toNat = header.toNat + length.toNat := by
  have hlength : length.toNat ≤ VarInt.maxLength := h.length_le
  have hwide : (length.setWidth 64).toNat = length.toNat :=
    BitVec.toNat_setWidth_of_le (by decide)
  have hadd : header.toNat + (length.setWidth 64).toNat < UInt64.size := by omega
  exact ⟨_, Guarded.add_of_lt hadd, by rw [BitVec.toNat_add_of_lt hadd, hwide]⟩

/-- There is room in the words for `count` more sizes. -/
structure Stored.Fits (stored : Stored) (count : Nat) : Prop where
  /-- No size is larger than the one before by more than a payload. -/
  last_lt : stored.last.toNat + count * payloadBound < UInt64.size
  /-- The header does not grow by more octets than a number may have. -/
  header_lt : stored.header.toNat + count * VarInt.maxLength < UInt64.size

/-- A difference that leads below zero is refused, and any other is taken in. -/
theorem Stored.push_cases {stored : Stored} {count : Nat} {read : List Nat × Nat}
    {payload : BitVec 64} {length : BitVec 8} (hfits : stored.Fits (count + 1))
    (hstands : stored.Stands read) (hpayload : VarInt.Payload payload.toNat length.toNat)
    {size : Int}
    (hsize : size = stored.last.toNat + VarInt.Offset.decode payload.toNat length.toNat) :
    (size < 0 ∧ stored.push payload length = Guarded.fail .badLacedFrameSize) ∨
      0 ≤ size ∧ ∃ next : Stored, stored.push payload length = pure next ∧ next.Fits count ∧
        next.last.toNat = size.toNat ∧
        next.Stands (read.1 ++ [size.toNat], read.2 + length.toNat) := by
  obtain ⟨hlast, hroom⟩ := hfits
  rw [Nat.succ_mul] at hlast hroom
  have hword : UInt64.size = 2 ^ 64 := rfl
  obtain ⟨header, hadd, hheader⟩ := add_octets stored.header hpayload (by omega)
  obtain ⟨difference, hoffset, hdifference⟩ :=
    VarInt.Words.offset_eq payload hpayload.length_pos hpayload.length_le
  have hhigh : size + count * payloadBound < UInt64.size := by
    have hvalue := lt_payloadBound hpayload
    rw [VarInt.Offset.decode_eq hpayload] at hsize
    omega
  rw [← hdifference] at hsize
  rw [push, hadd, pure_bind, hoffset, pure_bind]
  by_cases hlow : 0 ≤ size
  · obtain ⟨hsum, hnext⟩ :=
      Guarded.checkedAddSigned_of_lt (hsize ▸ hlow) (by rw [← hsize]; omega)
    have hnat : (stored.last + difference).toNat = size.toNat := by
      rw [hsize, ← hnext]
      rfl
    have hlength : length.toNat ≤ VarInt.maxLength := hpayload.length_le
    rw [hsum, ← hnat]
    refine Or.inr ⟨hlow, _, rfl, ⟨?_, ?_⟩, ?_, hstands.snoc hheader⟩
    · rw [last_snoc]
      omega
    · show header.toNat + _ < _
      omega
    · rw [last_snoc]
  · rw [Guarded.checkedAddSigned_of_neg (hsize ▸ Int.not_le.mp hlow)]
    exact Or.inl ⟨Int.not_le.mp hlow, rfl⟩

/-- The loop does what the recursion of the reader does.  Its invariant is that the words stand for
the sizes read so far, and have room for those that are still to come. -/
theorem Stored.follows_extend (count : Nat) : ∀ {stored : Stored} {read : List Nat × Nat},
    stored.Fits count → stored.Stands read →
      Guarded.Follows (fun next more => next.Stands (read.1 ++ more.1, read.2 + more.2))
        (stored.extend count) (readDifferences stored.last.toNat count) := by
  induction count with
  | zero =>
      intro stored read _ hstands
      refine Guarded.Follows.pure ?_
      rw [List.append_nil]
      exact hstands
  | succ count ih =>
      intro stored read hfits hstands
      refine VarInt.Words.follows_read.bind fun word number h => ?_
      obtain ⟨payload, length⟩ := word
      obtain ⟨value, octets⟩ := number
      obtain ⟨rfl, rfl, hfound⟩ := h
      dsimp only at hfound ⊢
      rcases push_cases hfits hstands hfound rfl with
        ⟨hneg, hpush⟩ | ⟨hnonneg, next, hpush, hfits', hlast, hstands'⟩
      · rw [hpush, if_pos hneg]
        exact Guarded.Follows.fail_bind fun _ _ => rfl
      · rw [hpush, pure_bind, if_neg (Int.not_lt.mpr hnonneg), ← hlast]
        refine (ih hfits' hstands').map fun after more h => ?_
        rw [← hlast, List.append_assoc, Nat.add_assoc] at h
        exact h

/-- The loop is entered with room for all that a count of one octet can ask for. -/
theorem follows_readStored {count : BitVec 64} (hcount : count.toNat ≤ 255) :
    Guarded.Follows Stored.Stands (readStored count) (readStoredSizes count.toNat) := by
  rw [readStored, readStoredSizes]
  by_cases hle : count.toNat ≤ 1
  · rw [if_pos (BitVec.le_def.mpr hle), if_pos hle]
    exact Guarded.Follows.pure ⟨rfl, rfl, rfl⟩
  · rw [if_neg fun h => hle (BitVec.le_def.mp h), if_neg hle]
    refine VarInt.Words.follows_read.bind fun word number h => ?_
    obtain ⟨first, length⟩ := word
    obtain ⟨value, octets⟩ := number
    obtain ⟨rfl, rfl, hfound⟩ := h
    dsimp only at hfound ⊢
    have hvalue := lt_payloadBound hfound
    have hlength : length.toNat ≤ VarInt.maxLength := hfound.length_le
    have hone : (1 : BitVec 64).toNat = 1 := rfl
    have hzero : (0 : BitVec 64).toNat = 0 := rfl
    have htotal : (0 : BitVec 64).toNat + first.toNat < 2 ^ 64 := by omega
    have hstop : (1 : BitVec 64).toNat ≤ count.toNat := by omega
    have hword : UInt64.size = 2 ^ 64 := rfl
    have hbound : payloadBound = 2 ^ 56 := by decide
    obtain ⟨header, hadd, hheader⟩ := add_octets 1 hfound (by decide)
    have hstands : Stored.Stands ⟨[first], 0 + first, header⟩ ([first.toNat], length.toNat) :=
      ⟨rfl, hheader, (Guarded.saturatingAdd_of_lt htotal).symm⟩
    have hfits : Stored.Fits ⟨[first], 0 + first, header⟩ (count.toNat - 2) := by
      rw [VarInt.maxLength] at hlength
      rw [hbound] at hvalue
      refine ⟨?_, ?_⟩
      · show first.toNat + _ * payloadBound < _
        rw [hbound]
        omega
      · show header.toNat + _ * 8 < _
        omega
    rw [hadd, pure_bind, Guarded.add_of_lt htotal, pure_bind, Guarded.sub_of_le hstop, pure_bind,
      BitVec.toNat_sub_of_le hstop, hone, Nat.sub_sub]
    exact (Stored.follows_extend _ hfits hstands).map fun next more h => h

/-! ## Headers -/

theorem follows_readCount (remaining : BitVec 64) :
    Guarded.Follows (fun word count => (word.toNat = count ∧ remaining ≠ 0) ∧
        count ≠ 0 ∧ count ≤ 255)
      (readCount remaining) (Lacing.readCount remaining.toNat) := by
  refine Guarded.Follows.ensuring ?_ fun _ => ensures_readCount _
  rw [readCount, Lacing.readCount]
  by_cases hremaining : remaining = 0
  · subst hremaining
    exact Guarded.Follows.fail_bind fun _ _ => rfl
  · rw [if_neg hremaining, if_neg (mt Guarded.toNat_eq_zero.mp hremaining)]
    refine (Guarded.Follows.lift _).bind fun count _ h => ?_
    subst h
    by_cases hcount : count = 0
    · rw [if_pos hcount, if_pos hcount]
      exact Guarded.Follows.fail_bind fun _ _ => rfl
    · rw [if_neg hcount, if_neg hcount]
      exact Guarded.Follows.pure ⟨BitVec.toNat_setWidth_of_le (by decide), hremaining⟩

/-- What is left is worked out without a total that was cut off making a difference. -/
theorem Stored.rest_cases {stored : Stored} {read : List Nat × Nat} (h : stored.Stands read)
    (remaining : BitVec 64) :
    (remaining.toNat < 1 + read.2 + cappedSum read.1 ∧ stored.rest remaining = Option.none) ∨
      1 + read.2 + cappedSum read.1 ≤ remaining.toNat ∧
        ∃ last, stored.rest remaining = some last ∧
          last.toNat = remaining.toNat - (1 + read.2 + cappedSum read.1) := by
  rw [← h.header_eq, ← h.toNat_total, rest]
  by_cases hheader : stored.header.toNat ≤ remaining.toNat
  · rw [Guarded.checkedSub_of_le hheader, Option.bind_some]
    have hframes : (remaining - stored.header).toNat = remaining.toNat - stored.header.toNat :=
      BitVec.toNat_sub_of_le (BitVec.le_def.mpr hheader)
    by_cases hsum : stored.total.toNat ≤ (remaining - stored.header).toNat
    · refine Or.inr ⟨by omega, _, Guarded.checkedSub_of_le hsum, ?_⟩
      rw [BitVec.toNat_sub_of_le (BitVec.le_def.mpr hsum), hframes, Nat.sub_sub]
    · exact Or.inl ⟨by omega, Guarded.checkedSub_of_lt (Nat.lt_of_not_le hsum)⟩
  · rw [Guarded.checkedSub_of_lt (Nat.lt_of_not_le hheader)]
    exact Or.inl ⟨by omega, rfl⟩

/-- An empty frame is found among the words if it is found among the numbers. -/
theorem follows_checked {sizes : List (BitVec 64)} {header : BitVec 64}
    {y : Reader (List Nat × Nat)}
    (hempty : 0 ∈ sizes.map BitVec.toNat → ∀ source cursor,
      y source cursor = .error .emptyFrame cursor)
    (hfilled : 0 ∉ sizes.map BitVec.toNat → y = pure (numbers (sizes, header))) :
    Guarded.Follows (fun words read => numbers words = read) (checked sizes header) y := by
  have hmem : sizes.contains 0 = true ↔ 0 ∈ sizes.map BitVec.toNat := by
    rw [List.contains_iff_mem, List.mem_map]
    constructor
    · exact fun h => ⟨0, h, rfl⟩
    · rintro ⟨size, hm, hzero⟩
      rwa [← Guarded.toNat_eq_zero.mp hzero]
  rw [checked]
  by_cases hzero : 0 ∈ sizes.map BitVec.toNat
  · rw [if_pos (hmem.mpr hzero)]
    exact Guarded.Follows.fail_bind (hempty hzero)
  · rw [if_neg fun h => hzero (hmem.mp h), hfilled hzero]
    exact Guarded.Follows.pure rfl

theorem follows_readHeader_fixed (remaining : BitVec 64) (id : ElementId) (declared : Nat) :
    Guarded.Follows (fun words read => numbers words = read)
      (readHeader .fixed remaining id declared)
      (Lacing.readHeader .fixed remaining.toNat id declared) := by
  rw [readHeader, Lacing.readHeader]
  refine (follows_readCount remaining).bind fun count _ h => ?_
  obtain ⟨⟨rfl, hremaining⟩, hpos, _⟩ := h
  have hcount : count ≠ 0 := mt Guarded.toNat_eq_zero.mpr hpos
  have hone : (1 : BitVec 64).toNat ≤ remaining.toNat :=
    Nat.pos_of_ne_zero (mt Guarded.toNat_eq_zero.mp hremaining)
  have havailable : (remaining - 1).toNat = remaining.toNat - 1 :=
    BitVec.toNat_sub_of_le (BitVec.le_def.mpr hone)
  rw [Guarded.sub_of_le hone, pure_bind, Guarded.rem_of_ne hcount, pure_bind]
  dsimp only
  rw [← havailable]
  generalize remaining - 1 = available
  have hmod : available % count = 0 ↔ available.toNat % count.toNat = 0 := by
    rw [← Guarded.toNat_eq_zero, BitVec.toNat_umod]
  by_cases heven : available % count = 0
  · have hdvd : count.toNat ∣ available.toNat := Nat.dvd_of_mod_eq_zero (hmod.mp heven)
    have hsizes : (List.replicate count.toNat (available / count)).map BitVec.toNat =
        List.replicate count.toNat (available.toNat / count.toNat) := by
      rw [List.map_replicate, BitVec.toNat_udiv]
    rw [if_neg (not_not_intro heven), if_neg (not_not_intro (hmod.mp heven)),
      Guarded.div_of_ne hcount, pure_bind]
    refine follows_checked (fun hempty source cursor => ?_) (fun hfilled => ?_)
    · rw [hsizes] at hempty
      have hsize := (List.eq_of_mem_replicate hempty).symm
      rw [if_pos (Nat.eq_zero_of_dvd_of_div_eq_zero hdvd hsize)]
      rfl
    · rw [if_neg fun hzero => hfilled ?_, numbers, hsizes]
      · rfl
      · rw [hsizes, hzero, Nat.zero_div]
        exact List.mem_replicate.mpr ⟨hpos, rfl⟩
  · rw [if_pos heven, if_pos (mt hmod.mpr heven)]
    exact (Guarded.Follows.lift _).bind fun _ _ _ => Guarded.Follows.fail_bind fun _ _ => rfl

theorem follows_readHeader_ebml (remaining : BitVec 64) (id : ElementId) (declared : Nat) :
    Guarded.Follows (fun words read => numbers words = read)
      (readHeader .ebml remaining id declared)
      (Lacing.readHeader .ebml remaining.toNat id declared) := by
  rw [readHeader, Lacing.readHeader]
  refine (follows_readCount remaining).bind fun count _ h => ?_
  obtain ⟨⟨rfl, _⟩, _, hmax⟩ := h
  refine (follows_readStored hmax).bind fun stored read hstands => ?_
  obtain ⟨sizes, length⟩ := read
  dsimp only
  rw [Stored.finish]
  rcases stored.rest_cases hstands remaining with ⟨hlarge, hrest⟩ | ⟨hroom, last, hrest, hlast⟩
  · rw [hrest, if_pos hlarge]
    dsimp only
    rw [hstands.toNat_total]
    exact (Guarded.Follows.lift _).bind fun _ _ _ => Guarded.Follows.fail
  · have hsizes : (stored.sizes ++ [last]).map BitVec.toNat =
        sizes ++ [remaining.toNat - (1 + length + cappedSum sizes)] := by
      rw [List.map_append, hstands.sizes_eq, ← hlast]
      rfl
    rw [hrest, if_neg (Nat.not_lt.mpr hroom)]
    dsimp only
    refine follows_checked (fun hempty source cursor => ?_) (fun hfilled => ?_)
    · rw [hsizes, ← List.contains_iff_mem] at hempty
      rw [if_pos hempty]
      rfl
    · rw [hsizes, ← List.contains_iff_mem] at hfilled
      rw [if_neg hfilled, numbers, hsizes, hstands.header_eq]

theorem follows_readHeader (lacing : Lacing) (remaining : BitVec 64) (id : ElementId)
    (declared : Nat) :
    Guarded.Follows (fun words read => numbers words = read)
      (readHeader lacing remaining id declared)
      (lacing.readHeader remaining.toNat id declared) := by
  cases lacing with
  | none =>
      rw [readHeader, Lacing.readHeader]
      by_cases hremaining : remaining = 0
      · subst hremaining
        exact Guarded.Follows.fail_bind fun _ _ => rfl
      · rw [if_neg hremaining, if_neg (mt Guarded.toNat_eq_zero.mp hremaining)]
        exact Guarded.Follows.pure rfl
  | fixed => exact follows_readHeader_fixed remaining id declared
  | ebml => exact follows_readHeader_ebml remaining id declared

/-! ## The sizes and the block -/

variable {lacing : Lacing} {remaining header : BitVec 64} {id : ElementId} {declared : Nat}
  {sizes : List (BitVec 64)} {source : Source} {cursor cursor' : Cursor}

/-- Only the last size is added in the end. -/
theorem Stored.of_finish {stored : Stored}
    (hok : (stored.finish remaining).run source cursor = .ok (.ok (sizes, header)) cursor') :
    stored.sizes = sizes.dropLast := by
  rw [finish] at hok
  cases hrest : stored.rest remaining with
  | none =>
      rw [hrest] at hok
      cases hok
  | some last =>
      rw [hrest] at hok
      dsimp only at hok
      rw [checked] at hok
      split at hok
      next => cases hok
      next =>
        cases hok
        exact List.dropLast_concat.symm

/-- A total is the sum of the sizes if that is a word. -/
theorem toNat_runningTotal_of_lt (h : (sizes.map BitVec.toNat).sum < UInt64.size) :
    (runningTotal sizes).toNat = (sizes.map BitVec.toNat).sum := by
  rw [toNat_runningTotal, cappedSum_eq]
  exact Nat.min_eq_left (Nat.le_sub_one_of_lt h)

/-- Whatever the header says and however much is left of the block, reading the header in words does
not trap, and comes to the same as reading it in numbers.  If it gives sizes, the header is as long
as the reader moved on, there are at least one and at most as many frames as the lacing allows, none
of them is empty, and the header and the frames take exactly what was left.  No total that was kept
on the way, up to the last one, had been cut off. -/
theorem sizes_tile_block (lacing : Lacing) (remaining : BitVec 64) (id : ElementId)
    (declared : Nat) :
    (do return (← (readHeader lacing remaining id declared).run).map numbers :
        Reader (Except Trap (List Nat × Nat))) =
      (do return .ok (← lacing.readHeader remaining.toNat id declared)) ∧
    ∀ (source : Source) (cursor cursor' : Cursor),
      (∀ trap, (readHeader lacing remaining id declared).run source cursor ≠
        .ok (.error trap) cursor') ∧
      ∀ sizes header,
        (readHeader lacing remaining id declared).run source cursor =
            .ok (.ok (sizes, header)) cursor' →
          cursor'.pos = cursor.pos + header.toNat ∧
          1 ≤ sizes.length ∧ sizes.length ≤ lacing.maxCount ∧
          (∀ size ∈ sizes, 1 ≤ size.toNat) ∧
          header.toNat + (sizes.map BitVec.toNat).sum = remaining.toNat ∧
          (∀ count, (runningTotal (sizes.take count)).toNat =
            ((sizes.take count).map BitVec.toNat).sum) ∧
          ∀ stored after, lacing = .ebml →
            (do readStored (← readCount remaining)).run source cursor = .ok (.ok stored) after →
              stored.sizes = sizes.dropLast ∧ stored.total = runningTotal stored.sizes := by
  have hfollows := follows_readHeader lacing remaining id declared
  refine ⟨hfollows.map_run_eq, fun source cursor cursor' => ⟨fun _ => hfollows.not_trap,
    fun sizes header hok => ?_⟩⟩
  obtain ⟨read, hread, rfl⟩ := hfollows.of_ok hok
  obtain ⟨_, hpos, ⟨rfl, hsum⟩, _⟩ := spans_readHeader remaining.isLt source cursor _ cursor' hread
  obtain ⟨hnonempty, hfilled, hcount, _⟩ := ensures_readHeader lacing cursor _ cursor' hread
  rw [numbers] at hpos hsum hnonempty hfilled hcount
  dsimp only at hpos hsum hnonempty hfilled hcount
  rw [List.length_map] at hcount
  refine ⟨hpos, ?_, hcount, fun size hm => ?_, hsum, fun count => ?_,
    fun stored after hebml hstored => ?_⟩
  · exact List.length_pos_iff.mpr fun hnil => hnonempty (congrArg (List.map BitVec.toNat) hnil)
  · exact Nat.pos_of_ne_zero (hfilled _ (List.mem_map_of_mem hm))
  · refine toNat_runningTotal_of_lt ?_
    have hremaining : remaining.toNat < UInt64.size := remaining.isLt
    rw [← List.take_append_drop count sizes, List.map_append, List.sum_append] at hsum
    omega
  · subst hebml
    obtain ⟨_, _, hstands⟩ := ((follows_readCount remaining).bind fun count _ h =>
      h.1.1 ▸ follows_readStored (h.1.1 ▸ h.2.2)).of_ok hstored
    rw [readHeader, ← bind_assoc, Guarded.run_bind_of_ok hstored] at hok
    exact ⟨Stored.of_finish hok, hstands.total_eq⟩

/-- A header of three frames: 5 octets, 5 more than that, and the rest. -/
def threeFrames : Source := ⟨[3, 0x85, 0xC4], 0⟩

/-- The frames are of 5, 10 and 15 octets if 33 are left. -/
theorem threeFrames_tile_block :
    let read := (readHeader .ebml 33 .simpleBlock 37).run threeFrames ⟨0, #[]⟩
    read = .ok (.ok ([5, 10, 15], 3)) ⟨3, #[]⟩ ∧ (∀ trap, read ≠ .ok (.error trap) ⟨3, #[]⟩) ∧
      (3 : BitVec 64).toNat + (([5, 10, 15] : List (BitVec 64)).map BitVec.toNat).sum = 33 := by
  obtain ⟨htrap, hok⟩ := (sizes_tile_block .ebml 33 .simpleBlock 37).2 threeFrames ⟨0, #[]⟩ ⟨3, #[]⟩
  exact ⟨rfl, htrap, (hok _ _ rfl).2.2.2.2.1⟩

/-- A header of 33 frames whose first size is the largest that can be stored, and every next one
larger by the largest offset. -/
def steepFrames : Source :=
  ⟨33 :: 0x01 :: List.replicate 7 0xFF ++
    (List.replicate 31 (0x01 :: List.replicate 7 0xFF)).flatten, 0⟩

/-! Its total is cut off, and not even the largest number of remaining bytes makes up for that. -/
example :
    let most := UInt64.size - 1
    let read := (readHeader .ebml (BitVec.ofNat 64 most) .simpleBlock 0).run steepFrames ⟨0, #[]⟩
    errorOf? read = some .badLacedFrameSize ∧
      (stateOf read).log = #[.oversizedLace most most] := by
  decide +kernel

end Ebml.Lacing.Words
