import Ebml.Proofs.Element
import Ebml.Proofs.Lacing.Grammar

/-!
# Lace headers that are written

Frames of fewer than `Element.sizeBound` bytes have differences that can always be stored.  The
header that is written for them stores every number in as few octets as possible.  It is one of the
headers of its sizes (`Packs.header`), so they are read back from it and the number of bytes after
it.
-/

namespace Ebml

namespace Lacing

variable {sure : Prop}

/-! ## Differences -/

/-- The bytes of a difference. -/
def encodeDifference (difference : Int) : List UInt8 :=
  match VarInt.Offset.encode difference with
  | .ok (payload, length) => VarInt.sized payload length
  | .error _ => VarInt.sized 0 VarInt.maxLength

theorem length_encodeDifference (difference : Int) :
    (encodeDifference difference).length = differenceLength difference := by
  rw [encodeDifference, differenceLength]
  cases VarInt.Offset.encode difference with
  | ok => exact VarInt.length_sized _ _
  | error => exact VarInt.length_sized _ _

/-- The bias of the most octets has room for all differences of sizes that are bounded. -/
theorem bias_maxLength : VarInt.Offset.bias VarInt.maxLength = Element.sizeBound - 1 := by decide

theorem emits_writeDifference {difference : Int}
    (h : sure → difference.natAbs < Element.sizeBound) :
    Writer.Emits sure (writeDifference difference) (encodeDifference difference)
      (encodeDifference difference).length := by
  rw [length_encodeDifference, writeDifference, encodeDifference, differenceLength]
  rcases VarInt.Offset.encode_cases difference with
    ⟨length, hlength, hroom, -, hencode⟩ | ⟨hlarge, hencode⟩
  · rw [hencode]
    have hfits := VarInt.Offset.fits_payload hlength hroom
    exact ((Writer.Emits.pure _).bind (VarInt.emits_writeSized fun _ => hfits)).cast
      (List.nil_append _) rfl
  · rw [hencode]
    have hbias := bias_maxLength
    have hthrow : Writer.Emits (α := Nat × Nat) sure
        (Writer.ofExcept (.error (.varIntTooBig difference.natAbs))) []
        (0, VarInt.maxLength) :=
      Writer.Emits.throw fun hs => by
        have hlt := h hs
        omega
    exact (hthrow.bind (VarInt.emits_writeSized fun _ => by decide)).cast (List.nil_append _) rfl

theorem natAbs_differences_lt {bound : Nat} :
    ∀ {sizes : List Nat}, (∀ size ∈ sizes, size < bound) →
      ∀ difference ∈ differences sizes, difference.natAbs < bound
  | [], _, _, hmem => by cases hmem
  | [_], _, _, hmem => by cases hmem
  | size :: next :: sizes, h, difference, hmem => by
      have hsize := h size (by simp)
      have hnext := h next (by simp)
      rcases List.mem_cons.mp hmem with rfl | hmem
      · omega
      · exact natAbs_differences_lt (fun other hm => h other (List.mem_cons_of_mem _ hm)) _ hmem

/-- The differences from a size and between the sizes after it store these sizes. -/
theorem deltas_differences :
    ∀ {sizes : List Nat} {previous : Nat},
      (∀ size ∈ previous :: sizes, size < Element.sizeBound) →
      Deltas previous ((differences (previous :: sizes)).flatMap encodeDifference) sizes
  | [], _, _ => .nil
  | size :: sizes, previous, hbound => by
      have hdiff : ((size : Int) - previous).natAbs < Element.sizeBound :=
        natAbs_differences_lt hbound _ (List.mem_cons_self ..)
      have hrest := deltas_differences fun other hm => hbound other (List.mem_cons_of_mem _ hm)
      rw [differences, List.flatMap_cons, encodeDifference]
      rcases VarInt.Offset.encode_cases ((size : Int) - previous) with
        ⟨length, hlength, hroom, -, hencode⟩ | ⟨hlarge, _⟩
      · rw [hencode]
        exact .cons (VarInt.Offset.fits_payload hlength hroom).payload (by omega) hrest
      · have hbias := bias_maxLength
        omega

/-! ## Headers -/

/-- The sizes of all frames but the last, as they are stored. -/
def encodeStored : List Nat → List UInt8
  | [] => []
  | first :: sizes =>
    VarInt.minimal first ++ (differences (first :: sizes)).flatMap encodeDifference

/-- The lace header for frames of given sizes. -/
def header (lacing : Lacing) (sizes : List Nat) : List UInt8 :=
  match lacing with
  | none => []
  | fixed => [UInt8.ofNat sizes.length]
  | ebml => UInt8.ofNat sizes.length :: encodeStored sizes.dropLast

theorem length_differences (sizes : List Nat) :
    ((differences sizes).flatMap encodeDifference).length =
      ((differences sizes).map differenceLength).sum := by
  rw [List.length_flatMap]
  congr 1
  exact List.map_congr_left fun difference _ => length_encodeDifference difference

theorem length_header (lacing : Lacing) (sizes : List Nat) :
    (lacing.header sizes).length = lacing.headerSize sizes := by
  cases lacing with
  | none => rfl
  | fixed => rfl
  | ebml =>
      match sizes with
      | [] => rfl
      | [_] => rfl
      | first :: second :: sizes =>
          rw [header, headerSize, List.dropLast_cons_cons, List.length_cons, encodeStored,
            List.length_append, VarInt.length_minimal, length_differences]
          omega

theorem emits_writeHeader (lacing : Lacing) {sizes : List Nat}
    (h : sure → ∀ size ∈ sizes, size < Element.sizeBound) :
    Writer.Emits sure (lacing.writeHeader sizes) (lacing.header sizes)
      (lacing.headerSize sizes) := by
  have hcount := fun {f : Unit → Writer Nat} {rest : List UInt8} {total : Nat}
    (hrest : Writer.Emits sure (f ()) rest total) =>
      (Writer.Emits.emit [UInt8.ofNat sizes.length]).bind hrest
  cases lacing with
  | none => exact Writer.Emits.pure 0
  | fixed => exact hcount (Writer.Emits.pure 1)
  | ebml =>
      match sizes with
      | [] => exact hcount (Writer.Emits.pure 1)
      | [_] => exact hcount (Writer.Emits.pure 1)
      | first :: second :: sizes =>
          have hfirst : Writer.Emits sure (VarInt.write first) _ _ :=
            VarInt.emits_write fun hs => Element.le_max_of_lt (h hs first (by simp))
          have hbound : sure → ∀ size ∈ (first :: second :: sizes).dropLast,
              size < Element.sizeBound :=
            fun hs size hm => h hs size (List.dropLast_subset _ hm)
          have hdifferences : Writer.Emits sure (Writer.each writeDifference
              (differences (first :: second :: sizes).dropLast)) _ _ :=
            Writer.Emits.eachCounted fun difference hm => emits_writeDifference fun hs =>
              natAbs_differences_lt (hbound hs) difference hm
          rw [length_differences] at hdifferences
          exact hcount (hfirst.bind (hdifferences.map rfl))

/-- Sizes of frames that a lacing can pack. -/
structure Packs (lacing : Lacing) (sizes : List Nat) : Prop where
  /-- There are frames. -/
  nonempty : sizes ≠ []
  /-- None of them is empty. -/
  filled : ∀ size ∈ sizes, size ≠ 0
  /-- There are not too many of them. -/
  count_le : sizes.length ≤ lacing.maxCount
  /-- With fixed lacing they are of one size. -/
  even : lacing = fixed → ∀ size ∈ sizes, size = sizes.headD 0

theorem stores_encodeStored {stored : List Nat} (h : ∀ size ∈ stored, size < Element.sizeBound) :
    Stores (encodeStored stored) stored := by
  cases stored with
  | nil => exact .nil
  | cons first sizes =>
      have hfirst := Element.le_max_of_lt (h first (List.mem_cons_self ..))
      exact .cons (VarInt.fits_octetLength hfirst).payload (deltas_differences h)

/-- The header that is written for sizes is one of their headers. -/
theorem Packs.header {lacing : Lacing} {sizes : List Nat} (hpacks : lacing.Packs sizes)
    (hbound : ∀ size ∈ sizes, size < Element.sizeBound) :
    lacing.Header (lacing.header sizes) sizes := by
  have hpos := List.length_pos_iff.mpr hpacks.nonempty
  have hcount : sizes.length ≤ 255 := Nat.le_trans hpacks.count_le lacing.maxCount_le
  have htoNat : (UInt8.ofNat sizes.length).toNat = sizes.length :=
    UInt8.toNat_ofNat_of_lt' (Nat.lt_of_le_of_lt hcount (by decide))
  cases lacing with
  | none =>
      have hone : sizes.length ≤ 1 := hpacks.count_le
      obtain ⟨size, rfl⟩ := List.length_eq_one_iff.mp (by omega : sizes.length = 1)
      exact .none
  | fixed =>
      have hne : UInt8.ofNat sizes.length ≠ 0 := by
        intro h0
        rw [h0] at htoNat
        exact Nat.ne_of_gt hpos htoNat.symm
      have heven : sizes = List.replicate (UInt8.ofNat sizes.length).toNat (sizes.headD 0) := by
        rw [htoNat]
        exact List.eq_replicate_iff.mpr ⟨rfl, hpacks.even rfl⟩
      have hheader : fixed.Header [UInt8.ofNat sizes.length]
          (List.replicate (UInt8.ofNat sizes.length).toNat (sizes.headD 0)) := .fixed hne
      rwa [← heven] at hheader
  | ebml =>
      obtain ⟨stored, last, rfl⟩ : ∃ stored last, sizes = stored ++ [last] :=
        ⟨sizes.dropLast, sizes.getLast hpacks.nonempty, (List.dropLast_concat_getLast _).symm⟩
      rw [Lacing.header, List.dropLast_concat]
      exact .ebml (htoNat.trans List.length_append)
        (stores_encodeStored fun size hm => hbound size (List.mem_append_left _ hm))

end Lacing

end Ebml
