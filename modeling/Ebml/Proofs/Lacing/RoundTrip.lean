import Ebml.Proofs.Lacing
import Mathlib.Algebra.Group.Action.Defs
import Mathlib.Algebra.Order.BigOperators.Group.List
import Mathlib.Algebra.Order.Group.Nat

/-!
# Three views of a lace header

The size of a lace header is worked out before it is written, and the header is read by what is left
of the block.  The three agree on all sizes that a lacing can pack (`header_views_agree`).

The reader takes the number of bytes that are left for 64 bits.  So the header and its frames must
not be more than that, which is a matter of the number of frames: a header has at most eight octets
for each of them and one for the count (`headerSize_le`).
-/

namespace Ebml

namespace Lacing

variable {lacing : Lacing} {sizes : List Nat}

/-! ## The size of a header -/

theorem differenceLength_le (difference : Int) : differenceLength difference ≤ VarInt.maxLength := by
  rw [differenceLength]
  rcases VarInt.Offset.encode_cases difference with ⟨length, hlength, -, -, hencode⟩ | ⟨-, hencode⟩
  · rw [hencode]
    exact hlength.2
  · rw [hencode]

theorem length_differences_lt : ∀ {sizes : List Nat}, sizes ≠ [] →
    (differences sizes).length < sizes.length
  | [], h => absurd rfl h
  | [_], _ => by simp [differences]
  | _ :: next :: sizes, _ => by
      have hrest := length_differences_lt (List.cons_ne_nil next sizes)
      simp only [differences, List.length_cons] at hrest ⊢
      omega

/-- A header has the count, and no more octets for each size than the longest number takes. -/
theorem headerSize_le (h : ∀ size ∈ sizes, size ≤ VarInt.max) :
    lacing.headerSize sizes ≤ 1 + sizes.length * VarInt.maxLength := by
  cases lacing with
  | none => exact Nat.zero_le _
  | fixed => exact Nat.le_add_right 1 _
  | ebml =>
      match sizes with
      | [] => exact Nat.le_refl 1
      | [_] => exact Nat.le_add_right 1 _
      | first :: second :: sizes =>
          have hfirst := VarInt.octetLength_le_maxLength (h first (List.mem_cons_self ..))
          have hcount : (differences (first :: second :: sizes).dropLast).length ≤ sizes.length := by
            have hlt := length_differences_lt (List.cons_ne_nil first (second :: sizes).dropLast)
            rw [← List.dropLast_cons_cons, List.length_dropLast] at hlt
            simp only [List.length_cons] at hlt
            omega
          have hrest := List.sum_le_card_nsmul
            ((differences (first :: second :: sizes).dropLast).map differenceLength)
            VarInt.maxLength fun length hm => by
              obtain ⟨difference, -, rfl⟩ := List.mem_map.mp hm
              exact differenceLength_le difference
          rw [List.length_map, smul_eq_mul] at hrest
          have hmul := Nat.mul_le_mul_right VarInt.maxLength hcount
          rw [headerSize, List.length_cons, List.length_cons, Nat.add_mul, Nat.add_mul]
          omega

/-! ## Sizes that a lacing can pack -/

section

variable (hpacks : lacing.Packs sizes) (htotal : sizes.sum < Element.sizeBound)
include htotal

theorem size_lt_of_sum_lt : ∀ size ∈ sizes, size < Element.sizeBound := by
  intro size hm
  exact Nat.lt_of_le_of_lt (VarInt.le_sum_of_mem hm) htotal

/-- Every difference that is to be stored can be. -/
theorem exists_encode_of_mem_differences {difference : Int}
    (hm : difference ∈ differences sizes.dropLast) :
    ∃ coded, VarInt.Offset.encode difference = .ok coded := by
  have hbias := bias_maxLength
  have hlt := natAbs_differences_lt
    (fun size hsize => size_lt_of_sum_lt htotal size (List.dropLast_subset _ hsize)) difference hm
  rw [VarInt.Offset.exists_encode_eq_ok]
  omega

include hpacks

/-- The header and its frames are not more than 64 bits count. -/
theorem Packs.headerSize_add_sum_lt : lacing.headerSize sizes + sizes.sum < UInt64.size := by
  have hsize : lacing.headerSize sizes ≤ 1 + sizes.length * VarInt.maxLength :=
    headerSize_le fun size hm => Element.le_max_of_lt (size_lt_of_sum_lt htotal size hm)
  have hcount : sizes.length * VarInt.maxLength ≤ 255 * VarInt.maxLength :=
    Nat.mul_le_mul_right _ (Nat.le_trans hpacks.count_le lacing.maxCount_le)
  have hroom : 1 + 255 * VarInt.maxLength + Element.sizeBound < UInt64.size := by decide
  omega

end

/-! ## The header behind a gap -/

theorem fillsGap_writeHeader (sizes : List Nat) (h : lacing ≠ none) :
    Writer.FillsGap (lacing.writeHeader sizes) := by
  unfold writeHeader
  rw [if_neg h]
  exact (Writer.fillsGap_emit (List.cons_ne_nil _ _)).bind _

/-- Sizes that a lacing can pack, of fewer than 56 bits in all, have a header of just the size that is
worked out for it, and none of their differences is too large to be stored.  On a stream that grows
this header is written, wherever the position is, and the writer returns its size.  Only without
lacing nothing is written.  Wherever the header lies, the sizes are read from it and what is left of
the block, whatever follows, and the reader stops where the frames begin. -/
theorem header_views_agree (hpacks : lacing.Packs sizes) (htotal : sizes.sum < 2 ^ 55) :
    (∀ difference ∈ differences sizes.dropLast,
        ∃ coded, VarInt.Offset.encode difference = .ok coded) ∧
      ∃ header : List UInt8, header.length = lacing.headerSize sizes ∧
        (∀ stream log, stream.fixed = false → ∃ log', lacing.writeHeader sizes ⟨stream, log⟩ =
          .ok (lacing.headerSize sizes)
            ⟨if lacing = none then stream else stream.fillGap.overlay header, log'⟩) ∧
        ∀ source pos, source.Holds pos header → ∀ id declared,
          Reader.Yields (lacing.readHeader (lacing.headerSize sizes + sizes.sum) id declared)
            source pos (sizes, lacing.headerSize sizes) (pos + lacing.headerSize sizes) := by
  have hbound := size_lt_of_sum_lt htotal
  have hlength := lacing.length_header sizes
  constructor
  · intro difference hm
    exact exists_encode_of_mem_differences htotal hm
  · refine ⟨lacing.header sizes, hlength, ?written, ?read⟩
    case written =>
      intro stream log hgrow
      by_cases hnone : lacing = none
      · subst hnone
        exact ⟨log, rfl⟩
      · rw [if_neg hnone]
        exact (fillsGap_writeHeader sizes hnone).ok_of_growing
          (emits_writeHeader lacing fun _ => hbound) trivial hgrow log
    case read =>
      intro source pos hheld id declared
      have hspan := hpacks.headerSize_add_sum_lt htotal
      have hyields := (hpacks.header hbound).yields hpacks.filled (hlength ▸ hspan) hheld id declared
      rwa [hlength] at hyields

/-- Frames that shrink and grow, with differences of two octets and of one.  The header is laid over
what was there, and read in front of a first byte of the frames. -/
theorem header_views_agree_shrinking :
    ebml.Packs [300, 20, 10, 500] ∧ ebml.headerSize [300, 20, 10, 500] = 6 ∧
      (∃ log, ebml.writeHeader [300, 20, 10, 500] ⟨⟨[0xaa, 0xbb], 1, false⟩, #[]⟩ =
        .ok 6 ⟨⟨[0xaa, 4, 0x41, 0x2c, 0x5e, 0xe7, 0xb5], 7, false⟩, log⟩) ∧
      Reader.Yields (ebml.readHeader 836 .simpleBlock 840)
        ⟨[0xaa, 4, 0x41, 0x2c, 0x5e, 0xe7, 0xb5, 0xcc], 0⟩ 1 ([300, 20, 10, 500], 6) 7 := by
  have hpacks : ebml.Packs [300, 20, 10, 500] := {
    nonempty := by decide
    filled := by decide
    count_le := by decide
    even := by decide }
  have hsize : ebml.headerSize [300, 20, 10, 500] = 6 := by decide +kernel
  obtain ⟨-, header, hlength, hwrite, hread⟩ := header_views_agree hpacks (by decide)
  rw [hsize] at hlength hwrite hread
  obtain ⟨log, hwritten⟩ := hwrite ⟨[0xaa, 0xbb], 1, false⟩ #[] rfl
  -- what the header is shows on an empty stream, where it is all that there is
  have hheader : header = [4, 0x41, 0x2c, 0x5e, 0xe7, 0xb5] := by
    obtain ⟨_, hempty⟩ := hwrite ⟨[], 0, false⟩ #[] rfl
    have hrun : ebml.writeHeader [300, 20, 10, 500] ⟨⟨[], 0, false⟩, #[]⟩ =
        .ok 6 ⟨⟨[4, 0x41, 0x2c, 0x5e, 0xe7, 0xb5], 6, false⟩, #[]⟩ := rfl
    rw [hrun] at hempty
    injection hempty with _ hsink
    have hdata := congrArg (fun sink : Sink => sink.stream.data) hsink
    simpa [Stream.fillGap, Stream.overlay] using hdata.symm
  subst hheader
  exact ⟨hpacks, hsize, ⟨log, hwritten⟩, hread _ 1 ⟨[0xcc], rfl⟩ .simpleBlock 840⟩

end Lacing

end Ebml
