import Ebml.Block.LaceHeader
import Ebml.Proofs.VarInt.Offset

/-!
# The grammar of lace headers

`Lacing.Header lacing bytes sizes` says that the bytes are a lace header for frames of the sizes.
It says so without a reader.  The numbers in a header may be stored in more octets than they need,
so there are many headers for the same sizes, but a header and the number of bytes after it fit one
list of sizes only: the reader accepts exactly the headers (`parses_readHeader`, `Header.yields`).
-/

namespace Ebml

namespace Lacing

/-- The bytes store sizes one after another, each as its difference from the size before. -/
inductive Deltas : Nat → List UInt8 → List Nat → Prop where
  /-- There are no more sizes. -/
  | nil {previous : Nat} : Deltas previous [] []
  /-- The difference is the payload less the bias. -/
  | cons {previous payload length size : Nat} {bytes : List UInt8} {sizes : List Nat} :
      VarInt.Payload payload length →
      (size : Int) = previous + ((payload : Int) - VarInt.Offset.bias length) →
      Deltas size bytes sizes →
      Deltas previous (VarInt.sized payload length ++ bytes) (size :: sizes)

/-- The bytes store sizes, the first of them as it is. -/
inductive Stores : List UInt8 → List Nat → Prop where
  /-- There are no sizes. -/
  | nil : Stores [] []
  /-- The other sizes are stored as differences. -/
  | cons {first length : Nat} {bytes : List UInt8} {sizes : List Nat} :
      VarInt.Payload first length → Deltas first bytes sizes →
      Stores (VarInt.sized first length ++ bytes) (first :: sizes)

/-- The bytes are a lace header for frames of the sizes. -/
inductive Header : Lacing → List UInt8 → List Nat → Prop where
  /-- A single frame needs no header. -/
  | none {size : Nat} : Header none [] [size]
  /-- Frames of one size are counted. -/
  | fixed {count : UInt8} {size : Nat} : count ≠ 0 →
      Header fixed [count] (List.replicate count.toNat size)
  /-- The sizes of all frames but the last follow their number. -/
  | ebml {count : UInt8} {bytes : List UInt8} {stored : List Nat} {last : Nat} :
      count.toNat = stored.length + 1 → Stores bytes stored →
      Header ebml (count :: bytes) (stored ++ [last])

/-! ## Sums that stop at the largest number -/

theorem foldl_capped (sizes : List Nat) (total : Nat) (h : total < UInt64.size) :
    sizes.foldl (fun total size => min (total + size) (UInt64.size - 1)) total =
      min (total + sizes.sum) (UInt64.size - 1) := by
  induction sizes generalizing total with
  | nil => simp only [List.foldl_nil, List.sum_nil]; omega
  | cons size sizes ih =>
      rw [List.foldl_cons, ih _ (by omega), List.sum_cons]
      omega

theorem cappedSum_eq (sizes : List Nat) : cappedSum sizes = min sizes.sum (UInt64.size - 1) := by
  rw [cappedSum, foldl_capped sizes 0 (by decide), Nat.zero_add]

variable {source : Source} {pos : Nat} {lacing : Lacing}

/-! ## What is read is a header -/

theorem parses_readCount (remaining : Nat) :
    Reader.Parses (readCount remaining) source fun count bytes =>
      (∃ octet : UInt8, octet ≠ 0 ∧ bytes = [octet] ∧ count = octet.toNat) ∧ remaining ≠ 0 := by
  rw [readCount]
  split
  next => exact Reader.Parses.throw_bind
  next hremaining =>
    refine Reader.Parses.next.bind fun octet bytes hbytes => ?_
    subst hbytes
    split
    next => exact Reader.Parses.throw_bind
    next hcount => exact Reader.Parses.pure ⟨⟨octet, hcount, rfl, rfl⟩, hremaining⟩

theorem parses_readDifferences : ∀ count previous : Nat,
    Reader.Parses (readDifferences previous count) source fun read bytes =>
      Deltas previous bytes read.1 ∧ read.1.length = count ∧ read.2 = bytes.length
  | 0, previous => Reader.Parses.pure ⟨.nil, rfl, rfl⟩
  | count + 1, previous => by
      refine VarInt.parses_read.bind fun ⟨payload, length⟩ bytes hpayload => ?_
      obtain ⟨hpayload, rfl⟩ := hpayload
      dsimp only
      rw [VarInt.Offset.decode_eq hpayload]
      split
      next => exact Reader.Parses.throw_bind
      next hsize =>
        refine (parses_readDifferences count _).map fun read rest hread => ?_
        obtain ⟨hdeltas, hcount, hlength⟩ := hread
        refine ⟨.cons hpayload ?_ hdeltas, congrArg (· + 1) hcount, ?_⟩
        · exact Int.toNat_of_nonneg (Int.not_lt.mp hsize)
        · rw [List.length_append, VarInt.length_sized, hlength]

theorem parses_readStoredSizes (count : Nat) :
    Reader.Parses (readStoredSizes count) source fun read bytes =>
      Stores bytes read.1 ∧ read.1.length = count - 1 ∧ read.2 = bytes.length := by
  rw [readStoredSizes]
  split
  next hcount => exact Reader.Parses.pure ⟨.nil, by rw [List.length_nil]; omega, rfl⟩
  next hcount =>
    refine VarInt.parses_read.bind fun ⟨first, length⟩ bytes hfirst => ?_
    obtain ⟨hfirst, rfl⟩ := hfirst
    refine (parses_readDifferences (count - 2) first).map fun read rest hread => ?_
    obtain ⟨hdeltas, hlength, hread⟩ := hread
    refine ⟨.cons hfirst hdeltas, by rw [List.length_cons]; omega, ?_⟩
    rw [List.length_append, VarInt.length_sized, hread]

theorem parses_readHeader {remaining declared : Nat} {id : ElementId}
    (hremaining : remaining < UInt64.size) :
    Reader.Parses (lacing.readHeader remaining id declared) source fun read bytes =>
      lacing.Header bytes read.1 ∧ (∀ size ∈ read.1, size ≠ 0) ∧
        bytes.length + read.1.sum = remaining ∧ read.2 = bytes.length := by
  cases lacing with
  | none =>
      rw [readHeader]
      split
      next => exact Reader.Parses.throw_bind
      next hne =>
        refine Reader.Parses.pure ⟨.none, fun size hm => ?_, by simp, rfl⟩
        rw [List.mem_singleton.mp hm]
        exact hne
  | fixed =>
      rw [readHeader]
      refine (parses_readCount remaining).bind fun count bytes hcount => ?_
      obtain ⟨⟨octet, hoctet, rfl, rfl⟩, hne⟩ := hcount
      dsimp only
      split
      next => exact (Reader.Parses.note _).bind fun _ _ _ => Reader.Parses.throw_bind
      next hmod =>
        split
        next => exact Reader.Parses.throw_bind
        next havailable =>
          have hdvd : octet.toNat ∣ remaining - 1 :=
            Nat.dvd_of_mod_eq_zero (Decidable.not_not.mp hmod)
          refine Reader.Parses.pure ⟨.fixed hoctet, fun size hm => ?_, ?_, rfl⟩
          · rw [List.eq_of_mem_replicate hm]
            exact fun h0 => havailable (Nat.eq_zero_of_dvd_of_div_eq_zero hdvd h0)
          · rw [List.sum_replicate_nat, Nat.mul_div_cancel' hdvd, List.append_nil,
              List.length_singleton]
            omega
  | ebml =>
      rw [readHeader]
      refine (parses_readCount remaining).bind fun count bytes hcount => ?_
      obtain ⟨⟨octet, hoctet, rfl, rfl⟩, hne⟩ := hcount
      refine (parses_readStoredSizes octet.toNat).bind fun ⟨stored, length⟩ rest hstored => ?_
      obtain ⟨hstores, hlength, rfl⟩ := hstored
      dsimp only
      split
      next => exact (Reader.Parses.note _).bind fun _ _ _ => Reader.Parses.throw_bind
      next hroom =>
        split
        next => exact Reader.Parses.throw_bind
        next hzero =>
          have hpos : octet.toNat ≠ 0 := fun h0 => hoctet (UInt8.toNat_inj.mp h0)
          dsimp only at hstores hlength
          refine Reader.Parses.pure ?_
          rw [List.append_nil]
          refine ⟨.ebml (by omega) hstores, fun size hm h0 => ?_, ?_, ?_⟩
          · subst h0
            exact hzero (List.contains_iff_mem.mpr hm)
          -- a sum that was cut off would not have left room in a body of 64 bits
          · rw [cappedSum_eq] at hroom ⊢
            rw [List.sum_append, List.sum_singleton, List.length_append, List.length_singleton]
            omega
          · rw [List.length_append, List.length_singleton]

/-! ## A header is read -/

theorem yields_readCount {remaining : Nat} {count : UInt8} (hremaining : remaining ≠ 0)
    (hcount : count ≠ 0) (h : source.Holds pos [count]) :
    Reader.Yields (readCount remaining) source pos count.toNat (pos + 1) := by
  rw [readCount, if_neg hremaining]
  refine (Reader.Yields.next h).bind ?_
  rw [if_neg hcount]
  exact Reader.Yields.pure count.toNat

theorem Deltas.yields {previous : Nat} {bytes : List UInt8} {sizes : List Nat}
    (h : Deltas previous bytes sizes) {pos : Nat} (hheld : source.Holds pos bytes) :
    Reader.Yields (readDifferences previous sizes.length) source pos (sizes, bytes.length)
      (pos + bytes.length) := by
  induction h generalizing pos with
  | nil => exact Reader.Yields.pure _
  | @cons previous payload length size bytes sizes hpayload hsize _ ih =>
      have hrest := hheld.right
      rw [VarInt.length_sized] at hrest
      rw [List.length_append, VarInt.length_sized, ← Nat.add_assoc, List.length_cons,
        readDifferences]
      refine (VarInt.yields_read hpayload hheld.left).bind ?_
      simp only [VarInt.Offset.decode_eq hpayload, ← hsize]
      rw [if_neg (Int.not_lt.mpr (Int.natCast_nonneg size))]
      exact (ih hrest).map rfl

theorem Stores.yields {bytes : List UInt8} {stored : List Nat} (h : Stores bytes stored)
    (hheld : source.Holds pos bytes) :
    Reader.Yields (readStoredSizes (stored.length + 1)) source pos (stored, bytes.length)
      (pos + bytes.length) := by
  cases h with
  | nil => exact Reader.Yields.pure _
  | @cons first length bytes sizes hfirst hdeltas =>
      have hrest := hheld.right
      rw [VarInt.length_sized] at hrest
      rw [List.length_append, VarInt.length_sized, ← Nat.add_assoc, readStoredSizes,
        if_neg (by rw [List.length_cons]; omega)]
      exact (VarInt.yields_read hfirst hheld.left).bind ((hdeltas.yields hrest).map rfl)

/-- The sizes are read from their header, if the frames make up the rest. -/
theorem Header.yields {header : List UInt8} {sizes : List Nat} (h : lacing.Header header sizes)
    (hfilled : ∀ size ∈ sizes, size ≠ 0) (hbound : header.length + sizes.sum < UInt64.size)
    (hheld : source.Holds pos header) (id : ElementId) (declared : Nat) :
    Reader.Yields (lacing.readHeader (header.length + sizes.sum) id declared) source pos
      (sizes, header.length) (pos + header.length) := by
  cases h with
  | @none size =>
      have hne := hfilled size (List.mem_singleton_self size)
      rw [List.sum_singleton, List.length_nil, Nat.zero_add, readHeader, if_neg hne]
      exact Reader.Yields.pure _
  | @fixed count size hcount =>
      have hpos : 0 < count.toNat := Nat.pos_of_ne_zero fun h0 => hcount (UInt8.toNat_inj.mp h0)
      have hne := hfilled size (List.mem_replicate.mpr ⟨Nat.pos_iff_ne_zero.mp hpos, rfl⟩)
      have hmul : 0 < count.toNat * size := Nat.mul_pos hpos (Nat.pos_of_ne_zero hne)
      rw [List.sum_replicate_nat, List.length_singleton]
      refine (yields_readCount (by omega) hcount hheld).map ?_
      simp only [Nat.add_sub_cancel_left, Nat.mul_mod_right, Nat.mul_div_cancel_left size hpos]
      rw [if_neg (by omega), if_neg (by omega)]
  | @ebml count bytes stored last hcount hstores =>
      have hne : count ≠ 0 := by
        rintro rfl
        exact Nat.succ_ne_zero _ hcount.symm
      have hcap : cappedSum stored = stored.sum := by
        rw [List.sum_append] at hbound
        rw [cappedSum_eq]
        omega
      have hzero : (stored ++ [last]).contains 0 = false := by
        rw [List.contains_eq_mem, decide_eq_false_iff_not]
        exact fun hm => hfilled 0 hm rfl
      have hstored := hstores.yields hheld.tail
      rw [← hcount] at hstored
      rw [List.sum_append, List.sum_singleton, List.length_cons]
      refine (yields_readCount (by omega) hne hheld.head).bind ((hstored.map ?_).cast (by omega))
      have hleft : bytes.length + 1 + (stored.sum + last) - (1 + bytes.length + stored.sum) = last := by
        omega
      simp only [hcap, hleft, hzero]
      rw [if_neg (by omega), Nat.add_comm 1]
      rfl

/-- Sizes that were read make up, with their header, all that was left of the block. -/
theorem spans_readHeader {remaining declared : Nat} {id : ElementId}
    (hremaining : remaining < UInt64.size) :
    Reader.Spans (lacing.readHeader remaining id declared) fun read n =>
      n = read.2 ∧ read.2 + read.1.sum = remaining := by
  refine (Reader.Parses.spans (fun _ => parses_readHeader hremaining)
    fun source pos read bytes h hheld => ?_).mono fun read n h => ?_
  · obtain ⟨sizes, _⟩ := read
    obtain ⟨hheader, hfilled, rfl, rfl⟩ := h
    exact hheader.yields hfilled hremaining hheld id declared
  · obtain ⟨bytes, rfl, _, _, hsum, hlength⟩ := h
    rw [hlength]
    exact ⟨rfl, hsum⟩

end Lacing

end Ebml
