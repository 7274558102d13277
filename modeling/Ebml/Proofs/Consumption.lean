import Ebml.Proofs.Cluster.Reading
import Ebml.Proofs.Stream.Conduct
import Ebml.Proofs.Void

/-!
# What is read of an element

An element says at its beginning where it ends, and the readers of bodies go by sizes of their own:
those of children, of frames and of a lace header.  If all of them were accepted, the reader has
come to exactly where the element said that it ends, and nothing outside of the element has had a
part in what was read (`Filling.Consumes`).  So an element that can be read can also be passed over,
and stays what it is if it is moved into another stream.

This follows from what is known of bodies (`Element.consumes_fill`).  A cluster is more work: its
metadata is read until a block is met, so its opening looks ahead (`Reader.Foresees`), but never
past the end of the cluster.
-/

namespace Ebml

variable {source : Source} {pos : Nat}

/-! ## Passing over -/

theorem VarInt.admits_of_read {result : Nat × Nat} {stop : Nat}
    (h : Reader.Yields read source pos result stop) : source.Admits pos := by
  obtain ⟨_, hok⟩ := h #[]
  obtain ⟨first, _, hnext, _⟩ := Reader.bind_eq_ok.mp hok
  rw [Reader.next] at hnext
  split at hnext
  next hfirst =>
    have hlt := (List.getElem?_eq_some_iff.mp hfirst).1
    exact Source.admits_of_le (Nat.le_of_lt hlt)
  next => cases hnext

/-- Whatever size is read, a single move can lead over that many bytes. -/
theorem VarInt.lt_reach_of_read {size length stop : Nat}
    (h : Reader.Yields read source pos (size, length) stop) : size < Stream.reach := by
  obtain ⟨_, hok⟩ := h #[]
  obtain ⟨_, _, ⟨hn, _, hle, hlt⟩, _⟩ := VarInt.spans_read _ _ _ _ hok
  rw [hn] at hle
  have hpow : 128 ^ length ≤ 128 ^ maxLength := Nat.pow_le_pow_right (by decide) hle
  have hmax : 128 ^ maxLength < Stream.reach := by decide
  exact Nat.lt_of_lt_of_le hlt (Nat.le_trans hpow (Nat.le_of_lt hmax))

/-- What is left to be skipped of an element is, if the stream admits the position after it. -/
theorem VarInt.yields_skip_of_read {size length : Nat}
    (hsize : Reader.Yields read source pos (size, length) (pos + length))
    (hadmits : source.Admits (pos + (length + size))) :
    Reader.Yields (Reader.skip size) source (pos + length) () (pos + (length + size)) := by
  rw [← Nat.add_assoc] at hadmits ⊢
  exact fun log => ⟨log, Reader.skip_eq_ok.mpr ⟨⟨lt_reach_of_read hsize, hadmits⟩, rfl⟩⟩

/-- An element is passed over if the stream admits the position after it. -/
theorem Element.yields_skipRest {size length : Nat}
    (hsize : Reader.Yields VarInt.read source pos (size, length) (pos + length))
    (hadmits : source.Admits (pos + (length + size))) :
    Reader.Yields skipRest source pos (length + size) (pos + (length + size)) :=
  hsize.bind ((VarInt.yields_skip_of_read hsize hadmits).map rfl)

/-- What is read into an object is what an element said at its beginning, no more and no less. -/
structure Filling.Consumes {κ : Type} (f : Filling κ Nat) : Prop where
  /-- As many bytes as are counted are moved over, and only they matter. -/
  spans : Filling.Spans f fun count n => n = count
  /-- They are those of the size and of a body of that size, and can also be passed over. -/
  declared : ∀ {source c cursor count c' cursor'}, f source ⟨c, cursor⟩ = .ok count ⟨c', cursor'⟩ →
    ∃ size length, count = length + size ∧
      Reader.Yields VarInt.read source cursor.pos (size, length) (cursor.pos + length) ∧
        Reader.Yields Element.skipRest source cursor.pos count (cursor.pos + count)

theorem Filling.Consumes.of_spans {κ : Type} {f : Filling κ Nat}
    (h : Filling.Spans f fun count n => n = count)
    (hcount : ∀ {source c cursor count c' cursor'},
      f source ⟨c, cursor⟩ = .ok count ⟨c', cursor'⟩ →
      ∃ size length, count = length + size ∧
        Reader.Yields VarInt.read source cursor.pos (size, length) (cursor.pos + length)) :
    f.Consumes where
  spans := h
  declared {source c cursor count c' cursor'} hok := by
    obtain ⟨size, length, rfl, hsize⟩ := hcount hok
    obtain ⟨_, _, rfl, hadmits, _⟩ := h source c cursor _ c' cursor' hok
    have hstop := hadmits (VarInt.admits_of_read hsize)
    exact ⟨size, length, rfl, hsize, Element.yields_skipRest hsize hstop⟩

/-! ## Elements -/

namespace Element

variable {ε : Type} [Element ε]

/-- Elements of a kind are read to where they end, and so are their bodies by themselves. -/
structure Bounded (ε : Type) [Element ε] : Prop where
  /-- Whole elements are. -/
  whole : Filling.Consumes (fill : Filling ε Nat)
  /-- Bodies are. -/
  body : ∀ {size : Nat}, size < UInt64.size →
    Filling.Spans (fillBody size : Filling ε Nat) fun count n => count = size ∧ n = size

theorem consumes_fill
    (hbody : ∀ (e : ε) {size : Nat}, size < UInt64.size →
      Reader.Spans (readBody e size) fun _ n => n = size) :
    Filling.Consumes (fill : Filling ε Nat) := by
  refine .of_spans ?_ ?_
  · intro source e cursor count e' cursor' hok
    have hread := fill_eq_ok.mp hok
    obtain ⟨n, hpos, rfl, hadmits, hlocal⟩ :=
      spans_read (fun e _ hsize => hbody e hsize) _ source cursor _ cursor' hread
    refine ⟨_, hpos, rfl, hadmits, fun other hagrees log => ?_⟩
    obtain ⟨log', hok⟩ := hlocal other hagrees log
    exact ⟨log', fill_eq_ok.mpr hok⟩
  · intro source e cursor count e' cursor' hok
    have hread := fill_eq_ok.mp hok
    obtain ⟨size, length, hsize, hcount⟩ := counts_read _ source cursor _ cursor' hread
    exact ⟨size, length, hcount, hsize⟩

theorem Bounded.of_spans
    (hbody : ∀ (e : ε) {size : Nat}, size < UInt64.size →
      Reader.Spans (readBody e size) fun _ n => n = size) : Bounded ε where
  whole := consumes_fill hbody
  body {size} hsize := by
    intro source e cursor count e' cursor' hok
    obtain ⟨rfl, hread⟩ := fillBody_eq_ok.mp hok
    obtain ⟨n, hpos, rfl, hadmits, hlocal⟩ := hbody e hsize source cursor e' cursor' hread
    refine ⟨_, hpos, ⟨rfl, rfl⟩, hadmits, fun other hagrees log => ?_⟩
    obtain ⟨log', hok⟩ := hlocal other hagrees log
    exact ⟨log', fillBody_eq_ok.mpr ⟨rfl, hok⟩⟩

end Element

/-! ## Clusters -/

namespace BufferedCluster

variable {mode : ParsingMode}

theorem spans_readBlocks (mode : ParsingMode) (size : Nat) :
    Filling.Spans (readBlocks mode size) fun count n => count = size ∧ n = size := by
  intro source c cursor count c' cursor' hok
  obtain ⟨blocks, cursor₁, hchildren, hok⟩ := Filling.lift_bind_eq_ok.mp hok
  obtain ⟨_, hpos, rfl, hadmits, hlocal⟩ :=
    Element.spans_readChildren (spans_readChild mode) _ _ _ _ _ _ _ hchildren
  cases hok
  refine ⟨_, hpos, ⟨rfl, rfl⟩, hadmits, fun other hagrees log => ?_⟩
  obtain ⟨_, hchildren⟩ := hlocal other hagrees log
  exact ⟨_, Filling.lift_bind_eq_ok.mpr ⟨_, _, hchildren, rfl⟩⟩

theorem consumes_read (mode : ParsingMode) :
    Filling.Consumes (Cluster.read mode : Filling BufferedCluster Nat) := by
  refine .of_spans ?_ ?_
  · intro source c cursor count c' cursor' hok
    obtain ⟨opening, after, hopening, hblocks, rfl⟩ := Cluster.read_eq_ok.mp hok
    obtain ⟨n, hpos, hsum, hadmits, hlocal⟩ := Cluster.foresees_readOpening mode _ _ _ _ hopening
    obtain ⟨_, hpos', ⟨_, rfl⟩, hadmits', hlocal'⟩ := spans_readBlocks mode _ _ _ _ _ _ _ hblocks
    rw [hpos] at hpos' hadmits' hlocal'
    rw [Nat.add_assoc, hsum] at hpos' hadmits'
    refine ⟨_, hpos', rfl, hadmits' ∘ hadmits, fun other hagrees log => ?_⟩
    rw [← hsum] at hagrees ⊢
    obtain ⟨log₁, hopening⟩ := hlocal other hagrees log
    obtain ⟨log', hblocks⟩ := hlocal' other hagrees.right log₁
    rw [Nat.add_assoc] at hblocks
    exact ⟨log', Cluster.read_eq_ok.mpr ⟨opening, _, hopening, hblocks, hsum⟩⟩
  · intro source c cursor count c' cursor' hok
    obtain ⟨opening, after, hopening, _, rfl⟩ := Cluster.read_eq_ok.mp hok
    obtain ⟨size, length, hsize, hcount⟩ := Cluster.counts_readOpening mode _ _ _ _ hopening
    exact ⟨size, length, hcount, hsize⟩

end BufferedCluster

/-- Whatever element can be read is read to where it says that it ends, and depends on nothing
outside of itself.  The same holds of the clusters that are read with their blocks, in every mode,
and of their blocks. -/
theorem reads_bounded :
    Element.Bounded PrimitiveElement ∧ Element.Bounded VoidElement ∧ Element.Bounded Block ∧
      Element.Bounded SimpleBlock ∧ Element.Bounded BlockGroup ∧
        Element.Bounded BlockAdditions ∧ Element.Bounded ClusterBlock ∧
          ∀ mode : ParsingMode,
            Filling.Consumes (Cluster.read mode : Filling BufferedCluster Nat) ∧
              ∀ size : Nat, Filling.Spans
                (Cluster.readBlocks mode size : Filling BufferedCluster Nat)
                fun count n => count = size ∧ n = size :=
  ⟨.of_spans fun e _ _ => e.spans_readBody _, .of_spans fun e _ _ => e.spans_readBody _,
    .of_spans fun b _ hsize => b.spans_readBody hsize,
    .of_spans fun b _ hsize => b.spans_readBody hsize,
    .of_spans fun g _ _ => g.spans_readBody _, .of_spans fun a _ _ => a.spans_readBody _,
    .of_spans fun b _ hsize => b.spans_readBody hsize,
    fun mode => ⟨BufferedCluster.consumes_read mode, BufferedCluster.spans_readBlocks mode⟩⟩

/-- The size and the body of a group with one block of one byte. -/
def oneByteGroup : List UInt8 := [0x87, 0xa1, 0x85, 0x81, 0x00, 0x05, 0x00, 0xcc]

/-- The group is the same whether more bytes follow it or none, and it can be passed over. -/
theorem oneByteGroup_reads_bounded :
    ∃ g cursor log,
      (Element.fill : Filling BlockGroup Nat) ⟨0xa0 :: oneByteGroup ++ [0xa0, 0x81], 16⟩
          ⟨{}, ⟨1, #[]⟩⟩ = .ok 8 ⟨g, cursor⟩ ∧
        cursor.pos = 9 ∧
          Reader.Yields Element.skipRest ⟨0xa0 :: oneByteGroup ++ [0xa0, 0x81], 16⟩ 1 8 9 ∧
            (Element.fill : Filling BlockGroup Nat) ⟨0x00 :: oneByteGroup, 16⟩ ⟨{}, ⟨1, #[]⟩⟩ =
              .ok 8 ⟨g, ⟨9, log⟩⟩ := by
  obtain ⟨-, -, -, -, hgroup, -⟩ := reads_bounded
  have hcount : resultOf? ((Element.fill : Filling BlockGroup Nat)
      ⟨0xa0 :: oneByteGroup ++ [0xa0, 0x81], 16⟩ ⟨{}, ⟨1, #[]⟩⟩) = some 8 := by decide +kernel
  obtain ⟨⟨g, cursor⟩, hok⟩ := of_resultOf? hcount
  obtain ⟨n, hpos, rfl, -, hlocal⟩ := hgroup.whole.spans _ _ _ _ _ _ hok
  obtain ⟨-, -, -, -, hskip⟩ := hgroup.whole.declared hok
  obtain ⟨log, hok'⟩ := hlocal ⟨0x00 :: oneByteGroup, 16⟩
    ⟨rfl, rfl, Or.inr (by decide)⟩ #[]
  exact ⟨g, cursor, log, hok, hpos, hskip, hok'⟩

end Ebml
