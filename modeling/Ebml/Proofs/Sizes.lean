import Ebml.Proofs.Cluster.Interchange
import Ebml.Proofs.Stream.Extent
import Ebml.Proofs.Void

/-!
# Sizes are kept

The size of an element is worked out before the element is written, by functions of its own.  Here
they are compared with the writers: what is written is exactly as large as was declared, and lies
exactly where it was to be written (`written_as_declared`).  So whoever reserved that much room for
an element loses nothing around it.

A body that is written by itself may lie behind a gap too.  It either begins by emitting something,
even if that is empty, or there is nothing of it to write.
-/

namespace Ebml

/-! ## Bodies behind a gap -/

theorem VarInt.settles_write {value : Nat} (h : value ≤ max) : Writer.Settles (write value) := by
  rw [write, size_of_le h]
  show Writer.Settles (writeSized value (octetLength value))
  rw [writeSized, encodeSized_of_fits (fits_octetLength h)]
  exact (Writer.settles_emit _).bind _

theorem Value.settles_write (value : Value) : Writer.Settles value.write := by
  cases value with
  | int value => exact (Writer.settles_emit _).bind _
  | uint value => exact (Writer.settles_emit _).bind _
  | float value => exact (Writer.settles_emit _).bind _
  | string value => exact (Writer.settles_emit _).bind _
  | date value => exact (Writer.settles_emit _).bind _
  | binary value => exact (Writer.settles_emit _).bind _

theorem Block.settles_writeContent {b : Block} (kindFlags : UInt8) (h : b.Valid) :
    Writer.Settles (b.writeContent kindFlags) := by
  have hvalidate : b.validate = pure () := by
    rw [validate, h.sound]
  rw [writeContent, hvalidate, pure_bind]
  exact (VarInt.settles_write h.track_le).bind _

theorem BlockAdditions.covers_writeBody {a : BlockAdditions}
    (h : Element.bodySize a ≤ VarInt.max) :
    Writer.Covers (Element.writeBody a) (Element.bodySize a) := by
  have hemits := emits_writeBody fun _ : True => h
  obtain ⟨entries, offset⟩ := a
  cases entries with
  | nil => exact Writer.covers_pure
  | cons entry entries =>
      have hfirst : Writer.Settles entry.write := (ElementId.fillsGap_write _).fills.bind _
      exact .of_emits (hfirst.bind _) hemits (Element.Encoded.length_body _)

theorem VoidElement.covers_writeBody (e : VoidElement) :
    Writer.Covers (Element.writeBody e) (Element.bodySize e) := by
  have hbody : (Element.writeBody e : Writer Nat) =
      do Writer.emitZeros e.size; return e.size := rfl
  by_cases h0 : e.size = 0
  · have hnothing : (Element.writeBody e : Writer Nat) = pure 0 := by
      rw [hbody, h0]
      rfl
    have hsize : Element.bodySize e = 0 := h0
    rw [hnothing, hsize]
    exact Writer.covers_pure
  · have hzeros : Writer.emitZeros e.size = Writer.emit (List.replicate e.size 0) :=
      Writer.emitZeros_eq h0
    refine .of_emits ?_ e.emits_writeBody List.length_replicate
    rw [hbody, hzeros]
    exact (Writer.settles_emit _).bind _

/-! ## Elements -/

namespace Element

variable {ε : Type} [Element ε]

/-- An element and its body are written in as many bytes as they say. -/
structure Measured (e : ε) : Prop where
  /-- The whole element is. -/
  whole : Writer.Covers (write e) (totalSize e)
  /-- The body is, also by itself. -/
  body : Writer.Covers (writeBody e) (bodySize e)

theorem Measured.of_emits [Encoded ε] {e : ε}
    (hwrite : Writer.Emits True (write e) (encoding e) (totalSize e))
    (hbody : Writer.Covers (writeBody e) (bodySize e)) : Measured e where
  whole := .of_emits (fillsGap_write e).fills hwrite (length_encoding e)
  body := hbody

end Element

theorem PrimitiveElement.measured {e : PrimitiveElement} (h : Element.bodySize e ≤ VarInt.max) :
    Element.Measured e :=
  .of_emits (emits_write fun _ => h)
    (.of_emits ((Value.settles_write e.value).note _)
      ((Writer.Emits.note _).bind (Value.emits_write e.value)) (Element.Encoded.length_body e))

theorem VoidElement.measured {e : VoidElement} (h : e.Made) (hmax : e.size ≤ VarInt.max) :
    Element.Measured e where
  whole := .of_emits (Element.fillsGap_write e).fills (emits_write fun _ => h.fits hmax)
    e.length_encoding
  body := e.covers_writeBody

theorem Block.measured {b : Block} (h : b.Valid) (hbound : Element.bodySize b < Element.sizeBound) :
    Element.Measured b :=
  .of_emits (emits_write fun _ => ⟨h, hbound⟩)
    (.of_emits (settles_writeContent 0 h) (emits_writeContent 0 fun _ => ⟨h, hbound⟩)
      (b.length_content 0))

theorem SimpleBlock.measured {b : SimpleBlock} (h : b.block.Valid)
    (hbound : Element.bodySize b < Element.sizeBound) : Element.Measured b :=
  .of_emits (emits_write fun _ => ⟨h, hbound⟩)
    (.of_emits (Block.settles_writeContent b.kindFlags h)
      (Block.emits_writeContent b.kindFlags fun _ => ⟨h, hbound⟩)
      (b.block.length_content b.kindFlags))

theorem BlockGroup.measured {g : BlockGroup} (h : g.block.Valid)
    (hbound : Element.bodySize g < Element.sizeBound) : Element.Measured g :=
  .of_emits (emits_write fun _ => ⟨h, hbound⟩)
    (.of_emits ((Element.fillsGap_write g.block).fills.bind _)
      (emits_writeBody fun _ => ⟨h, hbound⟩) (Element.Encoded.length_body g))

theorem BlockAdditions.measured {a : BlockAdditions} (h : Element.bodySize a ≤ VarInt.max) :
    Element.Measured a :=
  .of_emits (emits_write fun _ => h) (covers_writeBody h)

theorem ClusterBlock.measured {b : ClusterBlock} (h : b.Valid)
    (hbound : Element.bodySize b < Element.sizeBound) : Element.Measured b := by
  refine .of_emits (emits_write fun _ => ⟨h, hbound⟩) ?_
  cases b with
  | simple b => exact (SimpleBlock.measured h hbound).body
  | group g => exact (BlockGroup.measured h hbound).body

/-! ## Clusters -/

/-- A cluster that was prepared is written in as many bytes as it says, whatever became of its
blocks since. -/
theorem BufferedCluster.write_covers {c : BufferedCluster} {stream : Stream}
    (hstart : c.start? = some stream.pos) (hvalid : ∀ b ∈ c.blocks, b.Valid)
    (hbound : c.bodySize < Element.sizeBound) (hgrow : stream.fixed = false) (log : Log) :
    ∃ c' sink, write ⟨c, ⟨stream, log⟩⟩ = .ok (Cluster.totalSize c) ⟨c', sink⟩ ∧
      Cluster.totalSize c' = Cluster.totalSize c ∧
        stream.Written sink.stream (Cluster.totalSize c) := by
  have hsize : (sorted { c with start? := none }).bodySize = c.bodySize :=
    Cluster.contentSize_sort c.metadata c.blocks
  have htotal : Cluster.totalSize (sorted { c with start? := none }) = Cluster.totalSize c :=
    congrArg (fun size => ElementId.cluster.size + VarInt.octetLength size + size) hsize
  have hsorted : ∀ b ∈ (sorted { c with start? := none }).blocks, b.Valid := fun b hm =>
    hvalid b ((Timeline.perm_sort _ _).mem_iff.mp hm)
  have hemits : Writer.Emits True (writeAt _ stream.pos) _ _ :=
    emits_writeAt (sorted { c with start? := none }) stream.pos fun _ => ⟨hsorted, hsize ▸ hbound⟩
  obtain ⟨sink, hok, hwritten⟩ := Writer.Covers.of_emits (fillsGap_writeAt _ stream.pos).fills
    hemits (Cluster.length_layout _ _ _ _) stream log hgrow
  rw [htotal] at hok hwritten
  refine ⟨sorted { c with start? := none }, sink, ?_, htotal, hwritten⟩
  rw [write_eq hstart, if_pos rfl, hok]

/-- Everything that can be written is written in as many bytes as it says, wherever that is in a
stream that grows, and leaves all other bytes as they were.  What a buffered cluster says still
holds after its blocks were edited in place. -/
theorem written_as_declared :
    (∀ e : PrimitiveElement, Element.bodySize e < Element.sizeBound → Element.Measured e) ∧
      (∀ e : VoidElement, e.Made → Element.bodySize e < Element.sizeBound → Element.Measured e) ∧
        (∀ b : Block, b.Valid → Element.bodySize b < Element.sizeBound → Element.Measured b) ∧
          (∀ b : SimpleBlock, b.block.Valid → Element.bodySize b < Element.sizeBound →
            Element.Measured b) ∧
            (∀ g : BlockGroup, g.block.Valid → Element.bodySize g < Element.sizeBound →
              Element.Measured g) ∧
              (∀ a : BlockAdditions, Element.bodySize a < Element.sizeBound →
                Element.Measured a) ∧
                (∀ b : ClusterBlock, b.Valid → Element.bodySize b < Element.sizeBound →
                  Element.Measured b) ∧
                  ∀ (c : BufferedCluster) (stream : Stream) (log : Log),
                    c.start? = some stream.pos → (∀ b ∈ c.blocks, b.Valid) →
                    Cluster.bodySize c < Element.sizeBound → stream.fixed = false →
                    ∃ c' sink, BufferedCluster.write ⟨c, ⟨stream, log⟩⟩ =
                        .ok (Cluster.totalSize c) ⟨c', sink⟩ ∧
                      Cluster.totalSize c' = Cluster.totalSize c ∧
                        stream.Written sink.stream (Cluster.totalSize c) :=
  ⟨fun _ hbound => PrimitiveElement.measured (Element.le_max_of_lt hbound),
    fun _ hmade hbound => VoidElement.measured hmade (Element.le_max_of_lt hbound),
    fun _ => Block.measured, fun _ => SimpleBlock.measured, fun _ => BlockGroup.measured,
    fun _ hbound => BlockAdditions.measured (Element.le_max_of_lt hbound),
    fun _ => ClusterBlock.measured,
    fun _ _ log hstart hvalid hbound hgrow =>
      BufferedCluster.write_covers hstart hvalid hbound hgrow log⟩

/-- An element of 130 bytes.  No void element of as many bytes has a size in as few octets as
possible. -/
def replaced : PrimitiveElement where
  id := .silentTracks
  value := .binary (List.replicate 127 0xaa)

/-- The element that takes the place of the 130 bytes is written over as many, and a cluster whose
blocks are not in order any more is written behind a gap of three bytes. -/
theorem replaced_as_declared :
    (VoidElement.replacing replaced true).sizeLength = 2 ∧
      (∃ sink, Element.write (VoidElement.replacing replaced true)
          ⟨{ data := List.replicate 200 7, pos := 2 }, #[]⟩ = .ok 130 sink ∧
        ({ data := List.replicate 200 7, pos := 2 } : Stream).Written sink.stream 130) ∧
        ∃ c sink, BufferedCluster.write
            ⟨{ metadata := { timecode := 1000 }, blocks := unordered, start? := some 3 },
              ⟨{ pos := 3 }, #[]⟩⟩ = .ok 29 ⟨c, sink⟩ ∧
          ({ pos := 3 } : Stream).Written sink.stream 29 := by
  obtain ⟨-, hvoid, -, -, -, -, -, hcluster⟩ := written_as_declared
  have htotal : Element.totalSize (VoidElement.replacing replaced true) = 130 := by decide +kernel
  obtain ⟨sink, hwrite, hwritten⟩ := (hvoid (.replacing replaced true) (.replacing replaced true)
    (by decide +kernel)).whole { data := List.replicate 200 7, pos := 2 } #[] rfl
  obtain ⟨c, sink', hwrite', -, hwritten'⟩ := hcluster
    { metadata := { timecode := 1000 }, blocks := unordered, start? := some 3 } { pos := 3 } #[] rfl
    writable_unordered.valid writable_unordered.bounded rfl
  have htotal' : Cluster.totalSize
      ({ metadata := { timecode := 1000 }, blocks := unordered, start? := some 3 } :
        BufferedCluster) = 29 := by decide +kernel
  rw [htotal] at hwrite hwritten
  rw [htotal'] at hwrite' hwritten'
  exact ⟨by decide +kernel, ⟨sink, hwrite, hwritten⟩, c, sink', hwrite', hwritten'⟩

end Ebml
