import Ebml.Cluster.Buffered
import Ebml.Cluster.Streaming
import Ebml.Proofs.Stream.Closure

/-!
# What elements are written by

The writers of elements are put together from emitting bytes, from notes and from failures, and the
parts of a cluster are written by these and by moves in the stream.  So a property that composes
holds of them if it holds of these steps (`Writer.Closed`).  The lemmas follow the writers one by
one, as those for readers do.
-/

namespace Ebml

open Writer (Closed)

variable {C : ∀ {α : Type}, Writer α → Prop}

/-! ## Headers and values -/

theorem VarInt.closed_writeSized (hC : Closed C) (value length : Nat) :
    C (writeSized value length) := by
  refine hC.bind (hC.ofExcept fun {e} h => ?_) fun _ => hC.emitCounted _
  rw [encodeSized] at h
  split at h
  next => cases h
  next =>
    cases h
    rfl

theorem VarInt.closed_write (hC : Closed C) (value : Nat) : C (write value) := by
  refine hC.bind (hC.ofExcept fun {e} h => ?_) fun _ => closed_writeSized hC value _
  rw [size] at h
  split at h
  next =>
    cases h
    rfl
  next => cases h

theorem ElementId.closed_write (hC : Closed C) (id : ElementId) : C id.write := hC.emitCounted _

theorem Element.closed_write {ε : Type} [Element ε] (hC : Closed C) {e : ε}
    (hsize : C (writeSize e)) (hbody : C (writeBody e)) : C (write e) :=
  hC.bind ((id e).closed_write hC) fun _ =>
    hC.bind hsize fun _ => hC.bind hbody fun _ => hC.pure _

theorem Value.closed_write (hC : Closed C) (value : Value) : C value.write := by
  cases value with
  | int value => exact hC.emitCounted _
  | uint value => exact hC.emitCounted _
  | float value => exact hC.emitCounted _
  | string value => exact hC.emitCounted _
  | date value => exact hC.emitCounted _
  | binary value => exact hC.emitCounted _

theorem PrimitiveElement.closed_write (hC : Closed C) (e : PrimitiveElement) :
    C (Element.write e) :=
  Element.closed_write hC (VarInt.closed_write hC _)
    (hC.bind (hC.note rfl) fun _ => Value.closed_write hC _)

theorem PrimitiveElement.closed_writeAll (hC : Closed C) (elements : List PrimitiveElement) :
    C (Writer.each Element.write elements) :=
  hC.each fun e _ => e.closed_write hC

/-! ## Blocks -/

theorem Lacing.closed_writeDifference (hC : Closed C) (difference : Int) :
    C (writeDifference difference) := by
  refine hC.bind (hC.ofExcept fun {e} h => ?_) fun _ => VarInt.closed_writeSized hC _ _
  rw [VarInt.Offset.encode] at h
  split at h
  next => cases h
  next =>
    cases h
    rfl

theorem Lacing.closed_writeHeader (hC : Closed C) (lacing : Lacing) (sizes : List Nat) :
    C (lacing.writeHeader sizes) := by
  unfold writeHeader
  split
  next => exact hC.pure _
  next =>
    refine hC.bind (hC.emit _) fun _ => ?_
    split
    next =>
      exact hC.bind (VarInt.closed_write hC _) fun _ =>
        hC.bind (hC.each fun _ _ => closed_writeDifference hC _) fun _ => hC.pure _
    next => exact hC.pure _

namespace Block

theorem neutral_of_fault {b : Block} {e : Error} (h : b.fault? = some e) :
    e.Neutral := by
  rw [fault?] at h
  split at h
  next =>
    cases h
    rfl
  next =>
    split at h
    next =>
      cases h
      rfl
    next =>
      split at h
      next =>
        cases h
        rfl
      next =>
        split at h
        next =>
          cases h
          rfl
        next => cases h

theorem closed_validate (hC : Closed C) (b : Block) : C b.validate := by
  rw [validate]
  split
  next => exact hC.pure _
  next => exact hC.bind (hC.note rfl) fun _ => hC.throw rfl
  next hfault => exact hC.throw (neutral_of_fault hfault)

theorem closed_writeContent (hC : Closed C) (b : Block) (kindFlags : UInt8) :
    C (b.writeContent kindFlags) :=
  hC.bind (b.closed_validate hC) fun _ => hC.bind (VarInt.closed_write hC _) fun _ =>
    hC.bind (hC.emit _) fun _ => hC.bind (hC.emit _) fun _ =>
      hC.bind (Lacing.closed_writeHeader hC _ _) fun _ =>
        hC.bind (hC.each fun frame _ => hC.emitCounted frame) fun _ =>
          hC.bind (hC.note rfl) fun _ => hC.pure _

end Block

theorem Addition.closed_write (hC : Closed C) (a : Addition) : C a.write :=
  hC.bind (ElementId.closed_write hC _) fun _ => hC.bind (VarInt.closed_write hC _) fun _ =>
    hC.bind (PrimitiveElement.closed_writeAll hC _) fun _ => hC.pure _

theorem BlockGroup.closed_write (hC : Closed C) (g : BlockGroup) : C (Element.write g) := by
  refine Element.closed_write hC (VarInt.closed_write hC _) ?_
  refine hC.bind (Element.closed_write hC (VarInt.closed_write hC _)
    (g.block.closed_writeContent hC 0)) fun _ => ?_
  have htrailing := PrimitiveElement.closed_writeAll hC g.trailingChildren
  dsimp only
  split
  next => exact hC.bind (hC.pure 0) fun _ => hC.bind htrailing fun _ => hC.pure _
  next =>
    exact hC.bind (Element.closed_write hC (VarInt.closed_write hC _)
      (hC.each fun a _ => a.closed_write hC)) fun _ => hC.bind htrailing fun _ => hC.pure _

theorem ClusterBlock.closed_write (hC : Closed C) (b : ClusterBlock) : C (Element.write b) := by
  cases b with
  | simple b =>
      exact Element.closed_write hC (VarInt.closed_write hC _)
        (b.block.closed_writeContent hC b.kindFlags)
  | group g => exact g.closed_write hC

/-! ## Clusters -/

theorem Cluster.closed_checkPosition (hC : Closed C) (expected : Nat) :
    C (checkPosition expected) := by
  refine hC.bind hC.position fun found => ?_
  split
  next => exact hC.throw rfl
  next => exact hC.pure _

theorem ClusterMetadata.closed_write (hC : Closed C) (m : ClusterMetadata) : C m.write := by
  have hsilent : C m.writeSilentTracks := by
    rw [writeSilentTracks]
    split
    next => exact hC.pure _
    next =>
      exact hC.bind (ElementId.closed_write hC _) fun _ =>
        hC.bind (VarInt.closed_write hC _) fun _ =>
          hC.bind (PrimitiveElement.closed_writeAll hC _) fun _ => hC.pure _
  exact hC.bind (PrimitiveElement.closed_write hC _) fun _ => hC.bind hsilent fun _ =>
    hC.bind (PrimitiveElement.closed_writeAll hC _) fun _ => hC.pure _

theorem BufferedCluster.closed_writeAt (hC : Closed C) (c : BufferedCluster) (start : Nat) :
    C (c.writeAt start) :=
  hC.bind (ElementId.closed_write hC _) fun _ => hC.bind (VarInt.closed_write hC _) fun _ =>
    hC.bind (c.metadata.closed_write hC) fun _ =>
      hC.bind (hC.each fun b _ => b.closed_write hC) fun _ =>
        hC.bind (hC.note rfl) fun _ => hC.pure _

namespace StreamingCluster

theorem closed_writeHead (hC : Closed C) (c : StreamingCluster) : C c.writeHead :=
  hC.bind (ElementId.closed_write hC _) fun _ => hC.bind (VarInt.closed_writeSized hC _ _) fun _ =>
    hC.bind (c.metadata.closed_write hC) fun _ => hC.pure _

theorem closed_pushAt (hC : Closed C) (expected : Nat) (block : ClusterBlock) :
    C (pushAt expected block) :=
  hC.bind (Cluster.closed_checkPosition hC expected) fun _ =>
    hC.bind (block.block.closed_validate hC) fun _ => block.closed_write hC

theorem closed_fillSize (hC : Closed C) (state : OpenState) (sizeLength : Nat) :
    C (fillSize state sizeLength) :=
  hC.bind (Cluster.closed_checkPosition hC _) fun _ => hC.bind (hC.seek _) fun _ =>
    hC.bind (VarInt.closed_writeSized hC _ _) fun _ => hC.seek _

end StreamingCluster

end Ebml
