import Ebml.Proofs.Cluster.Reading
import Ebml.Proofs.Element.Atomicity
import Ebml.Proofs.Stream.Comparison

/-!
# Reads that succeed replace everything

What an object held before goes into a read only where a reader looks at it.  An element looks at
its own ID and keeps its own offset when its body alone is read (`Element.Fresh`).  A cluster looks
at the metadata that it has read so far, which starts out empty.  Nothing else is looked at, and
every field is assigned in the end, with its default where the stream says nothing of it.

So a read does the same whatever it reads into, and of what it leaves nothing was there before
(`Filling.Alike`).  That a cluster is open, and the room that it would leave for its size, are not
contents: the one is up to the kind of cluster, the other stays.
-/

namespace Ebml

open Filling (Alike)

/-! ## Elements -/

namespace Element

variable {ε : Type} [Element ε]

/-- A kind of element whose body is read alike whatever it holds, except for the offset, which
stays. -/
class Fresh (ε : Type) [Element ε] : Prop where
  id_eq : ∀ e e' : ε, id e = id e' := by exact fun _ _ => rfl
  offset_setOffset : ∀ (e : ε) pos, offset (setOffset e pos) = pos := by exact fun _ _ => rfl
  readBody_eq : ∀ (e e' : ε) size,
    readBody e size = (setOffset · (offset e)) <$> readBody e' size

variable [Fresh ε]

theorem readBody_congr {e e' : ε} (h : offset e = offset e') (size : Nat) :
    readBody e size = readBody e' size := by
  rw [Fresh.readBody_eq e e', h, ← Fresh.readBody_eq e' e']

variable [Stepwise ε]

/-- The body alone replaces everything but the offset. -/
theorem alike_fillBody (size : Nat) (c d : ε) :
    Alike (fun c' d' => d' = setOffset c' (offset d)) c d (fillBody size) (fillBody size) := by
  rw [← Stepwise.fillBody_eq]
  have hd := Stepwise.commits_fillBody d size
  rw [Fresh.readBody_eq d c, map_eq_pure_bind, bind_assoc] at hd
  refine .of_commits (setOffset · (offset d)) (Stepwise.commits_fillBody c size) ?_ fun _ => rfl
  simpa only [bind_assoc, pure_bind] using hd

/-- A whole element is replaced as a whole. -/
theorem alike_fill (c d : ε) : Alike Eq c d fill fill := by
  rw [← Stepwise.fill_eq]
  refine .lift_bind fun position => .change_bind ?_
  rw [Fresh.id_eq c d]
  have hoffset : offset (setOffset c (position - (Element.id d).size)) =
      offset (setOffset d (position - (Element.id d).size)) := by
    rw [Fresh.offset_setOffset, Fresh.offset_setOffset]
  have hc := Stepwise.commits_fillRest (setOffset c (position - (Element.id d).size))
  simp only [readBody_congr hoffset] at hc
  exact .eq_of_commits hc (Stepwise.commits_fillRest _)

end Element

instance : Element.Fresh Block where
  readBody_eq b b' size := by
    simp only [Element.readBody, Element.setOffset, map_eq_pure_bind, bind_assoc, pure_bind]
    rfl

instance : Element.Fresh SimpleBlock where
  readBody_eq b b' size := by
    simp only [Element.readBody, Element.setOffset, map_eq_pure_bind, bind_assoc, pure_bind]
    rfl

instance : Element.Fresh BlockGroup where
  readBody_eq g g' size := by
    simp only [Element.readBody, Element.setOffset, map_eq_pure_bind, bind_assoc, pure_bind]
    rfl

instance : Element.Fresh BlockAdditions where
  readBody_eq a a' size := by
    simp only [Element.readBody, Element.setOffset, map_eq_pure_bind, bind_assoc, pure_bind]
    rfl

/-! ## Clusters -/

namespace Cluster

variable {κ : Type} [Cluster κ] {R : κ → κ → Prop} {mode : ParsingMode}
  (hblocks : ∀ size c d, metadata c = metadata d →
    Alike R c d (readBlocks mode size) (readBlocks mode size))

/-- What is checked in the end is the same of both. -/
theorem alike_conclude_after {size sizeLength consumed : Nat} {hasTimecode : Bool} {c d : κ}
    (h : R c d) :
    Alike R c d (conclude mode size sizeLength ⟨consumed, hasTimecode, true⟩)
      (conclude mode size sizeLength ⟨consumed, hasTimecode, true⟩) := by
  rw [conclude]
  split
  next => exact .throw_bind
  next =>
    cases hasTimecode with
    | false => exact .throw_bind
    | true => exact .pure h

include hblocks

/-- A cluster without blocks comes to have none. -/
theorem alike_conclude_without {size sizeLength consumed : Nat} {hasTimecode : Bool} {c d : κ}
    (h : metadata c = metadata d) :
    Alike R c d (conclude mode size sizeLength ⟨consumed, hasTimecode, false⟩)
      (conclude mode size sizeLength ⟨consumed, hasTimecode, false⟩) := by
  rw [conclude]
  split
  next => exact .throw_bind
  next =>
    cases hasTimecode with
    | false => exact .throw_bind
    | true => exact (hblocks 0 c d h).bind fun _ _ _ => .pure

variable [LawfulCluster κ]

/-- The metadata is looked at to be gone on with, so it has to be the same at first. -/
theorem alike_contents (size sizeLength : Nat) :
    ∀ (consumed : Nat) (hasTimecode : Bool) (c d : κ), metadata c = metadata d →
      Alike R c d (readContents mode size consumed hasTimecode >>= conclude mode size sizeLength)
        (readContents mode size consumed hasTimecode >>= conclude mode size sizeLength) := by
  intro consumed
  -- every child takes at least the octet of its ID, so less of the body is left after it
  induction hleft : size - consumed using Nat.strongRecOn generalizing consumed with
  | ind left ih =>
      intro hasTimecode c d h
      rw [readContents]
      split
      next hlt =>
        rw [bind_assoc]
        refine .lift_bind fun id => ?_
        have hsize := id.size_pos
        split
        next =>
          simp only [bind_assoc, pure_bind]
          exact .lift_bind fun _ => (hblocks _ c d h).bind fun _ _ _ => alike_conclude_after
        next =>
          rw [bind_assoc]
          refine .object_bind ?_
          rw [h]
          dsimp only
          rw [bind_assoc]
          refine .lift_bind fun found => ?_
          cases found with
          | some found =>
              dsimp only
              rw [bind_assoc]
              refine .change_bind (ih _ (by omega) _ rfl _ _ _ ?_)
              rw [LawfulCluster.metadata_setMetadata, LawfulCluster.metadata_setMetadata]
          | none =>
              dsimp only
              rw [bind_assoc]
              exact .lift_bind fun count => ih _ (by omega) _ rfl _ _ _ h
      next =>
        rw [pure_bind]
        exact alike_conclude_without hblocks h

/-- A cluster is read into empty metadata, so what is read does not depend on the cluster. -/
theorem alike_read (c d : κ) : Alike R c d (read mode) (read mode) := by
  rw [read_eq]
  refine .lift_bind fun position => .lift_bind fun (size, sizeLength) => .lift_bind fun _ =>
    .change_bind (alike_contents hblocks size sizeLength 0 false _ _ ?_)
  rw [LawfulCluster.metadata_setMetadata, LawfulCluster.metadata_setMetadata]

end Cluster

/-- The blocks are replaced, and the metadata stays. -/
theorem BufferedCluster.alike_readBlocks (mode : ParsingMode) (size : Nat) (c d : BufferedCluster)
    (h : c.metadata = d.metadata) :
    Alike (fun c' d' => d' = { c' with start? := d'.start? }) c d
      (readBlocks mode size) (readBlocks mode size) := by
  refine .lift_bind fun blocks => .lift_bind fun _ => .change_bind (.pure ?_)
  simp only [sorted, h]

/-- The index and what is counted of it are replaced, and the metadata stays. -/
theorem StreamingCluster.alike_readBlocks (mode : ParsingMode) (size : Nat)
    (c d : StreamingCluster) (h : c.metadata = d.metadata) :
    Alike (fun c' d' => d' = { c' with placeholder := d'.placeholder }) c d
      (readBlocks mode size) (readBlocks mode size) := by
  refine .lift_bind fun index => .lift_bind fun _ => .change_bind (.pure ?_)
  simp only [sorted, sizeLengthFor, h]

/-! ## Every kind of object -/

/-- A read that succeeds leaves nothing of the element that it had begun to read into, except that
a body does not tell the offset.  This holds of the fields one by one as they are read in place. -/
structure Element.Replaces (ε : Type) [Element ε] [Stepwise ε] (moved : ε → Nat → ε) : Prop where
  /-- A whole element that is read in place is the element that is read as a whole. -/
  fill_eq : (Stepwise.fill : Filling ε Nat) = fill
  /-- A body that is read in place is the body that is read as a whole. -/
  fillBody_eq : ∀ size, (Stepwise.fillBody size : Filling ε Nat) = fillBody size
  /-- Whatever two elements held, they are one after they were read at one place. -/
  whole : ∀ c d : ε, Alike Eq c d fill fill
  /-- They are one but for their offsets after their bodies were. -/
  body : ∀ size (c d : ε),
    Alike (fun c' d' => d' = moved c' (offset d)) c d (fillBody size) (fillBody size)

theorem Element.Fresh.replaces {ε : Type} [Element ε] [Stepwise ε] [Fresh ε] :
    Replaces ε setOffset where
  fill_eq := Stepwise.fill_eq
  fillBody_eq := Stepwise.fillBody_eq
  whole := alike_fill
  body := alike_fillBody

/-- Of two objects with any contents that are read at one place, the reads have one result and come
to one position.  If they succeed, the objects hold the same: elements in all, clusters but for
whether they are prepared and for the room that they leave for their size. -/
theorem reads_replace :
    Element.Replaces Block (fun b offset => { b with offset }) ∧
      Element.Replaces SimpleBlock (fun b offset => { b with block := { b.block with offset } }) ∧
      Element.Replaces BlockGroup (fun g offset => { g with offset }) ∧
      Element.Replaces BlockAdditions (fun a offset => { a with offset }) ∧
      (∀ mode (c d : BufferedCluster),
        Alike (fun c' d' => d' = { c' with start? := d'.start? }) c d
          (Cluster.read mode) (Cluster.read mode)) ∧
      ∀ mode (c d : StreamingCluster),
        Alike (fun c' d' => d' = { c' with placeholder := d'.placeholder }) c d
          (Cluster.read mode) (Cluster.read mode) :=
  ⟨Element.Fresh.replaces, Element.Fresh.replaces, Element.Fresh.replaces, Element.Fresh.replaces,
    fun mode => Cluster.alike_read (BufferedCluster.alike_readBlocks mode),
    fun mode => Cluster.alike_read (StreamingCluster.alike_readBlocks mode)⟩

end Ebml
