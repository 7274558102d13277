import Ebml.Block.Simple
import Ebml.Cluster.Streaming
import Ebml.Proofs.Stream.Closure

/-!
# What elements are read by

The readers of elements are put together from reading single bytes and strings of bytes, from notes
and failures, and from reading bodies into memory.  So a property that composes holds of them if it
holds of these (`Reader.Closed`).  The lemmas follow the readers one by one.  Whether a reader needs
memory shows in whether its lemma asks for the property of `Reader.body`.
-/

namespace Ebml

open Reader (Closed Composes)

variable {C : ∀ {α : Type}, Reader α → Prop}

/-! ## Headers -/

theorem VarInt.closed_readRest (hC : Closed C) (first : UInt8) : C (readRest first) := by
  refine hC.bind (hC.ofExcept fun {e} h => ?_) fun _ => hC.bind (hC.take _) fun _ => hC.pure _
  rw [lengthOf] at h
  split at h
  next =>
    cases h
    rfl
  next => cases h

theorem VarInt.closed_read (hC : Closed C) : C read :=
  hC.bind hC.next fun first => hC.bind (closed_readRest hC first) fun _ => hC.pure _

theorem ElementId.closed_verify (hC : Closed C) (value : Nat) :
    C (Reader.ofExcept (verify value)) := by
  refine hC.ofExcept fun {e} h => ?_
  rw [verify] at h
  split at h
  next => cases h
  next =>
    cases h
    rfl

theorem ElementId.closed_read (hC : Closed C) : C read := by
  refine hC.bind hC.next fun first => ?_
  dsimp only
  split
  next => exact hC.throw_bind rfl
  next => exact hC.bind (VarInt.closed_readRest hC first) fun _ => closed_verify hC _

namespace Element

theorem closed_read {ε : Type} [Element ε] (hC : Closed C) {e : ε}
    (hbody : ∀ offset size, C (readBody (setOffset e offset) size)) : C (read e) := by
  rw [read, locate, bind_assoc]
  refine hC.bind hC.position fun _ => ?_
  rw [pure_bind]
  exact hC.bind (VarInt.closed_read hC) fun _ => hC.bind (hbody _ _) fun _ => hC.pure _

theorem closed_skipRest (hC : Closed C) : C skipRest :=
  hC.bind (VarInt.closed_read hC) fun _ => hC.bind (hC.skip _) fun _ => hC.pure _

section

variable {α : Type} {handle : α → ElementId → Reader (α × Nat)} {parent : ElementId} {size : Nat}

/-- Children are gone through as each of them is handled. -/
theorem composes_readChildrenFrom (hC : Composes C) (hid : C ElementId.read)
    (hnote : ∀ id, C (Reader.note (.readingChild id parent)))
    (hhandle : ∀ acc id, C (handle acc id))
    (hsize : ∀ consumed, C (throw (.badBodySize parent.value size consumed) : Reader α)) :
    ∀ consumed acc, C (readChildrenFrom parent size handle consumed acc) := by
  intro consumed
  induction hleft : size - consumed using Nat.strongRecOn generalizing consumed with
  | ind left ih =>
      intro acc
      rw [readChildrenFrom]
      split
      next hlt =>
        refine hC.bind hid fun id => ?_
        have hsize := id.size_pos
        exact hC.bind (hnote id) fun _ => hC.bind (hhandle acc id) fun _ => ih _ (by omega) _ rfl _
      next =>
        split
        next => exact hC.pure _
        next => exact hsize consumed

theorem closed_readChildren (hC : Closed C) (hhandle : ∀ acc id, C (handle acc id)) (init : α) :
    C (readChildren parent size init handle) :=
  composes_readChildrenFrom hC.toComposes (ElementId.closed_read hC) (fun _ => hC.note rfl) hhandle
    (fun _ => hC.throw rfl) 0 init

end

end Element

/-! ## Values -/

theorem Integer.closed_readUnsigned (hC : Closed C) (length : Nat) : C (readUnsigned length) := by
  rw [readUnsigned]
  split
  next => exact hC.throw_bind rfl
  next => exact hC.bind (hC.take _) fun _ => hC.pure _

theorem Integer.closed_readSigned (hC : Closed C) (length : Nat) : C (readSigned length) := by
  rw [readSigned]
  split
  next => exact hC.throw_bind rfl
  next => exact hC.bind (hC.take _) fun _ => hC.pure _

namespace Value

theorem closed_readNumber (hC : Closed C) {α : Type} {id : ElementId} {size : Nat}
    {number : Nat → Reader α} (h : C (number size)) : C (readNumber id size number) := by
  rw [readNumber]
  split
  next => exact hC.throw_bind rfl
  next => exact h

theorem closed_readFloat (hC : Closed C) (id : ElementId) (size : Nat) : C (readFloat id size) := by
  unfold readFloat
  split
  next => exact hC.pure _
  next => exact hC.bind (hC.take 4) fun _ => hC.pure _
  next => exact hC.bind (hC.take 8) fun _ => hC.pure _
  next => exact hC.throw rfl

theorem closed_readText (hC : Closed C) {size : Nat} (hbody : C (Reader.body size)) :
    C (readText size) := by
  refine hC.bind hbody fun _ => ?_
  split
  next => exact hC.pure _
  next => exact hC.throw rfl

/-- Whether the values of a kind are read into memory as they are. -/
def Kind.isBytes : Kind → Bool
  | .string | .binary => true
  | _ => false

theorem closed_read (hC : Closed C) {kind : Kind} {size : Nat}
    (hbody : kind.isBytes → C (Reader.body size)) (id : ElementId) : C (read kind id size) := by
  have hsigned : C (readNumber id size Integer.readSigned) :=
    closed_readNumber hC (Integer.closed_readSigned hC size)
  have hunsigned : C (readNumber id size Integer.readUnsigned) :=
    closed_readNumber hC (Integer.closed_readUnsigned hC size)
  cases kind with
  | int => exact hC.bind hsigned fun _ => hC.pure _
  | uint => exact hC.bind hunsigned fun _ => hC.pure _
  | float => exact hC.bind (closed_readFloat hC id size) fun _ => hC.pure _
  | string => exact hC.bind (closed_readText hC (hbody rfl)) fun _ => hC.pure _
  | date => exact hC.bind hsigned fun _ => hC.pure _
  | binary => exact hC.bind (hbody rfl) fun _ => hC.pure _

end Value

namespace PrimitiveElement

theorem closed_readBody (hC : Closed C) {e : PrimitiveElement} {size : Nat}
    (hbody : e.value.kind.isBytes → C (Reader.body size)) : C (Element.readBody e size) :=
  hC.bind (hC.note rfl) fun _ => hC.bind (Value.closed_read hC hbody _) fun _ => hC.pure _

theorem closed_readChild (hC : Closed C) (id : ElementId) {kind : Value.Kind}
    (hbody : kind.isBytes → ∀ size, C (Reader.body size)) : C (readChild id kind) :=
  hC.bind (Element.closed_read hC fun _ size => closed_readBody hC fun h =>
    hbody (by cases kind <;> exact h) size) fun _ => hC.pure _

theorem closed_readUnsignedChild (hC : Closed C) (id : ElementId) : C (readUnsignedChild id) :=
  hC.bind (closed_readChild hC id fun h => nomatch h) fun _ => hC.pure _

theorem closed_readSignedChild (hC : Closed C) (id : ElementId) : C (readSignedChild id) :=
  hC.bind (closed_readChild hC id fun h => nomatch h) fun _ => hC.pure _

theorem closed_readBinaryChild (hC : Closed C) (hbody : ∀ size, C (Reader.body size))
    (id : ElementId) : C (readBinaryChild id) :=
  hC.bind (closed_readChild hC id fun _ => hbody) fun _ => hC.pure _

end PrimitiveElement

/-! ## Blocks -/

namespace Lacing

theorem closed_ofFlags (hC : Closed C) (bits : UInt8) : C (Reader.ofExcept (ofFlags bits)) := by
  refine hC.ofExcept fun {e} h => ?_
  rw [ofFlags] at h
  split at h
  next => cases h
  next =>
    split at h
    next => cases h
    next =>
      split at h
      next =>
        cases h
        rfl
      next => cases h

theorem closed_readCount (hC : Closed C) (remaining : Nat) : C (readCount remaining) := by
  rw [readCount]
  split
  next => exact hC.throw_bind rfl
  next =>
    refine hC.bind hC.next fun count => ?_
    dsimp only
    split
    next => exact hC.throw_bind rfl
    next => exact hC.pure _

theorem closed_readDifferences (hC : Closed C) :
    ∀ previous count, C (readDifferences previous count)
  | _, 0 => hC.pure _
  | previous, count + 1 => by
      rw [readDifferences]
      refine hC.bind (VarInt.closed_read hC) fun _ => ?_
      dsimp only
      split
      next => exact hC.throw_bind rfl
      next => exact hC.bind (closed_readDifferences hC _ count) fun _ => hC.pure _

theorem closed_readStoredSizes (hC : Closed C) (count : Nat) : C (readStoredSizes count) := by
  rw [readStoredSizes]
  split
  next => exact hC.pure _
  next =>
    exact hC.bind (VarInt.closed_read hC) fun _ =>
      hC.bind (closed_readDifferences hC _ _) fun _ => hC.pure _

theorem closed_readHeader (hC : Closed C) (lacing : Lacing) (remaining : Nat) (id : ElementId)
    (declared : Nat) : C (readHeader lacing remaining id declared) := by
  cases lacing with
  | none =>
      rw [readHeader]
      split
      next => exact hC.throw_bind rfl
      next => exact hC.pure _
  | fixed =>
      refine hC.bind (closed_readCount hC remaining) fun count => ?_
      dsimp only
      split
      next => exact hC.bind (hC.note rfl) fun _ => hC.throw_bind rfl
      next =>
        split
        next => exact hC.throw_bind rfl
        next => exact hC.pure _
  | ebml =>
      refine hC.bind (closed_readCount hC remaining) fun count =>
        hC.bind (closed_readStoredSizes hC count) fun _ => ?_
      dsimp only
      split
      next => exact hC.bind (hC.note rfl) fun _ => hC.throw_bind rfl
      next =>
        split
        next => exact hC.throw_bind rfl
        next => exact hC.pure _

end Lacing

namespace Block

theorem closed_setTrack (hC : Closed C) (b : Block) (track : Nat) :
    C (Reader.ofExcept (b.setTrack track)) := by
  refine hC.ofExcept fun {e} h => ?_
  rw [setTrack] at h
  split at h
  next =>
    cases h
    rfl
  next =>
    split at h
    next =>
      cases h
      rfl
    next => cases h

theorem closed_readPlace (hC : Closed C) : C readPlace :=
  hC.bind (VarInt.closed_read hC) fun _ => hC.bind (hC.take 2) fun _ => hC.pure _

theorem closed_readFrames (hC : Closed C) (hbody : ∀ size, C (Reader.body size)) :
    ∀ sizes, C (readFrames sizes)
  | [] => hC.pure _
  | size :: sizes =>
      hC.bind (hbody size) fun _ => hC.bind (closed_readFrames hC hbody sizes) fun _ => hC.pure _

theorem closed_readContent (hC : Closed C) (hbody : ∀ size, C (Reader.body size)) (id : ElementId)
    (size : Nat) : C (readContent id size) := by
  refine hC.bind (closed_readPlace hC) fun _ => hC.bind hC.next fun flags => ?_
  dsimp only
  split
  next => exact hC.throw_bind rfl
  next =>
    refine hC.bind (Lacing.closed_ofFlags hC flags) fun lacing =>
      hC.bind (lacing.closed_readHeader hC _ id size) fun _ => ?_
    exact hC.bind (hC.note rfl) fun _ => hC.bind (closed_readFrames hC hbody _) fun _ =>
      hC.bind (closed_setTrack hC _ _) fun _ => hC.pure _

theorem closed_readBody (hC : Closed C) (hbody : ∀ size, C (Reader.body size)) (b : Block)
    (size : Nat) : C (Element.readBody b size) :=
  hC.bind (closed_readContent hC hbody _ size) fun _ => hC.pure _

end Block

theorem SimpleBlock.closed_readBody (hC : Closed C) (hbody : ∀ size, C (Reader.body size))
    (b : SimpleBlock) (size : Nat) : C (Element.readBody b size) :=
  hC.bind (Block.closed_readContent hC hbody _ size) fun _ => hC.pure _

/-! ## Additions -/

namespace Addition

theorem closed_readChild (hC : Closed C) (hbody : ∀ size, C (Reader.body size)) (draft : Draft)
    (id : ElementId) : C (readChild draft id) := by
  rw [readChild]
  split
  next => exact hC.bind (PrimitiveElement.closed_readUnsignedChild hC id) fun _ => hC.pure _
  next =>
    split
    next => exact hC.bind (PrimitiveElement.closed_readBinaryChild hC hbody id) fun _ => hC.pure _
    next =>
      split
      next => exact hC.bind (Element.closed_skipRest hC) fun _ => hC.pure _
      next => exact hC.throw rfl

theorem closed_readBody (hC : Closed C) (hbody : ∀ size, C (Reader.body size)) (size : Nat) :
    C (readBody size) := by
  refine hC.bind (Element.closed_readChildren hC (closed_readChild hC hbody) _) fun draft => ?_
  split
  next => exact hC.pure _
  next => exact hC.throw rfl

end Addition

namespace BlockAdditions

theorem closed_readChild (hC : Closed C) (hbody : ∀ size, C (Reader.body size))
    (entries : List Addition) (id : ElementId) : C (readChild entries id) := by
  rw [readChild]
  split
  next => exact hC.throw_bind rfl
  next =>
    exact hC.bind (VarInt.closed_read hC) fun _ =>
      hC.bind (Addition.closed_readBody hC hbody _) fun _ => hC.pure _

theorem closed_readBody (hC : Closed C) (hbody : ∀ size, C (Reader.body size)) (a : BlockAdditions)
    (size : Nat) : C (Element.readBody a size) :=
  hC.bind (Element.closed_readChildren hC (closed_readChild hC hbody) _) fun _ => hC.pure _

end BlockAdditions

/-! ## Groups -/

namespace BlockGroup

theorem closed_readChild (hC : Closed C) (hbody : ∀ size, C (Reader.body size)) (draft : Draft)
    (id : ElementId) : C (readChild draft id) := by
  have hunsigned := PrimitiveElement.closed_readUnsignedChild hC id
  rw [readChild]
  dsimp only
  split
  next =>
    exact hC.bind (Element.closed_read hC fun _ size => Block.closed_readBody hC hbody _ size)
      fun _ => hC.pure _
  next =>
    split
    next =>
      exact hC.bind (Element.closed_read hC fun _ size =>
        BlockAdditions.closed_readBody hC hbody _ size) fun _ => hC.pure _
    next =>
      split
      next => exact hC.bind hunsigned fun _ => hC.pure _
      next =>
        split
        next => exact hC.bind hunsigned fun _ => hC.pure _
        next =>
          split
          next => exact hC.bind (PrimitiveElement.closed_readSignedChild hC id) fun _ => hC.pure _
          next =>
            split
            next =>
              exact hC.bind (PrimitiveElement.closed_readBinaryChild hC hbody id) fun _ => hC.pure _
            next =>
              split
              next => exact hC.bind (Element.closed_skipRest hC) fun _ => hC.pure _
              next => exact hC.throw rfl

theorem closed_readBody (hC : Closed C) (hbody : ∀ size, C (Reader.body size)) (g : BlockGroup)
    (size : Nat) : C (Element.readBody g size) := by
  have hcontent : C (readContent size) := by
    refine hC.bind (Element.closed_readChildren hC (closed_readChild hC hbody) _) fun draft => ?_
    split
    next => exact hC.throw rfl
    next => exact hC.bind (hC.note rfl) fun _ => hC.pure _
  exact hC.bind hcontent fun _ => hC.pure _

end BlockGroup

theorem ClusterBlock.closed_readBody (hC : Closed C) (hbody : ∀ size, C (Reader.body size))
    (b : ClusterBlock) (size : Nat) : C (Element.readBody b size) := by
  cases b with
  | simple b => exact hC.bind (b.closed_readBody hC hbody size) fun _ => hC.pure _
  | group g => exact hC.bind (g.closed_readBody hC hbody size) fun _ => hC.pure _

/-! ## Looking for timecodes -/

namespace ClusterBlock

theorem closed_peekGroupTimecode (hC : Closed C) (size : Nat) :
    ∀ consumed, C (peekGroupTimecode size consumed) := by
  intro consumed
  induction hleft : size - consumed using Nat.strongRecOn generalizing consumed with
  | ind left ih =>
      rw [peekGroupTimecode]
      split
      next hlt =>
        refine hC.bind (ElementId.closed_read hC) fun id => hC.bind (VarInt.closed_read hC) fun _ => ?_
        have hsize := id.size_pos
        dsimp only
        split
        next => exact hC.bind (Block.closed_readPlace hC) fun _ => hC.pure _
        next => exact hC.bind (hC.skip _) fun _ => ih _ (by omega) _ rfl
      next => exact hC.throw rfl

theorem closed_peekTimecode (hC : Closed C) (id : ElementId) (size : Nat) :
    C (peekTimecode id size) := by
  rw [peekTimecode]
  split
  next => exact hC.bind (Block.closed_readPlace hC) fun _ => hC.pure _
  next => exact closed_peekGroupTimecode hC size 0

end ClusterBlock

/-! ## Metadata of clusters -/

namespace ClusterMetadata

theorem closed_readSilentTrack (hC : Closed C) (tracks : List UInt64) (id : ElementId) :
    C (readSilentTrack tracks id) := by
  rw [readSilentTrack]
  split
  next => exact hC.throw_bind rfl
  next => exact hC.bind (PrimitiveElement.closed_readUnsignedChild hC id) fun _ => hC.pure _

theorem closed_readChild? (hC : Closed C) (m : ClusterMetadata) (id : ElementId) :
    C (m.readChild? id) := by
  have hunsigned := PrimitiveElement.closed_readUnsignedChild hC id
  rw [readChild?]
  split
  next => exact hC.bind hunsigned fun _ => hC.pure _
  next =>
    split
    next => exact hC.bind hunsigned fun _ => hC.pure _
    next =>
      split
      next => exact hC.bind hunsigned fun _ => hC.pure _
      next =>
        split
        next =>
          exact hC.bind (VarInt.closed_read hC) fun _ =>
            hC.bind (Element.closed_readChildren hC (closed_readSilentTrack hC) _) fun _ => hC.pure _
        next => exact hC.pure _

end ClusterMetadata

/-! ## Elements of a cluster that are passed over -/

namespace Cluster

variable {mode : ParsingMode}

/-- What is passed over may be warned of. -/
theorem closed_skipChild (hC : Closed C)
    (hnote : ∀ {event : Event}, event.isIndexing = false → C (Reader.note event))
    (id : ElementId) : C (skipChild mode id) := by
  rw [skipChild]
  split
  next =>
    split
    next => exact hC.throw_bind rfl
    next => exact Element.closed_skipRest hC
  next =>
    split
    next => exact hC.throw_bind rfl
    next => exact hC.bind (hnote rfl) fun _ => Element.closed_skipRest hC

theorem closed_skipNonBlock (hC : Closed C)
    (hnote : ∀ {event : Event}, event.isIndexing = false → C (Reader.note event))
    (id : ElementId) : C (skipNonBlock mode id) := by
  rw [skipNonBlock]
  split
  next => exact hC.bind (hnote rfl) fun _ => Element.closed_skipRest hC
  next =>
    split
    next => exact hC.throw_bind rfl
    next => exact hC.bind (hnote rfl) fun _ => Element.closed_skipRest hC

/-! ## Whole clusters -/

section

variable {κ : Type} [Cluster κ] {D : ∀ {α : Type}, Filling κ α → Prop}
  (hC : Closed C) (hnote : ∀ {event : Event}, event.isIndexing = false → C (Reader.note event))
  (hD : Filling.Closed C D) (hmetadata : ∀ m, D (Filling.change (setMetadata · m) : Filling κ Unit))
  (hblocks : ∀ size, D (readBlocks mode size : Filling κ Nat))

include hC hnote hD hmetadata hblocks

theorem closed_readContents (size : Nat) : ∀ consumed hasTimecode,
    D (readContents mode size consumed hasTimecode : Filling κ Contents) := by
  intro consumed
  induction hleft : size - consumed using Nat.strongRecOn generalizing consumed with
  | ind left ih =>
      intro hasTimecode
      rw [readContents]
      split
      next hlt =>
        refine hD.bind (hD.lift (ElementId.closed_read hC)) fun id => ?_
        have hsize := id.size_pos
        split
        next =>
          refine hD.bind (hD.lift (hC.bind hC.position fun _ => hC.seek _)) fun _ => ?_
          exact hD.bind (hblocks _) fun _ => hD.pure _
        next =>
          refine hD.bind hD.object fun before => ?_
          refine hD.bind (hD.lift (ClusterMetadata.closed_readChild? hC _ id)) fun found => ?_
          cases found with
          | some found => exact hD.bind (hmetadata _) fun _ => ih _ (by omega) _ rfl _
          | none =>
              exact hD.bind (hD.lift (closed_skipChild hC hnote id)) fun _ =>
                ih _ (by omega) _ rfl _
      next => exact hD.pure _

/-- Reading a cluster replaces the metadata, and reads the region of blocks. -/
theorem closed_read : D (read mode : Filling κ Nat) := by
  refine hD.bind (hD.lift hC.position) fun _ => ?_
  refine hD.bind (hD.lift (VarInt.closed_read hC)) fun ⟨size, sizeLength⟩ => ?_
  refine hD.bind (hD.lift (hC.note rfl)) fun _ => ?_
  refine hD.bind (hmetadata _) fun _ => ?_
  refine hD.bind (closed_readContents hC hnote hD hmetadata hblocks size 0 false) fun contents => ?_
  dsimp only
  split
  next => exact hD.throw_bind rfl
  next =>
    split
    next => exact hD.throw_bind rfl
    next =>
      split
      next => exact hD.bind (hblocks 0) fun _ => hD.pure _
      next => exact hD.pure _

end

end Cluster

end Ebml
