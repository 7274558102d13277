import Ebml.Cluster.Block
import Ebml.Proofs.Group

/-!
# Blocks of a cluster on streams

Both kinds of block are read back from what is written of them.  What is read is equal to what was
written (`==`), only found elsewhere.
-/

namespace Ebml

namespace ClusterBlock

variable {source : Source} {pos : Nat} {sure : Prop}

/-- The block can be written. -/
def Valid (b : ClusterBlock) : Prop := b.block.Valid

/-- What a reader of the block needs memory for. -/
def payloads : ClusterBlock → List (List UInt8)
  | simple b => b.block.frames
  | group g => g.payloads

/-- Blocks that are equal have one timecode. -/
theorem timecode_of_beq {a b : ClusterBlock} (h : (a == b) = true) : a.timecode = b.timecode := by
  have hblock : ∀ a b : Block, (a == b) = true → a.timecode = b.timecode := by
    intro a b h
    simp only [BEq.beq, Bool.and_eq_true, decide_eq_true_eq] at h
    exact h.1.1.1.2
  cases a with
  | simple a =>
      cases b with
      | simple b =>
          have hparts : (a.block == b.block && _ && _) = true := h
          simp only [Bool.and_eq_true] at hparts
          exact hblock _ _ hparts.1.1
      | group b => cases h
  | group a =>
      cases b with
      | simple b => cases h
      | group b =>
          have hparts : (a.block == b.block && _ && _ && _ && _ && _) = true := h
          simp only [Bool.and_eq_true] at hparts
          exact hblock _ _ hparts.1.1.1.1.1

instance : Element.Encoded ClusterBlock where
  body
    | simple b => Element.Encoded.body b
    | group b => Element.Encoded.body b
  length_body
    | simple b => Element.Encoded.length_body b
    | group b => Element.Encoded.length_body b

theorem emits_write {b : ClusterBlock}
    (h : sure → b.Valid ∧ Element.bodySize b < Element.sizeBound) :
    Writer.Emits sure (Element.write b) (Element.encoding b) (Element.totalSize b) := by
  refine Element.emits_write ?_ fun hs => Element.le_max_of_lt (h hs).2
  cases b with
  | simple b => exact Block.emits_writeContent b.kindFlags h
  | group b => exact BlockGroup.emits_writeBody h

/-- The kind of block that an ID stands for has that ID. -/
theorem id_of_ofId? {id : ElementId} {kind : ClusterBlock} (h : ofId? id = some kind) :
    Element.id kind = id := by
  rw [ofId?] at h
  split at h
  next hid =>
    cases h
    exact hid.symm
  next =>
    split at h
    next hid =>
      cases h
      exact hid.symm
    next => cases h

/-- The IDs of blocks have one octet. -/
theorem size_of_isSome {id : ElementId} (h : (ofId? id).isSome) : id.size = 1 := by
  obtain ⟨kind, hkind⟩ := Option.isSome_iff_exists.mp h
  rw [← id_of_ofId? hkind]
  cases kind with
  | simple b => exact (by decide : ElementId.simpleBlock.size = 1)
  | group g => exact (by decide : ElementId.blockGroup.size = 1)

theorem spans_readBody (b : ClusterBlock) {size : Nat} (hsize : size < UInt64.size) :
    Reader.Spans (Element.readBody b size) fun _ n => n = size := by
  cases b with
  | simple b =>
      exact (SimpleBlock.spans_readBody b hsize).bind fun _ _ h => Reader.Spans.pure h
  | group b => exact (BlockGroup.spans_readBody b size).bind fun _ _ h => Reader.Spans.pure h

theorem spans_read (b : ClusterBlock) :
    Reader.Spans (Element.read b) fun result n => n = result.2 :=
  Element.spans_read (fun b _ hsize => b.spans_readBody hsize) b

/-- A block that was read is of the kind that was asked for, and has its place recorded. -/
theorem offset_of_read {kind b : ClusterBlock} {count : Nat} {cursor cursor' : Cursor}
    (hok : Element.read kind source cursor = .ok (b, count) cursor') :
    Element.id b = Element.id kind ∧
      Element.offset b = cursor.pos - (Element.id kind).size := by
  obtain ⟨located, _, hlocate, hread⟩ := Reader.bind_eq_ok.mp hok
  cases hlocate
  obtain ⟨_, _, _, hread⟩ := Reader.bind_eq_ok.mp hread
  obtain ⟨_, _, hbody, hpure⟩ := Reader.bind_eq_ok.mp hread
  cases hpure
  cases kind with
  | simple e =>
      obtain ⟨_, hsimple, rfl⟩ := Reader.map_eq_ok.mp hbody
      obtain ⟨_, _, _, hpure⟩ := Reader.bind_eq_ok.mp hsimple
      cases hpure
      exact ⟨rfl, rfl⟩
  | group g =>
      obtain ⟨_, hgroup, rfl⟩ := Reader.map_eq_ok.mp hbody
      obtain ⟨_, _, _, hpure⟩ := Reader.bind_eq_ok.mp hgroup
      cases hpure
      exact ⟨rfl, rfl⟩

/-- A block is read back from its encoding. -/
theorem yields_read {b : ClusterBlock} (hvalid : b.Valid)
    (hbound : Element.bodySize b < Element.sizeBound)
    (hlimit : ∀ payload ∈ b.payloads, payload.length ≤ source.limit)
    (h : source.Holds pos (Element.encoding b)) :
    ∃ kind b', ofId? (Element.id b) = some kind ∧ (b' == b) = true ∧
      Reader.Yields (Element.read kind) source (pos + (Element.id b).size)
        (b', VarInt.octetLength (Element.bodySize b) + Element.bodySize b)
        (pos + (Element.id b).size +
          (VarInt.octetLength (Element.bodySize b) + Element.bodySize b)) := by
  obtain ⟨_, hsize, hbody⟩ := Element.holds_parts h
  rw [← Nat.add_assoc]
  cases b with
  | simple b =>
      have hread := (SimpleBlock.yields_readBody
        { block := { offset := pos + ElementId.simpleBlock.size - ElementId.simpleBlock.size } }
        hvalid hbound hlimit hbody).map (f := fun b => pure (simple b)) rfl
      have helement := Element.yields_read (e := simple {}) (Element.le_max_of_lt hbound) hsize
        hread
      exact ⟨simple {}, _, rfl, b.beq_moved _, helement⟩
  | group g =>
      obtain ⟨additions, hsame, hread⟩ := BlockGroup.yields_readBody
        { offset := pos + ElementId.blockGroup.size - ElementId.blockGroup.size }
        hvalid hbound hlimit hbody
      have helement := Element.yields_read (e := group {}) (Element.le_max_of_lt hbound) hsize
        (hread.map (f := fun g => pure (group g)) rfl)
      exact ⟨group {}, _, rfl, g.beq_moved hsame _ _, helement⟩

end ClusterBlock

end Ebml
