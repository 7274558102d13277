import Ebml.Block.Group
import Ebml.Proofs.Additions
import Ebml.Proofs.Block

/-!
# Block groups on streams

A group is written as its block, its additions and what else it has (`BlockGroup.content`), and is
read back from that.  The block and the additions are found elsewhere then, but hold the same.

A group that is read may have been written by somebody else.  Its children may come in any order,
and may even include several blocks, of which the last one counts.
-/

namespace Ebml.BlockGroup

variable {source : Source} {pos : Nat} {sure : Prop}

/-- The bytes of the body. -/
def content (g : BlockGroup) : List UInt8 :=
  Element.encoding g.block ++
    ((if g.additions.entries.isEmpty then [] else [g.additions]).flatMap Element.encoding ++
      g.trailingChildren.flatMap Element.encoding)

theorem bodySize_eq (g : BlockGroup) :
    Element.bodySize g = Element.totalSize g.block +
      (if g.additions.entries.isEmpty then 0 else Element.totalSize g.additions) +
      Element.childrenSize g.trailingChildren := rfl

theorem length_additions (g : BlockGroup) :
    ((if g.additions.entries.isEmpty then [] else [g.additions]).flatMap Element.encoding).length =
      if g.additions.entries.isEmpty then 0 else Element.totalSize g.additions := by
  split
  next => rfl
  next => rw [List.flatMap_singleton, Element.length_encoding]

instance : Element.Encoded BlockGroup where
  body := content
  length_body g := by
    rw [content, List.length_append, List.length_append, Element.length_encoding,
      length_additions, Element.length_children, bodySize_eq, Nat.add_assoc]

theorem codecState_le_childrenSize (g : BlockGroup) :
    g.codecState.length ≤ Element.childrenSize g.trailingChildren := by
  by_cases hempty : g.codecState.isEmpty
  · rw [List.isEmpty_iff.mp hempty]
    exact Nat.zero_le _
  · have hmem : ({ id := .codecState, value := .binary g.codecState } : PrimitiveElement) ∈
        g.trailingChildren := by
      rw [trailingChildren, if_neg hempty]
      exact List.mem_append_right _ (List.mem_singleton_self _)
    exact Element.bodySize_le_childrenSize hmem

/-! ## Writing -/

theorem emits_writeBody {g : BlockGroup}
    (h : sure → g.block.Valid ∧ Element.bodySize g < Element.sizeBound) :
    Writer.Emits sure (Element.writeBody g) g.content (Element.bodySize g) := by
  have hblock : sure → g.block.Valid ∧ g.block.contentSize < Element.sizeBound := fun hs => by
    obtain ⟨hvalid, hbound⟩ := h hs
    have htotal := Element.Encoded.totalSize_eq g.block
    have hbody : Element.bodySize g.block = g.block.contentSize := rfl
    rw [bodySize_eq] at hbound
    exact ⟨hvalid, by omega⟩
  have htrailing : Writer.Emits sure (Writer.each Element.write g.trailingChildren) _ _ :=
    PrimitiveElement.emits_children fun hs => by
      have hbound := (h hs).2
      rw [bodySize_eq] at hbound
      exact Element.le_max_of_lt (by omega)
  rw [content, bodySize_eq]
  refine (Block.emits_write hblock).bind ?_
  by_cases hempty : g.additions.entries.isEmpty
  · rw [if_pos hempty, if_pos hempty, if_pos hempty]
    exact (Writer.Emits.pure 0).bind (htrailing.map rfl)
  · have hadditions : Writer.Emits sure (Element.write g.additions)
        (Element.encoding g.additions) (Element.totalSize g.additions) := by
      refine BlockAdditions.emits_write fun hs => ?_
      have hbound := (h hs).2
      have htotal := Element.Encoded.totalSize_eq g.additions
      rw [bodySize_eq, if_neg hempty] at hbound
      exact Element.le_max_of_lt (by omega)
    rw [if_neg hempty, if_neg hempty, if_neg hempty, List.flatMap_singleton]
    exact hadditions.bind (htrailing.map rfl)

theorem emits_write {g : BlockGroup}
    (h : sure → g.block.Valid ∧ Element.bodySize g < Element.sizeBound) :
    Writer.Emits sure (Element.write g) (Element.encoding g) (Element.totalSize g) :=
  Element.emits_write (emits_writeBody h) fun hs => Element.le_max_of_lt (h hs).2

/-! ## Reading -/

theorem spans_readChild (draft : Draft) (id : ElementId) :
    Reader.Spans (readChild draft id) fun result n => n = result.2 := by
  rw [readChild]
  split
  next => exact (Block.spans_read _).bind fun _ _ h => Reader.Spans.pure h
  next =>
    split
    next => exact (BlockAdditions.spans_read _).bind fun _ _ h => Reader.Spans.pure h
    next =>
      split
      next =>
        exact (PrimitiveElement.spans_readUnsignedChild id).bind fun _ _ h => Reader.Spans.pure h
      next =>
        split
        next =>
          exact (PrimitiveElement.spans_readUnsignedChild id).bind fun _ _ h =>
            Reader.Spans.pure h
        next =>
          split
          next =>
            exact (PrimitiveElement.spans_readSignedChild id).bind fun _ _ h =>
              Reader.Spans.pure h
          next =>
            split
            next =>
              exact (PrimitiveElement.spans_readBinaryChild id).bind fun _ _ h =>
                Reader.Spans.pure h
            next =>
              split
              next => exact Element.spans_skipRest.bind fun _ _ h => Reader.Spans.pure h
              next => exact Reader.Spans.throw

theorem spans_readBody (g : BlockGroup) (size : Nat) :
    Reader.Spans (Element.readBody g size) fun _ n => n = size := by
  have hcontent : Reader.Spans (readContent size) fun _ n => n = size := by
    refine (Element.spans_readChildren spans_readChild _ _ _).bind fun draft n hn => ?_
    subst hn
    split
    next => exact Reader.Spans.throw
    next =>
      refine (Reader.Spans.note _).bind fun _ n hn => Reader.Spans.pure ?_
      subst hn
      rfl
  exact hcontent.bind fun _ _ h => Reader.Spans.pure h

section

variable (draft : Draft)

theorem traverses_references (rest : BlockGroup) :
    ∀ {references : List Int64} (before : List Int64) {pos : Nat},
      source.Holds pos ((references.map fun reference =>
        ({ id := .referenceBlock, value := .int reference } : PrimitiveElement)).flatMap
          Element.encoding) →
      Element.Traverses readChild source pos
        { draft with rest := { rest with refBlocks := before } }
        (pos + ((references.map fun reference =>
          ({ id := .referenceBlock, value := .int reference } : PrimitiveElement)).flatMap
            Element.encoding).length)
        { draft with rest := { rest with refBlocks := before ++ references } }
  | [], before, _, _ => by
      rw [List.append_nil]
      exact .nil
  | reference :: references, before, pos, h => by
      rw [List.map_cons, List.flatMap_cons] at h ⊢
      have hfirst : Element.Traverses readChild source pos
          { draft with rest := { rest with refBlocks := before } } _ _ :=
        PrimitiveElement.traverses_signed h.left
          (fun reference => { draft with rest := { rest with refBlocks := before ++ [reference] } })
          rfl rfl
      have hrest := traverses_references rest (before ++ [reference]) h.right
      rw [List.append_assoc, List.singleton_append] at hrest
      rw [List.length_append, ← Nat.add_assoc]
      exact hfirst.append hrest

/-- What comes after the block and the additions is read over what is there before. -/
theorem traverses_trailing {g : BlockGroup} (additions : BlockAdditions)
    (hlimit : g.codecState.length ≤ source.limit)
    (hmax : Element.childrenSize g.trailingChildren ≤ VarInt.max)
    (h : source.Holds pos (g.trailingChildren.flatMap Element.encoding)) :
    Element.Traverses readChild source pos { draft with rest := { additions } }
      (pos + (g.trailingChildren.flatMap Element.encoding).length)
      { draft with
        rest := {
          duration := g.duration, refPriority := g.refPriority, refBlocks := g.refBlocks
          codecState := g.codecState, additions } } := by
  have hcodec : g.codecState.length ≤ VarInt.max := Nat.le_trans g.codecState_le_childrenSize hmax
  simp only [trailingChildren, List.flatMap_append] at h ⊢
  have hduration := Element.Traverses.optional readChild
    { draft with rest := { additions } }
    { draft with rest := { duration := g.duration, additions } } h.left.left.left
    (fun h0 => by rw [h0])
    fun h => PrimitiveElement.traverses_unsigned h
      (fun duration => { draft with rest := { duration, additions } }) rfl rfl
  have hpriority := Element.Traverses.optional readChild
    { draft with rest := { duration := g.duration, additions } }
    { draft with rest := { duration := g.duration, refPriority := g.refPriority, additions } }
    h.left.left.right
    (fun hdefault => by rw [← PrimitiveElement.isDefault_uint.mp hdefault])
    fun h => PrimitiveElement.traverses_unsigned h
      (fun refPriority => { draft with
        rest := { duration := g.duration, refPriority, additions } }) rfl rfl
  have hreferences := traverses_references draft
    { duration := g.duration, refPriority := g.refPriority, additions } [] h.left.right
  have hcodecState := Element.Traverses.optional readChild
    { draft with
      rest := {
        duration := g.duration, refPriority := g.refPriority, refBlocks := g.refBlocks
        additions } }
    { draft with
      rest := {
        duration := g.duration, refPriority := g.refPriority, refBlocks := g.refBlocks
        codecState := g.codecState, additions } }
    h.right
    (fun hempty => by rw [List.isEmpty_iff.mp hempty])
    fun h => PrimitiveElement.traverses_binary h hcodec hlimit
      (fun codecState => { draft with
        rest := {
          duration := g.duration, refPriority := g.refPriority, refBlocks := g.refBlocks
          codecState, additions } }) rfl rfl
  simp only [List.length_append, ← Nat.add_assoc] at hreferences hcodecState ⊢
  exact ((hduration.append hpriority).append hreferences).append hcodecState

end

/-- What a reader of the group needs memory for. -/
def payloads (g : BlockGroup) : List (List UInt8) :=
  g.block.frames ++ g.codecState :: g.additions.entries.map Addition.data

/-- The additions are read if there are any. -/
theorem traverses_additions {g : BlockGroup} (draft : Draft) (hrest : draft.rest = {})
    (hmax : ¬ g.additions.entries.isEmpty → Element.bodySize g.additions ≤ VarInt.max)
    (hlimit : ∀ entry ∈ g.additions.entries, entry.data.length ≤ source.limit)
    (h : source.Holds pos ((if g.additions.entries.isEmpty then [] else [g.additions]).flatMap
      Element.encoding)) :
    ∃ additions : BlockAdditions, additions.entries = g.additions.entries ∧
      Element.Traverses readChild source pos draft
        (pos + ((if g.additions.entries.isEmpty then [] else [g.additions]).flatMap
          Element.encoding).length)
        { draft with rest := { additions } } := by
  obtain ⟨block?, rest⟩ := draft
  subst hrest
  by_cases hempty : g.additions.entries.isEmpty
  · rw [if_pos hempty]
    exact ⟨{}, (List.isEmpty_iff.mp hempty).symm, .nil⟩
  · rw [if_neg hempty] at h ⊢
    rw [List.flatMap_singleton] at h ⊢
    have hread := BlockAdditions.yields_read {} (hmax hempty) hlimit h
    have hchild : Element.Traverses readChild source pos { block?, rest := {} } _
        { block?, rest := { additions := { g.additions with offset := pos } } } :=
      .child (Element.holds_parts h).1 (hread.map rfl)
    have hlength : (Element.encoding g.additions).length =
        ElementId.blockAdditions.size +
          (VarInt.octetLength (Element.bodySize g.additions) + Element.bodySize g.additions) := by
      rw [Element.length_encoding, Element.Encoded.totalSize_eq, Nat.add_assoc]
      rfl
    rw [hlength, ← Nat.add_assoc]
    exact ⟨{ g.additions with offset := pos }, rfl, hchild⟩

theorem beq_moved (g : BlockGroup) {additions : BlockAdditions}
    (h : additions.entries = g.additions.entries) (offset place : Nat) :
    (({ g with block := { g.block with offset := place }, additions, offset } : BlockGroup) == g) =
      true := by
  show (_ && _ && _ && _ && _ && _) = true
  simp [g.block.beq_moved place, BlockAdditions.beq_of_entries h]

/-- A group is read back from its body, its parts in other places. -/
theorem yields_readBody {g : BlockGroup} (other : BlockGroup) (hvalid : g.block.Valid)
    (hbound : Element.bodySize g < Element.sizeBound)
    (hlimit : ∀ payload ∈ g.payloads, payload.length ≤ source.limit)
    (h : source.Holds pos g.content) :
    ∃ additions : BlockAdditions, additions.entries = g.additions.entries ∧
      Reader.Yields (Element.readBody other (Element.bodySize g)) source pos
        { g with block := { g.block with offset := pos }, additions, offset := other.offset }
        (pos + Element.bodySize g) := by
  have hsizes := bodySize_eq g
  have hbody : g.content.length = Element.bodySize g := Element.Encoded.length_body g
  have hblockBound : g.block.contentSize < Element.sizeBound := by
    have htotal := Element.Encoded.totalSize_eq g.block
    have hcontent : Element.bodySize g.block = g.block.contentSize := rfl
    omega
  have hframes : ∀ frame ∈ g.block.frames, frame.length ≤ source.limit := fun frame hm =>
    hlimit frame (List.mem_append_left _ hm)
  have hcodecState : g.codecState.length ≤ source.limit :=
    hlimit _ (List.mem_append_right _ (List.mem_cons_self ..))
  have hentries : ∀ entry ∈ g.additions.entries, entry.data.length ≤ source.limit :=
    fun entry hm => hlimit _ (List.mem_append_right _
      (List.mem_cons_of_mem _ (List.mem_map_of_mem (f := Addition.data) hm)))
  have hadditionsMax : ¬ g.additions.entries.isEmpty →
      Element.bodySize g.additions ≤ VarInt.max := fun hne => by
    have htotal := Element.Encoded.totalSize_eq g.additions
    rw [if_neg hne] at hsizes
    exact Element.le_max_of_lt (by omega)
  have hblock : Element.Traverses readChild source pos {}
      (pos + (Element.encoding g.block).length)
      { block? := some { g.block with offset := pos } } := by
    have hread := Block.yields_read hvalid hblockBound hframes h.left
    have hlength : (Element.encoding g.block).length = ElementId.block.size +
        (VarInt.octetLength g.block.contentSize + g.block.contentSize) := by
      rw [Element.length_encoding, Element.Encoded.totalSize_eq, Nat.add_assoc]
      rfl
    rw [hlength, ← Nat.add_assoc]
    exact .child (Element.holds_parts h.left).1 (hread.map rfl)
  obtain ⟨additions, hsame, hadditions⟩ := traverses_additions
    { block? := some { g.block with offset := pos } } rfl hadditionsMax hentries
    h.right.left
  have htrailing := traverses_trailing { block? := some { g.block with offset := pos } } additions
    hcodecState (Element.le_max_of_lt (by omega)) h.right.right
  have htraverses := (hblock.append hadditions).append htrailing
  rw [Nat.add_assoc, Nat.add_assoc, ← List.length_append, ← List.length_append, ← content, hbody]
    at htraverses
  have hread := Element.yields_readChildren .blockGroup htraverses
  refine ⟨additions, hsame, ?_⟩
  have hcontent : Reader.Yields (readContent (Element.bodySize g)) source pos
      { g with block := { g.block with offset := pos }, additions, offset := 0 }
      (pos + Element.bodySize g) := hread.bind ((Reader.Yields.note _).map rfl)
  exact hcontent.map rfl

end Ebml.BlockGroup
