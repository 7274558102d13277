import Ebml.Block.Additions
import Ebml.Proofs.Primitive

/-!
# Block additions on streams

An addition leaves its ID out if that is the default, and a reader that meets none assumes it.  So
the way through the children of an addition starts from a draft with the default and ends in the
addition, whichever children there are.
-/

namespace Ebml

namespace Addition

variable {source : Source} {pos : Nat} {sure : Prop}

/-- The bytes of the element that holds the addition. -/
def encoding (a : Addition) : List UInt8 :=
  ElementId.blockMore.encode ++
    (VarInt.minimal a.bodySize ++ a.children.flatMap Element.encoding)

theorem length_encoding (a : Addition) : a.encoding.length = a.totalSize := by
  rw [encoding, List.length_append, List.length_append, ElementId.length_encode,
    VarInt.length_minimal, Element.length_children, totalSize, bodySize, Nat.add_assoc]

theorem emits_write {a : Addition} (h : sure → a.bodySize ≤ VarInt.max) :
    Writer.Emits sure a.write a.encoding a.totalSize := by
  have hrest := (VarInt.emits_write h).bind (f := fun sizeLength => do
    let body ← Writer.each Element.write a.children
    return ElementId.blockMore.size + sizeLength + body)
    ((PrimitiveElement.emits_children h).map rfl)
  exact (ElementId.emits_write .blockMore).bind hrest

theorem data_le_bodySize (a : Addition) : a.data.length ≤ a.bodySize := by
  have hle : Element.bodySize ({ id := .blockAdditional, value := .binary a.data } :
      PrimitiveElement) ≤ a.bodySize :=
    Element.bodySize_le_childrenSize (List.mem_append_right _ (List.mem_singleton_self _))
  exact hle

theorem spans_readChild (draft : Draft) (id : ElementId) :
    Reader.Spans (readChild draft id) fun result n => n = result.2 := by
  rw [readChild]
  split
  next =>
    exact (PrimitiveElement.spans_readUnsignedChild id).bind fun _ _ h => Reader.Spans.pure h
  next =>
    split
    next =>
      exact (PrimitiveElement.spans_readBinaryChild id).bind fun _ _ h => Reader.Spans.pure h
    next =>
      split
      next => exact Element.spans_skipRest.bind fun _ _ h => Reader.Spans.pure h
      next => exact Reader.Spans.throw

theorem spans_readBody (size : Nat) : Reader.Spans (readBody size) fun _ n => n = size := by
  refine (Element.spans_readChildren spans_readChild _ _ _).bind fun draft n hn => ?_
  subst hn
  split
  next => exact Reader.Spans.pure rfl
  next => exact Reader.Spans.throw

/-- An addition is read back from its children. -/
theorem yields_readBody {a : Addition} (hlimit : a.data.length ≤ source.limit)
    (hmax : a.bodySize ≤ VarInt.max)
    (h : source.Holds pos (a.children.flatMap Element.encoding)) :
    Reader.Yields (readBody a.bodySize) source pos a (pos + a.bodySize) := by
  have hlength : a.bodySize = (a.children.flatMap Element.encoding).length :=
    (Element.length_children _).symm
  have hdata : a.data.length ≤ VarInt.max := Nat.le_trans a.data_le_bodySize hmax
  rw [children, List.flatMap_append, List.flatMap_singleton] at h hlength
  have haddId := Element.Traverses.optional readChild {} { addId := a.addId } h.left
    (fun hdefault => by rw [← PrimitiveElement.isDefault_uint.mp hdefault])
    fun h => PrimitiveElement.traverses_unsigned h (fun addId => { addId }) rfl rfl
  have htraverses := haddId.append (PrimitiveElement.traverses_binary
    h.right hdata hlimit (fun data => { addId := a.addId, data? := some data }) rfl rfl)
  rw [Nat.add_assoc, ← List.length_append] at htraverses
  have hread := Element.yields_readChildren .blockMore (hlength ▸ htraverses)
  exact hread.map rfl

end Addition

namespace BlockAdditions

variable {source : Source} {pos : Nat} {sure : Prop}

instance : Element.Encoded BlockAdditions where
  body a := a.entries.flatMap Addition.encoding
  length_body a := by
    rw [List.length_flatMap]
    show _ = (a.entries.map Addition.totalSize).sum
    congr 1
    exact List.map_congr_left fun entry _ => entry.length_encoding

/-- The additions are the same wherever they were read. -/
theorem beq_of_entries {a b : BlockAdditions} (h : a.entries = b.entries) : (a == b) = true := by
  show (a.entries == b.entries) = true
  rw [h, beq_self_eq_true]

theorem bodySize_le {a : BlockAdditions} {entry : Addition} (h : entry ∈ a.entries) :
    entry.bodySize ≤ Element.bodySize a := by
  have hle : entry.totalSize ≤ Element.bodySize a :=
    VarInt.le_sum_of_mem (List.mem_map_of_mem (f := Addition.totalSize) h)
  rw [Addition.totalSize] at hle
  omega

theorem emits_writeBody {a : BlockAdditions} (h : sure → Element.bodySize a ≤ VarInt.max) :
    Writer.Emits sure (Element.writeBody a) (Element.Encoded.body a) (Element.bodySize a) :=
  Writer.Emits.each fun _ hm =>
    Addition.emits_write fun hs => Nat.le_trans (bodySize_le hm) (h hs)

theorem emits_write {a : BlockAdditions} (h : sure → Element.bodySize a ≤ VarInt.max) :
    Writer.Emits sure (Element.write a) (Element.encoding a) (Element.totalSize a) :=
  Element.emits_write (emits_writeBody h) h

theorem spans_readChild (entries : List Addition) (id : ElementId) :
    Reader.Spans (readChild entries id) fun result n => n = result.2 := by
  rw [readChild]
  split
  next => exact Reader.Spans.throw_bind
  next =>
    refine VarInt.spans_read.bind fun ⟨size, sizeLength⟩ n hn => ?_
    obtain ⟨rfl, _⟩ := hn
    refine (Addition.spans_readBody size).bind fun entry n hn => Reader.Spans.pure ?_
    subst hn
    rfl

theorem spans_readBody (a : BlockAdditions) (size : Nat) :
    Reader.Spans (Element.readBody a size) fun _ n => n = size :=
  (Element.spans_readChildren spans_readChild _ _ _).bind fun _ _ h => Reader.Spans.pure h

theorem spans_read (a : BlockAdditions) :
    Reader.Spans (Element.read a) fun result n => n = result.2 :=
  Element.spans_read (fun a size _ => a.spans_readBody size) a

theorem traverses_entries :
    ∀ {entries : List Addition} (before : List Addition) {pos : Nat},
      source.Holds pos (entries.flatMap Addition.encoding) →
      (∀ entry ∈ entries, entry.data.length ≤ source.limit ∧ entry.bodySize ≤ VarInt.max) →
      Element.Traverses readChild source pos before
        (pos + (entries.flatMap Addition.encoding).length) (before ++ entries)
  | [], before, _, _, _ => by
      rw [List.append_nil]
      exact .nil
  | entry :: entries, before, pos, h, hentries => by
      rw [List.flatMap_cons] at h ⊢
      obtain ⟨hlimit, hmax⟩ := hentries entry (List.mem_cons_self ..)
      have hrest := traverses_entries (before ++ [entry]) h.right fun other hm =>
        hentries other (List.mem_cons_of_mem _ hm)
      have hfirst := h.left
      have hafter := hfirst.right
      rw [ElementId.length_encode] at hafter
      have hchildren := hafter.right
      rw [VarInt.length_minimal] at hchildren
      have hchild : Reader.Yields (readChild before .blockMore) source
          (pos + ElementId.blockMore.size)
          (before ++ [entry], VarInt.octetLength entry.bodySize + entry.bodySize)
          (pos + ElementId.blockMore.size +
            (VarInt.octetLength entry.bodySize + entry.bodySize)) := by
        rw [readChild, if_neg (Decidable.not_not.mpr rfl), ← Nat.add_assoc]
        exact (VarInt.yields_read_minimal hmax hafter.left).bind
          ((Addition.yields_readBody hlimit hmax hchildren).map rfl)
      have hlength : pos + entry.encoding.length =
          pos + ElementId.blockMore.size +
            (VarInt.octetLength entry.bodySize + entry.bodySize) := by
        rw [Addition.length_encoding, Addition.totalSize]
        omega
      rw [hlength, List.append_assoc, List.singleton_append] at hrest
      rw [List.length_append, ← Nat.add_assoc, hlength]
      exact (Element.Traverses.child hfirst.left hchild).append hrest

theorem yields_readBody {a : BlockAdditions} (other : BlockAdditions)
    (hmax : Element.bodySize a ≤ VarInt.max)
    (hlimit : ∀ entry ∈ a.entries, entry.data.length ≤ source.limit)
    (h : source.Holds pos (Element.Encoded.body a)) :
    Reader.Yields (Element.readBody other (Element.bodySize a)) source pos
      { a with offset := other.offset } (pos + Element.bodySize a) := by
  have hentries := traverses_entries [] h fun entry hm =>
    ⟨hlimit entry hm, Nat.le_trans (bodySize_le hm) hmax⟩
  have hlength : (a.entries.flatMap Addition.encoding).length = Element.bodySize a :=
    Element.Encoded.length_body a
  rw [hlength] at hentries
  exact (Element.yields_readChildren _ hentries).map rfl

theorem yields_read {a : BlockAdditions} (other : BlockAdditions)
    (hmax : Element.bodySize a ≤ VarInt.max)
    (hlimit : ∀ entry ∈ a.entries, entry.data.length ≤ source.limit)
    (h : source.Holds pos (Element.encoding a)) :
    Reader.Yields (Element.read other) source (pos + ElementId.blockAdditions.size)
      ({ a with offset := pos }, VarInt.octetLength (Element.bodySize a) + Element.bodySize a)
      (pos + ElementId.blockAdditions.size +
        (VarInt.octetLength (Element.bodySize a) + Element.bodySize a)) := by
  obtain ⟨_, hsize, hbody⟩ := Element.holds_parts h
  have hread := yields_readBody { other with offset := pos } hmax hlimit hbody
  rw [← Nat.add_assoc]
  refine Element.yields_read hmax hsize ?_
  show Reader.Yields (Element.readBody ({ other with
    offset := pos + ElementId.blockAdditions.size - ElementId.blockAdditions.size } :
      BlockAdditions) _) _ _ _ _
  rw [Nat.add_sub_cancel]
  exact hread

end BlockAdditions

end Ebml
