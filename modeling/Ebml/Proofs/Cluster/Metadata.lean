import Ebml.Cluster.Metadata
import Ebml.Proofs.Primitive

/-!
# Metadata of a cluster on streams

`ClusterMetadata.encoding` is what is written of the metadata.  Going through it restores
everything, also what was left out, since a reader starts from metadata that is empty.
-/

namespace Ebml.ClusterMetadata

variable {source : Source} {pos : Nat} {sure : Prop}

/-- The bytes of the element that holds the silent tracks. -/
def silentTracksEncoding (m : ClusterMetadata) : List UInt8 :=
  if m.silentTracks.isEmpty then []
  else
    ElementId.silentTracks.encode ++
      (VarInt.minimal (Element.childrenSize m.silentTrackElements) ++
        m.silentTrackElements.flatMap Element.encoding)

/-- The bytes of the metadata. -/
def encoding (m : ClusterMetadata) : List UInt8 :=
  Element.encoding m.timecodeElement ++
    (m.silentTracksEncoding ++ m.trailingElements.flatMap Element.encoding)

theorem length_silentTracksEncoding (m : ClusterMetadata) :
    m.silentTracksEncoding.length = m.silentTracksSize := by
  rw [silentTracksEncoding, silentTracksSize]
  split
  next => rfl
  next =>
    rw [List.length_append, List.length_append, ElementId.length_encode, VarInt.length_minimal,
      Element.length_children, Nat.add_assoc]

theorem length_encoding (m : ClusterMetadata) : m.encoding.length = m.size := by
  rw [encoding, List.length_append, List.length_append, Element.length_encoding,
    length_silentTracksEncoding, Element.length_children, size, Nat.add_assoc]

/-! ## Writing -/

theorem emits_writeSilentTracks {m : ClusterMetadata}
    (h : sure → m.silentTracksSize ≤ VarInt.max) :
    Writer.Emits sure m.writeSilentTracks m.silentTracksEncoding m.silentTracksSize := by
  rw [writeSilentTracks, silentTracksEncoding, silentTracksSize]
  by_cases hempty : m.silentTracks.isEmpty
  · rw [if_pos hempty, if_pos hempty, if_pos hempty]
    exact Writer.Emits.pure 0
  · have hsize : sure → Element.childrenSize m.silentTrackElements ≤ VarInt.max := fun hs => by
      have hle := h hs
      rw [silentTracksSize, if_neg hempty] at hle
      dsimp only at hle
      omega
    have hrest := (VarInt.emits_write hsize).bind (f := fun sizeLength => do
      let body ← Writer.each Element.write m.silentTrackElements
      return ElementId.silentTracks.size + sizeLength + body)
      ((PrimitiveElement.emits_children hsize).map rfl)
    rw [if_neg hempty, if_neg hempty, if_neg hempty]
    exact (ElementId.emits_write .silentTracks).bind hrest

theorem emits_write {m : ClusterMetadata} (h : sure → m.size ≤ VarInt.max) :
    Writer.Emits sure m.write m.encoding m.size := by
  have htimecode : Writer.Emits sure (Element.write m.timecodeElement) _ _ :=
    PrimitiveElement.emits_write fun hs => by
      have hle := h hs
      have htotal := Element.Encoded.totalSize_eq m.timecodeElement
      have hbody : Element.bodySize m.timecodeElement = m.timecodeElement.value.bodySize := rfl
      rw [size] at hle
      omega
  have hsilent : Writer.Emits sure m.writeSilentTracks _ _ := emits_writeSilentTracks fun hs => by
    have hle := h hs
    rw [size] at hle
    omega
  have htrailing : Writer.Emits sure (Writer.each Element.write m.trailingElements) _ _ :=
    PrimitiveElement.emits_children fun hs => by
      have hle := h hs
      rw [size] at hle
      omega
  exact htimecode.bind (hsilent.bind (htrailing.map rfl))

/-! ## Reading -/

theorem spans_readSilentTrack (tracks : List UInt64) (id : ElementId) :
    Reader.Spans (readSilentTrack tracks id) fun result n => n = result.2 := by
  rw [readSilentTrack]
  split
  next => exact Reader.Spans.throw_bind
  next =>
    exact (PrimitiveElement.spans_readUnsignedChild id).bind fun _ _ h => Reader.Spans.pure h

/-- A child that is not metadata is not touched. -/
theorem spans_readChild? (m : ClusterMetadata) (id : ElementId) :
    Reader.Spans (m.readChild? id) fun result n => n = (result.map Prod.snd).getD 0 := by
  rw [readChild?]
  split
  next =>
    exact (PrimitiveElement.spans_readUnsignedChild id).bind fun _ _ h => Reader.Spans.pure h
  next =>
    split
    next =>
      exact (PrimitiveElement.spans_readUnsignedChild id).bind fun _ _ h => Reader.Spans.pure h
    next =>
      split
      next =>
        exact (PrimitiveElement.spans_readUnsignedChild id).bind fun _ _ h => Reader.Spans.pure h
      next =>
        split
        next =>
          refine VarInt.spans_read.bind fun ⟨size, sizeLength⟩ n hn => ?_
          obtain ⟨rfl, _⟩ := hn
          refine (Element.spans_readChildren spans_readSilentTrack _ _ _).bind fun tracks n hn =>
            Reader.Spans.pure ?_
          subst hn
          rfl
        next => exact Reader.Spans.pure rfl

/-- Reads a child that has to be metadata, and tells whether a timecode was met. -/
def absorb (acc : ClusterMetadata × Bool) (id : ElementId) :
    Reader ((ClusterMetadata × Bool) × Nat) := do
  match ← acc.1.readChild? id with
  | some (after, count) => return ((after, acc.2 || id = .timecode), count)
  | none => throw (.invalidChildId ElementId.cluster.value id.value)

/-- A child with a number that goes into the metadata. -/
theorem absorb_unsigned {m : ClusterMetadata} {id : ElementId} {hasTimecode : Bool}
    (update : UInt64 → ClusterMetadata)
    (h : m.readChild? id = do
      let (value, count) ← PrimitiveElement.readUnsignedChild id
      return some (update value, count)) :
    absorb (m, hasTimecode) id = do
      let (value, count) ← PrimitiveElement.readUnsignedChild id
      return ((update value, hasTimecode || id = .timecode), count) := by
  rw [absorb, h]
  simp

theorem traverses_silentTracks :
    ∀ {tracks : List UInt64} (before : List UInt64) {pos : Nat},
      source.Holds pos ((tracks.map (unsignedElement .silentTrackNumber)).flatMap
        Element.encoding) →
      Element.Traverses readSilentTrack source pos before
        (pos + ((tracks.map (unsignedElement .silentTrackNumber)).flatMap Element.encoding).length)
        (before ++ tracks)
  | [], before, _, _ => by
      rw [List.append_nil]
      exact .nil
  | track :: tracks, before, pos, h => by
      rw [List.map_cons, List.flatMap_cons] at h ⊢
      have hfirst : Element.Traverses readSilentTrack source pos before _ _ :=
        PrimitiveElement.traverses_unsigned h.left (fun track => before ++ [track]) rfl rfl
      have hrest := traverses_silentTracks (before ++ [track]) h.right
      rw [List.append_assoc, List.singleton_append] at hrest
      rw [List.length_append, ← Nat.add_assoc]
      exact hfirst.append hrest

/-- The silent tracks are read over metadata that has none. -/
theorem traverses_silentTracksEncoding {m : ClusterMetadata} (before : ClusterMetadata)
    (hasTimecode : Bool) (hbefore : before.silentTracks = [])
    (hmax : m.silentTracksSize ≤ VarInt.max) (h : source.Holds pos m.silentTracksEncoding) :
    Element.Traverses absorb source pos (before, hasTimecode)
      (pos + m.silentTracksEncoding.length)
      ({ before with silentTracks := m.silentTracks }, hasTimecode) := by
  by_cases hempty : m.silentTracks.isEmpty
  · obtain ⟨timecode, tracks, position, prevSize, offset, sizeLength⟩ := before
    simp only at hbefore
    rw [silentTracksEncoding, if_pos hempty, List.isEmpty_iff.mp hempty, hbefore]
    exact .nil
  · rw [silentTracksSize, if_neg hempty] at hmax
    rw [silentTracksEncoding, if_neg hempty] at h ⊢
    have hsize := h.right
    rw [ElementId.length_encode] at hsize
    have htracks := hsize.right
    rw [VarInt.length_minimal] at htracks
    have htraverses := traverses_silentTracks [] htracks
    rw [silentTrackElements, Element.length_children] at htraverses
    have hread : Reader.Yields (absorb (before, hasTimecode) .silentTracks) source
        (pos + ElementId.silentTracks.size)
        (({ before with silentTracks := m.silentTracks }, hasTimecode),
          VarInt.octetLength (Element.childrenSize m.silentTrackElements) +
            Element.childrenSize m.silentTrackElements)
        (pos + ElementId.silentTracks.size +
          (VarInt.octetLength (Element.childrenSize m.silentTrackElements) +
            Element.childrenSize m.silentTrackElements)) := by
      rw [← Nat.add_assoc]
      have hvalue := VarInt.yields_read_minimal (by dsimp only at hmax; omega) hsize.left
      have hchild : Reader.Yields (before.readChild? .silentTracks) source _ (some _) _ :=
        hvalue.bind ((Element.yields_readChildren _ htraverses).map rfl)
      refine hchild.map ?_
      show Pure.pure ((_, hasTimecode || false), _) = _
      rw [Bool.or_false]
      rfl
    rw [List.length_append, List.length_append, ElementId.length_encode, VarInt.length_minimal,
      Element.length_children, ← Nat.add_assoc]
    exact .child h.left hread

/-- The metadata is restored from its bytes, over whatever was read before. -/
theorem traverses_encoding {m : ClusterMetadata} (offset sizeLength : Nat)
    (hmax : m.size ≤ VarInt.max) (h : source.Holds pos m.encoding) :
    Element.Traverses absorb source pos ({ offset, sizeLength }, false) (pos + m.encoding.length)
      ({ m with offset, sizeLength }, true) := by
  have htimecode : Element.Traverses absorb source pos ({ offset, sizeLength }, false) _
      ({ timecode := m.timecode, offset, sizeLength }, true) :=
    PrimitiveElement.traverses_unsigned h.left
      (fun timecode => ({ timecode, offset, sizeLength }, true)) rfl
      (absorb_unsigned (fun timecode => { timecode, offset, sizeLength }) rfl)
  have hsilent := traverses_silentTracksEncoding { timecode := m.timecode, offset, sizeLength } true
    rfl (by rw [size] at hmax; omega) h.right.left
  have htrailing := h.right.right
  rw [trailingElements, List.flatMap_append] at htrailing
  have hposition := Element.Traverses.optional absorb
    ({ m with position := 0, prevSize := 0, offset, sizeLength }, true)
    ({ m with prevSize := 0, offset, sizeLength }, true) htrailing.left
    (fun h0 => by rw [h0])
    fun h => PrimitiveElement.traverses_unsigned h
      (fun position => ({ m with position, prevSize := 0, offset, sizeLength }, true)) rfl
      (absorb_unsigned (fun position => { m with position, prevSize := 0, offset, sizeLength }) rfl)
  have hprevSize := Element.Traverses.optional absorb
    ({ m with prevSize := 0, offset, sizeLength }, true)
    ({ m with offset, sizeLength }, true) htrailing.right (fun h0 => by rw [← h0])
    fun h => PrimitiveElement.traverses_unsigned h
      (fun prevSize => ({ m with prevSize, offset, sizeLength }, true)) rfl
      (absorb_unsigned (fun prevSize => { m with prevSize, offset, sizeLength }) rfl)
  rw [encoding, trailingElements, List.flatMap_append]
  simp only [List.length_append, ← Nat.add_assoc] at hprevSize ⊢
  exact ((htimecode.append hsilent).append hposition).append hprevSize

end Ebml.ClusterMetadata
