import Ebml.Cluster.Streaming
import Ebml.Proofs.Cluster.Block

/-!
# Timecodes in the stream

A buffered cluster takes the timecode of a block from the block that it has read, a streaming one
looks for it in the stream.  For a simple block these are the same.  A group may have several
blocks among its children (`BlockGroup.Timecodes` lists their timecodes), and then the one reader
takes the last timecode and the other the first.
-/

namespace Ebml

variable {source : Source} {pos : Nat}

namespace BlockGroup

/-- The blocks among the children of a group from `pos` to `stop` have these timecodes, in order. -/
inductive Timecodes (source : Source) : (pos stop : Nat) → List Int16 → Prop
  | nil {pos : Nat} : Timecodes source pos pos []
  | block {pos stop size length track trackLength after : Nat} {timecode : Int16}
      {timecodes : List Int16} :
      Reader.Yields ElementId.read source pos .block (pos + ElementId.block.size) →
      Reader.Yields VarInt.read source (pos + ElementId.block.size) (size, length)
        (pos + ElementId.block.size + length) →
      Reader.Yields Block.readPlace source (pos + ElementId.block.size + length)
        (track, timecode, trackLength) after →
      Timecodes source (pos + ElementId.block.size + (length + size)) stop timecodes →
      Timecodes source pos stop (timecode :: timecodes)
  | other {pos stop size length : Nat} {id : ElementId} {timecodes : List Int16} :
      id ≠ .block →
      Reader.Yields ElementId.read source pos id (pos + id.size) →
      Reader.Yields VarInt.read source (pos + id.size) (size, length) (pos + id.size + length) →
      Timecodes source (pos + id.size + (length + size)) stop timecodes →
      Timecodes source pos stop timecodes

theorem counts_readChild (draft : Draft) (id : ElementId) :
    Element.Counts (readChild draft id) Prod.snd := by
  rw [readChild]
  split
  next => exact (Element.counts_read _).map fun _ => ⟨_, rfl, rfl⟩
  next =>
    split
    next => exact (Element.counts_read _).map fun _ => ⟨_, rfl, rfl⟩
    next =>
      split
      next => exact (PrimitiveElement.counts_readUnsignedChild id).map fun _ => ⟨_, rfl, rfl⟩
      next =>
        split
        next => exact (PrimitiveElement.counts_readUnsignedChild id).map fun _ => ⟨_, rfl, rfl⟩
        next =>
          split
          next => exact (PrimitiveElement.counts_readSignedChild id).map fun _ => ⟨_, rfl, rfl⟩
          next =>
            split
            next =>
              exact (PrimitiveElement.counts_readBinaryChild id).map fun _ => ⟨_, rfl, rfl⟩
            next =>
              split
              next => exact Element.counts_skipRest.map fun _ => ⟨_, rfl, rfl⟩
              next => exact Element.counts_throw _

/-- A child that is not a block leaves the block as it is. -/
theorem block_of_readChild {draft draft' : Draft} {id : ElementId} {count : Nat}
    {cursor cursor' : Cursor} (hid : id ≠ .block)
    (hok : readChild draft id source cursor = .ok (draft', count) cursor') :
    draft'.block? = draft.block? := by
  rw [readChild, if_neg hid] at hok
  repeat
    split at hok
    next =>
      obtain ⟨_, _, _, hpure⟩ := Reader.bind_eq_ok.mp hok
      cases hpure
      rfl
  cases hok

/-- What a block that was read as a child of a group says of the stream. -/
theorem place_of_readChild {draft draft' : Draft} {count : Nat} {cursor cursor' : Cursor}
    (hok : readChild draft .block source cursor = .ok (draft', count) cursor') :
    ∃ b size length track trackLength after, draft'.block? = some b ∧ count = length + size ∧
      Reader.Yields VarInt.read source cursor.pos (size, length) (cursor.pos + length) ∧
        Reader.Yields Block.readPlace source (cursor.pos + length) (track, b.timecode, trackLength)
          after := by
  obtain ⟨⟨b, _⟩, _, hread, hpure⟩ := Reader.bind_eq_ok.mp hok
  cases hpure
  obtain ⟨size, length, _, rfl, hsize, hbody⟩ := Element.of_read hread
  obtain ⟨⟨read, flags⟩, _, hcontent, hpure⟩ := Reader.bind_eq_ok.mp hbody
  cases hpure
  obtain ⟨track, trackLength, after, hplace⟩ := Block.place_of_readContent hcontent
  exact ⟨_, size, length, track, trackLength, after, rfl, rfl, hsize, hplace⟩

/-- The last block among the children is the one that counts. -/
theorem timecodes_of_traverses {stop : Nat} {draft draft' : Draft}
    (h : Element.Traverses readChild source pos draft stop draft') :
    ∃ timecodes, Timecodes source pos stop timecodes ∧
      draft'.block?.map Block.timecode =
        timecodes.getLast?.or (draft.block?.map Block.timecode) := by
  induction h with
  | nil => exact ⟨[], .nil, rfl⟩
  | @cons pos stop count draft next draft' id hid hchild _ ih =>
      obtain ⟨timecodes, hrest, hlast⟩ := ih
      obtain ⟨_, hok⟩ := hchild #[]
      by_cases hblock : id = .block
      · subst hblock
        obtain ⟨b, size, length, track, trackLength, after, hb, rfl, hsize, hplace⟩ :=
          place_of_readChild hok
        refine ⟨b.timecode :: timecodes, .block hid hsize hplace hrest, ?_⟩
        rw [hlast, hb, List.getLast?_cons]
        cases timecodes.getLast? with
        | none => rfl
        | some _ => rfl
      · obtain ⟨size, length, hsize, hcount⟩ := counts_readChild _ _ _ _ _ _ hok
        simp only at hcount
        subst hcount
        refine ⟨timecodes, .other hblock hid hsize hrest, ?_⟩
        rw [hlast, block_of_readChild hblock hok]

end BlockGroup

namespace ClusterBlock

/-! ## Looking for a timecode -/

theorem spans_peekGroupTimecode (size : Nat) :
    ∀ consumed, Reader.Spans (peekGroupTimecode size consumed) fun _ _ => True := by
  intro consumed
  induction hleft : size - consumed using Nat.strongRecOn generalizing consumed with
  | ind left ih =>
      rw [peekGroupTimecode]
      split
      next hlt =>
        refine ElementId.spans_read.bind fun id _ _ => VarInt.spans_read.bind fun _ _ _ => ?_
        have hsize := id.size_pos
        dsimp only
        split
        next => exact Block.spans_readPlace.bind fun _ _ _ => Reader.Spans.pure trivial
        next => exact (Reader.Spans.skip _).bind fun _ _ _ => ih _ (by omega) _ rfl
      next => exact Reader.Spans.throw

/-- What is looked at lies between where the reader starts and where it stops. -/
theorem spans_peekTimecode (id : ElementId) (size : Nat) :
    Reader.Spans (peekTimecode id size) fun _ _ => True := by
  rw [peekTimecode]
  split
  next => exact Block.spans_readPlace.bind fun _ _ _ => Reader.Spans.pure trivial
  next => exact spans_peekGroupTimecode size 0

/-- The first block among the children is the one that is looked at. -/
theorem head_of_peekGroupTimecode {stop size : Nat} {timecodes : List Int16}
    (h : BlockGroup.Timecodes source pos stop timecodes) :
    ∀ {consumed : Nat} {log : Log} {timecode : Int16} {cursor' : Cursor},
      consumed + stop = size + pos →
      peekGroupTimecode size consumed source ⟨pos, log⟩ = .ok timecode cursor' →
      timecodes.head? = some timecode := by
  induction h with
  | nil =>
      intro consumed log timecode cursor' hsum hok
      rw [peekGroupTimecode, if_neg (by omega)] at hok
      cases hok
  | block hid hsize hplace hrest ih =>
      intro consumed log timecode cursor' hsum hok
      rw [peekGroupTimecode] at hok
      split at hok
      next =>
        obtain ⟨id, ⟨_, _⟩, hid', hok⟩ := Reader.bind_eq_ok.mp hok
        obtain ⟨rfl, rfl⟩ := hid.unique hid'
        obtain ⟨_, ⟨_, _⟩, hsize', hok⟩ := Reader.bind_eq_ok.mp hok
        obtain ⟨rfl, rfl⟩ := hsize.unique hsize'
        dsimp only at hok
        rw [if_pos rfl] at hok
        obtain ⟨_, _, hplace', hok⟩ := Reader.bind_eq_ok.mp hok
        obtain ⟨rfl, _⟩ := hplace.unique hplace'
        cases hok
        rfl
      next => cases hok
  | other hne hid hsize hrest ih =>
      intro consumed log timecode cursor' hsum hok
      rw [peekGroupTimecode] at hok
      split at hok
      next =>
        obtain ⟨id, ⟨_, _⟩, hid', hok⟩ := Reader.bind_eq_ok.mp hok
        obtain ⟨rfl, rfl⟩ := hid.unique hid'
        obtain ⟨_, ⟨_, _⟩, hsize', hok⟩ := Reader.bind_eq_ok.mp hok
        obtain ⟨rfl, rfl⟩ := hsize.unique hsize'
        dsimp only at hok
        rw [if_neg hne] at hok
        obtain ⟨_, cursor₁, hskip, hok⟩ := Reader.bind_eq_ok.mp hok
        obtain ⟨_, hcursor⟩ := Reader.skip_eq_ok.mp hskip
        subst hcursor
        simp only [Nat.add_assoc] at hok ih hsum
        exact ih (by omega) hok
      next => cases hok

/-- The first and the last timecode of the block with this ID and a body of `size` bytes at
`pos`.  A simple block has one. -/
inductive Tells (source : Source) (pos size : Nat) : ElementId → (first last : Int16) → Prop
  | simple {track length after : Nat} {timecode : Int16} :
      Reader.Yields Block.readPlace source pos (track, timecode, length) after →
      Tells source pos size .simpleBlock timecode timecode
  | group {timecodes : List Int16} {first last : Int16} :
      BlockGroup.Timecodes source pos (pos + size) timecodes →
      timecodes.head? = some first → timecodes.getLast? = some last →
      Tells source pos size .blockGroup first last

/-- Who looks for the timecode of a block finds the first. -/
theorem Tells.first {size : Nat} {id : ElementId} {first last timecode : Int16} {log : Log}
    {cursor' : Cursor} (h : Tells source pos size id first last)
    (hok : peekTimecode id size source ⟨pos, log⟩ = .ok timecode cursor') : timecode = first := by
  cases h with
  | simple hplace =>
      obtain ⟨_, _, hplace', hpure⟩ := Reader.bind_eq_ok.mp hok
      obtain ⟨rfl, _⟩ := hplace.unique hplace'
      cases hpure
      rfl
  | group htimecodes hhead _ =>
      have hsum : 0 + (pos + size) = size + pos := by omega
      have hfound := head_of_peekGroupTimecode htimecodes hsum hok
      rw [hhead] at hfound
      cases hfound
      rfl

/-- Who reads a block finds the last. -/
theorem tells_of_read {id : ElementId} {kind b : ClusterBlock} {count : Nat}
    {cursor cursor' : Cursor} (hkind : ofId? id = some kind)
    (hok : Element.read kind source cursor = .ok (b, count) cursor') :
    ∃ size length first, count = length + size ∧
      Reader.Yields VarInt.read source cursor.pos (size, length) (cursor.pos + length) ∧
        Tells source (cursor.pos + length) size id first b.timecode := by
  obtain ⟨size, length, _, rfl, hsize, hbody⟩ := Element.of_read hok
  have hid := id_of_ofId? hkind
  subst hid
  cases kind with
  | simple e =>
      obtain ⟨_, hsimple, rfl⟩ := Reader.map_eq_ok.mp hbody
      obtain ⟨_, _, hcontent, hpure⟩ := Reader.bind_eq_ok.mp hsimple
      cases hpure
      obtain ⟨track, trackLength, after, hplace⟩ := Block.place_of_readContent hcontent
      exact ⟨size, length, _, rfl, hsize, .simple hplace⟩
  | group g =>
      obtain ⟨_, hgroup, rfl⟩ := Reader.map_eq_ok.mp hbody
      obtain ⟨_, _, hcontent, hpure⟩ := Reader.bind_eq_ok.mp hgroup
      cases hpure
      obtain ⟨draft, cursor₂, hchildren, hdraft⟩ := Reader.bind_eq_ok.mp hcontent
      have hadvances := fun draft id =>
        Reader.Advances.of_spans (BlockGroup.spans_readChild draft id)
      obtain ⟨htraverses, hstop⟩ := Element.traverses_of_readChildren hadvances hchildren
      obtain ⟨timecodes, htimecodes, hlast⟩ := BlockGroup.timecodes_of_traverses htraverses
      rw [hstop] at htimecodes
      dsimp only at hdraft
      cases hblock : draft.block? with
      | none =>
          rw [hblock] at hdraft
          cases hdraft
      | some block =>
          rw [hblock] at hdraft hlast
          obtain ⟨_, _, _, hpure⟩ := Reader.bind_eq_ok.mp hdraft
          cases hpure
          rw [Option.map_none, Option.or_none] at hlast
          cases timecodes with
          | nil => cases hlast
          | cons first timecodes =>
              exact ⟨size, length, first, rfl, hsize, .group htimecodes rfl hlast.symm⟩

/-- In what is written of a block its timecode is found. -/
theorem yields_peekTimecode {b : ClusterBlock} (hvalid : b.Valid)
    (hbound : Element.bodySize b < Element.sizeBound)
    (h : source.Holds pos (Element.Encoded.body b)) :
    ∃ after, Reader.Yields (peekTimecode (Element.id b) (Element.bodySize b)) source pos
      b.timecode after := by
  have hplace : ∀ {b : Block} {kindFlags : UInt8} {pos : Nat}, b.Valid →
      source.Holds pos (b.content kindFlags) →
        Reader.Yields Block.readPlace source pos
          (b.track, b.timecode, VarInt.octetLength b.track)
          (pos + VarInt.octetLength b.track + 2) := by
    intro b kindFlags pos hvalid h
    rw [Block.content, ← List.append_assoc] at h
    exact Block.yields_readPlace hvalid.track_le h.left
  cases b with
  | simple b => exact ⟨_, (hplace hvalid h).map rfl⟩
  | group g =>
      have hblock : source.Holds pos (Element.encoding g.block) := Source.Holds.left h
      obtain ⟨hid, hsize, hbody⟩ := Element.holds_parts hblock
      have hmax : g.block.contentSize ≤ VarInt.max := by
        have htotal := Element.Encoded.totalSize_eq g.block
        have hcontent : Element.bodySize g.block = g.block.contentSize := rfl
        have hsum : Element.bodySize (group g) = _ := g.bodySize_eq
        exact Element.le_max_of_lt (by omega)
      have hpos : 0 < Element.bodySize (group g) := by
        have htotal := Element.Encoded.totalSize_eq g.block
        have hoctets := (Element.id g.block).size_pos
        have hsum : Element.bodySize (group g) = _ := g.bodySize_eq
        omega
      refine ⟨pos + (Element.id g.block).size + VarInt.octetLength (Element.bodySize g.block) +
        VarInt.octetLength g.block.track + 2, ?_⟩
      show Reader.Yields (peekGroupTimecode (Element.bodySize (group g)) 0) source pos _ _
      rw [peekGroupTimecode, if_pos hpos]
      exact (ElementId.yields_read hid).bind ((VarInt.yields_read_minimal hmax hsize).bind
        ((hplace hvalid hbody).map rfl))

end ClusterBlock

end Ebml
