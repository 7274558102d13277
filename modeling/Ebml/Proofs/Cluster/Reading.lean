import Ebml.Proofs.Cluster.Opening
import Ebml.Proofs.Timeline

/-!
# Reading whole clusters

Of a cluster that was written, the opening and the region of blocks are read, in both kinds of
cluster.  The blocks of a streaming cluster are then read one by one (`BlockIterator.Gives`).
-/

namespace Ebml

variable {source : Source} {pos : Nat} {mode : ParsingMode}

/-! ## The opening -/

namespace Cluster

/-- Blocks are not metadata. -/
theorem readChild?_of_block {id : ElementId} (h : (ClusterBlock.ofId? id).isSome)
    (m : ClusterMetadata) : m.readChild? id = pure none := by
  rw [ClusterBlock.ofId?] at h
  split at h
  next hid =>
    subst hid
    rfl
  next =>
    split at h
    next hid =>
      subst hid
      rfl
    next => cases h

/-- What was absorbed is a child with metadata. -/
theorem eq_of_absorb {acc next : ClusterMetadata × Bool} {id : ElementId} {count stop : Nat}
    (h : Reader.Yields (ClusterMetadata.absorb acc id) source pos (next, count) stop) :
    Reader.Yields (acc.1.readChild? id) source pos (some (next.1, count)) stop ∧
      next.2 = (acc.2 || id = .timecode) := by
  obtain ⟨_, hok⟩ := h #[]
  obtain ⟨found, cursor, hchild, hrest⟩ := Reader.bind_eq_ok.mp hok
  have hsteady := Reader.Steady.of_spans (acc.1.spans_readChild? id) _ _ _ _ hchild
  cases found with
  | none => cases hrest
  | some found =>
      cases hrest
      exact ⟨hsteady, rfl⟩

theorem yields_readMetadata {size stop : Nat} {acc acc' : ClusterMetadata × Bool}
    {result : ClusterMetadata × Nat} {after : Nat}
    (h : Element.Traverses ClusterMetadata.absorb source pos acc stop acc') :
    ∀ {consumed : Nat}, consumed + stop ≤ size + pos →
      Reader.Yields (readMetadata mode size (consumed + (stop - pos)) acc'.1 acc'.2) source stop
        result after →
      Reader.Yields (readMetadata mode size consumed acc.1 acc.2) source pos result after := by
  induction h with
  | nil =>
      intro consumed _ hrest
      rwa [Nat.sub_self, Nat.add_zero] at hrest
  | @cons pos stop count acc next acc' id hid hchild htraverses ih =>
      intro consumed hle hrest
      have hstop := htraverses.le
      have hsize := id.size_pos
      obtain ⟨hfound, htimecode⟩ := eq_of_absorb hchild
      have hblock : ¬ (ClusterBlock.ofId? id).isSome := by
        intro hblock
        obtain ⟨_, hok⟩ := hfound #[]
        rw [readChild?_of_block hblock] at hok
        cases hok
      have hsum : consumed + (stop - pos) =
          consumed + id.size + count + (stop - (pos + id.size + count)) := by omega
      rw [hsum] at hrest
      have hnext := ih (by omega) hrest
      rw [htimecode] at hnext
      rw [readMetadata, if_pos (by omega)]
      refine hid.bind ?_
      rw [if_neg hblock]
      exact hfound.bind hnext

/-- The opening of a cluster is read back from its size, in however many octets, and its metadata.
-/
theorem yields_readOpening {m : ClusterMetadata} {width region : Nat} {blocks : List ClusterBlock}
    (hwidth : VarInt.Fits (m.size + region) width)
    (hregion : region = (blocks.flatMap Element.encoding).length)
    (h : source.Holds pos (VarInt.sized (m.size + region) width ++
      (m.encoding ++ blocks.flatMap Element.encoding))) :
    Reader.Yields (readOpening mode) source pos
      { metadata := { m with offset := pos - ElementId.cluster.size, sizeLength := width }
        region, total := width + (m.size + region) }
      (pos + width + m.size) := by
  have hmetadata := h.right
  rw [VarInt.length_sized] at hmetadata
  have hblocks := hmetadata.right
  rw [ClusterMetadata.length_encoding] at hblocks
  have htraverses := ClusterMetadata.traverses_encoding
    (pos - ElementId.cluster.size) width (by have hmax := hwidth.2.2.2; omega) hmetadata.left
  rw [ClusterMetadata.length_encoding] at htraverses
  have hread : Reader.Yields
      (readMetadata mode (m.size + region) 0
        { offset := pos - ElementId.cluster.size, sizeLength := width } false)
      source (pos + width)
      ({ m with offset := pos - ElementId.cluster.size, sizeLength := width }, region)
      (pos + width + m.size) := by
    refine yields_readMetadata htraverses (by omega) ?_
    rw [Nat.add_sub_cancel_left, Nat.zero_add, readMetadata]
    cases blocks with
    | nil =>
        rw [List.flatMap_nil, List.length_nil] at hregion
        subst hregion
        rw [if_neg (by omega), if_neg (by omega)]
        exact Reader.Yields.pure _
    | cons b blocks =>
        have hid := (Element.holds_parts (Source.Holds.left hblocks)).1
        have hpos := (Element.id b).size_pos
        rw [List.flatMap_cons, List.length_append, Element.length_encoding,
          Element.Encoded.totalSize_eq] at hregion
        rw [if_pos (by omega)]
        refine (ElementId.yields_read hid).bind ?_
        have hsome : (ClusterBlock.ofId? (Element.id b)).isSome := by
          cases b with
          | simple => rfl
          | group => rfl
        rw [if_pos hsome]
        refine Reader.Yields.position.bind ?_
        rw [Nat.add_sub_cancel]
        refine (Reader.Yields.seek _).bind ((Reader.Yields.pure ()).bind ?_)
        rw [Nat.add_sub_cancel_left]
        exact Reader.Yields.pure _
  exact Reader.Yields.position.bind ((VarInt.yields_read hwidth.payload h.left).bind
    ((Reader.Yields.note _).bind (hread.map rfl)))

end Cluster

/-! ## The region of blocks -/

namespace BufferedCluster

theorem of_readBlocks {size count : Nat} {c c' : BufferedCluster} {cursor cursor' : Cursor}
    (hok : readBlocks mode size source ⟨c, cursor⟩ = .ok count ⟨c', cursor'⟩) :
    count = size ∧ cursor'.pos = cursor.pos + size ∧ ∃ blocks,
      Element.Traverses (readChild mode) source cursor.pos [] (cursor.pos + size) blocks ∧
        c' = sorted { c with blocks } := by
  obtain ⟨blocks, cursor₁, hchildren, hok⟩ := Filling.lift_bind_eq_ok.mp hok
  obtain ⟨htraverses, hpos⟩ := Element.traverses_of_readChildren
    (fun blocks id => Reader.Advances.of_spans (spans_readChild mode blocks id)) hchildren
  obtain ⟨_, cursor₂, hnote, hok⟩ := Filling.lift_bind_eq_ok.mp hok
  cases hnote
  cases hok
  rw [hpos] at htraverses
  exact ⟨rfl, hpos, blocks, htraverses, rfl⟩

theorem readBlocks_of_traverses {size : Nat} {blocks : List ClusterBlock}
    (h : Element.Traverses (readChild mode) source pos [] (pos + size) blocks)
    (c : BufferedCluster) (log : Log) :
    ∃ log', readBlocks mode size source ⟨c, ⟨pos, log⟩⟩ =
      .ok size ⟨sorted { c with blocks }, ⟨pos + size, log'⟩⟩ := by
  obtain ⟨log', hchildren⟩ := Element.yields_readChildren .cluster h log
  exact ⟨_, Filling.lift_bind_eq_ok.mpr ⟨_, _, hchildren, rfl⟩⟩

instance : LawfulCluster BufferedCluster where
  metadata_setMetadata _ _ := rfl
  setMetadata_setMetadata _ _ _ := rfl
  setMetadata_metadata _ := rfl
  count_readBlocks h := (of_readBlocks h).1

/-- The opening and then the blocks of the region. -/
theorem read_of_traverses {opening : Cluster.Opening} {blocks : List ClusterBlock}
    {cursor : Cursor} {log : Log}
    (hopening : Cluster.readOpening mode source cursor = .ok opening ⟨pos, log⟩)
    (h : Element.Traverses (readChild mode) source pos [] (pos + opening.region) blocks)
    (c : BufferedCluster) :
    ∃ log', (Cluster.read mode : Filling BufferedCluster Nat) source ⟨c, cursor⟩ =
      .ok opening.total
        ⟨sorted { c with metadata := opening.metadata, blocks }, ⟨pos + opening.region, log'⟩⟩ := by
  obtain ⟨log', hblocks⟩ :=
    readBlocks_of_traverses h { c with metadata := opening.metadata } log
  exact ⟨log', Cluster.read_eq_ok.mpr ⟨opening, _, hopening, hblocks, rfl⟩⟩

end BufferedCluster

namespace StreamingCluster

theorem of_readBlocks {size count : Nat} {c c' : StreamingCluster} {cursor cursor' : Cursor}
    (hok : readBlocks mode size source ⟨c, cursor⟩ = .ok count ⟨c', cursor'⟩) :
    count = size ∧ cursor'.pos = cursor.pos + size ∧ ∃ index,
      Element.Traverses (readChild mode) source cursor.pos [] (cursor.pos + size) index ∧
        c' = sorted { c with
          index, sizeLength := c.sizeLengthFor size, blocksSize := size, state? := none } := by
  obtain ⟨index, cursor₁, hchildren, hok⟩ := Filling.lift_bind_eq_ok.mp hok
  obtain ⟨htraverses, hpos⟩ :=
    Element.traverses_of_readChildren (advances_readChild mode) hchildren
  obtain ⟨_, cursor₂, hnote, hok⟩ := Filling.lift_bind_eq_ok.mp hok
  cases hnote
  cases hok
  rw [hpos] at htraverses
  exact ⟨rfl, hpos, index, htraverses, rfl⟩

theorem readBlocks_of_traverses {size : Nat} {index : List IndexEntry}
    (h : Element.Traverses (readChild mode) source pos [] (pos + size) index)
    (c : StreamingCluster) (log : Log) :
    ∃ log', readBlocks mode size source ⟨c, ⟨pos, log⟩⟩ =
      .ok size ⟨sorted { c with
        index, sizeLength := c.sizeLengthFor size, blocksSize := size, state? := none },
        ⟨pos + size, log'⟩⟩ := by
  obtain ⟨log', hchildren⟩ := Element.yields_readChildren .cluster h log
  exact ⟨_, Filling.lift_bind_eq_ok.mpr ⟨_, _, hchildren, rfl⟩⟩

instance : LawfulCluster StreamingCluster where
  metadata_setMetadata _ _ := rfl
  setMetadata_setMetadata _ _ _ := rfl
  setMetadata_metadata _ := rfl
  count_readBlocks h := (of_readBlocks h).1

/-- The opening and then the index of the region. -/
theorem read_of_traverses {opening : Cluster.Opening} {index : List IndexEntry}
    {cursor : Cursor} {log : Log}
    (hopening : Cluster.readOpening mode source cursor = .ok opening ⟨pos, log⟩)
    (h : Element.Traverses (readChild mode) source pos [] (pos + opening.region) index)
    (c : StreamingCluster) :
    ∃ log', (Cluster.read mode : Filling StreamingCluster Nat) source ⟨c, cursor⟩ =
      .ok opening.total ⟨sorted { c with
        metadata := opening.metadata, index, blocksSize := opening.region, state? := none
        sizeLength := sizeLengthFor { c with metadata := opening.metadata } opening.region },
        ⟨pos + opening.region, log'⟩⟩ := by
  obtain ⟨log', hblocks⟩ :=
    readBlocks_of_traverses h { c with metadata := opening.metadata } log
  exact ⟨log', Cluster.read_eq_ok.mpr ⟨opening, _, hopening, hblocks, rfl⟩⟩

end StreamingCluster

/-! ## Going through the blocks -/

namespace BlockIterator

/-- Going on from the front gives these blocks and then no more, wherever the reader stands before
each step. -/
inductive Gives (source : Source) : BlockIterator → List ClusterBlock → Prop
  | nil {it : BlockIterator} :
      (∀ cursor, next .front source ⟨it, cursor⟩ = .ok none ⟨it, cursor⟩) → Gives source it []
  | cons {it it' : BlockIterator} {block : ClusterBlock} {blocks : List ClusterBlock} :
      (∀ cursor, ∃ cursor', next .front source ⟨it, cursor⟩ = .ok (some block) ⟨it', cursor'⟩) →
      Gives source it' blocks → Gives source it (block :: blocks)

/-- The first entry is taken off, and its block loaded. -/
theorem next_cons (entry : IndexEntry) (entries : List IndexEntry) (cursor : Cursor) :
    next .front source ⟨⟨entry :: entries⟩, cursor⟩ =
      (do return some (← Filling.lift entry.load) : Filling BlockIterator (Option ClusterBlock))
        source ⟨⟨entries⟩, cursor⟩ := rfl

/-- A block that was come to was loaded by the first entry. -/
theorem load_of_next {entry : IndexEntry} {entries : List IndexEntry} {block : ClusterBlock}
    {cursor cursor' : Cursor} {it : BlockIterator}
    (hok : next .front source ⟨⟨entry :: entries⟩, cursor⟩ = .ok (some block) ⟨it, cursor'⟩) :
    entry.load source cursor = .ok block cursor' ∧ it = ⟨entries⟩ := by
  rw [next_cons] at hok
  obtain ⟨_, _, hload, hpure⟩ := Filling.lift_bind_eq_ok.mp hok
  cases hpure
  exact ⟨hload, rfl⟩

/-- An iteration gives one list of blocks. -/
theorem Gives.unique {it : BlockIterator} {blocks blocks' : List ClusterBlock}
    (h : Gives source it blocks) (h' : Gives source it blocks') : blocks = blocks' := by
  induction h generalizing blocks' with
  | nil hnone =>
      cases h' with
      | nil => rfl
      | cons hsome _ =>
          obtain ⟨_, hok⟩ := hsome ⟨0, #[]⟩
          rw [hnone] at hok
          cases hok
  | cons hsome _ ih =>
      obtain ⟨_, hok⟩ := hsome ⟨0, #[]⟩
      cases h' with
      | nil hnone =>
          rw [hnone] at hok
          cases hok
      | cons hsome' hrest =>
          obtain ⟨_, hok'⟩ := hsome' ⟨0, #[]⟩
          rw [hok] at hok'
          cases hok'
          rw [ih hrest]

/-- Entries give the blocks that they stand for. -/
theorem gives_of_loads :
    ∀ {located : List (IndexEntry × ClusterBlock)},
      (∀ p ∈ located, IndexEntry.Loads source p.1 p.2) →
      Gives source ⟨located.map Prod.fst⟩ (located.map Prod.snd)
  | [], _ => .nil fun _ => rfl
  | p :: located, h => by
      obtain ⟨after, hload⟩ := h p (List.mem_cons_self ..)
      have hrest := gives_of_loads fun q hm => h q (List.mem_cons_of_mem _ hm)
      refine .cons (fun cursor => ?_) hrest
      obtain ⟨log, hok⟩ := hload cursor.pos cursor.log
      rw [List.map_cons, next_cons]
      exact ⟨⟨after, log⟩, Filling.lift_bind_eq_ok.mpr ⟨_, _, hok, rfl⟩⟩

end BlockIterator

end Ebml
