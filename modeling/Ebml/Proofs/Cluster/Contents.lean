import Ebml.Proofs.Cluster.Interchange
import Ebml.Proofs.Cluster.Numbering
import Ebml.Proofs.Timeline.Stability
import Mathlib.Data.List.Permutation

/-!
# What a buffered cluster holds

The blocks of a buffered cluster are the blocks that it was given and still has, in the order of
their timecodes, and where these are the same in the order in which they came.  They came as they
were handed over, or as they lay in the stream if they were read (`Cluster.Region`).

The order is made in three ways: a block that is handed over is inserted, blocks that were read are
sorted, and so are all blocks when the cluster is written.  The first way relies on the order that
there is, the others do not.  That they come to the same is an induction on the calls
(`BufferedCluster.Kept.blocks_eq`).

Blocks that are edited in place stay where they are until the cluster is written.  From then on it
is as if they had come as they lay.
-/

namespace Ebml

variable {source : Source} {pos : Nat} {mode : ParsingMode}

/-! ## The blocks of a region -/

namespace Cluster

/-- From `pos` to `stop` there are elements, and these are the blocks among them, as they lie in the
stream.  What is not a block can be passed over. -/
inductive Region (mode : ParsingMode) (source : Source) : Nat → Nat → List ClusterBlock → Prop
  | nil {pos : Nat} : Region mode source pos pos []
  | block {pos stop count : Nat} {id : ElementId} {kind block : ClusterBlock}
      {blocks : List ClusterBlock} :
      Reader.Yields ElementId.read source pos id (pos + id.size) →
      ClusterBlock.ofId? id = some kind →
      Reader.Yields (Element.read kind) source (pos + id.size) (block, count)
        (pos + id.size + count) →
      Region mode source (pos + id.size + count) stop blocks →
      Region mode source pos stop (block :: blocks)
  | other {pos stop count : Nat} {id : ElementId} {blocks : List ClusterBlock} :
      Reader.Yields ElementId.read source pos id (pos + id.size) →
      ClusterBlock.ofId? id = none →
      Reader.Yields (skipNonBlock mode id) source (pos + id.size) count (pos + id.size + count) →
      Region mode source (pos + id.size + count) stop blocks →
      Region mode source pos stop blocks

namespace Region

variable {stop : Nat} {blocks others : List ClusterBlock}

theorem le (h : Region mode source pos stop blocks) : pos ≤ stop := by
  induction h with
  | nil => exact Nat.le_refl _
  | block _ _ _ _ ih => omega
  | other _ _ _ _ ih => omega

/-- What lies in a region is told by the stream. -/
theorem unique (h : Region mode source pos stop blocks) (h' : Region mode source pos stop others) :
    blocks = others := by
  induction h generalizing others with
  | nil =>
      cases h' with
      | nil => rfl
      | @block _ _ _ id _ _ _ _ _ _ hrest =>
          have hle := hrest.le
          have hsize := id.size_pos
          omega
      | @other _ _ _ id _ _ _ _ hrest =>
          have hle := hrest.le
          have hsize := id.size_pos
          omega
  | @block _ _ _ id _ _ _ hid hkind hread hrest ih =>
      cases h' with
      | nil =>
          have hle := hrest.le
          have hsize := id.size_pos
          omega
      | block hid' hkind' hread' hrest' =>
          obtain ⟨rfl, -⟩ := hid.agree hid'
          cases hkind.symm.trans hkind'
          obtain ⟨hsame, -⟩ := hread.agree hread'
          cases hsame
          rw [ih hrest']
      | other hid' hkind' _ _ =>
          obtain ⟨rfl, -⟩ := hid.agree hid'
          cases hkind.symm.trans hkind'
  | @other _ _ _ id _ hid hkind hskip hrest ih =>
      cases h' with
      | nil =>
          have hle := hrest.le
          have hsize := id.size_pos
          omega
      | block hid' hkind' _ _ =>
          obtain ⟨rfl, -⟩ := hid.agree hid'
          cases hkind.symm.trans hkind'
      | other hid' _ hskip' hrest' =>
          obtain ⟨rfl, -⟩ := hid.agree hid'
          obtain ⟨rfl, -⟩ := hskip.agree hskip'
          exact ih hrest'

end Region

/-- The blocks that are come to from a cursor: those of the cluster whose ID was read or, where a
size is given, those of a region of that size. -/
def Lists (mode : ParsingMode) (source : Source) (cursor : Cursor) :
    Option Nat → List ClusterBlock → Prop
  | none, blocks => ∃ opening after, readOpening mode source cursor = .ok opening after ∧
      Region mode source after.pos (after.pos + opening.region) blocks
  | some size, blocks => Region mode source cursor.pos (cursor.pos + size) blocks

theorem Lists.unique {cursor : Cursor} {size? : Option Nat} {blocks others : List ClusterBlock}
    (h : Lists mode source cursor size? blocks) (h' : Lists mode source cursor size? others) :
    blocks = others := by
  cases size? with
  | none =>
      obtain ⟨opening, after, hopening, hregion⟩ := h
      obtain ⟨_, _, hopening', hregion'⟩ := h'
      cases hopening.symm.trans hopening'
      exact hregion.unique hregion'
  | some size => exact Region.unique h h'

end Cluster

namespace BufferedCluster

variable {c c' : BufferedCluster} {items : List ClusterBlock}

/-- A reader that gets through a region has come to its blocks, and to no others. -/
theorem region_of_traverses {stop : Nat} {blocks blocks' : List ClusterBlock}
    (h : Element.Traverses (readChild mode) source pos blocks stop blocks') :
    ∃ more, blocks' = blocks ++ more ∧ Cluster.Region mode source pos stop more := by
  induction h with
  | nil => exact ⟨[], (List.append_nil _).symm, .nil⟩
  | @cons pos stop count blocks next blocks' id hid hchild _ ih =>
      obtain ⟨more, hmore, hregion⟩ := ih
      obtain ⟨_, hok⟩ := hchild #[]
      have hfound := eq_of_readChild hok
      split at hfound
      next kind hkind =>
        obtain ⟨block, rfl, hblock⟩ := hfound
        exact ⟨block :: more, by rw [hmore, List.append_assoc, List.singleton_append],
          .block hid hkind hblock hregion⟩
      next hkind =>
        obtain ⟨rfl, hskip⟩ := hfound
        exact ⟨more, hmore, .other hid hkind hskip hregion⟩

/-- A read that succeeds replaces the blocks by those that it came to. -/
theorem lists_of_fillWith {size? : Option Nat} {cursor cursor' : Cursor} {count : Nat}
    (hok : fillWith mode size? source ⟨c, cursor⟩ = .ok count ⟨c', cursor'⟩) :
    ∃ blocks, Cluster.Lists mode source cursor size? blocks ∧
      c'.blocks = Timeline.sort ClusterBlock.timecode blocks := by
  cases size? with
  | none =>
      obtain ⟨opening, after, hopening, hblocks, _⟩ := Cluster.read_eq_ok.mp hok
      obtain ⟨-, -, blocks, htraverses, rfl⟩ := of_readBlocks hblocks
      obtain ⟨more, rfl, hregion⟩ := region_of_traverses htraverses
      exact ⟨_, ⟨opening, after, hopening, hregion⟩, rfl⟩
  | some size =>
      obtain ⟨-, -, blocks, htraverses, rfl⟩ := of_readBlocks hok
      obtain ⟨more, rfl, hregion⟩ := region_of_traverses htraverses
      exact ⟨_, hregion, rfl⟩

/-! ## Writing what was edited -/

/-- The cluster with blocks changed in place, one after another. -/
def edit (c : BufferedCluster) (edits : List (Nat × (ClusterBlock → ClusterBlock))) :
    BufferedCluster :=
  edits.foldl (fun c edit => c.modifyBlock edit.1 edit.2) c

/-- Nothing but the blocks is changed. -/
theorem edit_eq (c : BufferedCluster) (edits : List (Nat × (ClusterBlock → ClusterBlock))) :
    c.edit edits = { c with blocks := (c.edit edits).blocks } := by
  induction edits generalizing c with
  | nil => rfl
  | cons edit edits ih => exact ih (c.modifyBlock edit.1 edit.2)

theorem blocks_prepare (s : Held BufferedCluster Sink) :
    (stateOf (prepare s)).object.blocks = s.object.blocks := by
  obtain ⟨c, sink⟩ := s
  cases hstart : c.start? with
  | none =>
      rw [prepare_eq hstart]
      rfl
  | some start =>
      rw [prepare, Draining.held_bind, hstart]
      rfl

/-- A write at the right place puts the blocks in order, whether or not it succeeds. -/
theorem blocks_write_of_start {sink : Sink} (h : c.start? = some sink.stream.pos) :
    (stateOf (write ⟨c, sink⟩)).object.blocks = Timeline.sort ClusterBlock.timecode c.blocks := by
  rw [write_eq h, if_pos rfl]
  cases (sorted { c with start? := none }).writeAt sink.stream.pos sink with
  | ok written sink' => rfl
  | error e sink' => rfl

/-- Any write puts the blocks in order or leaves them as they are. -/
theorem blocks_write (s : Held BufferedCluster Sink) :
    (stateOf (write s)).object.blocks = Timeline.sort ClusterBlock.timecode s.object.blocks ∨
      (stateOf (write s)).object.blocks = s.object.blocks := by
  obtain ⟨c, sink⟩ := s
  cases hstart : c.start? with
  | none =>
      rw [write, Draining.held_bind, hstart]
      exact .inr rfl
  | some start =>
      by_cases hpos : sink.stream.pos = start
      · exact .inl (blocks_write_of_start (hpos ▸ hstart))
      · rw [write_eq hstart, if_neg hpos]
        exact .inr rfl

/-! ## Any calls -/

/-- A cluster after any calls, and the blocks that it was given and still has, in the order in which
they came.  Blocks that were edited and written count as given as they lay. -/
inductive Kept : List ClusterBlock → BufferedCluster → Prop
  | empty : Kept [] {}
  | made (timecode : UInt64) : Kept [] (make timecode)
  | pushed {items : List ClusterBlock} {c : BufferedCluster} (block : ClusterBlock) :
      Kept items c → Kept (items ++ [block]) (c.push block)
  | removed {items : List ClusterBlock} {c : BufferedCluster} (index : Nat) :
      Kept items c →
      Kept (Timeline.without ClusterBlock.timecode items index) (c.eraseBlock index)
  | cleared {items : List ClusterBlock} {c : BufferedCluster} : Kept items c → Kept [] c.clear
  | read {items found : List ClusterBlock} {c c' : BufferedCluster} {mode : ParsingMode}
      {size? : Option Nat} {source : Source} {cursor cursor' : Cursor} {count : Nat} :
      Kept items c → fillWith mode size? source ⟨c, cursor⟩ = .ok count ⟨c', cursor'⟩ →
      Cluster.Lists mode source cursor size? found → Kept found c'
  | described {items : List ClusterBlock} {c : BufferedCluster} (m : ClusterMetadata) :
      Kept items c → Kept items { c with metadata := m }
  | prepared {items : List ClusterBlock} {c : BufferedCluster} (sink : Sink) :
      Kept items c → Kept items (stateOf (prepare ⟨c, sink⟩)).object
  | written {items : List ClusterBlock} {c : BufferedCluster} (sink : Sink) :
      Kept items c → Kept items (stateOf (write ⟨c, sink⟩)).object
  | rewritten {items : List ClusterBlock} {c : BufferedCluster} {opened : Held BufferedCluster Sink}
      {count : Nat} {sink : Sink} (edits : List (Nat × (ClusterBlock → ClusterBlock))) :
      Kept items c → prepare ⟨c.edit edits, sink⟩ = .ok count opened →
      Kept (c.edit edits).blocks (stateOf (write opened)).object

/-- A cluster that was prepared is written where it was. -/
theorem of_prepare {sink : Sink} {count : Nat} {opened : Held BufferedCluster Sink}
    (h : prepare ⟨c, sink⟩ = .ok count opened) :
    opened = ⟨{ c with start? := some sink.stream.pos }, sink⟩ ∧ count = 0 := by
  cases hstart : c.start? with
  | none =>
      rw [prepare_eq hstart] at h
      cases h
      exact ⟨rfl, rfl⟩
  | some start =>
      rw [prepare, Draining.held_bind, hstart] at h
      cases h

/-- Every call keeps the blocks in order. -/
theorem Kept.blocks_eq (h : Kept items c) :
    c.blocks = Timeline.sort ClusterBlock.timecode items := by
  induction h with
  | empty => exact (List.mergeSort_nil).symm
  | made timecode => exact (List.mergeSort_nil).symm
  | pushed block _ ih => rw [push, ih, Timeline.sort_concat]
  | removed index _ ih => rw [eraseBlock, ih, Timeline.sort_without]
  | cleared _ _ => exact (List.mergeSort_nil).symm
  | read _ hok hlists _ =>
      obtain ⟨blocks, hfound, hblocks⟩ := lists_of_fillWith hok
      rw [hblocks, hfound.unique hlists]
  | described m _ ih => exact ih
  | prepared sink _ ih => rw [blocks_prepare, ih]
  | written sink _ ih =>
      rcases blocks_write ⟨_, sink⟩ with hsorted | hkept
      · rw [hsorted, ih, Timeline.sort_sort]
      · rw [hkept, ih]
  | rewritten edits _ hprepare _ =>
      obtain ⟨rfl, -⟩ := of_prepare hprepare
      exact blocks_write_of_start rfl

/-- On a stream that grows, a cluster whose edited blocks can be written is written whole, with its
blocks in order. -/
theorem write_ok_of_growing {sink : Sink} (hstart : c.start? = some sink.stream.pos)
    (hgrow : sink.stream.fixed = false) (h : Writable c.metadata c.blocks) :
    ∃ written s, write ⟨c, sink⟩ = .ok written s ∧
      Cluster.Lays sink.stream (VarInt.octetLength (Cluster.contentSize c.metadata c.blocks))
        c.metadata (Timeline.sort ClusterBlock.timecode c.blocks) written s.medium.stream := by
  obtain ⟨log, hwrite⟩ := (fillsGap_writeAt (sorted { c with start? := none })
    sink.stream.pos).ok_of_growing
      (emits_writeAt _ _ fun _ : True => ⟨h.sort.valid, h.sort.bounded⟩) trivial hgrow sink.log
  rw [write_eq hstart, if_pos rfl, hwrite, ← Cluster.contentSize_sort]
  exact ⟨_, _, rfl, rfl, rfl⟩

/-- A write that succeeds has laid out the cluster with its blocks in order. -/
theorem laid_of_write {sink : Sink} {written : Nat} {s : Held BufferedCluster Sink}
    (hstart : c.start? = some sink.stream.pos) (hok : write ⟨c, sink⟩ = .ok written s) :
    ∃ stream : Stream, stream.Settled ∧ stream.pos = sink.stream.pos ∧
      s.medium.stream = stream.overlay (Cluster.layout (Cluster.contentSize c.metadata c.blocks)
        (VarInt.octetLength (Cluster.contentSize c.metadata c.blocks)) c.metadata
        (Timeline.sort ClusterBlock.timecode c.blocks)) := by
  rw [write_eq hstart, if_pos rfl] at hok
  split at hok
  next count sink' hwrite =>
    cases hok
    rw [← Cluster.contentSize_sort]
    exact ((fillsGap_writeAt _ _).of_ok (emits_writeAt _ _ fun h : False => h.elim) hwrite).2
  next => cases hok

/-- After any calls, the blocks of a cluster are those that it was given and still has, none of them
lost or doubled, in the order of their timecodes, and in the order in which they came where these
are the same.  The one at an index is the one that is taken out at that index, and a block is put
where halving finds its place.

A read that succeeds comes to one list of blocks.  And after any edits of the blocks in place, a
cluster that is prepared and then written has its blocks in order again, whether or not it could be
written, and if it was, the blocks in the output are in that order.  It is written if the output
grows and the blocks and their size are within bounds. -/
theorem blocks_in_stable_order :
    (∀ items c, Kept items c →
      c.blocks = Timeline.sort ClusterBlock.timecode items ∧
      Timeline.Arranges ClusterBlock.timecode items c.blocks ∧
      (∀ index, c.blocks[index]? =
        (Timeline.place? ClusterBlock.timecode items index).bind fun place => items[place]?) ∧
      ∀ block, (c.push block).blocks = c.blocks.insertIdx
        (Timeline.bisect (fun b => b.timecode ≤ block.timecode) c.blocks) block) ∧
    (∀ mode size? source c cursor count state,
      fillWith mode size? source ⟨c, cursor⟩ = .ok count state →
      ∃ blocks, ∀ others, Cluster.Lists mode source cursor size? others ↔ others = blocks) ∧
    ∀ (c : BufferedCluster) edits (sink : Sink), c.start? = none →
      let edited := (c.edit edits).blocks
      let blocks := Timeline.sort ClusterBlock.timecode edited
      let size := Cluster.contentSize c.metadata edited
      ∃ opened, prepare ⟨c.edit edits, sink⟩ = .ok 0 opened ∧
        (stateOf (write opened)).object.blocks = blocks ∧
        Timeline.Arranges ClusterBlock.timecode edited blocks ∧
        (∀ written s, write opened = .ok written s →
          ∃ stream : Stream, stream.Settled ∧ stream.pos = sink.stream.pos ∧
            s.medium.stream = stream.overlay
              (Cluster.layout size (VarInt.octetLength size) c.metadata blocks)) ∧
        (sink.stream.fixed = false → Writable c.metadata edited →
          ∃ written s, write opened = .ok written s ∧
            Cluster.Lays sink.stream (VarInt.octetLength size) c.metadata blocks written
              s.medium.stream) := by
  refine ⟨fun items c h => ⟨h.blocks_eq, ?_, fun index => ?_, fun block => rfl⟩, ?_, ?_⟩
  · exact Timeline.arranges_iff.mpr h.blocks_eq
  · rw [h.blocks_eq, Timeline.getElem?_sort]
  · intro mode size? source c cursor count state hok
    obtain ⟨blocks, hlists, -⟩ := lists_of_fillWith hok
    exact ⟨blocks, fun others => ⟨fun h => h.unique hlists, fun h => h ▸ hlists⟩⟩
  · intro c edits sink hclosed
    have hstart : (c.edit edits).start? = none := by
      rw [edit_eq]
      exact hclosed
    have hmetadata : (c.edit edits).metadata = c.metadata := by rw [edit_eq]
    refine ⟨_, prepare_eq hstart sink, blocks_write_of_start rfl, Timeline.arranges_sort _ _,
      fun written s hok => ?_, fun hgrow hwritable => ?_⟩
    · rw [← hmetadata]
      exact laid_of_write (c := { c.edit edits with start? := some sink.stream.pos }) rfl hok
    · rw [← hmetadata] at hwritable ⊢
      exact write_ok_of_growing (c := { c.edit edits with start? := some sink.stream.pos }) rfl
        hgrow hwritable

/-- A block of one byte at a timecode. -/
def blockAt (timecode : Int16) (byte : UInt8) : ClusterBlock :=
  .simple { block := { timecode, frames := [[byte]] } }

/-- Blocks are handed over, two of them at one timecode, and the first of all is taken out. -/
def fourPushed : BufferedCluster :=
  ((((make 0).push (blockAt 5 1)).push (blockAt 5 2)).push (blockAt 0 3)).push (blockAt 5 4)
    |>.eraseBlock 0

theorem kept_fourPushed :
    Kept [blockAt 5 1, blockAt 5 2, blockAt 5 4] fourPushed := by
  have hwithout : Timeline.without ClusterBlock.timecode
      [blockAt 5 1, blockAt 5 2, blockAt 0 3, blockAt 5 4] 0 =
        [blockAt 5 1, blockAt 5 2, blockAt 5 4] := by
    rw [Timeline.without, Timeline.place?, ← Timeline.foldl_insert]
    cbv
  exact hwithout ▸ .removed 0 (.pushed _ (.pushed _ (.pushed _ (.pushed _ (.made 0)))))

/-- The blocks that are left are in the order in which they came.  When the first two are moved in
time, the cluster is written with the last one first. -/
theorem fourPushed_in_order :
    fourPushed.blocks = [blockAt 5 1, blockAt 5 2, blockAt 5 4] ∧
      ∃ opened, prepare ⟨fourPushed.edit [(0, fun _ => blockAt 7 1), (1, fun _ => blockAt 7 2)],
          ⟨{}, #[]⟩⟩ = .ok 0 opened ∧
        (stateOf (write opened)).object.blocks = [blockAt 5 4, blockAt 7 1, blockAt 7 2] ∧
        ∃ written s, write opened = .ok written s ∧
          Cluster.Lays {} 1 { timecode := 0 } [blockAt 5 4, blockAt 7 1, blockAt 7 2] written
            s.medium.stream := by
  obtain ⟨hkept, -, hedited⟩ := blocks_in_stable_order
  obtain ⟨hblocks, -, -, -⟩ := hkept _ _ kept_fourPushed
  have hleft : Timeline.sort ClusterBlock.timecode [blockAt 5 1, blockAt 5 2, blockAt 5 4] =
      [blockAt 5 1, blockAt 5 2, blockAt 5 4] := by
    rw [← Timeline.foldl_insert]
    cbv
  have hsort : Timeline.sort ClusterBlock.timecode [blockAt 7 1, blockAt 7 2, blockAt 5 4] =
      [blockAt 5 4, blockAt 7 1, blockAt 7 2] := by
    rw [← Timeline.foldl_insert]
    cbv
  obtain ⟨opened, hprepare, hafter, -, -, hwritten⟩ :=
    hedited fourPushed [(0, fun _ => blockAt 7 1), (1, fun _ => blockAt 7 2)] ⟨{}, #[]⟩ rfl
  have hlist : (fourPushed.edit [(0, fun _ => blockAt 7 1), (1, fun _ => blockAt 7 2)]).blocks =
      [blockAt 7 1, blockAt 7 2, blockAt 5 4] := by cbv
  rw [hlist, hsort] at hafter hwritten
  have hvalid : ∀ b ∈ [blockAt 7 1, blockAt 7 2, blockAt 5 4], b.Valid := by
    intro b hm
    simp only [List.mem_cons, List.not_mem_nil, or_false] at hm
    rcases hm with rfl | rfl | rfl <;> exact ⟨by decide, by decide, by decide⟩
  have hwritable : Writable { timecode := 0 } [blockAt 7 1, blockAt 7 2, blockAt 5 4] :=
    ⟨hvalid, by decide +kernel⟩
  exact ⟨hblocks.trans hleft, opened, hprepare, hafter, hwritten rfl hwritable⟩

end BufferedCluster

end Ebml
