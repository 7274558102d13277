import Ebml.Proofs.Cluster.Extent
import Ebml.Proofs.Cluster.Modes
import Ebml.Proofs.Element.Offsets

/-!
# Offsets in a cluster that was read

A cluster that was read has its own position recorded, and its blocks theirs.  In a group, these are
the positions of the group, of its block and of its additions (`BlockGroup.Recorded`).  Of the
block and of the additions the last one in the group counts, so the positions are those of the last
child with the ID.  The order of the blocks changes when they are sorted, and what each has recorded
stays with it (`offsets_recorded`).
-/

namespace Ebml

variable {source : Source} {pos : Nat}

/-! ## Groups -/

namespace BlockGroup

/-- What a group has recorded is where it and its parts are found again. -/
structure Recorded (source : Source) (g : BlockGroup) : Prop where
  /-- The group is found again. -/
  whole : Element.Refound source g
  /-- So is its block. -/
  block : Element.Refound source g.block
  /-- The block is the last one in the group, and the additions are.  There are none where the
  group has no such child. -/
  children : ∃ bodyStart size length children, bodyStart =
      g.offset + ElementId.blockGroup.size + length ∧
    Reader.Yields VarInt.read source (g.offset + ElementId.blockGroup.size) (size, length)
      bodyStart ∧
      Element.Sequence source bodyStart (bodyStart + size) children ∧
        Element.lastStart .block children = some g.block.offset ∧
          match Element.lastStart .blockAdditions children with
          | none => g.additions = {}
          | some start => g.additions.offset = start ∧ Element.Refound source g.additions

theorem remembers_block : Element.Remembers source .block readChild Draft.block?
    fun pos block? => ∃ block, block? = some block ∧ block.offset = pos ∧
      Element.Refound source block where
  counts := counts_readChild
  item {pos draft next count stop} hid hchild := by
    obtain ⟨_, hok⟩ := hchild #[]
    obtain ⟨⟨block, _⟩, _, hread, hpure⟩ := Reader.bind_eq_ok.mp hok
    cases hpure
    exact ⟨block, rfl, Element.refound_of_read hid
      (Reader.Steady.of_spans (Block.spans_read {}) _ _ _ _ hread)⟩
  other := block_of_readChild

/-- A child that is not additions leaves the additions as they are. -/
theorem additions_of_readChild {draft draft' : Draft} {id : ElementId} {count : Nat}
    {cursor cursor' : Cursor} (hid : id ≠ .blockAdditions)
    (hok : readChild draft id source cursor = .ok (draft', count) cursor') :
    draft'.rest.additions = draft.rest.additions := by
  rw [readChild, if_neg hid] at hok
  repeat
    split at hok
    next =>
      obtain ⟨_, _, _, hpure⟩ := Reader.bind_eq_ok.mp hok
      cases hpure
      rfl
  cases hok

theorem remembers_additions : Element.Remembers source .blockAdditions readChild
    (fun draft => draft.rest.additions)
    fun pos additions => additions.offset = pos ∧ Element.Refound source additions where
  counts := counts_readChild
  item {pos draft next count stop} hid hchild := by
    obtain ⟨_, hok⟩ := hchild #[]
    obtain ⟨⟨additions, _⟩, _, hread, hpure⟩ := Reader.bind_eq_ok.mp hok
    cases hpure
    exact Element.refound_of_read hid
      (Reader.Steady.of_spans (BlockAdditions.spans_read _) _ _ _ _ hread)
  other := additions_of_readChild

/-- A group that was read has everything recorded. -/
theorem recorded_of_read {kind g : BlockGroup} {count stop : Nat}
    (hid : Reader.Yields ElementId.read source pos .blockGroup (pos + ElementId.blockGroup.size))
    (hread : Reader.Yields (Element.read kind) source (pos + ElementId.blockGroup.size) (g, count)
      stop) : g.offset = pos ∧ g.Recorded source := by
  obtain ⟨hoffset, hwhole⟩ := Element.refound_of_read hid hread
  obtain ⟨_, hok⟩ := hread #[]
  obtain ⟨size, length, log, -, hsize, hbody⟩ := Element.of_read hok
  obtain ⟨content, _, hcontent, hpure⟩ := Reader.bind_eq_ok.mp hbody
  obtain ⟨draft, _, hchildren, hdraft⟩ := Reader.bind_eq_ok.mp hcontent
  obtain ⟨htraverses, hstop⟩ := Element.traverses_of_readChildren
    (fun draft id => .of_spans (spans_readChild draft id)) hchildren
  rw [hstop] at htraverses
  obtain ⟨children, hsequence⟩ := Element.sequence_of_traverses counts_readChild htraverses
  have hlast := remembers_block.of_traverses htraverses hsequence
  have hadded := remembers_additions.of_traverses htraverses hsequence
  refine ⟨hoffset, ?_⟩
  -- without a block there would be no group
  cases hstart : Element.lastStart .block children with
  | none =>
      rw [hstart] at hlast
      rw [hlast] at hdraft
      cases hdraft
  | some start =>
      rw [hstart] at hlast
      obtain ⟨block, hblock, rfl, hfound⟩ := hlast
      rw [hblock] at hdraft
      cases hdraft
      cases hpure
      rw [← hoffset] at hsize hsequence
      exact ⟨hwhole, hfound, _, size, length, children, rfl, hsize, hsequence, hstart, hadded⟩

end BlockGroup

/-! ## Blocks of a cluster -/

namespace ClusterBlock

/-- What a block of a cluster has recorded is where it and its parts are found again. -/
def Recorded (source : Source) : ClusterBlock → Prop
  | simple b => Element.Refound source b
  | group g => g.Recorded source

/-- A block of a cluster is read as one of its kind. -/
theorem of_wrapped {ε : Type} [Element ε] (wrap : ε → ClusterBlock)
    (hid : ∀ e, Element.id (wrap e) = Element.id e)
    (hoffset : ∀ e offset, Element.setOffset (wrap e) offset = wrap (Element.setOffset e offset))
    (hbody : ∀ e size, Element.readBody (wrap e) size = wrap <$> Element.readBody e size)
    {kind : ε} {b : ClusterBlock} {count : Nat} {cursor cursor' : Cursor}
    (hok : Element.read (wrap kind) source cursor = .ok (b, count) cursor') :
    ∃ e, b = wrap e ∧ Element.read kind source cursor = .ok (e, count) cursor' := by
  obtain ⟨_, _, hlocate, hok⟩ := Reader.bind_eq_ok.mp hok
  cases hlocate
  obtain ⟨⟨size, length⟩, between, hsize, hok⟩ := Reader.bind_eq_ok.mp hok
  obtain ⟨_, _, hread, hpure⟩ := Reader.bind_eq_ok.mp hok
  cases hpure
  rw [hoffset, hid, hbody] at hread
  obtain ⟨e, helement, rfl⟩ := Reader.map_eq_ok.mp hread
  exact ⟨e, rfl, Reader.bind_eq_ok.mpr ⟨_, cursor, rfl,
    Reader.bind_eq_ok.mpr ⟨_, _, hsize, Reader.bind_eq_ok.mpr ⟨_, _, helement, rfl⟩⟩⟩⟩

/-- A block that was read has everything recorded. -/
theorem recorded_of_read {id : ElementId} {kind b : ClusterBlock} {count stop : Nat}
    (hkind : ofId? id = some kind)
    (hid : Reader.Yields ElementId.read source pos id (pos + id.size))
    (hread : Reader.Yields (Element.read kind) source (pos + id.size) (b, count) stop) :
    b.Recorded source := by
  have hkindId := id_of_ofId? hkind
  subst hkindId
  obtain ⟨_, hok⟩ := hread #[]
  cases kind with
  | simple kind =>
      obtain ⟨e, rfl, helement⟩ :=
        of_wrapped simple (fun _ => rfl) (fun _ _ => rfl) (fun _ _ => rfl) hok
      have hspans := Element.spans_read (fun b _ hsize => SimpleBlock.spans_readBody b hsize) kind
      have hread := Reader.Steady.of_spans hspans _ _ _ _ helement
      have hid : Reader.Yields ElementId.read source pos (Element.id kind)
        (pos + (Element.id kind).size) := hid
      exact (Element.refound_of_read hid hread).2
  | group kind =>
      obtain ⟨g, rfl, helement⟩ :=
        of_wrapped group (fun _ => rfl) (fun _ _ => rfl) (fun _ _ => rfl) hok
      have hspans := Element.spans_read (fun g size _ => BlockGroup.spans_readBody g size) kind
      exact (BlockGroup.recorded_of_read hid (Reader.Steady.of_spans hspans _ _ _ _ helement)).2

end ClusterBlock

/-! ## Clusters -/

variable {mode : ParsingMode}

/-- All blocks of a region have everything recorded. -/
theorem BufferedCluster.recorded_of_traverses {stop : Nat} {blocks blocks' : List ClusterBlock}
    (h : Element.Traverses (readChild mode) source pos blocks stop blocks')
    (hblocks : ∀ b ∈ blocks, b.Recorded source) : ∀ b ∈ blocks', b.Recorded source := by
  induction h with
  | nil => exact hblocks
  | @cons pos stop count blocks next blocks' id hid hchild _ ih =>
      apply ih
      obtain ⟨_, hok⟩ := hchild #[]
      have hfound := eq_of_readChild hok
      split at hfound
      next kind hkind =>
        obtain ⟨block, rfl, hread⟩ := hfound
        intro b hm
        rcases List.mem_append.mp hm with hbefore | hblock
        · exact hblocks b hbefore
        · cases List.mem_singleton.mp hblock
          exact ClusterBlock.recorded_of_read hkind hid hread
      next => exact hfound.1 ▸ hblocks

/-- The blocks of a region, as a streaming cluster gives them, are at the offsets in its index. -/
theorem gives_at_offsets {located : List (IndexEntry × ClusterBlock)}
    (hlocated : ∀ p ∈ located, Located source p.1 p.2) :
    ∃ loaded,
      BlockIterator.Gives source
          ⟨Timeline.sort IndexEntry.timecode (located.map Prod.fst)⟩ loaded ∧
        loaded.map Element.offset =
            (Timeline.sort IndexEntry.timecode (located.map Prod.fst)).map IndexEntry.offset ∧
          loaded.Perm (located.map Prod.snd) := by
  have hmem : ∀ p ∈ Timeline.sort (fun p => p.1.timecode) located, Located source p.1 p.2 :=
    fun p hm => hlocated p ((Timeline.perm_sort _ _).mem_iff.mp hm)
  rw [Timeline.sort_map]
  refine ⟨_, BlockIterator.gives_of_loads fun p hm => (hmem p hm).loads, ?_,
    (Timeline.perm_sort _ _).map _⟩
  rw [List.map_map, List.map_map]
  exact List.map_congr_left fun p hm => (hmem p hm).offset_eq

/-- What is read in one mode is read alike in the most lenient one. -/
theorem Cluster.relaxed_of_ok {κ : Type} [Cluster κ] [GradedCluster κ] [LawfulCluster κ]
    {count : Nat} {state state' : Held κ Cursor}
    (hok : (Cluster.read mode : Filling κ Nat) source state = .ok count state') :
    (Cluster.read .relaxed : Filling κ Nat) source state = .ok count state' := by
  have hbest : (Cluster.read .bestAttempt : Filling κ Nat) source state = .ok count state' →
      (Cluster.read .relaxed : Filling κ Nat) source state = .ok count state' := by
    intro hok
    obtain ⟨events, -, hstern⟩ := Cluster.sterner_read source state
    split at hstern
    next => exact hstern.symm.trans hok
    next =>
      obtain ⟨_, _, _, herror⟩ := hstern
      rw [hok] at herror
      cases herror
  cases mode with
  | relaxed => exact hok
  | bestAttempt => exact hbest hok
  | strict =>
      have hstrict := Cluster.strict_read source state
      split at hstrict
      next => exact hbest (hstrict.symm.trans hok)
      next =>
        obtain ⟨_, herror⟩ := hstrict
        rw [hok] at herror
        cases herror

/-- A cluster that was read into memory has recorded where its ID is.  Each of its blocks has
recorded where it is, and a group where its block and its additions are.  A streaming cluster that
is read there gives the same blocks, each at the offset of its entry. -/
theorem offsets_recorded {c c' : BufferedCluster} {start count : Nat} {log : Log}
    {cursor' : Cursor}
    (hok : (Cluster.read mode : Filling BufferedCluster Nat) source
      ⟨c, ⟨start + ElementId.cluster.size, log⟩⟩ = .ok count ⟨c', cursor'⟩) :
    c'.metadata.offset = start ∧ (∀ b ∈ c'.blocks, b.Recorded source) ∧
      ∀ (mode : ParsingMode) (s s' : StreamingCluster) (count : Nat) (log : Log) (cursor' : Cursor),
        (Cluster.read mode : Filling StreamingCluster Nat) source
            ⟨s, ⟨start + ElementId.cluster.size, log⟩⟩ = .ok count ⟨s', cursor'⟩ →
          s'.metadata.offset = start ∧ ∃ loaded, BlockIterator.Gives source s'.blocks loaded ∧
            loaded.map Element.offset = s'.index.map IndexEntry.offset ∧
              loaded.Perm c'.blocks := by
  obtain ⟨opening, after, hopening, hblocks, rfl⟩ :=
    Cluster.read_eq_ok.mp (Cluster.relaxed_of_ok hok)
  obtain ⟨_, _, _, _, _, _, hoffset, _⟩ := Cluster.of_readOpening hopening
  rw [Nat.add_sub_cancel] at hoffset
  obtain ⟨-, -, blocks, htraverses, rfl⟩ := BufferedCluster.of_readBlocks hblocks
  refine ⟨hoffset, fun b hm => ?_, fun mode s s' count log' cursor' hstreaming => ?_⟩
  · exact BufferedCluster.recorded_of_traverses htraverses (fun b hm => absurd hm (by simp)) b
      ((Timeline.perm_sort _ _).mem_iff.mp hm)
  · obtain ⟨opening', after', hopening', hindex, rfl⟩ :=
      Cluster.read_eq_ok.mp (Cluster.relaxed_of_ok hstreaming)
    obtain ⟨rfl, hpos⟩ := (Cluster.steady_readOpening _ _ _ _ _ hopening).unique hopening'
    obtain ⟨-, -, index, htraverses', rfl⟩ := StreamingCluster.of_readBlocks hindex
    rw [hpos] at htraverses'
    obtain ⟨located, rfl, rfl, hlocated, _⟩ := located_of_traverses htraverses htraverses'
    obtain ⟨loaded, hgives, hoffsets, hperm⟩ := gives_at_offsets fun p hm => (hlocated p hm).2
    exact ⟨hoffset, loaded, hgives, hoffsets, hperm.trans (Timeline.perm_sort _ _).symm⟩

/-- A cluster of a group, padding and a simple block.  The group has two blocks, with empty
additions before and others behind them. -/
def layered : Source where
  bytes := [0x1f, 0x43, 0xb6, 0x75, 0xab, 0xe7, 0x81, 0x00,
    0xa0, 0x9c, 0x75, 0xa1, 0x80, 0xa1, 0x85, 0x81, 0x00, 0x0a, 0x00, 0xaa,
    0xa1, 0x85, 0x81, 0x00, 0x00, 0x00, 0xbb,
    0x75, 0xa1, 0x88, 0xa6, 0x86, 0xee, 0x81, 0x01, 0xa5, 0x81, 0xcc,
    0xec, 0x81, 0x00, 0xa3, 0x85, 0x81, 0x00, 0x05, 0x00, 0xdd]
  limit := 100

/-- Both kinds of cluster are read, and all that the group has recorded leads back. -/
theorem layered_offsets_recorded :
    ∃ count b s cursor cursor',
      (Cluster.read .strict : Filling BufferedCluster Nat) layered
          ⟨{}, ⟨0 + ElementId.cluster.size, #[]⟩⟩ = .ok count ⟨b, cursor⟩ ∧
        (Cluster.read .strict : Filling StreamingCluster Nat) layered
            ⟨{}, ⟨0 + ElementId.cluster.size, #[]⟩⟩ = .ok count ⟨s, cursor'⟩ ∧
          b.metadata.offset = 0 ∧ (∀ block ∈ b.blocks, block.Recorded layered) ∧
            ∃ loaded, BlockIterator.Gives layered s.blocks loaded ∧
              loaded.map Element.offset = s.index.map IndexEntry.offset ∧
                loaded.Perm b.blocks := by
  have hbuffered : resultOf? ((Cluster.read .strict : Filling BufferedCluster Nat) layered
      ⟨{}, ⟨0 + ElementId.cluster.size, #[]⟩⟩) = some 44 := by decide +kernel
  have hstreaming : resultOf? ((Cluster.read .strict : Filling StreamingCluster Nat) layered
      ⟨{}, ⟨0 + ElementId.cluster.size, #[]⟩⟩) = some 44 := by decide +kernel
  obtain ⟨⟨b, cursor⟩, hbuffered⟩ := of_resultOf? hbuffered
  obtain ⟨⟨s, cursor'⟩, hstreaming⟩ := of_resultOf? hstreaming
  obtain ⟨hoffset, hrecorded, hgives⟩ := offsets_recorded hbuffered
  obtain ⟨-, loaded, hgives⟩ := hgives .strict {} s 44 #[] cursor' hstreaming
  exact ⟨44, b, s, cursor, cursor', hbuffered, hstreaming, hoffset, hrecorded, loaded, hgives⟩

end Ebml
