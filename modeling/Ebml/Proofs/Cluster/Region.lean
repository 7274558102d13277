import Ebml.Cluster.Buffered
import Ebml.Cluster.Iteration
import Ebml.Proofs.Cluster.Timecode

/-!
# The region of blocks

Both kinds of cluster go through the same region.  A buffered cluster reads the blocks there, a
streaming one locates them.  What the two make of a region is told by one list of entries along
with the blocks that they stand for, in the order of the stream: of a region that was written
(`located_of_holds`), and of any region that both got through (`located_of_traverses`).
-/

namespace Ebml

variable {source : Source} {pos : Nat} {mode : ParsingMode}

/-- The block can be read by its entry, from wherever the reader is. -/
def IndexEntry.Loads (source : Source) (entry : IndexEntry) (block : ClusterBlock) : Prop :=
  ∃ after, ∀ pos, Reader.Yields entry.load source pos block after

theorem IndexEntry.loads_of_read {id : ElementId} {kind block : ClusterBlock} {timecode : Int16}
    {count after : Nat} (hkind : ClusterBlock.ofId? id = some kind)
    (h : Reader.Yields (Element.read kind) source (pos + id.size) (block, count) after) :
    IndexEntry.Loads source { offset := pos, id, timecode } block := by
  refine ⟨after, fun here => ?_⟩
  rw [IndexEntry.load, hkind]
  exact (Reader.Yields.seek _).bind (h.map rfl)

/-! ## What is not a block -/

theorem Cluster.spans_skipNonBlock (mode : ParsingMode) (id : ElementId) :
    Reader.Spans (Cluster.skipNonBlock mode id) fun count n => n = count := by
  have hskip : ∀ event, Reader.Spans (do Reader.note event; Element.skipRest)
      fun count n => n = count := fun event =>
    (Reader.Spans.note event).bind fun _ n hn => by
      subst hn
      exact Element.spans_skipRest.mono fun _ _ h => (Nat.zero_add _).trans h
  rw [Cluster.skipNonBlock]
  split
  next => exact hskip _
  next =>
    split
    next => exact Reader.Spans.throw_bind
    next => exact hskip _

theorem Cluster.advances_skipNonBlock (mode : ParsingMode) (id : ElementId) :
    Reader.Advances (Cluster.skipNonBlock mode id) fun count => count :=
  .of_spans (Cluster.spans_skipNonBlock mode id)

/-! ## Locating blocks -/

namespace StreamingCluster

theorem steady_locate (id : ElementId) : Reader.Steady (locate id) := by
  refine (Reader.Steady.of_spans Reader.Spans.position).bind fun bodyStart => ?_
  refine (Reader.Steady.of_spans VarInt.spans_read).bind fun ⟨size, sizeLength⟩ => ?_
  refine Reader.Steady.streamLength.bind fun streamLength => ?_
  have hpeek := Reader.Steady.of_spans (ClusterBlock.spans_peekTimecode id size)
  have hrest := hpeek.bind fun timecode =>
    (Reader.Steady.seek (bodyStart + sizeLength + size)).bind fun _ => Reader.Steady.pure
      (({ offset := bodyStart - id.size, id, timecode }, sizeLength + size) : IndexEntry × Nat)
  dsimp only
  split
  next =>
    exact (Reader.Steady.of_spans (Reader.Spans.note _)).bind fun _ =>
      Reader.Steady.throw.bind fun _ => hrest
  next => exact hrest

/-- What a block that was located says of the stream. -/
theorem eq_of_locate {id : ElementId} {entry : IndexEntry} {count : Nat} {cursor cursor' : Cursor}
    (hok : locate id source cursor = .ok (entry, count) cursor') :
    ∃ size length log after, count = length + size ∧ cursor'.pos = cursor.pos + count ∧
      entry = { offset := cursor.pos - id.size, id, timecode := entry.timecode } ∧
        Reader.Yields VarInt.read source cursor.pos (size, length) (cursor.pos + length) ∧
          ClusterBlock.peekTimecode id size source ⟨cursor.pos + length, log⟩ =
            .ok entry.timecode after := by
  obtain ⟨_, _, hposition, hok⟩ := Reader.bind_eq_ok.mp hok
  cases hposition
  obtain ⟨⟨size, length⟩, ⟨pos₁, log⟩, hread, hok⟩ := Reader.bind_eq_ok.mp hok
  obtain ⟨hpos, hsize⟩ := VarInt.of_read hread
  obtain ⟨_, _, hstream, hok⟩ := Reader.bind_eq_ok.mp hok
  cases hstream
  dsimp only at hok
  split at hok
  next =>
    obtain ⟨_, _, _, hok⟩ := Reader.bind_eq_ok.mp hok
    obtain ⟨_, _, hthrow, _⟩ := Reader.bind_eq_ok.mp hok
    cases hthrow
  next =>
    obtain ⟨timecode, after, hpeek, hok⟩ := Reader.bind_eq_ok.mp hok
    obtain ⟨_, _, hseek, hok⟩ := Reader.bind_eq_ok.mp hok
    cases hseek
    cases hok
    dsimp only at hpos
    subst hpos
    exact ⟨size, length, log, after, rfl, Nat.add_assoc _ _ _, rfl, hsize, hpeek⟩

theorem advances_locate (id : ElementId) : Reader.Advances (locate id) Prod.snd := by
  intro source cursor ⟨entry, count⟩ cursor' hok
  obtain ⟨_, _, _, _, _, hpos, _⟩ := eq_of_locate hok
  have hyields := steady_locate id source cursor _ cursor' hok
  rw [hpos] at hyields
  exact ⟨hpos, hyields⟩

theorem advances_readChild (mode : ParsingMode) (index : List IndexEntry) (id : ElementId) :
    Reader.Advances (readChild mode index id) Prod.snd := by
  intro source cursor ⟨index', count⟩ cursor' hok
  rw [readChild] at hok ⊢
  split at hok
  next hblock =>
    obtain ⟨⟨entry, _⟩, _, hlocate, hpure⟩ := Reader.bind_eq_ok.mp hok
    cases hpure
    obtain ⟨hpos, hyields⟩ := advances_locate id _ _ _ _ hlocate
    rw [if_pos hblock]
    exact ⟨hpos, hyields.map rfl⟩
  next hblock =>
    obtain ⟨_, _, hskip, hpure⟩ := Reader.bind_eq_ok.mp hok
    cases hpure
    obtain ⟨hpos, hyields⟩ := Cluster.advances_skipNonBlock mode id _ _ _ _ hskip
    rw [if_neg hblock]
    exact ⟨hpos, hyields.map rfl⟩

/-- A block that was written is located. -/
theorem yields_locate {b : ClusterBlock} (hvalid : b.Valid)
    (hbound : Element.bodySize b < Element.sizeBound)
    (h : source.Holds pos (Element.encoding b)) :
    Reader.Yields (locate (Element.id b)) source (pos + (Element.id b).size)
      ({ offset := pos, id := Element.id b, timecode := b.timecode },
        VarInt.octetLength (Element.bodySize b) + Element.bodySize b)
      (pos + (Element.id b).size +
        (VarInt.octetLength (Element.bodySize b) + Element.bodySize b)) := by
  obtain ⟨_, hsize, hbody⟩ := Element.holds_parts h
  obtain ⟨after, hpeek⟩ := ClusterBlock.yields_peekTimecode hvalid hbound hbody
  have hread := VarInt.yields_read_minimal (Element.le_max_of_lt hbound) hsize
  have hend := h.end_le (by
    intro h0
    exact (Element.id b).encode_ne_nil (List.append_eq_nil_iff.mp h0).1)
  rw [Element.length_encoding, Element.Encoded.totalSize_eq] at hend
  refine Reader.Yields.position.bind (hread.bind (Reader.Yields.streamLength.bind ?_))
  rw [if_neg (by omega)]
  refine hpeek.bind ((Reader.Yields.seek _).bind ?_)
  rw [Nat.add_sub_cancel, ← Nat.add_assoc (pos + (Element.id b).size)]
  exact Reader.Yields.pure _

theorem yields_readChild (mode : ParsingMode) {id : ElementId} {kind : ClusterBlock}
    {entry : IndexEntry} {count stop : Nat} (hkind : ClusterBlock.ofId? id = some kind)
    (h : Reader.Yields (locate id) source pos (entry, count) stop) (index : List IndexEntry) :
    Reader.Yields (readChild mode index id) source pos (index ++ [entry], count) stop := by
  rw [readChild, if_pos (by rw [hkind]; rfl)]
  exact h.map rfl

end StreamingCluster

namespace BufferedCluster

theorem spans_readChild (mode : ParsingMode) (blocks : List ClusterBlock) (id : ElementId) :
    Reader.Spans (readChild mode blocks id) fun result n => n = result.2 := by
  rw [readChild]
  split
  next => exact (ClusterBlock.spans_read _).bind fun _ _ h => Reader.Spans.pure h
  next => exact (Cluster.spans_skipNonBlock mode id).bind fun _ _ h => Reader.Spans.pure h

theorem yields_readChild (mode : ParsingMode) {id : ElementId} {kind block : ClusterBlock}
    {count stop : Nat} (hkind : ClusterBlock.ofId? id = some kind)
    (h : Reader.Yields (Element.read kind) source pos (block, count) stop)
    (blocks : List ClusterBlock) :
    Reader.Yields (readChild mode blocks id) source pos (blocks ++ [block], count) stop := by
  rw [readChild, hkind]
  exact h.map rfl

end BufferedCluster

/-! ## A region that was written -/

/-- A reader with the limit of the stream can read what is written of the block. -/
structure ClusterBlock.Readable (source : Source) (b : ClusterBlock) : Prop where
  /-- The block can be written. -/
  valid : b.Valid
  /-- Its sizes can be stored. -/
  bounded : Element.bodySize b < Element.sizeBound
  /-- None of its parts is too large for the limit. -/
  affordable : ∀ payload ∈ b.payloads, payload.length ≤ source.limit

/-- Both readers get through blocks that were written, and find what they hold. -/
theorem located_of_holds (mode : ParsingMode) :
    ∀ {blocks : List ClusterBlock} {pos : Nat}, (∀ b ∈ blocks, b.Readable source) →
      source.Holds pos (blocks.flatMap Element.encoding) →
      ∃ located : List (IndexEntry × ClusterBlock),
        (located.map Prod.snd == blocks) = true ∧
          (∀ p ∈ located, p.1.timecode = p.2.timecode ∧ p.1.Loads source p.2) ∧
            (∀ before, Element.Traverses (BufferedCluster.readChild mode) source pos before
              (pos + (blocks.flatMap Element.encoding).length) (before ++ located.map Prod.snd)) ∧
              ∀ before, Element.Traverses (StreamingCluster.readChild mode) source pos before
                (pos + (blocks.flatMap Element.encoding).length) (before ++ located.map Prod.fst)
  | [], _, _, _ => by
      refine ⟨[], rfl, by simp, fun before => ?_, fun before => ?_⟩
      · rw [List.map_nil, List.append_nil]
        exact .nil
      · rw [List.map_nil, List.append_nil]
        exact .nil
  | b :: blocks, pos, hreadable, h => by
      rw [List.flatMap_cons] at h ⊢
      obtain ⟨hvalid, hbounded, haffordable⟩ := hreadable b (List.mem_cons_self ..)
      obtain ⟨located, hsame, hlocated, hread, hindex⟩ := located_of_holds mode
        (fun other hm => hreadable other (List.mem_cons_of_mem _ hm)) h.right
      obtain ⟨kind, b', hkind, hbeq, hb⟩ :=
        ClusterBlock.yields_read hvalid hbounded haffordable h.left
      have hentry := StreamingCluster.yields_locate hvalid hbounded h.left
      have hid := (Element.holds_parts h.left).1
      have hlength : pos + (Element.encoding b).length = pos + (Element.id b).size +
          (VarInt.octetLength (Element.bodySize b) + Element.bodySize b) := by
        rw [Element.length_encoding, Element.Encoded.totalSize_eq]
        omega
      rw [hlength] at hread hindex
      rw [List.length_append, ← Nat.add_assoc, hlength]
      refine ⟨({ offset := pos, id := Element.id b, timecode := b.timecode }, b') :: located,
        ?_, ?_, fun before => ?_, fun before => ?_⟩
      · show (b' == b && located.map Prod.snd == blocks) = true
        rw [hbeq, hsame]
        rfl
      · intro p hm
        rcases List.mem_cons.mp hm with rfl | hm
        · exact ⟨(ClusterBlock.timecode_of_beq hbeq).symm, IndexEntry.loads_of_read hkind hb⟩
        · exact hlocated p hm
      · have hchild := BufferedCluster.yields_readChild mode hkind hb before
        have hrest := hread (before ++ [b'])
        rw [List.append_assoc, List.singleton_append] at hrest
        exact (Element.Traverses.child hid hchild).append hrest
      · have hchild := StreamingCluster.yields_readChild mode hkind hentry before
        have hrest := hindex (before ++
          [{ offset := pos, id := Element.id b, timecode := b.timecode }])
        rw [List.append_assoc, List.singleton_append] at hrest
        exact (Element.Traverses.child hid hchild).append hrest

/-! ## A region that both readers got through -/

/-- The entry and the block are of one place in the stream, and have the first and the last timecode
that is to be found there. -/
structure Located (source : Source) (entry : IndexEntry) (block : ClusterBlock) : Prop where
  /-- The block can be read by its entry. -/
  loads : entry.Loads source block
  /-- They are of one kind. -/
  id_eq : Element.id block = entry.id
  /-- They are at one place. -/
  offset_eq : Element.offset block = entry.offset
  /-- The entry has the first timecode and the block the last. -/
  tells : ∃ size length,
    Reader.Yields VarInt.read source (entry.offset + entry.id.size) (size, length)
      (entry.offset + entry.id.size + length) ∧
        ClusterBlock.Tells source (entry.offset + entry.id.size + length) size entry.id
          entry.timecode block.timecode

theorem BufferedCluster.eq_of_readChild {blocks next : List ClusterBlock} {id : ElementId}
    {count : Nat} {cursor cursor' : Cursor}
    (hok : readChild mode blocks id source cursor = .ok (next, count) cursor') :
    match ClusterBlock.ofId? id with
    | some kind => ∃ block, next = blocks ++ [block] ∧
        Reader.Yields (Element.read kind) source cursor.pos (block, count) (cursor.pos + count)
    | none => next = blocks ∧
        Reader.Yields (Cluster.skipNonBlock mode id) source cursor.pos count
          (cursor.pos + count) := by
  rw [readChild] at hok
  split
  next kind hkind =>
    rw [hkind] at hok
    obtain ⟨⟨block, _⟩, _, hread, hpure⟩ := Reader.bind_eq_ok.mp hok
    cases hpure
    exact ⟨block, rfl, (Reader.Advances.of_spans (ClusterBlock.spans_read kind) _ _ _ _ hread).2⟩
  next hkind =>
    rw [hkind] at hok
    obtain ⟨_, _, hskip, hpure⟩ := Reader.bind_eq_ok.mp hok
    cases hpure
    exact ⟨rfl, (Cluster.advances_skipNonBlock mode id _ _ _ _ hskip).2⟩

theorem StreamingCluster.eq_of_readChild {index next : List IndexEntry} {id : ElementId}
    {count : Nat} {cursor cursor' : Cursor}
    (hok : readChild mode index id source cursor = .ok (next, count) cursor') :
    match ClusterBlock.ofId? id with
    | some _ => ∃ entry, next = index ++ [entry] ∧
        Reader.Yields (locate id) source cursor.pos (entry, count) (cursor.pos + count)
    | none => next = index ∧
        Reader.Yields (Cluster.skipNonBlock mode id) source cursor.pos count
          (cursor.pos + count) := by
  rw [readChild] at hok
  split
  next kind hkind =>
    rw [if_pos (by rw [hkind]; rfl)] at hok
    obtain ⟨⟨entry, _⟩, _, hlocate, hpure⟩ := Reader.bind_eq_ok.mp hok
    cases hpure
    exact ⟨entry, rfl, (advances_locate id _ _ _ _ hlocate).2⟩
  next hkind =>
    rw [if_neg (by rw [hkind]; exact Bool.false_ne_true)] at hok
    obtain ⟨_, _, hskip, hpure⟩ := Reader.bind_eq_ok.mp hok
    cases hpure
    exact ⟨rfl, (Cluster.advances_skipNonBlock mode id _ _ _ _ hskip).2⟩

/-- A block that one reader read and the other located. -/
theorem located_of_read {id : ElementId} {kind block : ClusterBlock} {entry : IndexEntry}
    {count count' : Nat} (hkind : ClusterBlock.ofId? id = some kind)
    (hread : Reader.Yields (Element.read kind) source (pos + id.size) (block, count)
      (pos + id.size + count))
    (hlocate : Reader.Yields (StreamingCluster.locate id) source (pos + id.size) (entry, count')
      (pos + id.size + count')) :
    count' = count ∧ entry.offset = pos ∧ Located source entry block := by
  obtain ⟨_, hread'⟩ := hread #[]
  obtain ⟨_, hlocate'⟩ := hlocate #[]
  obtain ⟨size, length, first, rfl, hsize, htells⟩ := ClusterBlock.tells_of_read hkind hread'
  obtain ⟨size', length', _, _, rfl, _, hentry, hsize', hpeek⟩ :=
    StreamingCluster.eq_of_locate hlocate'
  obtain ⟨hid, hoffset⟩ := ClusterBlock.offset_of_read hread'
  obtain ⟨hsame, _⟩ := hsize.agree hsize'
  cases hsame
  have htimecode := htells.first hpeek
  have hkindId := ClusterBlock.id_of_ofId? hkind
  rw [hkindId] at hid hoffset
  simp only [Nat.add_sub_cancel] at hentry hoffset
  obtain ⟨offset, entryId, timecode⟩ := entry
  cases hentry
  refine ⟨rfl, rfl, IndexEntry.loads_of_read hkind hread, hid, hoffset, size, length, hsize, ?_⟩
  rw [htimecode]
  exact htells

/-- Both readers go from block to block, whatever lies between them. -/
theorem located_of_traverses {stop : Nat} {blocks blocks' : List ClusterBlock}
    {index index' : List IndexEntry}
    (hread : Element.Traverses (BufferedCluster.readChild mode) source pos blocks stop blocks')
    (hindex : Element.Traverses (StreamingCluster.readChild mode) source pos index stop index') :
    ∃ located : List (IndexEntry × ClusterBlock),
      blocks' = blocks ++ located.map Prod.snd ∧ index' = index ++ located.map Prod.fst ∧
        (∀ p ∈ located, pos ≤ p.1.offset ∧ Located source p.1 p.2) ∧
          located.Pairwise fun p q => p.1.offset < q.1.offset := by
  induction hread generalizing index with
  | @nil pos blocks =>
      cases hindex with
      | nil => exact ⟨[], by simp, by simp, by simp, .nil⟩
      | @cons _ _ count' _ _ _ id _ _ hrest =>
          have hle := hrest.le
          have hsize := id.size_pos
          omega
  | @cons pos stop count blocks next blocks' id hid hchild hrest ih =>
      cases hindex with
      | nil =>
          have hle := hrest.le
          have hsize := id.size_pos
          omega
      | @cons _ _ count' _ next' _ id' hid' hchild' hrest' =>
          obtain ⟨rfl, _⟩ := hid.agree hid'
          have hsize := id'.size_pos
          obtain ⟨_, hok⟩ := hchild #[]
          obtain ⟨_, hok'⟩ := hchild' #[]
          have hbuffered := BufferedCluster.eq_of_readChild hok
          have hstreaming := StreamingCluster.eq_of_readChild hok'
          cases hkind : ClusterBlock.ofId? id' with
          | some kind =>
              rw [hkind] at hbuffered hstreaming
              obtain ⟨block, rfl, hblock⟩ := hbuffered
              obtain ⟨entry, rfl, hentry⟩ := hstreaming
              obtain ⟨rfl, hoffset, hlocated⟩ := located_of_read hkind hblock hentry
              obtain ⟨located, rfl, rfl, hall, horder⟩ := ih hrest'
              refine ⟨(entry, block) :: located, by simp, by simp, fun p hm => ?_, ?_⟩
              · rcases List.mem_cons.mp hm with rfl | hm
                · exact ⟨Nat.le_of_eq hoffset.symm, hlocated⟩
                · obtain ⟨hle, hp⟩ := hall p hm
                  exact ⟨by omega, hp⟩
              · refine List.pairwise_cons.mpr ⟨fun p hm => ?_, horder⟩
                have hle := (hall p hm).1
                show entry.offset < p.1.offset
                omega
          | none =>
              rw [hkind] at hbuffered hstreaming
              obtain ⟨rfl, hskip⟩ := hbuffered
              obtain ⟨rfl, hskip'⟩ := hstreaming
              obtain ⟨rfl, _⟩ := hskip.agree hskip'
              obtain ⟨located, rfl, rfl, hall, horder⟩ := ih hrest'
              exact ⟨located, rfl, rfl,
                fun p hm => ⟨by have hle := (hall p hm).1; omega, (hall p hm).2⟩, horder⟩

end Ebml
