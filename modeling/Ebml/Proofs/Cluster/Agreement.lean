import Ebml.Proofs.Cluster.Reading

/-!
# Where both readers agree

Both kinds of cluster read the same metadata and come to the same position, and both have the same
blocks.  They may still have them in another order: the one sorts a group by the timecode of its
last block, the other by that of its first.  The order is the same exactly if these timecodes
compare alike for every two blocks of the cluster (`Concordant`), as they do if no group repeats
its block with another timecode.
-/

namespace Ebml

variable {source : Source} {mode : ParsingMode}

/-- Where one block comes before another in the stream, their first timecodes compare as their last
ones do. -/
def Concordant (located : List (IndexEntry × ClusterBlock)) : Prop :=
  located.Pairwise fun p q => p.1.timecode ≤ q.1.timecode ↔ p.2.timecode ≤ q.2.timecode

/-- No two blocks are at one place. -/
theorem eq_of_offset_eq {located : List (IndexEntry × ClusterBlock)}
    (horder : located.Pairwise fun p q => p.1.offset < q.1.offset) :
    ∀ p ∈ located, ∀ q ∈ located, p.1.offset = q.1.offset → p = q := by
  have hlt : located.Pairwise fun p q => p.1.offset = q.1.offset → p = q :=
    horder.imp fun hlt heq => absurd heq (Nat.ne_of_lt hlt)
  have hgt : located.Pairwise (flip fun p q => p.1.offset = q.1.offset → p = q) :=
    horder.imp fun hlt heq => absurd heq (Nat.ne_of_gt hlt)
  exact fun p hp q hq => hlt.forall_of_forall_of_flip (fun _ _ _ => rfl) hgt hp hq

/-- The blocks of a region are in one order only if they are with their entries. -/
theorem eq_of_map_snd_eq {located : List (IndexEntry × ClusterBlock)}
    (hall : ∀ p ∈ located, Element.offset p.2 = p.1.offset)
    (horder : located.Pairwise fun p q => p.1.offset < q.1.offset) :
    ∀ {items items' : List (IndexEntry × ClusterBlock)}, (∀ p ∈ items, p ∈ located) →
      (∀ p ∈ items', p ∈ located) → items.map Prod.snd = items'.map Prod.snd → items = items'
  | [], [], _, _, _ => rfl
  | [], _ :: _, _, _, h => by cases h
  | _ :: _, [], _, _, h => by cases h
  | p :: items, q :: items', hitems, hitems', h => by
      have hp := hitems p (List.mem_cons_self ..)
      have hq := hitems' q (List.mem_cons_self ..)
      rw [List.map_cons, List.map_cons, List.cons.injEq] at h
      have hoffset : p.1.offset = q.1.offset := by
        rw [← hall p hp, ← hall q hq, h.1]
      have hrest := eq_of_map_snd_eq hall horder
        (fun r hm => hitems r (List.mem_cons_of_mem _ hm))
        (fun r hm => hitems' r (List.mem_cons_of_mem _ hm)) h.2
      rw [eq_of_offset_eq horder p hp q hq hoffset, hrest]

/-- The two orders of the blocks are one if and only if the timecodes are concordant. -/
theorem sort_eq_sort_iff_concordant {located : List (IndexEntry × ClusterBlock)}
    (hall : ∀ p ∈ located, Element.offset p.2 = p.1.offset)
    (horder : located.Pairwise fun p q => p.1.offset < q.1.offset) :
    (Timeline.sort (fun p => p.1.timecode) located).map Prod.snd =
        (Timeline.sort (fun p => p.2.timecode) located).map Prod.snd ↔ Concordant located := by
  rw [Concordant, ← Timeline.sort_eq_sort_iff]
  constructor
  · intro h
    exact eq_of_map_snd_eq hall horder
      (fun p hm => (Timeline.perm_sort _ _).mem_iff.mp hm)
      (fun p hm => (Timeline.perm_sort _ _).mem_iff.mp hm) h
  · intro h
    rw [h]

/-- If both kinds of cluster are read from one position, they count as many bytes, come to one
position and have the same metadata.  Both have the blocks of the stream, of which each is found
where its entry says.  The buffered cluster has them in the order of their last timecodes, and the
streaming one gives them, without a failure, in the order of their first ones.  These are the same
blocks in the same order exactly if the timecodes are concordant. -/
theorem readers_agree_iff_concordant {buffered buffered' : BufferedCluster}
    {streaming streaming' : StreamingCluster} {pos count count' : Nat} {log log' : Log}
    {cursor cursor' : Cursor}
    (hbuffered : (Cluster.read mode : Filling BufferedCluster Nat) source
      ⟨buffered, ⟨pos, log⟩⟩ = .ok count ⟨buffered', cursor⟩)
    (hstreaming : (Cluster.read mode : Filling StreamingCluster Nat) source
      ⟨streaming, ⟨pos, log'⟩⟩ = .ok count' ⟨streaming', cursor'⟩) :
    count = count' ∧ cursor.pos = cursor'.pos ∧ buffered'.metadata = streaming'.metadata ∧
      ∃ located : List (IndexEntry × ClusterBlock),
        (∀ p ∈ located, Located source p.1 p.2) ∧
          (located.Pairwise fun p q => p.1.offset < q.1.offset) ∧
            buffered'.blocks = (Timeline.sort (fun p => p.2.timecode) located).map Prod.snd ∧
              BlockIterator.Gives source streaming'.blocks
                ((Timeline.sort (fun p => p.1.timecode) located).map Prod.snd) ∧
                (BlockIterator.Gives source streaming'.blocks buffered'.blocks ↔
                  Concordant located) := by
  obtain ⟨opening, after, hopening, hblocks, rfl⟩ := Cluster.read_eq_ok.mp hbuffered
  obtain ⟨opening', after', hopening', hblocks', rfl⟩ := Cluster.read_eq_ok.mp hstreaming
  have hsteady := Cluster.steady_readOpening mode source ⟨pos, log⟩ opening after hopening
  obtain ⟨rfl, hpos⟩ := hsteady.unique hopening'
  obtain ⟨_, hend, blocks, htraverses, rfl⟩ := BufferedCluster.of_readBlocks hblocks
  obtain ⟨_, hend', index, htraverses', rfl⟩ := StreamingCluster.of_readBlocks hblocks'
  rw [hpos] at hend' htraverses'
  obtain ⟨located, rfl, rfl, hlocated, horder⟩ := located_of_traverses htraverses htraverses'
  have hall : ∀ p ∈ located, Element.offset p.2 = p.1.offset :=
    fun p hm => (hlocated p hm).2.offset_eq
  have hgives : BlockIterator.Gives source
      ⟨Timeline.sort IndexEntry.timecode (located.map Prod.fst)⟩
      ((Timeline.sort (fun p => p.1.timecode) located).map Prod.snd) := by
    rw [Timeline.sort_map]
    exact BlockIterator.gives_of_loads fun p hm =>
      (hlocated p ((Timeline.perm_sort _ _).mem_iff.mp hm)).2.loads
  refine ⟨rfl, by omega, rfl, located, fun p hm => (hlocated p hm).2, horder,
    Timeline.sort_map _ _, hgives, ?_⟩
  rw [← sort_eq_sort_iff_concordant hall horder]
  constructor
  · intro h
    rw [hgives.unique h]
    exact Timeline.sort_map _ _
  · intro h
    have hsort : Timeline.sort ClusterBlock.timecode (located.map Prod.snd) =
        (Timeline.sort (fun p => p.2.timecode) located).map Prod.snd := Timeline.sort_map _ _
    show BlockIterator.Gives source _ (Timeline.sort ClusterBlock.timecode (located.map Prod.snd))
    rw [hsort, ← h]
    exact hgives

/-! ## A group that repeats its block -/

/-- A cluster with two groups.  The first has a block with the timecode 10 and then one with 0,
and the second has one with 5. -/
def repeated : Source where
  bytes := [0x1f, 0x43, 0xb6, 0x75, 0x9c, 0xe7, 0x81, 0x00,
    0xa0, 0x8e, 0xa1, 0x85, 0x81, 0x00, 0x0a, 0x00, 0xaa, 0xa1, 0x85, 0x81, 0x00, 0x00, 0x00, 0xbb,
    0xa0, 0x87, 0xa1, 0x85, 0x81, 0x00, 0x05, 0x00, 0xcc]
  limit := 100

/-- What is to be said of a reader's result on the two groups and of where it comes to. -/
def outcome? {α β : Type} (reader : Reader α) (pos : Nat) (f : α → Nat → β) : Option β :=
  match reader repeated ⟨pos, #[]⟩ with
  | .ok a cursor => some (f a cursor.pos)
  | .error _ _ => none

theorem of_outcome? {α β : Type} {reader : Reader α} {pos : Nat} {f : α → Nat → β} {b : β}
    (h : outcome? reader pos f = some b) :
    ∃ a pos' log, reader repeated ⟨pos, #[]⟩ = .ok a ⟨pos', log⟩ ∧ f a pos' = b := by
  rw [outcome?] at h
  split at h
  next a cursor hok =>
    cases h
    exact ⟨a, cursor.pos, cursor.log, hok, rfl⟩
  next => cases h

/-- The buffered cluster begins with the first group, for its 0, and the streaming one with the
second, since 5 comes before 10. -/
theorem readers_disagree_on_repeated :
    ∃ buffered streaming count cursor cursor',
      (Cluster.read .relaxed : Filling BufferedCluster Nat) repeated ⟨{}, ⟨4, #[]⟩⟩ =
          .ok count ⟨buffered, cursor⟩ ∧
        (Cluster.read .relaxed : Filling StreamingCluster Nat) repeated ⟨{}, ⟨4, #[]⟩⟩ =
            .ok count ⟨streaming, cursor'⟩ ∧
          ¬ BlockIterator.Gives repeated streaming.blocks buffered.blocks ∧
            ∃ located, (∀ p ∈ located, Located repeated p.1 p.2) ∧ ¬ Concordant located := by
  have hopening : outcome? (Cluster.readOpening .relaxed) 4
      (fun opening pos => (opening.region, pos)) = some (25, 8) := by decide +kernel
  have hblocks : outcome? (Element.readChildren .cluster 25 []
      (BufferedCluster.readChild .relaxed)) 8
      (fun blocks _ => blocks.map ClusterBlock.timecode) = some [0, 5] := by decide +kernel
  have hindex : outcome? (Element.readChildren .cluster 25 []
      (StreamingCluster.readChild .relaxed)) 8
      (fun index _ => index) = some [⟨8, .blockGroup, 10⟩, ⟨24, .blockGroup, 5⟩] := by
    decide +kernel
  have hload : outcome? (IndexEntry.load ⟨24, .blockGroup, 5⟩) 0
      (fun block _ => block.timecode) = some 5 := by decide +kernel
  obtain ⟨opening, _, _, hopening, hplace⟩ := of_outcome? hopening
  obtain ⟨blocks, _, _, hblocks, htimecodes⟩ := of_outcome? hblocks
  obtain ⟨index, _, _, hindex, rfl⟩ := of_outcome? hindex
  obtain ⟨first, _, _, hload, hfirst⟩ := of_outcome? hload
  obtain ⟨hregion, rfl⟩ := Prod.mk.inj hplace
  obtain ⟨htraverses, rfl⟩ := Element.traverses_of_readChildren
    (fun blocks id => .of_spans (BufferedCluster.spans_readChild .relaxed blocks id)) hblocks
  obtain ⟨htraverses', rfl⟩ := Element.traverses_of_readChildren
    (StreamingCluster.advances_readChild .relaxed) hindex
  rw [← hregion] at htraverses htraverses'
  obtain ⟨_, hbuffered⟩ := BufferedCluster.read_of_traverses hopening htraverses {}
  obtain ⟨_, hstreaming⟩ := StreamingCluster.read_of_traverses hopening htraverses' {}
  obtain ⟨_, _, _, located, hlocated, _, _, _, hiff⟩ :=
    readers_agree_iff_concordant hbuffered hstreaming
  have hsorted : Timeline.sort ClusterBlock.timecode blocks = blocks := by
    refine Timeline.sort_of_pairwise (List.pairwise_map.mp ?_)
    rw [htimecodes]
    decide
  have hindex : Timeline.sort IndexEntry.timecode
      [⟨8, .blockGroup, 10⟩, ⟨24, .blockGroup, 5⟩] =
        [⟨24, .blockGroup, 5⟩, ⟨8, .blockGroup, 10⟩] := by
    rw [Timeline.sort_cons, Timeline.sort_of_pairwise (List.pairwise_singleton ..)]
    decide
  have hnot : ¬ BlockIterator.Gives repeated
      ⟨Timeline.sort IndexEntry.timecode [⟨8, .blockGroup, 10⟩, ⟨24, .blockGroup, 5⟩]⟩
      (Timeline.sort ClusterBlock.timecode blocks) := by
    rw [hsorted, hindex]
    intro hgives
    cases hgives with
    | nil => cases htimecodes
    | cons hnext _ =>
        obtain ⟨_, hok⟩ := hnext ⟨0, #[]⟩
        obtain ⟨hfound, _⟩ := BlockIterator.load_of_next hok
        rw [hload] at hfound
        cases hfound
        have hzero := (List.cons.inj htimecodes).1
        rw [hfirst] at hzero
        cases hzero
  exact ⟨_, _, _, _, _, hbuffered, hstreaming, hnot, located, hlocated, fun h => hnot (hiff.mpr h)⟩

end Ebml
