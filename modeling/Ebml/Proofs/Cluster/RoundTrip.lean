import Ebml.Proofs.Cluster.Interchange
import Ebml.Proofs.Cluster.Reading

/-!
# Clusters survive a round trip

Whichever kind of cluster wrote to a stream that grows, and whichever kind reads it back: the ID
and the cluster are read, as many bytes as were written, the metadata is restored, and the blocks
come in the order of their timecodes.
-/

namespace Ebml

/-- What was laid over a stream can be found there. -/
theorem Source.holds_overlay (stream : Stream) (bytes : List UInt8) (limit : Nat) :
    (⟨(stream.fillGap.overlay bytes).data, limit⟩ : Source).Holds stream.pos bytes :=
  ⟨_, (Stream.drop_overlay (Stream.settled_fillGap stream) bytes).symm⟩

namespace Cluster

variable {κ : Type} [Cluster κ]

/-- Reads an ID and the cluster that follows it, and counts the bytes of both. -/
def readFrom (mode : ParsingMode) : Filling κ (ElementId × Nat) := do
  let id ← Filling.lift ElementId.read
  let count ← read mode
  return (id, id.size + count)

/-- At `start` lies a cluster of `total` bytes, its size in `width` octets.  Readers of both kinds
find there the metadata and the blocks in the order of their timecodes, whatever they held before.
-/
structure ReadsBack (source : Source) (start width total : Nat) (m : ClusterMetadata)
    (blocks : List ClusterBlock) : Prop where
  buffered : ∀ (mode : ParsingMode) (c : BufferedCluster) (log : Log), ∃ c' log',
    readFrom mode source ⟨c, ⟨start, log⟩⟩ =
        .ok (.cluster, total) ⟨c', ⟨start + total, log'⟩⟩ ∧
      c'.metadata = { m with offset := start, sizeLength := width } ∧
        (c'.blocks == Timeline.sort ClusterBlock.timecode blocks) = true
  streaming : ∀ (mode : ParsingMode) (c : StreamingCluster) (log : Log), ∃ c' log' given,
    readFrom mode source ⟨c, ⟨start, log⟩⟩ =
        .ok (.cluster, total) ⟨c', ⟨start + total, log'⟩⟩ ∧
      c'.metadata = { m with offset := start, sizeLength := width } ∧
        totalSize c' = total ∧ BlockIterator.Gives source c'.blocks given ∧
          (given == Timeline.sort ClusterBlock.timecode blocks) = true

theorem readFrom_of_read {mode : ParsingMode} {source : Source} {start count stop : Nat} {c c' : κ}
    (hid : source.Holds start ElementId.cluster.encode)
    (h : ∀ log, ∃ log', (read mode : Filling κ Nat) source
      ⟨c, ⟨start + ElementId.cluster.size, log⟩⟩ = .ok count ⟨c', ⟨stop, log'⟩⟩) (log : Log) :
    ∃ log', readFrom mode source ⟨c, ⟨start, log⟩⟩ =
      .ok (.cluster, ElementId.cluster.size + count) ⟨c', ⟨stop, log'⟩⟩ := by
  obtain ⟨idLog, hid⟩ := ElementId.yields_read hid log
  obtain ⟨log', hread⟩ := h idLog
  exact ⟨log', Filling.lift_bind_eq_ok.mpr ⟨_, _, hid, Reader.bind_eq_ok.mpr ⟨_, _, hread, rfl⟩⟩⟩

theorem Lays.holds {stream out : Stream} {width count : Nat} {m : ClusterMetadata}
    {blocks : List ClusterBlock} (h : Lays stream width m blocks count out) (limit : Nat) :
    (⟨out.data, limit⟩ : Source).Holds stream.pos
      (layout (contentSize m blocks) width m blocks) := by
  rw [h.laid]
  exact Source.holds_overlay stream _ limit

theorem readsBack_of_holds {source : Source} {start width : Nat} {m : ClusterMetadata}
    {blocks : List ClusterBlock} (hfits : VarInt.Fits (contentSize m blocks) width)
    (hreadable : ∀ b ∈ blocks, b.Readable source)
    (h : source.Holds start (layout (contentSize m blocks) width m blocks)) :
    ReadsBack source start width
      (ElementId.cluster.size + width + contentSize m blocks) m blocks := by
  have hbody := h.right
  rw [ElementId.length_encode] at hbody
  have hblocks := hbody.right.right
  rw [VarInt.length_sized, ClusterMetadata.length_encoding] at hblocks
  have hopening : ∀ mode, Reader.Yields (readOpening mode) source _ _ _ := fun mode =>
    yields_readOpening hfits (Element.length_children blocks).symm hbody
  rw [Nat.add_sub_cancel] at hopening
  have hstop : start + ElementId.cluster.size + width + m.size + Element.childrenSize blocks =
      start + (ElementId.cluster.size + width + contentSize m blocks) := by
    rw [contentSize]
    omega
  have htotal : ElementId.cluster.size + (width + (m.size + Element.childrenSize blocks)) =
      ElementId.cluster.size + width + contentSize m blocks := (Nat.add_assoc _ _ _).symm
  constructor
  · intro mode c log
    obtain ⟨located, hsame, -, hread, -⟩ := located_of_holds mode hreadable hblocks
    have htraverses := hread []
    rw [Element.length_children, List.nil_append] at htraverses
    obtain ⟨log', hok⟩ := readFrom_of_read h.left (fun log => by
      obtain ⟨_, hopening⟩ := hopening mode log
      exact BufferedCluster.read_of_traverses hopening htraverses c) log
    rw [hstop, htotal] at hok
    exact ⟨_, log', hok, rfl, Timeline.sort_beq (fun _ _ => ClusterBlock.timecode_of_beq) hsame⟩
  · intro mode c log
    obtain ⟨located, hsame, hlocated, -, hindex⟩ := located_of_holds mode hreadable hblocks
    have htraverses := hindex []
    rw [Element.length_children, List.nil_append] at htraverses
    obtain ⟨log', hok⟩ := readFrom_of_read h.left (fun log => by
      obtain ⟨_, hopening⟩ := hopening mode log
      exact StreamingCluster.read_of_traverses hopening htraverses c) log
    rw [hstop, htotal] at hok
    have hgives : BlockIterator.Gives source
        ⟨Timeline.sort IndexEntry.timecode (located.map Prod.fst)⟩
        (Timeline.sort ClusterBlock.timecode (located.map Prod.snd)) := by
      rw [Timeline.sort_map, Timeline.sort_map,
        ← Timeline.sort_congr fun p hm => (hlocated p hm).1]
      exact BlockIterator.gives_of_loads fun p hm =>
        (hlocated p ((Timeline.perm_sort _ _).mem_iff.mp hm)).2
    refine ⟨_, log', _, hok, rfl, ?_, hgives,
      Timeline.sort_beq (fun _ _ => ClusterBlock.timecode_of_beq) hsame⟩
    show ElementId.cluster.size + (if width = 0 then _ else width) + contentSize m blocks = _
    rw [if_neg (Nat.ne_of_gt hfits.1)]

theorem Lays.readsBack {stream out : Stream} {width count limit : Nat} {m : ClusterMetadata}
    {blocks : List ClusterBlock} (h : Lays stream width m blocks count out)
    (hwritable : Writable m blocks) (hfits : VarInt.Fits (contentSize m blocks) width)
    (hlimit : ∀ b ∈ blocks, ∀ payload ∈ b.payloads, payload.length ≤ limit) :
    ReadsBack ⟨out.data, limit⟩ stream.pos width count m blocks := by
  rw [h.count_eq]
  exact readsBack_of_holds hfits
    (fun b hm => ⟨(hwritable.block b hm).1, (hwritable.block b hm).2, hlimit b hm⟩) (h.holds limit)

/-- Blocks that were sorted are read back as they would be without. -/
theorem ReadsBack.of_sort {source : Source} {start width total : Nat} {m : ClusterMetadata}
    {blocks : List ClusterBlock}
    (h : ReadsBack source start width total m (Timeline.sort ClusterBlock.timecode blocks)) :
    ReadsBack source start width total m blocks := by
  obtain ⟨hbuffered, hstreaming⟩ := h
  simp only [Timeline.sort_sort] at hbuffered hstreaming
  exact ⟨hbuffered, hstreaming⟩

end Cluster

/-- Whatever a cluster of either kind wrote to a stream that grows, from wherever that stood, is
read back by both kinds within a limit that allows for the frames, the codec states and the
additions. -/
theorem written_clusters_read_back {m : ClusterMetadata} {pushed : List ClusterBlock}
    {stream : Stream} {limit : Nat} (h : Writable m pushed)
    (hlimit : ∀ b ∈ pushed, ∀ payload ∈ b.payloads, payload.length ≤ limit)
    (hgrow : stream.fixed = false) (log : Log) :
    (∀ c : BufferedCluster, c.start? = none → c.blocks = [] → c.metadata = m →
      ∃ count c' out, BufferedCluster.writeAll pushed ⟨c, ⟨stream, log⟩⟩ = .ok count ⟨c', out⟩ ∧
        out.stream.pos = stream.pos + count ∧
          Cluster.ReadsBack ⟨out.stream.data, limit⟩ stream.pos
            (VarInt.octetLength (Cluster.contentSize m pushed)) count m pushed) ∧
      ∀ c : StreamingCluster, c.state? = none → c.metadata = m →
        VarInt.octetLength (Cluster.contentSize m pushed) ≤ c.placeholder.octets →
        ∃ count c' out, StreamingCluster.writeAll pushed ⟨c, ⟨stream, log⟩⟩ = .ok count ⟨c', out⟩ ∧
          out.stream.pos = stream.pos + count ∧
            Cluster.ReadsBack ⟨out.stream.data, limit⟩ stream.pos c.placeholder.octets count m
              pushed := by
  have hmax := Element.le_max_of_lt h.bounded
  constructor
  · intro c hopen hempty hmetadata
    subst hmetadata
    obtain ⟨count, c', out, hwrite, hlays⟩ := BufferedCluster.writeAll_ok hopen hempty h hgrow log
    have hfits : VarInt.Fits
        (Cluster.contentSize c.metadata (Timeline.sort ClusterBlock.timecode pushed))
        (VarInt.octetLength (Cluster.contentSize c.metadata pushed)) := by
      rw [Cluster.contentSize_sort]
      exact VarInt.fits_octetLength hmax
    exact ⟨count, c', out, hwrite, hlays.pos_eq, .of_sort (hlays.readsBack h.sort hfits
      fun b hm => hlimit b ((Timeline.perm_sort _ _).mem_iff.mp hm))⟩
  · intro c hopen hmetadata hfits
    subst hmetadata
    obtain ⟨count, c', out, hwrite, hlays⟩ := StreamingCluster.writeAll_ok hopen h hfits hgrow log
    exact ⟨count, c', out, hwrite, hlays.pos_eq, hlays.readsBack h
      ⟨c.placeholder.inRange.1, c.placeholder.inRange.2, hfits, hmax⟩ hlimit⟩

/-- Two blocks that were pushed in the wrong order are read back within a limit of two bytes, from
behind a gap of three. -/
theorem unordered_clusters_read_back :
    (∃ count c' out,
      BufferedCluster.writeAll unordered ⟨.make 1000, ⟨{ pos := 3 }, #[]⟩⟩ = .ok count ⟨c', out⟩ ∧
        Cluster.ReadsBack ⟨out.stream.data, 2⟩ 3 1 count { timecode := 1000 } unordered) ∧
      ∃ count c' out,
        StreamingCluster.writeAll unordered ⟨.make 1000 default, ⟨{ pos := 3 }, #[]⟩⟩ =
            .ok count ⟨c', out⟩ ∧
          Cluster.ReadsBack ⟨out.stream.data, 2⟩ 3 8 count { timecode := 1000 } unordered := by
  have hwidth : VarInt.octetLength (Cluster.contentSize { timecode := 1000 } unordered) = 1 := by
    decide +kernel
  have hlimit : ∀ b ∈ unordered, ∀ payload ∈ b.payloads, payload.length ≤ 2 := by decide
  have hgrow : ({ pos := 3 } : Stream).fixed = false := rfl
  obtain ⟨hbuffered, hstreaming⟩ :=
    written_clusters_read_back writable_unordered hlimit hgrow #[]
  rw [hwidth] at hbuffered hstreaming
  obtain ⟨count, c, out, hwrite, _, hread⟩ := hbuffered (.make 1000) rfl rfl rfl
  obtain ⟨count', c', out', hwrite', _, hread'⟩ :=
    hstreaming (.make 1000 default) rfl rfl (by decide)
  exact ⟨⟨count, c, out, hwrite, hread⟩, count', c', out', hwrite', hread'⟩

end Ebml
