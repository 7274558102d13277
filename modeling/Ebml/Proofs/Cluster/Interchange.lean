import Ebml.Proofs.Cluster.Writing
import Ebml.Proofs.Timeline

/-!
# Both kinds of cluster write the same bytes

A buffered cluster knows its size before it writes, and a streaming one fills it in afterwards.
On a stream that grows both come to the layout of the cluster with its size in place
(`BufferedCluster.writeAll_ok`, `StreamingCluster.writeAll_ok`), the one in as few octets as
possible and the other in as many as were left.  So the outputs are the same if these are as many,
and the blocks were handed to the streaming cluster in the order in which a buffered one sorts
them.
-/

namespace Ebml

/-! ## Whole runs -/

/-- Prepares a cluster, hands it blocks and writes it. -/
def BufferedCluster.writeAll (pushed : List ClusterBlock) : Draining BufferedCluster Nat := do
  let _ ← prepare
  change fun c => pushed.foldl push c
  write

/-- Hands blocks to a cluster, one after another. -/
def StreamingCluster.pushAll : List ClusterBlock → Draining StreamingCluster Unit
  | [] => return
  | block :: blocks => do
    let _ ← push block
    pushAll blocks

/-- Prepares a cluster, hands it blocks and writes it. -/
def StreamingCluster.writeAll (pushed : List ClusterBlock) : Draining StreamingCluster Nat := do
  let _ ← prepare
  pushAll pushed
  write

/-- A cluster of this metadata and these blocks can be written. -/
structure Writable (m : ClusterMetadata) (blocks : List ClusterBlock) : Prop where
  /-- The blocks can be written. -/
  valid : ∀ b ∈ blocks, b.Valid
  /-- The size of the body can be stored. -/
  bounded : Cluster.contentSize m blocks < Element.sizeBound

variable {m : ClusterMetadata} {pushed : List ClusterBlock} {stream : Stream}

/-- The output is the stream with the cluster laid at its position, with the size in `width` octets,
and the position is after the cluster, which takes `count` bytes. -/
structure Cluster.Lays (stream : Stream) (width : Nat) (m : ClusterMetadata)
    (blocks : List ClusterBlock) (count : Nat) (out : Stream) : Prop where
  laid : out = stream.fillGap.overlay (layout (contentSize m blocks) width m blocks)
  count_eq : count = ElementId.cluster.size + width + contentSize m blocks

theorem Cluster.Lays.pos_eq {width count : Nat} {out : Stream}
    (h : Lays stream width m pushed count out) : out.pos = stream.pos + count := by
  rw [h.laid, Stream.pos_overlay, length_layout, h.count_eq]
  rfl

/-- The order of the blocks does not matter for the size. -/
theorem Cluster.contentSize_sort (m : ClusterMetadata) (blocks : List ClusterBlock) :
    contentSize m (Timeline.sort ClusterBlock.timecode blocks) = contentSize m blocks := by
  rw [contentSize, contentSize, Element.childrenSize, Element.childrenSize,
    ((Timeline.perm_sort ClusterBlock.timecode blocks).map Element.totalSize).sum_nat]

theorem Writable.sort (h : Writable m pushed) :
    Writable m (Timeline.sort ClusterBlock.timecode pushed) where
  valid b hm := h.valid b ((Timeline.perm_sort _ _).mem_iff.mp hm)
  bounded := (Cluster.contentSize_sort m pushed).symm ▸ h.bounded

theorem Writable.block (h : Writable m pushed) :
    ∀ b ∈ pushed, b.Valid ∧ Element.bodySize b < Element.sizeBound := fun b hm =>
  ⟨h.valid b hm, Nat.lt_of_le_of_lt (Cluster.bodySize_le_contentSize hm) h.bounded⟩

/-! ## Buffered clusters -/

namespace BufferedCluster

theorem foldl_push (c : BufferedCluster) (pushed : List ClusterBlock) :
    pushed.foldl push c =
      { c with
        blocks := pushed.foldl (fun blocks b => Timeline.insert ClusterBlock.timecode b blocks)
          c.blocks } := by
  induction pushed generalizing c with
  | nil => rfl
  | cons b pushed ih => rw [List.foldl_cons, ih, List.foldl_cons, push]

/-- The blocks are written in the order of their timecodes, and the size in as few octets as
possible. -/
theorem writeAll_ok {c : BufferedCluster} (hopen : c.start? = none) (hblocks : c.blocks = [])
    (h : Writable c.metadata pushed) (hgrow : stream.fixed = false) (log : Log) :
    ∃ count c' out, writeAll pushed ⟨c, ⟨stream, log⟩⟩ = .ok count ⟨c', out⟩ ∧
      Cluster.Lays stream (VarInt.octetLength (Cluster.contentSize c.metadata pushed)) c.metadata
        (Timeline.sort ClusterBlock.timecode pushed) count out.stream := by
  have hsorted : sorted { c with
      blocks := Timeline.sort ClusterBlock.timecode pushed, start? := none } =
        { c with blocks := Timeline.sort ClusterBlock.timecode pushed, start? := none } := by
    rw [sorted, Timeline.sort_sort]
  obtain ⟨_, hwrite⟩ := (fillsGap_writeAt { c with
    blocks := Timeline.sort ClusterBlock.timecode pushed, start? := none }
      stream.pos).ok_of_growing
        (emits_writeAt _ _ fun _ : True => ⟨h.sort.valid, h.sort.bounded⟩) trivial hgrow log
  rw [writeAll, Writer.bind_ok (prepare_eq hopen ⟨stream, log⟩), Draining.change_bind, foldl_push]
  dsimp only
  rw [hblocks, Timeline.foldl_insert, write_eq rfl, if_pos rfl, hsorted, hwrite,
    ← Cluster.contentSize_sort]
  exact ⟨_, _, _, rfl, rfl, rfl⟩

end BufferedCluster

/-! ## Streaming clusters -/

namespace StreamingCluster

theorem pushAll_ok :
    ∀ {pushed : List ClusterBlock} {c : StreamingCluster} {stream : Stream} {state : OpenState}
      (log : Log),
      c.state? = some state → stream.pos = state.expected → stream.Settled →
      stream.fixed = false →
      (∀ b ∈ pushed, b.Valid ∧ Element.bodySize b < Element.sizeBound) →
      ∃ c' log', pushAll pushed ⟨c, ⟨stream, log⟩⟩ =
          .ok () ⟨c', ⟨stream.overlay (pushed.flatMap Element.encoding), log'⟩⟩ ∧
        c'.sizeLength = c.sizeLength ∧
          c'.state? =
            some { state with expected := state.expected + Element.childrenSize pushed }
  | [], c, _, _, log, hopen, _, _, _, _ => by
      refine ⟨c, log, ?_, rfl, hopen⟩
      rw [List.flatMap_nil, Stream.overlay_nil]
      rfl
  | block :: pushed, c, stream, state, log, hopen, hpos, hsettled, hgrow, hblocks => by
      obtain ⟨_, hvalidated⟩ := (emits_validated fun _ : True =>
        hblocks block (List.mem_cons_self ..)).ok_of_growing trivial hsettled hgrow log
      have hpush := push_eq hopen block ⟨stream, log⟩
      rw [pushAt_of_pos block hpos, hvalidated] at hpush
      have hopen' : (c.extended state block (Element.totalSize block)).state? =
          some { state with expected := state.expected + Element.totalSize block } := rfl
      have hpos' : (stream.overlay (Element.encoding block)).pos =
          state.expected + Element.totalSize block := by
        rw [Stream.pos_overlay, hpos, Element.length_encoding]
      obtain ⟨c', log, hrest, hlength, hstate⟩ := pushAll_ok _ hopen' hpos'
        (Stream.settled_overlay hsettled _) hgrow
        fun b hm => hblocks b (List.mem_cons_of_mem _ hm)
      refine ⟨c', log, ?_, hlength, ?_⟩
      · rw [pushAll, Writer.bind_ok hpush, List.flatMap_cons, ← Stream.overlay_overlay hsettled]
        exact hrest
      · rw [hstate, Element.childrenSize_cons, ← Nat.add_assoc]

/-- The blocks are written in the order in which they are handed over, and the size in the octets
that were left for it. -/
theorem writeAll_ok {c : StreamingCluster} (hopen : c.state? = none)
    (h : Writable c.metadata pushed)
    (hfits : VarInt.octetLength (Cluster.contentSize c.metadata pushed) ≤ c.placeholder.octets)
    (hgrow : stream.fixed = false) (log : Log) :
    ∃ count c' out, writeAll pushed ⟨c, ⟨stream, log⟩⟩ = .ok count ⟨c', out⟩ ∧
      Cluster.Lays stream c.placeholder.octets c.metadata pushed count out.stream := by
  have hmax := Element.le_max_of_lt h.bounded
  have hsize : VarInt.Fits (Cluster.contentSize c.metadata pushed) c.placeholder.octets :=
    ⟨c.placeholder.inRange.1, c.placeholder.inRange.2, hfits, hmax⟩
  obtain ⟨headLog, hhead⟩ := (fillsGap_writeHead c).ok_of_growing
    (emits_writeHead c fun _ : True => Nat.le_trans (Nat.le_add_right _ _) hmax) trivial hgrow
      log
  have hprepare := prepare_eq hopen ⟨stream, log⟩
  rw [hhead] at hprepare
  have hsettled := Stream.settled_fillGap stream
  have hopened : (c.opened stream.pos (ElementId.cluster.size + c.placeholder.octets)
      c.metadata.size).state? = some _ := rfl
  have hpos : (stream.fillGap.overlay
      (Cluster.layout 0 c.placeholder.octets c.metadata [])).pos =
        stream.pos + (ElementId.cluster.size + c.placeholder.octets + c.metadata.size) := by
    rw [Stream.pos_overlay, Cluster.length_layout]
    rfl
  obtain ⟨c', log', hpush, hlength, hstate⟩ := pushAll_ok
    (headLog.push (.preparedCluster stream.pos)) hopened hpos
    (Stream.settled_overlay hsettled _) hgrow h.block
  rw [Stream.overlay_overlay hsettled, ← Cluster.layout_append, List.nil_append] at hpush
  have hexpected : stream.pos +
      (ElementId.cluster.size + c.placeholder.octets + c.metadata.size) +
        Element.childrenSize pushed =
      stream.pos + (Cluster.layout 0 c.placeholder.octets c.metadata pushed).length := by
    rw [Cluster.length_layout, Cluster.contentSize]
    omega
  dsimp only at hstate
  rw [hexpected] at hstate
  obtain ⟨log'', hfill⟩ := fillSize_ok hsettled hgrow hsize log'
  obtain ⟨_, hwrite⟩ := write_ok hstate (by rw [hlength]; exact hfill)
  rw [writeAll, Writer.bind_ok hprepare, Writer.bind_ok hpush, hwrite, Nat.add_sub_cancel_left,
    Cluster.length_layout]
  exact ⟨_, _, _, rfl, rfl, rfl⟩

end StreamingCluster

/-! ## The two outputs -/

/-- From one stream, a buffered cluster that was handed blocks and a streaming one that was handed
them in order write the same metadata and blocks.  Their outputs differ only in the octets of the
size, and not at all if the room that was left for it is no wider than it has to be. -/
theorem writers_interchangeable {buffered : BufferedCluster} {streaming : StreamingCluster}
    (hbuffered : buffered.start? = none) (hempty : buffered.blocks = [])
    (hstreaming : streaming.state? = none) (hmetadata : streaming.metadata = buffered.metadata)
    (h : Writable buffered.metadata pushed)
    (hfits : VarInt.octetLength (Cluster.contentSize buffered.metadata pushed) ≤
      streaming.placeholder.octets)
    (hgrow : stream.fixed = false) (log log' : Log) :
    ∃ count count' buffered' streaming' out out',
      BufferedCluster.writeAll pushed ⟨buffered, ⟨stream, log⟩⟩ = .ok count ⟨buffered', out⟩ ∧
        StreamingCluster.writeAll (Timeline.sort ClusterBlock.timecode pushed)
            ⟨streaming, ⟨stream, log'⟩⟩ = .ok count' ⟨streaming', out'⟩ ∧
          Cluster.Lays stream (VarInt.octetLength (Cluster.contentSize buffered.metadata pushed))
            buffered.metadata (Timeline.sort ClusterBlock.timecode pushed) count out.stream ∧
            Cluster.Lays stream streaming.placeholder.octets buffered.metadata
              (Timeline.sort ClusterBlock.timecode pushed) count' out'.stream ∧
              (streaming.placeholder.octets =
                  VarInt.octetLength (Cluster.contentSize buffered.metadata pushed) →
                out'.stream = out.stream ∧ count' = count) := by
  obtain ⟨count, buffered', out, hwrite, hlays⟩ :=
    BufferedCluster.writeAll_ok hbuffered hempty h hgrow log
  have hsorted : Writable streaming.metadata (Timeline.sort ClusterBlock.timecode pushed) :=
    hmetadata ▸ h.sort
  rw [← hmetadata, ← Cluster.contentSize_sort] at hfits
  obtain ⟨count', streaming', out', hwrite', hlays'⟩ :=
    StreamingCluster.writeAll_ok hstreaming hsorted hfits hgrow log'
  rw [hmetadata] at hlays'
  refine ⟨count, count', buffered', streaming', out, out', hwrite, hwrite', hlays, hlays',
    fun hwidth => ?_⟩
  rw [hwidth] at hlays'
  exact ⟨hlays'.laid.trans hlays.laid.symm, hlays'.count_eq.trans hlays.count_eq.symm⟩

/-- Two blocks, the later of which comes first. -/
def unordered : List ClusterBlock :=
  [.simple { block := { timecode := 5, frames := [[0xaa]] } },
    .group { block := { timecode := -5, lacing := .ebml, frames := [[0xbb], [0xcc, 0xdd]] } }]

theorem writable_unordered : Writable { timecode := 1000 } unordered := by
  refine ⟨fun b hm => ?_, by decide +kernel⟩
  rcases List.mem_cons.mp hm with rfl | hm
  · exact ⟨rfl, by decide, by decide⟩
  · rcases List.mem_cons.mp hm with rfl | hm
    · exact ⟨rfl, by decide, by decide⟩
    · cases hm

/-- Behind a gap in an empty stream, the two blocks are written to the same bytes. -/
theorem writers_interchangeable_unordered :
    ∃ count buffered' streaming' out out',
      BufferedCluster.writeAll unordered ⟨.make 1000, ⟨{ pos := 3 }, #[]⟩⟩ =
          .ok count ⟨buffered', out⟩ ∧
        StreamingCluster.writeAll (Timeline.sort ClusterBlock.timecode unordered)
            ⟨.make 1000 ⟨1, by decide⟩, ⟨{ pos := 3 }, #[]⟩⟩ = .ok count ⟨streaming', out'⟩ ∧
          out'.stream = out.stream := by
  have hwidth : VarInt.octetLength (Cluster.contentSize { timecode := 1000 } unordered) = 1 := by
    decide +kernel
  have hstreaming : (StreamingCluster.make 1000 ⟨1, by decide⟩).state? = none := rfl
  have hbuffered : (BufferedCluster.make 1000).start? = none := rfl
  have hgrow : ({ pos := 3 } : Stream).fixed = false := rfl
  obtain ⟨count, count', buffered', streaming', out, out', hwrite, hwrite', _, _, hsame⟩ :=
    writers_interchangeable hbuffered rfl hstreaming rfl writable_unordered (Nat.le_of_eq hwidth)
      hgrow #[] #[]
  obtain ⟨hstream, rfl⟩ := hsame hwidth.symm
  exact ⟨count', buffered', streaming', out, out', hwrite, hwrite', hstream⟩

end Ebml
