import Ebml.Cluster.Buffered
import Ebml.Cluster.Streaming
import Ebml.Proofs.Cluster.Block
import Ebml.Proofs.Cluster.Metadata

/-!
# Writing clusters

A cluster is its ID, its size, its metadata and its blocks (`Cluster.layout`).  A buffered cluster
writes all of this at once, in as few octets for the size as possible.  A streaming one leaves
room for the size, so the layout that it writes first has a zero there, and at the end it puts the
size in its place.

What an operation does to a cluster and its output is told by one equation each.  They fail as
soon as the output is not where it is expected (`Cluster.checkPosition_bind`).
-/

namespace Ebml

variable {sure : Prop}

/-! ## Operations on an object and a stream -/

namespace Draining

variable {κ σ α β : Type} {state : Held κ σ}

theorem held_bind (f : κ → EStateM Error (Held κ σ) β) :
    (held >>= f) state = f state.object state :=
  rfl

theorem change_bind (g : κ → κ) (f : Unit → EStateM Error (Held κ σ) β) :
    (change g >>= f) state = f () { state with object := g state.object } := rfl

theorem beside_ok {x : EStateM Error σ α} {a : α} {medium : σ}
    (h : x state.medium = .ok a medium) :
    (beside x : EStateM Error (Held κ σ) α) state = .ok a { state with medium } := by
  rw [beside, h]

theorem beside_error {x : EStateM Error σ α} {e : Error} {medium : σ}
    (h : x state.medium = .error e medium) :
    (beside x : EStateM Error (Held κ σ) α) state = .error e { state with medium } := by
  rw [beside, h]

end Draining

namespace Cluster

/-- The bytes of a cluster with `size` in the `width` octets for the size of its body. -/
def layout (size width : Nat) (m : ClusterMetadata) (blocks : List ClusterBlock) : List UInt8 :=
  ElementId.cluster.encode ++
    (VarInt.sized size width ++ (m.encoding ++ blocks.flatMap Element.encoding))

/-- The size of the body of a cluster. -/
def contentSize (m : ClusterMetadata) (blocks : List ClusterBlock) : Nat :=
  m.size + Element.childrenSize blocks

theorem length_layout (size width : Nat) (m : ClusterMetadata) (blocks : List ClusterBlock) :
    (layout size width m blocks).length =
      ElementId.cluster.size + width + contentSize m blocks := by
  rw [layout, List.length_append, List.length_append, List.length_append, ElementId.length_encode,
    VarInt.length_sized, ClusterMetadata.length_encoding, Element.length_children, contentSize]
  omega

/-- The body is what comes after the size. -/
theorem length_layout_sub (start size width : Nat) (m : ClusterMetadata)
    (blocks : List ClusterBlock) :
    start + (layout size width m blocks).length - (start + (ElementId.cluster.size + width)) =
      contentSize m blocks := by
  rw [length_layout]
  omega

/-- The blocks come after everything else. -/
theorem layout_append (size width : Nat) (m : ClusterMetadata) (blocks more : List ClusterBlock) :
    layout size width m (blocks ++ more) =
      layout size width m blocks ++ more.flatMap Element.encoding := by
  simp only [layout, List.flatMap_append, List.append_assoc]

theorem bodySize_le_contentSize {m : ClusterMetadata} {blocks : List ClusterBlock}
    {b : ClusterBlock} (h : b ∈ blocks) : Element.bodySize b ≤ contentSize m blocks :=
  Nat.le_trans (Element.bodySize_le_childrenSize h) (Nat.le_add_left _ _)

theorem checkPosition_eq (expected : Nat) (sink : Sink) :
    checkPosition expected sink =
      if sink.stream.pos = expected then .ok () sink
      else .error (.interleavedWrite expected sink.stream.pos) sink := by
  have hposition : Writer.position sink = .ok sink.stream.pos sink := rfl
  rw [checkPosition, Writer.bind_ok hposition]
  by_cases hpos : sink.stream.pos = expected
  · rw [if_pos hpos, if_neg (Decidable.not_not.mpr hpos)]
    rfl
  · rw [if_neg hpos, if_pos hpos]
    rfl

/-- What is done where the output is expected is not done anywhere else. -/
theorem checkPosition_bind {α : Type} (expected : Nat) (f : Unit → Writer α) (sink : Sink) :
    (checkPosition expected >>= f) sink =
      if sink.stream.pos = expected then f () sink
      else .error (.interleavedWrite expected sink.stream.pos) sink := by
  have hcheck := checkPosition_eq expected sink
  by_cases hpos : sink.stream.pos = expected
  · rw [if_pos hpos] at hcheck ⊢
    exact Writer.bind_ok hcheck
  · rw [if_neg hpos] at hcheck ⊢
    exact Writer.bind_error hcheck

/-- The blocks of a cluster, one after another. -/
theorem emits_blocks {blocks : List ClusterBlock}
    (h : sure → ∀ b ∈ blocks, b.Valid ∧ Element.bodySize b < Element.sizeBound) :
    Writer.Emits sure (Writer.each Element.write blocks) (blocks.flatMap Element.encoding)
      (Element.childrenSize blocks) :=
  Writer.Emits.each fun b hm => ClusterBlock.emits_write fun hs => h hs b hm

end Cluster

/-! ## Buffered clusters -/

namespace BufferedCluster

variable {c : BufferedCluster}

theorem prepare_eq (h : c.start? = none) (sink : Sink) :
    prepare ⟨c, sink⟩ = .ok 0 ⟨{ c with start? := some sink.stream.pos }, sink⟩ := by
  rw [prepare, Draining.held_bind, h]
  rfl

theorem write_eq {start : Nat} (h : c.start? = some start) (sink : Sink) :
    write ⟨c, sink⟩ =
      if sink.stream.pos = start then
        match (sorted { c with start? := none }).writeAt start sink with
        | .ok written sink' => .ok written ⟨sorted { c with start? := none }, sink'⟩
        | .error e sink' => .error e ⟨sorted { c with start? := none }, sink'⟩
      else .error (.interleavedWrite start sink.stream.pos) ⟨{ c with start? := none }, sink⟩ := by
  have hcheck := Cluster.checkPosition_eq start sink
  rw [write, Draining.held_bind, h]
  dsimp only
  rw [Draining.change_bind]
  by_cases hpos : sink.stream.pos = start
  · rw [if_pos hpos] at hcheck ⊢
    rw [Writer.bind_ok (Draining.beside_ok hcheck), Draining.change_bind, Draining.held_bind]
    dsimp only
    cases hwrite : (sorted { c with start? := none }).writeAt start sink with
    | ok written sink' => exact Draining.beside_ok hwrite
    | error e sink' => exact Draining.beside_error hwrite
  · rw [if_neg hpos] at hcheck ⊢
    exact Writer.bind_error (Draining.beside_error hcheck)

/-- All of the cluster at once. -/
theorem emits_writeAt (c : BufferedCluster) (start : Nat)
    (h : sure → (∀ b ∈ c.blocks, b.Valid) ∧ c.bodySize < Element.sizeBound) :
    Writer.Emits sure (c.writeAt start)
      (Cluster.layout c.bodySize (VarInt.octetLength c.bodySize) c.metadata c.blocks)
      (Cluster.totalSize c) := by
  have hsize : sure → c.bodySize ≤ VarInt.max := fun hs => Element.le_max_of_lt (h hs).2
  have hmetadata : Writer.Emits sure c.metadata.write _ _ := ClusterMetadata.emits_write fun hs =>
    Nat.le_trans (Nat.le_add_right _ _) (hsize hs)
  have hblocks : Writer.Emits sure (Writer.each Element.write c.blocks) _ _ :=
    Cluster.emits_blocks fun hs b hm => ⟨(h hs).1 b hm,
      Nat.lt_of_le_of_lt (Cluster.bodySize_le_contentSize hm) (h hs).2⟩
  refine (ElementId.emits_write .cluster).bind ((VarInt.emits_write hsize).bind
    (hmetadata.bind ?_))
  refine (hblocks.bind ?_).cast (List.append_nil _) rfl
  exact (Writer.Emits.note _).map (congrArg pure (Nat.add_assoc _ _ _))

theorem fillsGap_writeAt (c : BufferedCluster) (start : Nat) : Writer.FillsGap (c.writeAt start) :=
  (ElementId.fillsGap_write .cluster).bind _

end BufferedCluster

/-! ## Streaming clusters -/

namespace StreamingCluster

variable {c : StreamingCluster}

/-- There is room for a size of zero in every placeholder. -/
theorem fits_zero (placeholder : PlaceholderLength) : VarInt.Fits 0 placeholder.octets :=
  ⟨placeholder.inRange.1, placeholder.inRange.2, placeholder.inRange.1, Nat.zero_le _⟩

/-- The head is a cluster of size zero without blocks. -/
theorem emits_writeHead (c : StreamingCluster) (h : sure → c.metadata.size ≤ VarInt.max) :
    Writer.Emits sure c.writeHead (Cluster.layout 0 c.placeholder.octets c.metadata [])
      (ElementId.cluster.size + c.placeholder.octets, c.metadata.size) := by
  have hsize : Writer.Emits sure (VarInt.writeSized 0 c.placeholder.octets) _ _ :=
    VarInt.emits_writeSized fun _ => fits_zero c.placeholder
  have hmetadata : Writer.Emits sure c.metadata.write _ _ := ClusterMetadata.emits_write h
  rw [Cluster.layout, List.flatMap_nil, List.append_nil]
  exact (ElementId.emits_write .cluster).bind (hsize.bind (hmetadata.map rfl))

theorem fillsGap_writeHead (c : StreamingCluster) : Writer.FillsGap c.writeHead :=
  (ElementId.fillsGap_write .cluster).bind _

/-- A block that is written where the output is expected. -/
theorem pushAt_of_pos {expected : Nat} {sink : Sink} (block : ClusterBlock)
    (h : sink.stream.pos = expected) :
    pushAt expected block sink = (do block.block.validate; Element.write block) sink := by
  rw [pushAt, Cluster.checkPosition_bind, if_pos h]

theorem pushAt_of_ne {expected : Nat} {sink : Sink} (block : ClusterBlock)
    (h : sink.stream.pos ≠ expected) :
    pushAt expected block sink = .error (.interleavedWrite expected sink.stream.pos) sink := by
  rw [pushAt, Cluster.checkPosition_bind, if_neg h]

theorem emits_validated {block : ClusterBlock}
    (h : sure → block.Valid ∧ Element.bodySize block < Element.sizeBound) :
    Writer.Emits sure (do block.block.validate; Element.write block) (Element.encoding block)
      (Element.totalSize block) :=
  ((Block.emits_validate fun hs => (h hs).1.sound).bind (ClusterBlock.emits_write h)).cast
    (List.nil_append _) rfl

/-- The cluster after its head was written at `start`. -/
def opened (c : StreamingCluster) (start head metadata : Nat) : StreamingCluster :=
  { c with
    sizeLength := c.placeholder.octets, blocksSize := 0, index := []
    state? := some {
      start, bodyStart := start + head, expected := start + (head + metadata)
      metadata := c.metadata } }

/-- The cluster after a block was written in `written` bytes. -/
def extended (c : StreamingCluster) (state : OpenState) (block : ClusterBlock) (written : Nat) :
    StreamingCluster :=
  { c with
    index := c.index ++
      [{ offset := state.expected, id := Element.id block, timecode := block.timecode }]
    blocksSize := c.blocksSize + written
    state? := some { state with expected := state.expected + written } }

theorem prepare_eq (h : c.state? = none) (sink : Sink) :
    prepare ⟨c, sink⟩ =
      match c.writeHead sink with
      | .ok (head, metadata) sink' =>
        .ok (head + metadata) ⟨c.opened sink.stream.pos head metadata,
          { sink' with log := sink'.log.push (.preparedCluster sink.stream.pos) }⟩
      | .error e sink' => .error e ⟨c, sink'⟩ := by
  have hposition : (beside Writer.position : Draining StreamingCluster Nat) ⟨c, sink⟩ =
      .ok sink.stream.pos ⟨c, sink⟩ := rfl
  rw [prepare, Draining.held_bind]
  dsimp only
  rw [h, Option.isSome_none, if_neg Bool.false_ne_true, Writer.bind_ok hposition]
  cases hhead : c.writeHead sink with
  | ok written sink' => rw [Writer.bind_ok (Draining.beside_ok hhead)]; rfl
  | error e sink' => rw [Writer.bind_error (Draining.beside_error hhead)]

theorem push_eq {state : OpenState} (h : c.state? = some state) (block : ClusterBlock)
    (sink : Sink) :
    push block ⟨c, sink⟩ =
      match pushAt state.expected block sink with
      | .ok written sink' =>
        .ok written ⟨c.extended state block written,
          { sink' with log := sink'.log.push (.streamedBlock block.block.track written) }⟩
      | .error e sink' => .error e ⟨c, sink'⟩ := by
  rw [push, Draining.held_bind]
  dsimp only
  rw [h]
  dsimp only
  cases hpush : pushAt state.expected block sink with
  | ok written sink' => rw [Writer.bind_ok (Draining.beside_ok hpush)]; rfl
  | error e sink' => rw [Writer.bind_error (Draining.beside_error hpush)]

/-- The cluster after its size was filled in. -/
def closed (c : StreamingCluster) (state : OpenState) : StreamingCluster :=
  sorted { c with metadata := state.metadata, state? := none }

/-- The log after the size was filled in, when it was `log`. -/
def closedLog (c : StreamingCluster) (state : OpenState) (log : Log) : Log :=
  (if c.metadata = state.metadata then log else log.push (.discardedMetadata state.start)).push
    (.finishedCluster state.start (c.closed state).index.length (state.expected - state.bodyStart))

theorem write_filled {state : OpenState} (h : c.state? = some state) {sink sink' : Sink} {u : Unit}
    (hfill : fillSize state c.sizeLength sink = .ok u sink') :
    write ⟨c, sink⟩ = .ok (state.expected - state.start)
      ⟨c.closed state, { sink' with log := c.closedLog state sink'.log }⟩ := by
  rw [write, Draining.held_bind]
  dsimp only
  rw [h]
  dsimp only
  rw [Draining.change_bind, Draining.held_bind, Writer.bind_ok (Draining.beside_ok hfill),
    Draining.held_bind]
  dsimp only
  split
  next hedited =>
    rw [closedLog, if_neg hedited]
    rfl
  next hsame =>
    rw [closedLog, if_pos (Decidable.not_not.mp hsame), closed, ← Decidable.not_not.mp hsame]
    rfl

theorem write_ok {state : OpenState} (h : c.state? = some state) {sink sink' : Sink} {u : Unit}
    (hfill : fillSize state c.sizeLength sink = .ok u sink') :
    ∃ log, write ⟨c, sink⟩ =
      .ok (state.expected - state.start) ⟨c.closed state, { sink' with log }⟩ :=
  ⟨_, write_filled h hfill⟩

theorem write_error {state : OpenState} (h : c.state? = some state) {sink sink' : Sink} {e : Error}
    (hfill : fillSize state c.sizeLength sink = .error e sink') :
    write ⟨c, sink⟩ = .error e ⟨{ c with state? := none }, sink'⟩ := by
  rw [write, Draining.held_bind]
  dsimp only
  rw [h]
  dsimp only
  rw [Draining.change_bind, Draining.held_bind, Writer.bind_error (Draining.beside_error hfill)]

/-- The size is put in its place, and the output is where it was. -/
theorem fillSize_eq {state : OpenState} {sink : Sink} (width : Nat)
    (h : sink.stream.pos = state.expected) :
    fillSize state width sink =
      match VarInt.writeSized (state.expected - state.bodyStart) width
        { sink with stream :=
          { sink.stream with pos := state.start + ElementId.cluster.size } } with
      | .ok _ sink' => .ok () { sink' with stream := { sink'.stream with pos := state.expected } }
      | .error e sink' => .error e sink' := by
  have hseek : Writer.seek (state.start + ElementId.cluster.size) sink =
      .ok () { sink with stream :=
        { sink.stream with pos := state.start + ElementId.cluster.size } } := rfl
  rw [fillSize, Cluster.checkPosition_bind, if_pos h, Writer.bind_ok hseek]
  cases hsize : VarInt.writeSized (state.expected - state.bodyStart) width
      { sink with stream :=
        { sink.stream with pos := state.start + ElementId.cluster.size } } with
  | ok octets sink' =>
      rw [Writer.bind_ok hsize]
      rfl
  | error e sink' => rw [Writer.bind_error hsize]

theorem fillSize_of_ne {state : OpenState} {sink : Sink} (width : Nat)
    (h : sink.stream.pos ≠ state.expected) :
    fillSize state width sink = .error (.interleavedWrite state.expected sink.stream.pos) sink := by
  rw [fillSize, Cluster.checkPosition_bind, if_neg h]

/-- A size that was put in its place was written from where the output is expected. -/
theorem of_fillSize {state : OpenState} {width : Nat} {sink sink' : Sink} {u : Unit}
    (hok : fillSize state width sink = .ok u sink') :
    sink.stream.pos = state.expected ∧ ∃ octets sink'',
      VarInt.writeSized (state.expected - state.bodyStart) width
          { sink with stream :=
            { sink.stream with pos := state.start + ElementId.cluster.size } } =
        .ok octets sink'' ∧
      sink' = { sink'' with stream := { sink''.stream with pos := state.expected } } := by
  by_cases hpos : sink.stream.pos = state.expected
  · rw [fillSize_eq width hpos] at hok
    split at hok
    next octets sink'' hsize =>
      cases hok
      exact ⟨hpos, octets, sink'', hsize, rfl⟩
    next => cases hok
  · rw [fillSize_of_ne width hpos] at hok
    cases hok

/-- What was written of a cluster is turned into the cluster. -/
theorem fillSize_ok {s : Stream} {m : ClusterMetadata} {blocks : List ClusterBlock} {width : Nat}
    (hsettled : s.Settled) (hgrow : s.fixed = false)
    (hfits : VarInt.Fits (Cluster.contentSize m blocks) width) (log : Log) :
    ∃ log', fillSize
        { start := s.pos, bodyStart := s.pos + (ElementId.cluster.size + width)
          expected := s.pos + (Cluster.layout 0 width m blocks).length, metadata := m }
        width ⟨s.overlay (Cluster.layout 0 width m blocks), log⟩ =
      .ok () ⟨s.overlay (Cluster.layout (Cluster.contentSize m blocks) width m blocks), log'⟩ := by
  have hcluster := ElementId.length_encode .cluster
  have hlength := Cluster.length_layout 0 width m blocks
  have hstart : ({ s.overlay (Cluster.layout 0 width m blocks) with
      pos := s.pos + ElementId.cluster.size } : Stream).Settled :=
    Stream.settled_at hsettled (by omega)
  obtain ⟨log', hsize⟩ := (VarInt.emits_writeSized fun _ : True => hfits).ok_of_growing trivial
    hstart hgrow log
  have hsame : (VarInt.sized (Cluster.contentSize m blocks) width).length =
      (VarInt.sized 0 width).length := by
    rw [VarInt.length_sized, VarInt.length_sized]
  refine ⟨log', ?_⟩
  rw [fillSize_eq width (Stream.pos_overlay _ _), Cluster.length_layout_sub, hsize]
  dsimp only
  rw [← hcluster, Cluster.layout, Stream.overlay_patch hsettled hsame]
  rfl

end StreamingCluster

end Ebml
