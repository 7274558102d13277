import Ebml.Proofs.Cluster.RoundTrip
import Ebml.Proofs.Element.NormalForm

/-!
# Writing a cluster that was read

As elements do, a cluster that was read into memory has a normal form
(`BufferedCluster.NormalForm`).  Its metadata comes first, each number once and in as few octets as
it needs, then its blocks by timecode, and nothing else.  Whatever a parsing mode made a reader pass
over is gone, so the normal form can be read back in every mode.
-/

namespace Ebml

variable {source : Source} {mode : ParsingMode}

theorem Cluster.read_of_readFrom {κ : Type} [Cluster κ] {c c' : κ} {cursor cursor' : Cursor}
    {result : ElementId × Nat}
    (hok : (readFrom mode : Filling κ (ElementId × Nat)) source ⟨c, cursor⟩ =
      .ok result ⟨c', cursor'⟩) :
    ∃ count after,
      (read mode : Filling κ Nat) source ⟨c, after⟩ = .ok count ⟨c', cursor'⟩ := by
  obtain ⟨_, after, _, hrest⟩ := Filling.lift_bind_eq_ok.mp hok
  obtain ⟨count, _, hread, hpure⟩ := Reader.bind_eq_ok.mp hrest
  cases hpure
  exact ⟨count, after, hread⟩

namespace BufferedCluster

/-- Writes the cluster, which is prepared before unless it is open. -/
def save : Draining BufferedCluster Nat := do
  if (← held).start?.isNone then
    let _ ← prepare
  write

/-- A stream that grows takes these bytes of the cluster, wherever its position is.  If the cluster
is open, the position has to be where it was prepared. -/
def Writes (c : BufferedCluster) (bytes : List UInt8) : Prop :=
  ∀ stream : Stream, stream.fixed = false → (∀ start ∈ c.start?, stream.pos = start) →
    ∀ log, ∃ c' log',
      save ⟨c, ⟨stream, log⟩⟩ = .ok bytes.length ⟨c', ⟨stream.fillGap.overlay bytes, log'⟩⟩

/-- The bytes are what is written of the cluster.  From wherever they lie, whoever may read as much
into memory reads the same metadata and equal blocks in any mode, whatever was in the cluster
before, and of that the same bytes are written.  Whether it is open stays as it was. -/
structure NormalForm (limit : Nat) (c : BufferedCluster) (bytes : List UInt8) : Prop where
  writes : c.Writes bytes
  reads : ∀ {source : Source} {pos : Nat}, limit ≤ source.limit → source.Holds pos bytes →
    ∀ (mode : ParsingMode) (other : BufferedCluster) (log : Log), ∃ c' log',
      Cluster.readFrom mode source ⟨other, ⟨pos, log⟩⟩ =
          .ok (.cluster, bytes.length) ⟨c', ⟨pos + bytes.length, log'⟩⟩ ∧
        c'.metadata = { c.metadata with
          offset := pos, sizeLength := VarInt.octetLength c.bodySize } ∧
          (c'.blocks == c.blocks) = true ∧ c'.start? = other.start? ∧ c'.Writes bytes

/-- The bytes of the cluster, its size in as few octets as possible. -/
def encoding (c : BufferedCluster) : List UInt8 :=
  Cluster.layout c.bodySize (VarInt.octetLength c.bodySize) c.metadata c.blocks

/-! ## What was read -/

/-- The blocks of a cluster that was read can be written, keep to the limit, and are in order. -/
structure Sound (limit : Nat) (c : BufferedCluster) : Prop where
  valid : ∀ b ∈ c.blocks, b.Valid
  affordable : ∀ b ∈ c.blocks, ∀ payload ∈ b.payloads, payload.length ≤ limit
  inOrder : Timeline.sort ClusterBlock.timecode c.blocks = c.blocks

/-- What holds of every block that is read holds of all blocks of a region. -/
theorem ensures_readChild (mode : ParsingMode) {P : ClusterBlock → Prop}
    (hread : ∀ kind : ClusterBlock, Reader.Ensures (Element.read kind) source fun result =>
      P result.1) {blocks : List ClusterBlock} (h : ∀ b ∈ blocks, P b) (id : ElementId) :
    Reader.Ensures (readChild mode blocks id) source fun result => ∀ b ∈ result.1, P b := by
  rw [readChild]
  split
  next kind _ =>
    refine (hread kind).bind fun result hresult => Reader.Ensures.pure fun b hm => ?_
    rcases List.mem_append.mp hm with hm | hm
    · exact h b hm
    · rw [List.mem_singleton.mp hm]
      exact hresult
  next => exact Reader.Ensures.any.bind fun _ _ => Reader.Ensures.pure h

theorem sound_of_readBlocks {size : Nat} {c c' : BufferedCluster} {cursor cursor' : Cursor}
    {count : Nat} (hok : readBlocks mode size source ⟨c, cursor⟩ = .ok count ⟨c', cursor'⟩) :
    c'.Sound source.limit ∧ c'.start? = c.start? := by
  obtain ⟨blocks, _, hchildren, hrest⟩ := Filling.lift_bind_eq_ok.mp hok
  cases hrest
  have hblock : ∀ kind : ClusterBlock, Reader.Ensures (Element.read kind) source fun result =>
      result.1.Valid ∧ ∀ payload ∈ result.1.payloads, payload.length ≤ source.limit := fun kind =>
    Element.ensures_read fun _ size => ClusterBlock.ensures_readBody _ size
  have hregion : Reader.Ensures
      (Element.readChildren .cluster size [] (readChild mode)) source fun blocks =>
        ∀ b ∈ blocks, b.Valid ∧ ∀ payload ∈ b.payloads, payload.length ≤ source.limit :=
    Element.ensures_readChildren (fun _ hm => nomatch hm) fun _ id h =>
      ensures_readChild mode hblock h id
  have hread := hregion _ _ _ hchildren
  have hmem : ∀ b ∈ Timeline.sort ClusterBlock.timecode blocks, b ∈ blocks := fun b hm =>
    (Timeline.perm_sort _ _).mem_iff.mp hm
  exact ⟨⟨fun b hm => (hread b (hmem b hm)).1, fun b hm => (hread b (hmem b hm)).2,
    Timeline.sort_sort _ _⟩, rfl⟩

theorem sound_of_read {c c' : BufferedCluster} {cursor cursor' : Cursor} {count : Nat}
    (hok : (Cluster.read mode : Filling BufferedCluster Nat) source ⟨c, cursor⟩ =
      .ok count ⟨c', cursor'⟩) : c'.Sound source.limit ∧ c'.start? = c.start? := by
  obtain ⟨opening, _, _, hblocks, _⟩ := Cluster.read_eq_ok.mp hok
  exact sound_of_readBlocks (c := { c with metadata := opening.metadata }) hblocks

/-! ## Saving -/

/-- However the cluster comes to be open, it is written where the output stands. -/
theorem save_eq {c : BufferedCluster} {stream : Stream}
    (hstart : ∀ start ∈ c.start?, stream.pos = start) (log : Log) :
    save ⟨c, ⟨stream, log⟩⟩ =
      write ⟨{ c with start? := some stream.pos }, ⟨stream, log⟩⟩ := by
  rw [save, Draining.held_bind]
  cases hopen : c.start? with
  | none =>
      rw [Option.isNone_none, if_pos rfl]
      exact Writer.bind_ok (prepare_eq hopen ⟨stream, log⟩)
  | some start =>
      have hsame : c = { c with start? := some stream.pos } := by
        rw [hstart start hopen, ← hopen]
      rw [← hsame]
      rfl

theorem Sound.writes {limit : Nat} {c : BufferedCluster} (h : c.Sound limit)
    (hbound : c.bodySize < Element.sizeBound) : c.Writes c.encoding := by
  intro stream hgrow hstart log
  have hsorted : BufferedCluster.sorted { c with start? := none } = { c with start? := none } := by
    rw [BufferedCluster.sorted, h.inOrder]
  obtain ⟨log', hwrite⟩ := (fillsGap_writeAt { c with start? := none } stream.pos).ok_of_growing
    (emits_writeAt _ _ fun _ : True => ⟨h.valid, hbound⟩) trivial hgrow log
  rw [save_eq hstart, write_eq rfl, if_pos rfl, hsorted, hwrite, encoding, Cluster.length_layout]
  exact ⟨_, log', rfl⟩

/-! ## Reading back -/

/-- Blocks that are equal are written alike. -/
theorem flatMap_encoding_of_beq :
    ∀ {blocks blocks' : List ClusterBlock}, (blocks == blocks') = true →
      blocks.flatMap Element.encoding = blocks'.flatMap Element.encoding
  | [], [], _ => rfl
  | [], _ :: _, h => by cases h
  | _ :: _, [], h => by cases h
  | b :: blocks, b' :: blocks', h => by
      rw [List.cons_beq_cons, Bool.and_eq_true] at h
      rw [List.flatMap_cons, List.flatMap_cons, ClusterBlock.encoding_of_beq h.1,
        flatMap_encoding_of_beq h.2]

section

variable {a b : BufferedCluster} {offset sizeLength : Nat}

/-- Where the metadata was found does not show in the size. -/
theorem bodySize_congr (hmetadata : a.metadata = { b.metadata with offset, sizeLength })
    (hblocks : (a.blocks == b.blocks) = true) : a.bodySize = b.bodySize := by
  rw [bodySize, bodySize, blocksSize, blocksSize, ← Element.length_children,
    flatMap_encoding_of_beq hblocks, Element.length_children, hmetadata]
  rfl

theorem encoding_congr (hmetadata : a.metadata = { b.metadata with offset, sizeLength })
    (hblocks : (a.blocks == b.blocks) = true) : a.encoding = b.encoding := by
  rw [encoding, encoding, Cluster.layout, Cluster.layout, bodySize_congr hmetadata hblocks,
    flatMap_encoding_of_beq hblocks, hmetadata]
  rfl

end

/-- Whatever was read of a cluster is written in a normal form, however it was stored. -/
theorem normalForm_of_read {c c' : BufferedCluster} {cursor cursor' : Cursor} {count : Nat}
    (hok : (Cluster.read mode : Filling BufferedCluster Nat) source ⟨c, cursor⟩ =
      .ok count ⟨c', cursor'⟩) (hbound : c'.bodySize < Element.sizeBound) :
    c'.NormalForm source.limit c'.encoding := by
  obtain ⟨hsound, -⟩ := sound_of_read hok
  refine ⟨hsound.writes hbound, fun {source' pos} hlimit hheld mode' other log => ?_⟩
  have hreadable : ∀ b ∈ c'.blocks, b.Readable source' := fun b hm =>
    ⟨hsound.valid b hm, Nat.lt_of_le_of_lt (Cluster.bodySize_le_contentSize hm) hbound,
      fun payload hp => Nat.le_trans (hsound.affordable b hm payload hp) hlimit⟩
  have hback : Cluster.ReadsBack source' pos (VarInt.octetLength c'.bodySize) c'.encoding.length
      c'.metadata c'.blocks := by
    rw [encoding, Cluster.length_layout]
    exact Cluster.readsBack_of_holds (VarInt.fits_octetLength (Element.le_max_of_lt hbound))
      hreadable hheld
  obtain ⟨c'', log', hread, hmetadata, hblocks⟩ := hback.buffered mode' other log
  rw [hsound.inOrder] at hblocks
  -- what was read back is sound for the same reason
  obtain ⟨_, _, hcluster⟩ := Cluster.read_of_readFrom hread
  obtain ⟨hsound', hstart⟩ := sound_of_read hcluster
  refine ⟨c'', log', hread, hmetadata, hblocks, hstart, ?_⟩
  rw [← encoding_congr hmetadata hblocks]
  exact hsound'.writes (bodySize_congr hmetadata hblocks ▸ hbound)

end BufferedCluster

/-- Whatever a reader accepts of blocks of every kind, of block additions and of clusters, what it
made of that can be written, is read back as an equal object, and is then written to the same
bytes. -/
theorem readings_normalize :
    Element.Normalizes Block ∧ Element.Normalizes SimpleBlock ∧ Element.Normalizes BlockGroup ∧
      Element.Normalizes BlockAdditions ∧
        ∀ {mode : ParsingMode} {source : Source} {c c' : BufferedCluster} {cursor cursor' : Cursor}
          {count : Nat},
          (Cluster.read mode : Filling BufferedCluster Nat) source ⟨c, cursor⟩ =
              .ok count ⟨c', cursor'⟩ →
            c'.bodySize < Element.sizeBound → c'.NormalForm source.limit c'.encoding :=
  ⟨Element.normalForm_of_fill, Element.normalForm_of_fill, Element.normalForm_of_fill,
    Element.normalForm_of_fill, BufferedCluster.normalForm_of_read⟩

/-- A cluster that was stored loosely.  Its size and some of its numbers are padded, the timecode is
repeated, and there are void elements, an unknown one, and a group with two blocks.  In the second
of them a frame is larger than the one before by 64, which is stored in one octet that is all ones,
and takes two octets in a normal form. -/
def loose : List UInt8 :=
  [0x1f, 0x43, 0xb6, 0x75, 0x20, 0x00, 0x78,
    0xe7, 0x40, 0x02, 0x00, 0x07, 0xec, 0x81, 0xff, 0x42, 0x86, 0x81, 0x01, 0xe7, 0x81, 0x09,
    0xa0, 0x40, 0x5d, 0xec, 0x80, 0xa1, 0x85, 0x82, 0x00, 0x09, 0x00, 0x11, 0xfb, 0x82, 0xff, 0x83,
    0xa1, 0xca, 0x81, 0x00, 0x05, 0x60, 0x03, 0x81, 0xff, 0xaa] ++ List.replicate 65 0xbb ++
    [0xcc, 0x9b, 0x82, 0x00, 0x00, 0xec, 0x80, 0xa3, 0x85, 0x81, 0x00, 0x03, 0x80, 0xdd]

/-- The opening and the blocks of the cluster, before these are put in order. -/
def looseContents : Option (Cluster.Opening × List ClusterBlock) :=
  let contents : Reader (Cluster.Opening × List ClusterBlock) := do
    let opening ← Cluster.readOpening .relaxed
    let blocks ← Element.readChildren .cluster opening.region []
      (BufferedCluster.readChild .relaxed)
    return (opening, blocks)
  match contents ⟨loose, 65⟩ ⟨4, #[]⟩ with
  | .ok found _ => some found
  | .error _ _ => none

/-- The cluster is written in 97 bytes, although it was read from 127.  These are read back in the
strictest mode, and written again. -/
theorem loose_normalizes :
    ∃ c cursor c' cursor' saved saved' sink sink',
      (Cluster.read .relaxed : Filling BufferedCluster Nat) ⟨loose, 65⟩ ⟨{}, ⟨4, #[]⟩⟩ =
          .ok 123 ⟨c, cursor⟩ ∧
        BufferedCluster.save ⟨c, ⟨{}, #[]⟩⟩ = .ok 97 ⟨saved, sink⟩ ∧
          (Cluster.readFrom .strict : Filling BufferedCluster (ElementId × Nat))
              ⟨sink.stream.data, 65⟩ ⟨{}, ⟨0, #[]⟩⟩ = .ok (.cluster, 97) ⟨c', cursor'⟩ ∧
            (c'.blocks == c.blocks) = true ∧
              BufferedCluster.save ⟨c', ⟨{}, #[]⟩⟩ = .ok 97 ⟨saved', sink'⟩ ∧
                sink'.stream = sink.stream := by
  have hsizes : looseContents.map (fun found => (found.1.total,
      Cluster.contentSize found.1.metadata found.2)) = some (123, 92) := by decide +kernel
  obtain ⟨⟨opening, blocks⟩, hcontents, hsizes⟩ := Option.map_eq_some_iff.mp hsizes
  obtain ⟨htotal, hsize⟩ := Prod.mk.inj hsizes
  rw [looseContents] at hcontents
  split at hcontents
  next found cursor hok =>
    cases hcontents
    obtain ⟨_, _, hopening, hok⟩ := Reader.bind_eq_ok.mp hok
    obtain ⟨_, _, hblocks, hpure⟩ := Reader.bind_eq_ok.mp hok
    cases hpure
    have hread : (Cluster.read .relaxed : Filling BufferedCluster Nat) ⟨loose, 65⟩
        ⟨{}, ⟨4, #[]⟩⟩ = .ok 123 ⟨.sorted { metadata := opening.metadata, blocks }, _⟩ :=
      Cluster.read_eq_ok.mpr ⟨opening, _, hopening,
        Filling.lift_bind_eq_ok.mpr ⟨_, _, hblocks, rfl⟩, htotal.symm⟩
    have hbody : BufferedCluster.bodySize (.sorted { metadata := opening.metadata, blocks }) = 92 :=
      (Cluster.contentSize_sort opening.metadata blocks).trans hsize
    have hlength : (BufferedCluster.encoding
        (.sorted { metadata := opening.metadata, blocks })).length = 97 := by
      rw [BufferedCluster.encoding, Cluster.length_layout, hbody]
      exact congrArg (5 + ·) hbody
    obtain ⟨_, _, _, _, hnormal⟩ := readings_normalize
    obtain ⟨hwrites, hreads⟩ := hnormal hread (by rw [hbody]; decide)
    obtain ⟨saved, log, hsave⟩ := hwrites {} rfl (fun _ hm => nomatch hm) #[]
    obtain ⟨c', log', hback, _, hsame, hstart, hwrites'⟩ := hreads (Nat.le_refl 65)
      (Source.holds_overlay {} _ 65) .strict {} #[]
    have hclosed : ∀ start ∈ c'.start?, ({} : Stream).pos = start := fun _ hm => by
      rw [hstart] at hm
      cases hm
    obtain ⟨saved', log'', hsave'⟩ := hwrites' {} rfl hclosed #[]
    rw [hlength] at hsave hback hsave'
    exact ⟨_, _, c', _, saved, saved', _, _, hread, hsave, hback, hsame, hsave', rfl⟩
  next => cases hcontents

end Ebml
