import Ebml.Proofs.Consumption
import Ebml.Proofs.Stream.Conduct
import Ebml.Proofs.Stream.Results

/-!
# How far a streaming cluster extends

The blocks of a streaming cluster stay in the stream, and so does the cluster.  When it was read, it
remembers in how many octets its size was stored and how large its region of blocks is.  Of its
metadata it has the values and not the bytes, and goes by the size that these have when they are
written.

So its total size reaches to where it ends in the stream exactly if the metadata takes as many bytes
in the stream as it would if it were written (`StreamingCluster.extent_iff`).  It does if the cluster
lies there as it would be written, however many octets its size is stored in
(`StreamingCluster.extent_of_layout`).  It need not if there is padding before the blocks, if a
number is stored in other than the fewest octets, or if a child occurs twice.
-/

namespace Ebml

variable {source : Source} {mode : ParsingMode}

/-! ## What is recorded of an opening -/

/-- Metadata was read in the same place. -/
def ClusterMetadata.Beside (m m' : ClusterMetadata) : Prop :=
  m'.offset = m.offset ∧ m'.sizeLength = m.sizeLength

/-- A child that is read keeps the place of the cluster. -/
theorem ClusterMetadata.ensures_readChild? (m : ClusterMetadata) (id : ElementId) :
    Reader.Ensures (m.readChild? id) source fun found => ∀ p ∈ found, m.Beside p.1 := by
  have hsome : ∀ {after : ClusterMetadata} {count : Nat}, m.Beside after →
      ∀ p ∈ some (after, count), m.Beside p.1 := by
    intro after count h p hm
    cases hm
    exact h
  rw [readChild?]
  split
  next => exact Reader.Ensures.any.bind fun _ _ => Reader.Ensures.pure (hsome ⟨rfl, rfl⟩)
  next =>
    split
    next => exact Reader.Ensures.any.bind fun _ _ => Reader.Ensures.pure (hsome ⟨rfl, rfl⟩)
    next =>
      split
      next => exact Reader.Ensures.any.bind fun _ _ => Reader.Ensures.pure (hsome ⟨rfl, rfl⟩)
      next =>
        split
        next =>
          exact Reader.Ensures.any.bind fun _ _ => Reader.Ensures.any.bind fun _ _ =>
            Reader.Ensures.pure (hsome ⟨rfl, rfl⟩)
        next => exact Reader.Ensures.pure fun p hm => absurd hm (Option.not_mem_none p)

namespace Cluster

/-- The metadata keeps the place of the cluster, and the region of blocks lies in its body. -/
theorem ensures_readMetadata (mode : ParsingMode) (size : Nat) :
    ∀ consumed m hasTimecode,
      Reader.Ensures (readMetadata mode size consumed m hasTimecode) source fun result =>
        m.Beside result.1 ∧ result.2 ≤ size := by
  intro consumed
  induction hleft : size - consumed using Nat.strongRecOn generalizing consumed with
  | ind left ih =>
      intro m hasTimecode
      rw [readMetadata]
      split
      next hlt =>
        refine Reader.Ensures.any.bind fun id _ => ?_
        have hsize := id.size_pos
        split
        next =>
          refine Reader.Ensures.any.bind fun _ _ => Reader.Ensures.any.bind fun _ _ =>
            Reader.Ensures.any.bind fun _ _ => Reader.Ensures.pure ⟨⟨rfl, rfl⟩, Nat.sub_le _ _⟩
        next =>
          refine (m.ensures_readChild? id).bind fun found hfound => ?_
          cases found with
          | some found =>
              obtain ⟨hoffset, hlength⟩ := hfound found rfl
              refine (ih _ (by omega) _ rfl _ _).mono fun result hresult => ?_
              exact ⟨⟨hresult.1.1.trans hoffset, hresult.1.2.trans hlength⟩, hresult.2⟩
          | none => exact Reader.Ensures.any.bind fun count _ => ih _ (by omega) _ rfl _ _
      next =>
        split
        next => exact Reader.Ensures.throw_bind
        next =>
          exact Reader.Ensures.any.bind fun _ _ =>
            Reader.Ensures.pure ⟨⟨rfl, rfl⟩, Nat.zero_le _⟩

/-- An opening records where the cluster is and how its size is stored. -/
theorem of_readOpening {opening : Opening} {cursor cursor' : Cursor}
    (hok : readOpening mode source cursor = .ok opening cursor') :
    ∃ size length,
      Reader.Yields VarInt.read source cursor.pos (size, length) (cursor.pos + length) ∧
        1 ≤ length ∧ opening.total = length + size ∧ opening.region ≤ size ∧
          opening.metadata.offset = cursor.pos - ElementId.cluster.size ∧
            opening.metadata.sizeLength = length := by
  obtain ⟨_, _, hposition, hok⟩ := Reader.bind_eq_ok.mp hok
  cases hposition
  obtain ⟨⟨size, length⟩, _, hsize, hok⟩ := Reader.bind_eq_ok.mp hok
  obtain ⟨_, _, hnote, hok⟩ := Reader.bind_eq_ok.mp hok
  cases hnote
  obtain ⟨⟨m, region⟩, _, hmetadata, hpure⟩ := Reader.bind_eq_ok.mp hok
  cases hpure
  obtain ⟨hbeside, hregion⟩ := ensures_readMetadata mode size _ _ _ _ _ _ hmetadata
  obtain ⟨n, _, ⟨hn, hpos, _⟩, _, hlocal⟩ := VarInt.spans_read _ _ _ _ hsize
  subst n
  exact ⟨size, length, hlocal source (.refl _ _ _), hpos, rfl, hregion, hbeside.1, hbeside.2⟩

end Cluster

/-! ## The total size -/

namespace StreamingCluster

variable {c c' : StreamingCluster} {cursor cursor' : Cursor} {pos count size length : Nat}

/-- The cluster has recorded that it was read at `pos`, after its ID, where the size of its body is
stored in `length` octets. -/
structure Recorded (source : Source) (pos size length : Nat) (c : StreamingCluster) : Prop where
  size_read : Reader.Yields VarInt.read source pos (size, length) (pos + length)
  closed : c.state? = none
  offset_eq : c.metadata.offset = pos - 4
  sizeLength_eq : c.sizeLength = length
  blocksSize_le : c.blocksSize ≤ size

theorem recorded_of_read
    (hok : (Cluster.read mode : Filling StreamingCluster Nat) source ⟨c, cursor⟩ =
      .ok count ⟨c', cursor'⟩) :
    ∃ size length, c'.Recorded source cursor.pos size length ∧ count = length + size ∧
      cursor'.pos = cursor.pos + count := by
  obtain ⟨opening, after, hopening, hblocks, rfl⟩ := Cluster.read_eq_ok.mp hok
  obtain ⟨size, length, hsize, hlength, htotal, hregion, hoffset, hsizeLength⟩ :=
    Cluster.of_readOpening hopening
  obtain ⟨n, hpos, hsum, _⟩ := Cluster.foresees_readOpening mode _ _ _ _ hopening
  obtain ⟨_, hpos', index, _, rfl⟩ := of_readBlocks hblocks
  have hwidth : sizeLengthFor { c with metadata := opening.metadata } opening.region = length := by
    rw [sizeLengthFor, if_neg (by dsimp only; omega)]
    exact hsizeLength
  rw [size_cluster] at hoffset
  exact ⟨size, length, ⟨hsize, rfl, hoffset, hwidth, hregion⟩, htotal, by omega⟩

theorem totalSize_of_closed (h : c.state? = none) :
    c.totalSize = 4 + c.sizeLength + (c.metadata.size + c.blocksSize) := by
  rw [totalSize, bodySize, h, size_cluster]
  rfl

/-- The total size goes beyond the end of the cluster, or stays behind it, as the size of the
metadata does with the bytes before the blocks. -/
theorem Recorded.totalSize_add (h : c.Recorded source pos size length) :
    c.totalSize + (size - c.blocksSize) = 4 + (length + size) + c.metadata.size := by
  have htotal := totalSize_of_closed h.closed
  have hlength := h.sizeLength_eq
  have hle := h.blocksSize_le
  omega

/-- A cluster that was read extends to where it ends in the stream exactly if its metadata takes as
many bytes there as are counted for it. -/
theorem extent_iff
    (hok : (Cluster.read mode : Filling StreamingCluster Nat) source ⟨c, cursor⟩ =
      .ok count ⟨c', cursor'⟩) :
    ∃ size length, c'.Recorded source cursor.pos size length ∧ count = length + size ∧
      cursor'.pos = cursor.pos + count ∧
        c'.totalSize + (size - c'.blocksSize) = 4 + count + c'.metadata.size ∧
          (c'.totalSize = 4 + count ↔ c'.metadata.size = size - c'.blocksSize) ∧
            (4 ≤ cursor.pos → (c'.metadata.offset + c'.totalSize = cursor'.pos ↔
              c'.metadata.size = size - c'.blocksSize)) := by
  obtain ⟨size, length, hrecorded, rfl, hpos⟩ := recorded_of_read hok
  have hextent := hrecorded.totalSize_add
  have hoffset := hrecorded.offset_eq
  exact ⟨size, length, hrecorded, rfl, hpos, hextent, by omega, by omega⟩

/-- A cluster that lies in the stream as it would be written extends to where it ends, whatever the
number of octets for its size. -/
theorem extent_of_layout {m : ClusterMetadata} {width region : Nat} {blocks : List ClusterBlock}
    (hwidth : VarInt.Fits (m.size + region) width)
    (hregion : region = (blocks.flatMap Element.encoding).length)
    (hlayout : source.Holds cursor.pos (VarInt.sized (m.size + region) width ++
      (m.encoding ++ blocks.flatMap Element.encoding)))
    (hok : (Cluster.read mode : Filling StreamingCluster Nat) source ⟨c, cursor⟩ =
      .ok count ⟨c', cursor'⟩) : c'.totalSize = 4 + count := by
  obtain ⟨opening, after, hopening, hblocks, hcount⟩ := Cluster.read_eq_ok.mp hok
  obtain ⟨log, hopening'⟩ := Cluster.yields_readOpening hwidth hregion hlayout cursor.log
  cases hopening.symm.trans hopening'
  obtain ⟨_, _, index, _, hc'⟩ := of_readBlocks hblocks
  have hsizeLength : c'.sizeLength = width := by
    rw [hc']
    exact if_neg (Nat.ne_of_gt hwidth.1)
  have hmetadata : c'.metadata.size = m.size := by
    rw [hc']
    rfl
  have hblocksSize : c'.blocksSize = region := by rw [hc']; rfl
  have htotal : c'.totalSize = 4 + c'.sizeLength + (c'.metadata.size + c'.blocksSize) :=
    totalSize_of_closed (by rw [hc']; rfl)
  rw [htotal, hsizeLength, hmetadata, hblocksSize, hcount, Nat.add_assoc]

/-- A cluster without blocks, whose timecode takes one octet more than it needs. -/
def wide : List UInt8 := [0x84, 0xe7, 0x82, 0x00, 0x07]

/-- It ends nine bytes after where it begins, and has a total size of eight. -/
theorem wide_extent :
    ∃ c cursor, (Cluster.read .strict : Filling StreamingCluster Nat)
        ⟨ElementId.cluster.encode ++ wide, 16⟩ ⟨{}, ⟨4, #[]⟩⟩ = .ok 5 ⟨c, cursor⟩ ∧
      cursor.pos = 9 ∧ c.metadata.offset = 0 ∧ c.totalSize = 8 ∧ c.totalSize ≠ 4 + 5 := by
  have hcount : resultOf? ((Cluster.read .strict : Filling StreamingCluster Nat)
      ⟨ElementId.cluster.encode ++ wide, 16⟩ ⟨{}, ⟨4, #[]⟩⟩) = some 5 := by decide +kernel
  have htotal : (stateOf ((Cluster.read .strict : Filling StreamingCluster Nat)
      ⟨ElementId.cluster.encode ++ wide, 16⟩ ⟨{}, ⟨4, #[]⟩⟩)).object.totalSize = 8 := by
    decide +kernel
  obtain ⟨⟨c, cursor⟩, hok⟩ := of_resultOf? hcount
  rw [hok] at htotal
  obtain ⟨size, length, hrecorded, -, hpos, -, -, -⟩ := extent_iff hok
  have hshort : c.totalSize = 8 := htotal
  exact ⟨c, cursor, hok, hpos, hrecorded.offset_eq, hshort, by omega⟩

end StreamingCluster

end Ebml
