import Ebml.Proofs.Cluster.Reading
import Ebml.Proofs.Stream.Assignment
import Ebml.Proofs.Stream.Conduct
import Ebml.Proofs.Stream.Results

/-!
# Reads of clusters that fail

A cluster replaces its blocks when all of them have been read, and what was read before is only the
metadata.  But that there was a timecode is checked afterwards.  So a read that fails has replaced
the blocks exactly if there are some that can be read, and then it fails for want of a timecode
(`Cluster.fails_read`).  Whatever else a read fails for, it changes the metadata alone.
-/

namespace Ebml

variable {source : Source} {mode : ParsingMode}

namespace Cluster

variable {κ : Type} [Cluster κ]

/-! ## What is left -/

/-- A kind of cluster that replaces its blocks only if all of them could be read. -/
class Retaining (κ : Type) [Cluster κ] : Prop where
  kept_of_readBlocks : ∀ {mode : ParsingMode} {size : Nat} {source : Source} {c c' : κ}
    {cursor cursor' : Cursor} {e : Error},
    (readBlocks mode size : Filling κ Nat) source ⟨c, cursor⟩ = .error e ⟨c', cursor'⟩ → c' = c

/-- The failure of a cluster without a timecode. -/
def untimed : Error := .missingChild ElementId.cluster.value ElementId.timecode.value

/-- The cluster comes to have the blocks of a region: `opening` can be read, which gives the
metadata and the size of the region, and so can the blocks, of which there are some. -/
def Replaced (mode : ParsingMode) (source : Source) (c : κ)
    (opening : Reader (ClusterMetadata × Nat)) (cursor : Cursor) (state : Held κ Cursor) : Prop :=
  ∃ found after, opening source cursor = .ok found after ∧ found.2 ≠ 0 ∧
    (readBlocks mode found.2 : Filling κ Nat) source ⟨setMetadata c found.1, after⟩ =
      .ok found.2 state

/-- What reading into the cluster `c` leaves if it fails.  Either the blocks were replaced, as they
are where `opening` and the blocks after it can be read, and it is a timecode that is missing.  Or
they cannot be read, and the metadata alone has changed. -/
def Fails (mode : ParsingMode) (source : Source) (c : κ) (x : Filling κ Nat)
    (opening : Reader (ClusterMetadata × Nat)) : Prop :=
  ∀ cursor cursor' e c', x source ⟨c, cursor⟩ = .error e ⟨c', cursor'⟩ →
    e = untimed ∧ Replaced mode source c opening cursor ⟨c', cursor'⟩ ∨
      (∃ m, c' = setMetadata c m) ∧ ∀ state, ¬ Replaced mode source c opening cursor state

namespace Fails

variable {c : κ} {x : Filling κ Nat} {opening : Reader (ClusterMetadata × Nat)}

theorem object_bind {f : κ → Filling κ Nat} (h : Fails mode source c (f c) opening) :
    Fails mode source c (Filling.object >>= f) opening := h

variable [LawfulCluster κ]

/-- A failure of a reader keeps the cluster. -/
theorem lift_bind {α : Type} {r : Reader α} {f : α → Filling κ Nat}
    {g : α → Reader (ClusterMetadata × Nat)} (h : ∀ a, Fails mode source c (f a) (g a)) :
    Fails mode source c (Filling.lift r >>= f) (r >>= g) := by
  intro cursor cursor' e c' hfails
  simp only [Replaced]
  cases hr : r source cursor with
  | ok a after =>
      rw [Filling.lift_bind_of_ok hr] at hfails
      rw [Reader.bind_of_ok hr]
      exact h a _ _ _ _ hfails
  | error e after =>
      rw [Filling.lift_bind_of_error hr] at hfails
      rw [Reader.bind_of_error hr]
      cases hfails
      exact .inr ⟨⟨_, (LawfulCluster.setMetadata_metadata c).symm⟩, nofun⟩

/-- Metadata is replaced again by what comes after. -/
theorem change_bind {m : ClusterMetadata} (h : Fails mode source (setMetadata c m) x opening) :
    Fails mode source c (Filling.change (setMetadata · m) >>= fun _ => x) opening := by
  intro cursor cursor' e c' hfails
  have hrest := h _ _ _ _ hfails
  simp only [Replaced, LawfulCluster.setMetadata_setMetadata] at hrest
  exact hrest

/-- Where there is no region of blocks, nothing is replaced. -/
theorem of_kept
    (hkept : ∀ {cursor cursor' e c'}, x source ⟨c, cursor⟩ = .error e ⟨c', cursor'⟩ → c' = c)
    (hnone : Reader.Ensures opening source fun found => found.2 = 0) :
    Fails mode source c x opening := by
  intro cursor cursor' e c' hfails
  cases hkept hfails
  refine .inr ⟨⟨_, (LawfulCluster.setMetadata_metadata c).symm⟩, ?_⟩
  rintro state ⟨found, after, hok, hregion, _⟩
  exact hregion (hnone _ _ _ hok)

end Fails

variable [Retaining κ]

/-! ## Along the reader -/

/-- Whether it is the size, the timecode or the empty region that a cluster fails for in the end, it
stays as it is. -/
theorem kept_of_conclude {size sizeLength : Nat} {contents : Contents} {c c' : κ}
    {cursor cursor' : Cursor} {e : Error}
    (h : (conclude mode size sizeLength contents : Filling κ Nat) source ⟨c, cursor⟩ =
      .error e ⟨c', cursor'⟩) : c' = c := by
  rw [conclude] at h
  split at h
  next =>
    cases h
    rfl
  next =>
    dsimp only at h
    split at h
    next =>
      cases h
      rfl
    next =>
      split at h
      next =>
        cases hblocks : (readBlocks mode 0 : Filling κ Nat) source ⟨c, cursor⟩ with
        | ok found state =>
            rw [Reader.bind_of_ok hblocks] at h
            cases h
        | error e state =>
            rw [Reader.bind_of_error hblocks] at h
            cases h
            exact Retaining.kept_of_readBlocks hblocks
      next => cases h

variable [LawfulCluster κ]

/-- After its blocks a cluster fails for want of a timecode, or for the blocks. -/
theorem fails_blocks (c : κ) {size sizeLength consumed : Nat} {hasTimecode : Bool}
    (hlt : consumed < size) :
    Fails mode source c
      (do
        let count ← readBlocks mode (size - consumed)
        conclude mode size sizeLength ⟨consumed + count, hasTimecode, true⟩)
      (pure (metadata c, size - consumed)) := by
  intro cursor cursor' e c' hfails
  have hregion : size - consumed ≠ 0 := by omega
  cases hblocks : (readBlocks mode (size - consumed) : Filling κ Nat) source ⟨c, cursor⟩ with
  | ok count state =>
      have hcount := LawfulCluster.count_readBlocks hblocks
      subst hcount
      rw [Reader.bind_of_ok hblocks, conclude,
        if_neg (Decidable.not_not.mpr (Nat.add_sub_cancel' (Nat.le_of_lt hlt)))] at hfails
      cases hasTimecode with
      | true => cases hfails
      | false =>
          cases hfails
          refine .inl ⟨rfl, _, _, rfl, hregion, ?_⟩
          rw [LawfulCluster.setMetadata_metadata]
          exact hblocks
  | error e state =>
      rw [Reader.bind_of_error hblocks] at hfails
      cases hfails
      refine .inr ⟨⟨metadata c, ?_⟩, ?_⟩
      · rw [LawfulCluster.setMetadata_metadata]
        exact Retaining.kept_of_readBlocks hblocks
      · rintro state ⟨_, _, hpure, _, hok⟩
        cases hpure
        rw [LawfulCluster.setMetadata_metadata, hblocks] at hok
        cases hok

/-- The metadata and the blocks after it.  What can be read of them does not depend on whether a
timecode was met, since that is looked at in the end. -/
theorem fails_contents (mode : ParsingMode) (source : Source) (size sizeLength : Nat) :
    ∀ (consumed : Nat) (hasTimecode : Bool) (c : κ),
      Fails mode source c
        (readContents mode size consumed hasTimecode >>= conclude mode size sizeLength)
        (readMetadata mode size consumed (metadata c) true) := by
  intro consumed
  -- every child takes at least the octet of its ID, so less of the body is left after it
  induction hleft : size - consumed using Nat.strongRecOn generalizing consumed with
  | ind left ih =>
      intro hasTimecode c
      rw [readContents, readMetadata]
      by_cases hlt : consumed < size
      · rw [if_pos hlt, if_pos hlt, bind_assoc]
        refine Fails.lift_bind fun id => ?_
        have hsize := id.size_pos
        by_cases hblock : (ClusterBlock.ofId? id).isSome
        · rw [if_pos hblock, if_pos hblock]
          simp only [bind_assoc, pure_bind]
          -- both readers go back to before the ID of the first block
          have hback : (do
              Reader.seek ((← Reader.position) - id.size)
              requireTimecode true
              return (metadata c, size - consumed) : Reader (ClusterMetadata × Nat)) =
                (do Reader.seek ((← Reader.position) - id.size)) >>= fun _ =>
                  pure (metadata c, size - consumed) := by
            rw [bind_assoc]
            rfl
          rw [hback]
          exact Fails.lift_bind fun _ => fails_blocks c hlt
        · rw [if_neg hblock, if_neg hblock, bind_assoc]
          refine Fails.object_bind ?_
          rw [bind_assoc]
          refine Fails.lift_bind fun found => ?_
          cases found with
          | some found =>
              dsimp only
              rw [bind_assoc]
              refine Fails.change_bind ?_
              have hrest := ih _ (by omega) (consumed + id.size + found.2) rfl
                (hasTimecode || id = .timecode) (setMetadata c found.1)
              rwa [LawfulCluster.metadata_setMetadata] at hrest
          | none =>
              dsimp only
              rw [bind_assoc]
              exact Fails.lift_bind fun count => ih _ (by omega) _ rfl _ _
      · rw [if_neg hlt, if_neg hlt, pure_bind]
        refine Fails.of_kept kept_of_conclude ?_
        split
        next => exact Reader.Ensures.throw_bind
        next => exact Reader.Ensures.any.bind fun _ _ => Reader.Ensures.pure rfl

/-- Reads what comes before the blocks of a cluster, with a timecode or without. -/
def readUntimed (mode : ParsingMode) : Reader (ClusterMetadata × Nat) := do
  let offset := (← Reader.position) - ElementId.cluster.size
  let (size, sizeLength) ← VarInt.read
  Reader.note (.readingCluster offset size)
  readMetadata mode size 0 { offset, sizeLength } true

/-- A whole cluster fails as what comes before its blocks, and the blocks, can be read. -/
theorem fails_read (mode : ParsingMode) (source : Source) (c : κ) :
    Fails mode source c (read mode) (readUntimed mode) := by
  rw [read_eq, readUntimed]
  refine Fails.lift_bind fun position => Fails.lift_bind fun (size, sizeLength) =>
    Fails.lift_bind fun _ => Fails.change_bind ?_
  have hcontents := fails_contents mode source size sizeLength 0 false
    (setMetadata c { offset := position - ElementId.cluster.size, sizeLength })
  rwa [LawfulCluster.metadata_setMetadata] at hcontents

end Cluster

/-! ## Both kinds of clusters -/

theorem BufferedCluster.commits_readBlocks (mode : ParsingMode) (size : Nat) (c : BufferedCluster) :
    Filling.Commits c (readBlocks mode size) (do
      let blocks ← Element.readChildren .cluster size [] (readChild mode)
      Reader.note (.readBlocks blocks.length)
      return (sorted { c with blocks }, size)) :=
  .lift_bind fun _ => .lift_bind fun _ _ _ => rfl

theorem StreamingCluster.commits_readBlocks (mode : ParsingMode) (size : Nat)
    (c : StreamingCluster) :
    Filling.Commits c (readBlocks mode size) (do
      let index ← Element.readChildren .cluster size [] (readChild mode)
      Reader.note (.indexedBlocks index.length)
      return (sorted { c with
        index, sizeLength := c.sizeLengthFor size, blocksSize := size, state? := none }, size)) :=
  .lift_bind fun _ => .lift_bind fun _ _ _ => rfl

instance : Cluster.Retaining BufferedCluster where
  kept_of_readBlocks h := (BufferedCluster.commits_readBlocks _ _ _).kept h

instance : Cluster.Retaining StreamingCluster where
  kept_of_readBlocks h := (StreamingCluster.commits_readBlocks _ _ _).kept h

namespace Cluster

/-- There are blocks after the metadata, in a region of a size, and `handle` makes `items` of
them. -/
def Finds {α : Type} (mode : ParsingMode) (source : Source) (cursor : Cursor)
    (handle : List α → ElementId → Reader (List α × Nat)) (m : ClusterMetadata) (region : Nat)
    (items : List α) : Prop :=
  ∃ after, readUntimed mode source cursor = .ok (m, region) after ∧ region ≠ 0 ∧
    Element.Traverses handle source after.pos [] (after.pos + region) items

/-- What a read that fails leaves of a cluster that goes through its blocks with `handle`, and to
which `fill` gives what was made of them. -/
theorem replaced_or_kept {κ α : Type} [Cluster κ] [LawfulCluster κ] [Retaining κ]
    {handle : List α → ElementId → Reader (List α × Nat)} (fill : κ → Nat → List α → κ)
    (hblocks : ∀ {size c state} {after : Cursor},
      (readBlocks mode size : Filling κ Nat) source ⟨c, after⟩ = .ok size state →
        ∃ items, Element.Traverses handle source after.pos [] (after.pos + size) items ∧
          state.object = fill c size items)
    (htraverses : ∀ {size items} {after : Cursor},
      Element.Traverses handle source after.pos [] (after.pos + size) items → ∀ c : κ,
        ∃ state, (readBlocks mode size : Filling κ Nat) source ⟨c, after⟩ = .ok size state)
    {c c' : κ} {cursor cursor' : Cursor} {e : Error}
    (h : (read mode : Filling κ Nat) source ⟨c, cursor⟩ = .error e ⟨c', cursor'⟩) :
    (e = untimed ∧ ∃ m region items, Finds mode source cursor handle m region items ∧
        c' = fill (setMetadata c m) region items) ∨
      (∃ m, c' = setMetadata c m) ∧
        ¬ ∃ m region items, Finds mode source cursor handle m region items := by
  rcases fails_read mode source c _ _ _ _ h with ⟨he, hreplaced⟩ | ⟨hkept, hnot⟩
  · obtain ⟨⟨m, region⟩, after, hopening, hregion, hok⟩ := hreplaced
    obtain ⟨items, hitems, hc'⟩ := hblocks hok
    exact .inl ⟨he, m, region, items, ⟨after, hopening, hregion, hitems⟩, hc'⟩
  · refine .inr ⟨hkept, ?_⟩
    rintro ⟨m, region, items, after, hopening, hregion, hitems⟩
    obtain ⟨state, hok⟩ := htraverses hitems (setMetadata c m)
    exact hnot state ⟨_, after, hopening, hregion, hok⟩

end Cluster

/-- A read that fails has replaced the blocks exactly if there are blocks that can be read, and then
it fails for want of a timecode. -/
theorem failed_reads_replace (mode : ParsingMode) (source : Source) :
    (∀ c cursor e c' cursor',
      (Cluster.read mode : Filling BufferedCluster Nat) source ⟨c, cursor⟩ =
        .error e ⟨c', cursor'⟩ →
      (e = Cluster.untimed ∧ ∃ m region blocks,
        Cluster.Finds mode source cursor (BufferedCluster.readChild mode) m region blocks ∧
          c' = BufferedCluster.sorted { c with metadata := m, blocks }) ∨
      (∃ m, c' = { c with metadata := m }) ∧ ¬ ∃ m region blocks,
        Cluster.Finds mode source cursor (BufferedCluster.readChild mode) m region blocks) ∧
    ∀ c cursor e c' cursor',
      (Cluster.read mode : Filling StreamingCluster Nat) source ⟨c, cursor⟩ =
        .error e ⟨c', cursor'⟩ →
      (e = Cluster.untimed ∧ ∃ m region index,
        Cluster.Finds mode source cursor (StreamingCluster.readChild mode) m region index ∧
          c' = StreamingCluster.sorted { c with
            metadata := m, index, blocksSize := region, state? := none
            sizeLength := StreamingCluster.sizeLengthFor { c with metadata := m } region }) ∨
      (∃ m, c' = { c with metadata := m }) ∧ ¬ ∃ m region index,
        Cluster.Finds mode source cursor (StreamingCluster.readChild mode) m region index := by
  constructor
  · intro c cursor e c' cursor'
    refine Cluster.replaced_or_kept
      (fun c _ blocks => BufferedCluster.sorted { c with blocks }) ?_ ?_
    · intro size c state after hok
      obtain ⟨-, -, blocks, hblocks, hc'⟩ := BufferedCluster.of_readBlocks hok
      exact ⟨blocks, hblocks, hc'⟩
    · intro size blocks after hblocks c
      obtain ⟨log, hok⟩ := BufferedCluster.readBlocks_of_traverses hblocks c after.log
      exact ⟨_, hok⟩
  · intro c cursor e c' cursor'
    refine Cluster.replaced_or_kept (fun c region index =>
      StreamingCluster.sorted { c with
        index, sizeLength := c.sizeLengthFor region, blocksSize := region, state? := none }) ?_ ?_
    · intro size c state after hok
      obtain ⟨-, -, index, hindex, hc'⟩ := StreamingCluster.of_readBlocks hok
      exact ⟨index, hindex, hc'⟩
    · intro size index after hindex c
      obtain ⟨log, hok⟩ := StreamingCluster.readBlocks_of_traverses hindex c after.log
      exact ⟨_, hok⟩

/-- The size and the body of a cluster with a block of one byte and no timecode. -/
def untimedCluster : List UInt8 := [0x87, 0xa3, 0x85, 0x81, 0x00, 0x00, 0x00, 0xaa]

/-- What a streaming cluster has written that was prepared after these bytes. -/
def preparedAfter : OpenState := { start := 12, bodyStart := 24, expected := 27, metadata := {} }

/-- Clusters of both kinds are prepared and have no blocks.  Then each has the block of a cluster
that was refused, and the streaming one is closed. -/
theorem untimedCluster_replaces :
    ∃ b cursor s cursor',
      (Cluster.read .strict : Filling BufferedCluster Nat)
          ⟨ElementId.cluster.encode ++ untimedCluster, 16⟩ ⟨{ start? := some 12 }, ⟨4, #[]⟩⟩ =
        .error Cluster.untimed ⟨b, cursor⟩ ∧ b.blocks.length = 1 ∧ b.start? = some 12 ∧
      (Cluster.read .strict : Filling StreamingCluster Nat)
          ⟨ElementId.cluster.encode ++ untimedCluster, 16⟩
          ⟨{ state? := some preparedAfter }, ⟨4, #[]⟩⟩ =
        .error Cluster.untimed ⟨s, cursor'⟩ ∧ s.index.length = 1 ∧ s.state? = none := by
  obtain ⟨hbuffered, hstreaming⟩ :=
    failed_reads_replace .strict ⟨ElementId.cluster.encode ++ untimedCluster, 16⟩
  have hrefused : errorOf? ((Cluster.read .strict : Filling BufferedCluster Nat)
      ⟨ElementId.cluster.encode ++ untimedCluster, 16⟩ ⟨{ start? := some 12 }, ⟨4, #[]⟩⟩) =
        some Cluster.untimed := by decide +kernel
  have hblocks : (stateOf ((Cluster.read .strict : Filling BufferedCluster Nat)
      ⟨ElementId.cluster.encode ++ untimedCluster, 16⟩
      ⟨{ start? := some 12 }, ⟨4, #[]⟩⟩)).object.blocks.length = 1 := by decide +kernel
  have hrefused' : errorOf? ((Cluster.read .strict : Filling StreamingCluster Nat)
      ⟨ElementId.cluster.encode ++ untimedCluster, 16⟩
      ⟨{ state? := some preparedAfter }, ⟨4, #[]⟩⟩) = some Cluster.untimed := by decide +kernel
  have hindex : (stateOf ((Cluster.read .strict : Filling StreamingCluster Nat)
      ⟨ElementId.cluster.encode ++ untimedCluster, 16⟩
      ⟨{ state? := some preparedAfter }, ⟨4, #[]⟩⟩)).object.index.length = 1 := by decide +kernel
  obtain ⟨⟨b, cursor⟩, hread⟩ := of_errorOf? hrefused
  obtain ⟨⟨s, cursor'⟩, hread'⟩ := of_errorOf? hrefused'
  rw [hread] at hblocks
  rw [hread'] at hindex
  refine ⟨b, cursor, s, cursor', hread, hblocks, ?_, hread', hindex, ?_⟩
  · rcases hbuffered _ _ _ _ _ hread with ⟨-, m, region, blocks, -, hb⟩ | ⟨⟨m, hb⟩, -⟩
    · rw [hb]
      rfl
    · rw [hb]
  · rcases hstreaming _ _ _ _ _ hread' with ⟨-, m, region, index, -, hs⟩ | ⟨⟨m, hs⟩, -⟩
    · rw [hs]
      rfl
    · rw [hs] at hindex
      cases hindex

end Ebml
