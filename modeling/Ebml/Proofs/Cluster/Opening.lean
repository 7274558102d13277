import Ebml.Proofs.Cluster.Metadata
import Ebml.Proofs.Cluster.Region
import Ebml.Proofs.Stream.Held

/-!
# What comes before the blocks

Reading a cluster comes down to two readers in a row, neither of which looks at what the cluster
held before: one that reads up to the blocks (`Cluster.readOpening`), and the one for the region
of blocks, which depends on the kind of cluster (`Cluster.read_eq_ok`).  So clusters of both kinds
read the same metadata and leave the same region.
-/

namespace Ebml

/-- A kind of cluster whose metadata can be replaced, and that reads the region of blocks that it is
asked for. -/
class LawfulCluster (κ : Type) [Cluster κ] : Prop where
  metadata_setMetadata : ∀ (c : κ) m, Cluster.metadata (Cluster.setMetadata c m) = m
  setMetadata_setMetadata : ∀ (c : κ) m m',
    Cluster.setMetadata (Cluster.setMetadata c m) m' = Cluster.setMetadata c m'
  setMetadata_metadata : ∀ c : κ, Cluster.setMetadata c (Cluster.metadata c) = c
  count_readBlocks : ∀ {mode : ParsingMode} {size count : Nat} {source : Source}
    {state state' : Held κ Cursor},
    (Cluster.readBlocks mode size : Filling κ Nat) source state = .ok count state' → count = size

theorem StreamingCluster.size_cluster : ElementId.cluster.size = 4 := by decide

namespace Cluster

variable {κ : Type} [Cluster κ] {source : Source} {pos : Nat} {mode : ParsingMode}

theorem spans_skipChild (mode : ParsingMode) (id : ElementId) :
    Reader.Spans (skipChild mode id) fun count n => n = count := by
  rw [skipChild]
  split
  next =>
    split
    next => exact Reader.Spans.throw_bind
    next => exact Element.spans_skipRest
  next =>
    split
    next => exact Reader.Spans.throw_bind
    next =>
      refine (Reader.Spans.note _).bind fun _ n hn => ?_
      subst hn
      exact Element.spans_skipRest.mono fun _ _ h => (Nat.zero_add _).trans h

/-! ## Up to the blocks -/

/-- Fails if a cluster has no timecode. -/
def requireTimecode (hasTimecode : Bool) : Reader Unit :=
  if hasTimecode then return
  else throw (.missingChild ElementId.cluster.value ElementId.timecode.value)

/-- Reads the metadata in what is left of a body of `size` bytes, of which `consumed` are read, and
returns it with the size of the region of blocks. -/
def readMetadata (mode : ParsingMode) (size consumed : Nat) (m : ClusterMetadata)
    (hasTimecode : Bool) : Reader (ClusterMetadata × Nat) := do
  if consumed < size then
    let id ← ElementId.read
    if (ClusterBlock.ofId? id).isSome then
      Reader.seek ((← Reader.position) - id.size)
      requireTimecode hasTimecode
      return (m, size - consumed)
    else
      match ← m.readChild? id with
      | some (after, count) =>
        readMetadata mode size (consumed + id.size + count) after (hasTimecode || id = .timecode)
      | none =>
        let count ← skipChild mode id
        readMetadata mode size (consumed + id.size + count) m hasTimecode
  else
    if consumed ≠ size then throw (.badBodySize ElementId.cluster.value size consumed)
    requireTimecode hasTimecode
    return (m, 0)
termination_by size - consumed
decreasing_by
  all_goals
    have := id.size_pos
    omega

/-- What is read of a cluster before its blocks. -/
structure Opening where
  /-- The metadata. -/
  metadata : ClusterMetadata
  /-- The size of the region of blocks. -/
  region : Nat
  /-- The bytes after the ID of the cluster. -/
  total : Nat

/-- Reads the size of a cluster, whose ID was read, and its metadata. -/
def readOpening (mode : ParsingMode) : Reader Opening := do
  let offset := (← Reader.position) - ElementId.cluster.size
  let (size, sizeLength) ← VarInt.read
  Reader.note (.readingCluster offset size)
  let (metadata, region) ← readMetadata mode size 0 { offset, sizeLength } false
  return { metadata, region, total := sizeLength + size }

theorem requireTimecode_eq_ok {hasTimecode : Bool} {cursor cursor' : Cursor} {u : Unit} :
    requireTimecode hasTimecode source cursor = .ok u cursor' ↔
      hasTimecode = true ∧ cursor = cursor' := by
  cases hasTimecode with
  | false =>
      constructor
      · intro h
        cases h
      · rintro ⟨h, _⟩
        cases h
  | true =>
      constructor
      · intro h
        cases h
        exact ⟨rfl, rfl⟩
      · rintro ⟨_, rfl⟩
        rfl

theorem spans_requireTimecode (hasTimecode : Bool) :
    Reader.Spans (requireTimecode hasTimecode) fun _ n => n = 0 := by
  rw [requireTimecode]
  split
  next => exact Reader.Spans.pure rfl
  next => exact Reader.Spans.throw

/-- A reader that has come to a block goes back to before its ID. -/
theorem retreats_block (id : ElementId) (hasTimecode : Bool) (result : ClusterMetadata × Nat) :
    Reader.Retreats (do
      Reader.seek ((← Reader.position) - id.size)
      requireTimecode hasTimecode
      return result) id.size fun found => found = result := by
  intro source cursor found cursor' hok
  obtain ⟨_, _, hposition, hok⟩ := Reader.bind_eq_ok.mp hok
  cases hposition
  obtain ⟨_, _, hseek, hok⟩ := Reader.bind_eq_ok.mp hok
  cases hseek
  obtain ⟨_, _, hrequire, hok⟩ := Reader.bind_eq_ok.mp hok
  obtain ⟨rfl, rfl⟩ := requireTimecode_eq_ok.mp hrequire
  cases hok
  exact ⟨rfl, rfl, fun other log => ⟨log, rfl⟩⟩

/-- The metadata was read from what comes before the region of blocks and, if there are blocks, from
the first octet of the region. -/
theorem foresees_readMetadata (mode : ParsingMode) (size : Nat) :
    ∀ consumed m hasTimecode,
      Reader.Foresees (readMetadata mode size consumed m hasTimecode) Prod.snd fun result n =>
        consumed + n + result.2 = size := by
  intro consumed
  induction hleft : size - consumed using Nat.strongRecOn generalizing consumed with
  | ind left ih =>
      intro m hasTimecode
      rw [readMetadata]
      split
      next hlt =>
        refine .bind ElementId.spans_read fun id n hn => ?_
        subst hn
        have hsize := id.size_pos
        split
        next hblock =>
          have hone := ClusterBlock.size_of_isSome hblock
          refine Or.inr ((retreats_block id hasTimecode _).mono fun result hresult => ?_)
          subst hresult
          exact ⟨by dsimp only; omega, by dsimp only; omega⟩
        next =>
          refine Or.inl (.bind (m.spans_readChild? id) fun found n hn => Or.inl ?_)
          subst hn
          cases found with
          | some found =>
              refine (ih _ (by omega) _ rfl _ _).mono fun _ _ hsum => ?_
              rw [Option.map_some, Option.getD_some]
              omega
          | none =>
              refine .bind (spans_skipChild mode id) fun count n hn => Or.inl ?_
              subst hn
              refine (ih _ (by omega) _ rfl _ _).mono fun _ _ hsum => ?_
              rw [Option.map_none, Option.getD_none]
              omega
      next hge =>
        split
        next => exact .of_spans Reader.Spans.throw_bind
        next heq =>
          refine .of_spans ((spans_requireTimecode hasTimecode).bind fun _ n hn =>
            Reader.Spans.pure ?_)
          subst hn
          exact Decidable.not_not.mp heq

theorem foresees_readOpening (mode : ParsingMode) :
    Reader.Foresees (readOpening mode) Opening.region fun opening n =>
      n + opening.region = opening.total := by
  refine .bind Reader.Spans.position fun _ n hn => Or.inl ?_
  subst hn
  refine .bind VarInt.spans_read fun ⟨size, sizeLength⟩ n hn => Or.inl ?_
  obtain ⟨rfl, _⟩ := hn
  refine .bind (Reader.Spans.note _) fun _ n hn => Or.inl ?_
  subst hn
  refine (foresees_readMetadata mode size 0 _ false).map fun result => ⟨_, rfl, rfl, ?_⟩
  intro n hsum
  dsimp only
  omega

theorem steady_readOpening (mode : ParsingMode) : Reader.Steady (readOpening mode) :=
  .of_foresees (foresees_readOpening mode)

/-- The bytes of a cluster that are counted are those of its size and of its body. -/
theorem counts_readOpening (mode : ParsingMode) :
    Element.Counts (readOpening mode) Opening.total := by
  intro source cursor opening cursor'' hok
  obtain ⟨_, _, hposition, hrest⟩ := Reader.bind_eq_ok.mp hok
  cases hposition
  refine Element.counts_varInt (fun size length _ _ _ _ hok => ?_) source cursor opening cursor''
    hrest
  obtain ⟨_, _, _, hok⟩ := Reader.bind_eq_ok.mp hok
  obtain ⟨_, _, _, hpure⟩ := Reader.bind_eq_ok.mp hok
  cases hpure
  rfl

/-! ## Reading in two steps -/

theorem exists_requireTimecode {α : Type} {hasTimecode : Bool} {a : α} {cursor : Cursor}
    {P : α → Cursor → Prop} :
    (∃ b after, (do requireTimecode hasTimecode; return a : Reader α) source cursor =
      .ok b after ∧ P b after) ↔ hasTimecode = true ∧ P a cursor := by
  rw [Reader.exists_bind_eq_ok]
  constructor
  · rintro ⟨_, _, hrequire, _, _, hpure, hb⟩
    obtain ⟨htimecode, rfl⟩ := requireTimecode_eq_ok.mp hrequire
    cases hpure
    exact ⟨htimecode, hb⟩
  · rintro ⟨htimecode, hb⟩
    exact ⟨(), cursor, requireTimecode_eq_ok.mpr ⟨htimecode, rfl⟩, a, cursor, rfl, hb⟩

/-- What is checked of a cluster after its contents were read.  If there were no blocks, an empty
region is read. -/
def conclude (mode : ParsingMode) (size sizeLength : Nat) (contents : Contents) :
    Filling κ Nat := do
  if contents.consumed ≠ size then
    throw (.badBodySize ElementId.cluster.value size contents.consumed)
  if !contents.hasTimecode then
    throw (.missingChild ElementId.cluster.value ElementId.timecode.value)
  if !contents.hasBlocks then
    let _ : Nat ← (readBlocks mode 0 : Filling κ Nat)
  return sizeLength + size

theorem read_eq (mode : ParsingMode) : (read mode : Filling κ Nat) = (do
    let offset := (← Filling.lift Reader.position) - ElementId.cluster.size
    let (size, sizeLength) ← Filling.lift VarInt.read
    Filling.lift (Reader.note (.readingCluster offset size))
    Filling.change (setMetadata · { offset, sizeLength })
    readContents mode size 0 false >>= conclude mode size sizeLength) := rfl

theorem conclude_eq_ok {size sizeLength count : Nat} {contents : Contents}
    {state state' : Held κ Cursor} :
    (conclude mode size sizeLength contents : Filling κ Nat) source state = .ok count state' ↔
      contents.consumed = size ∧ contents.hasTimecode = true ∧ count = sizeLength + size ∧
        if contents.hasBlocks then state = state'
        else ∃ found, (readBlocks mode 0 : Filling κ Nat) source state = .ok found state' := by
  obtain ⟨consumed, hasTimecode, hasBlocks⟩ := contents
  rw [conclude]
  by_cases hsize : consumed = size
  · rw [if_neg (Decidable.not_not.mpr hsize)]
    cases hasTimecode with
    | false =>
        constructor
        · intro h
          cases h
        · rintro ⟨_, h, _⟩
          cases h
    | true =>
        cases hasBlocks with
        | true =>
            constructor
            · intro h
              cases h
              exact ⟨hsize, rfl, rfl, rfl⟩
            · rintro ⟨_, _, rfl, rfl⟩
              rfl
        | false =>
            constructor
            · intro h
              obtain ⟨found, _, hblocks, hpure⟩ := Reader.bind_eq_ok.mp h
              cases hpure
              exact ⟨hsize, rfl, rfl, found, hblocks⟩
            · rintro ⟨_, _, rfl, found, hblocks⟩
              exact Reader.bind_eq_ok.mpr ⟨found, state', hblocks, rfl⟩
  · rw [if_pos hsize]
    constructor
    · intro h
      cases h
    · rintro ⟨h, _⟩
      exact absurd h hsize

variable [LawfulCluster κ]

/-- After its metadata a cluster reads the region of blocks. -/
theorem readContents_eq_ok {size sizeLength count : Nat} :
    ∀ {consumed : Nat} {hasTimecode : Bool} {c : κ} {cursor : Cursor} {state : Held κ Cursor},
      (readContents mode size consumed hasTimecode >>= conclude mode size sizeLength :
          Filling κ Nat) source ⟨c, cursor⟩ = .ok count state ↔
        ∃ found after,
          readMetadata mode size consumed (metadata c) hasTimecode source cursor =
              .ok found after ∧
            (readBlocks mode found.2 : Filling κ Nat) source ⟨setMetadata c found.1, after⟩ =
              .ok found.2 state ∧
            count = sizeLength + size := by
  intro consumed
  induction hleft : size - consumed using Nat.strongRecOn generalizing consumed with
  | ind left ih =>
      intro hasTimecode c cursor state
      rw [readContents, readMetadata]
      by_cases hlt : consumed < size
      · rw [if_pos hlt, if_pos hlt, bind_assoc, Filling.lift_bind_eq_ok]
        rw [Reader.exists_bind_eq_ok]
        refine exists_congr fun id => exists_congr fun cursor₁ => and_congr_right fun _ => ?_
        have hsize := id.size_pos
        by_cases hblock : (ClusterBlock.ofId? id).isSome
        · rw [if_pos hblock, if_pos hblock, bind_assoc, Filling.lift_bind_eq_ok,
            Reader.exists_bind_eq_ok, Reader.exists_bind_eq_ok]
          refine exists_congr fun _ => exists_congr fun _ => and_congr_right fun _ => ?_
          rw [Reader.exists_bind_eq_ok]
          refine exists_congr fun _ => exists_congr fun _ => and_congr_right fun _ => ?_
          rw [bind_assoc, Reader.bind_eq_ok, exists_requireTimecode,
            LawfulCluster.setMetadata_metadata]
          constructor
          · rintro ⟨found, _, hblocks, hconclude⟩
            obtain ⟨_, htimecode, hcount, hstate⟩ := conclude_eq_ok.mp hconclude
            cases hstate
            have hfound := LawfulCluster.count_readBlocks hblocks
            subst hfound
            exact ⟨htimecode, hblocks, hcount⟩
          · rintro ⟨htimecode, hblocks, hcount⟩
            exact ⟨_, state, hblocks, conclude_eq_ok.mpr
              ⟨Nat.add_sub_cancel' (Nat.le_of_lt hlt), htimecode, hcount, rfl⟩⟩
        · rw [if_neg hblock, if_neg hblock, bind_assoc, Filling.object_bind, bind_assoc,
            Filling.lift_bind_eq_ok, Reader.exists_bind_eq_ok]
          refine exists_congr fun found => exists_congr fun cursor₂ => and_congr_right fun _ => ?_
          cases found with
          | some found =>
              dsimp only
              rw [bind_assoc, Filling.change_bind, ih _ (by omega) rfl,
                LawfulCluster.metadata_setMetadata]
              simp only [LawfulCluster.setMetadata_setMetadata]
          | none =>
              dsimp only
              rw [bind_assoc, Filling.lift_bind_eq_ok, Reader.exists_bind_eq_ok]
              exact exists_congr fun _ => exists_congr fun _ => and_congr_right fun _ =>
                ih _ (by omega) rfl
      · rw [if_neg hlt, if_neg hlt, pure_bind, conclude_eq_ok]
        by_cases hsize : consumed = size
        · rw [if_neg (Decidable.not_not.mpr hsize)]
          dsimp only
          rw [exists_requireTimecode, LawfulCluster.setMetadata_metadata]
          constructor
          · rintro ⟨_, htimecode, hcount, found, hblocks⟩
            rw [LawfulCluster.count_readBlocks hblocks] at hblocks
            exact ⟨htimecode, hblocks, hcount⟩
          · rintro ⟨htimecode, hblocks, hcount⟩
            exact ⟨hsize, htimecode, hcount, 0, hblocks⟩
        · rw [if_pos hsize, Reader.exists_bind_eq_ok]
          constructor
          · rintro ⟨h, _⟩
            exact absurd h hsize
          · rintro ⟨_, _, hthrow, _⟩
            cases hthrow

/-- Reading a cluster succeeds exactly if its opening and then the region of blocks can be read. -/
theorem read_eq_ok {c c' : κ} {cursor cursor' : Cursor} {count : Nat} :
    (read mode : Filling κ Nat) source ⟨c, cursor⟩ = .ok count ⟨c', cursor'⟩ ↔
      ∃ opening after, readOpening mode source cursor = .ok opening after ∧
        (readBlocks mode opening.region : Filling κ Nat) source
            ⟨setMetadata c opening.metadata, after⟩ = .ok opening.region ⟨c', cursor'⟩ ∧
          count = opening.total := by
  rw [read_eq, Filling.lift_bind_eq_ok, readOpening, Reader.exists_bind_eq_ok]
  refine exists_congr fun _ => exists_congr fun _ => and_congr_right fun _ => ?_
  rw [Filling.lift_bind_eq_ok, Reader.exists_bind_eq_ok]
  refine exists_congr fun size => exists_congr fun _ => and_congr_right fun _ => ?_
  rw [Filling.lift_bind_eq_ok, Reader.exists_bind_eq_ok]
  refine exists_congr fun _ => exists_congr fun _ => and_congr_right fun _ => ?_
  rw [Filling.change_bind, readContents_eq_ok, LawfulCluster.metadata_setMetadata,
    Reader.exists_bind_eq_ok]
  refine exists_congr fun ⟨m, region⟩ => exists_congr fun _ => and_congr_right fun _ => ?_
  rw [LawfulCluster.setMetadata_setMetadata]
  constructor
  · rintro ⟨hblocks, hcount⟩
    exact ⟨_, _, rfl, hblocks, hcount⟩
  · rintro ⟨_, _, hpure, hblocks, hcount⟩
    cases hpure
    exact ⟨hblocks, hcount⟩

/-- After the blocks there is nothing left to check where all the rest of the body was theirs. -/
theorem readBlocks_conclude {size sizeLength consumed : Nat} (hle : consumed ≤ size)
    (state : Held κ Cursor) :
    (do
      let count ← readBlocks mode (size - consumed)
      conclude mode size sizeLength ⟨consumed + count, true, true⟩ : Filling κ Nat) source state =
      (do
        let _ : Nat ← readBlocks mode (size - consumed)
        return sizeLength + size : Filling κ Nat) source state := by
  cases hblocks : (readBlocks mode (size - consumed) : Filling κ Nat) source state with
  | ok count state' =>
      have hcount := LawfulCluster.count_readBlocks hblocks
      subst hcount
      rw [Reader.bind_of_ok hblocks, Reader.bind_of_ok hblocks, conclude,
        if_neg (Decidable.not_not.mpr (Nat.add_sub_cancel' hle))]
      rfl
  | error e state' => rw [Reader.bind_of_error hblocks, Reader.bind_of_error hblocks]

/-- Once the metadata could be read, it is the region of blocks that decides what comes of the
contents. -/
theorem readContents_of_readMetadata {size sizeLength : Nat} :
    ∀ {consumed : Nat} {hasTimecode : Bool} {c : κ} {cursor after : Cursor}
      {found : ClusterMetadata × Nat},
      readMetadata mode size consumed (metadata c) hasTimecode source cursor = .ok found after →
        (readContents mode size consumed hasTimecode >>= conclude mode size sizeLength :
            Filling κ Nat) source ⟨c, cursor⟩ =
          (do
            let _ : Nat ← readBlocks mode found.2
            return sizeLength + size : Filling κ Nat) source ⟨setMetadata c found.1, after⟩ := by
  intro consumed
  induction hleft : size - consumed using Nat.strongRecOn generalizing consumed with
  | ind left ih =>
      intro hasTimecode c cursor after found hok
      rw [readMetadata] at hok
      rw [readContents]
      by_cases hlt : consumed < size
      · rw [if_pos hlt] at hok ⊢
        obtain ⟨id, cursor₁, hid, hok⟩ := Reader.bind_eq_ok.mp hok
        rw [bind_assoc, Filling.lift_bind_of_ok hid]
        have hsize := id.size_pos
        by_cases hblock : (ClusterBlock.ofId? id).isSome
        · rw [if_pos hblock] at hok ⊢
          obtain ⟨_, _, hposition, hok⟩ := Reader.bind_eq_ok.mp hok
          cases hposition
          obtain ⟨_, _, hseek, hok⟩ := Reader.bind_eq_ok.mp hok
          cases hseek
          obtain ⟨_, _, hrequire, hok⟩ := Reader.bind_eq_ok.mp hok
          obtain ⟨rfl, rfl⟩ := requireTimecode_eq_ok.mp hrequire
          cases hok
          have hback : (do Reader.seek ((← Reader.position) - id.size) : Reader Unit) source
              cursor₁ = .ok () ⟨cursor₁.pos - id.size, cursor₁.log⟩ := rfl
          rw [bind_assoc, Filling.lift_bind_of_ok hback, bind_assoc,
            LawfulCluster.setMetadata_metadata]
          simp only [pure_bind]
          exact readBlocks_conclude (Nat.le_of_lt hlt) ⟨c, _⟩
        · rw [if_neg hblock] at hok ⊢
          obtain ⟨child, cursor₂, hchild, hok⟩ := Reader.bind_eq_ok.mp hok
          rw [bind_assoc, Filling.object_bind, bind_assoc, Filling.lift_bind_of_ok hchild]
          cases child with
          | some child =>
              dsimp only at hok ⊢
              rw [bind_assoc, Filling.change_bind,
                ih _ (by omega) rfl (by rwa [LawfulCluster.metadata_setMetadata]),
                LawfulCluster.setMetadata_setMetadata]
          | none =>
              dsimp only at hok ⊢
              obtain ⟨count, cursor₃, hskip, hok⟩ := Reader.bind_eq_ok.mp hok
              rw [bind_assoc, Filling.lift_bind_of_ok hskip]
              exact ih _ (by omega) rfl hok
      · rw [if_neg hlt] at hok ⊢
        by_cases hsize : consumed = size
        · rw [if_neg (Decidable.not_not.mpr hsize)] at hok
          obtain ⟨_, _, hrequire, hpure⟩ := Reader.bind_eq_ok.mp hok
          obtain ⟨rfl, rfl⟩ := requireTimecode_eq_ok.mp hrequire
          cases hpure
          rw [pure_bind, conclude, if_neg (Decidable.not_not.mpr hsize)]
          dsimp only
          rw [LawfulCluster.setMetadata_metadata]
          rfl
        · rw [if_pos hsize] at hok
          obtain ⟨_, _, hthrow, _⟩ := Reader.bind_eq_ok.mp hok
          cases hthrow

/-- Once the opening could be read, it is the region of blocks that decides what comes of a cluster,
also if that fails. -/
theorem read_of_readOpening {opening : Opening} {cursor after : Cursor}
    (hok : readOpening mode source cursor = .ok opening after) (c : κ) :
    (read mode : Filling κ Nat) source ⟨c, cursor⟩ =
      (do
        let _ : Nat ← readBlocks mode opening.region
        return opening.total : Filling κ Nat)
        source ⟨setMetadata c opening.metadata, after⟩ := by
  obtain ⟨_, _, hposition, hok⟩ := Reader.bind_eq_ok.mp hok
  obtain ⟨⟨size, sizeLength⟩, _, hsize, hok⟩ := Reader.bind_eq_ok.mp hok
  obtain ⟨_, _, hnote, hok⟩ := Reader.bind_eq_ok.mp hok
  obtain ⟨⟨m, region⟩, _, hmetadata, hpure⟩ := Reader.bind_eq_ok.mp hok
  cases hpure
  rw [read_eq, Filling.lift_bind_of_ok hposition, Filling.lift_bind_of_ok hsize]
  dsimp only
  rw [Filling.lift_bind_of_ok hnote, Filling.change_bind,
    readContents_of_readMetadata (by rwa [LawfulCluster.metadata_setMetadata]),
    LawfulCluster.setMetadata_setMetadata]

end Cluster

end Ebml
