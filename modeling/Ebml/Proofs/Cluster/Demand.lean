import Ebml.Proofs.Cluster.Reading
import Ebml.Proofs.Element.Demand

/-!
# What clusters need memory for

A cluster that is read into memory needs it for the payloads of its blocks, one block after another.
Whatever else is in the body is read under any limit: the metadata is made of numbers, and the rest
is passed over.  So it is the region of blocks that a limit decides on
(`Cluster.read_of_readOpening`), and its payloads are those of the whole body
(`Cluster.carries_readOpening`).
-/

namespace Ebml

open Reader (Asks Blind Gated closed_blind)

variable {source : Source} {mode : ParsingMode}

/-! ## Before the blocks -/

/-- A child with metadata has a size, and that is counted. -/
theorem ClusterMetadata.count_readChild? {m m' : ClusterMetadata} {id : ElementId} {count : Nat}
    {cursor cursor' : Cursor}
    (hok : m.readChild? id source cursor = .ok (some (m', count)) cursor') :
    ∃ size length, Reader.Yields VarInt.read source cursor.pos (size, length)
      (cursor.pos + length) ∧ count = length + size := by
  rw [readChild?] at hok
  iterate 3
    split at hok
    next =>
      obtain ⟨_, _, hread, hpure⟩ := Reader.bind_eq_ok.mp hok
      cases hpure
      exact PrimitiveElement.counts_readUnsignedChild id _ _ _ _ hread
  split at hok
  next =>
    obtain ⟨⟨size, length⟩, _, hsize, hok⟩ := Reader.bind_eq_ok.mp hok
    obtain ⟨_, _, _, hpure⟩ := Reader.bind_eq_ok.mp hok
    cases hpure
    exact ⟨size, length, (VarInt.of_read hsize).2, rfl⟩
  next => cases hok

namespace Cluster

theorem counts_skipChild (id : ElementId) :
    Element.Counts (skipChild mode id) fun count => count := by
  rw [skipChild]
  split
  next =>
    split
    next => exact Element.counts_throw _
    next => exact Element.counts_skipRest
  next =>
    split
    next => exact Element.counts_throw _
    next => exact .after_note _ Element.counts_skipRest

theorem counts_skipNonBlock (id : ElementId) :
    Element.Counts (skipNonBlock mode id) fun count => count := by
  rw [skipNonBlock]
  split
  next => exact .after_note _ Element.counts_skipRest
  next =>
    split
    next => exact Element.counts_throw _
    next => exact .after_note _ Element.counts_skipRest

theorem blind_readMetadata (size : Nat) :
    ∀ consumed m hasTimecode, Blind (readMetadata mode size consumed m hasTimecode) := by
  have hrequire : ∀ {α : Type} hasTimecode (a : α), Blind (do
      requireTimecode hasTimecode
      return a : Reader α) := fun hasTimecode _ =>
    Blind.bind (by cases hasTimecode <;> exact fun _ _ _ => rfl) fun _ => .pure _
  intro consumed
  induction hleft : size - consumed using Nat.strongRecOn generalizing consumed with
  | ind left ih =>
      intro m hasTimecode
      rw [readMetadata]
      split
      next hlt =>
        refine (ElementId.closed_read closed_blind).bind fun id => ?_
        have hsize := id.size_pos
        split
        next =>
          exact closed_blind.position.bind fun _ => (closed_blind.seek _).bind fun _ =>
            hrequire hasTimecode _
        next =>
          refine (ClusterMetadata.closed_readChild? closed_blind m id).bind fun child => ?_
          cases child with
          | some child => exact ih _ (by omega) _ rfl _ _
          | none =>
              exact (closed_skipChild closed_blind (fun _ => .note _) id).bind fun _ =>
                ih _ (by omega) _ rfl _ _
      next =>
        split
        next => exact .throw_bind
        next => exact hrequire hasTimecode _

theorem blind_readOpening (mode : ParsingMode) : Blind (readOpening mode) :=
  closed_blind.position.bind fun _ => (VarInt.closed_read closed_blind).bind fun _ =>
    (Blind.note _).bind fun _ => (blind_readMetadata _ _ _ _).bind fun _ => .pure _

/-- What comes before the blocks has no payloads. -/
theorem carried_readMetadata {size : Nat} :
    ∀ {consumed : Nat} {m : ClusterMetadata} {hasTimecode : Bool} {cursor after : Cursor}
      {found : ClusterMetadata × Nat},
      readMetadata mode size consumed m hasTimecode source cursor = .ok found after →
        Element.Carried source (ChildCarries source) cursor.pos after.pos [] := by
  intro consumed
  induction hleft : size - consumed using Nat.strongRecOn generalizing consumed with
  | ind left ih =>
      intro m hasTimecode cursor after found hok
      rw [readMetadata] at hok
      split at hok
      next hlt =>
        obtain ⟨id, cursor₁, hread, hok⟩ := Reader.bind_eq_ok.mp hok
        obtain ⟨_, hpos₁, rfl, _, hid⟩ := ElementId.spans_read _ _ _ _ hread
        have hsize := id.size_pos
        split at hok
        next =>
          obtain ⟨hpos, -, -⟩ := retreats_block id hasTimecode _ _ _ _ _ hok
          rw [hpos, hpos₁, Nat.add_sub_cancel]
          exact .nil
        next hblock =>
          have hnone : ∀ pos size, ChildCarries source id pos size [] := fun _ _ => by
            rw [ChildCarries, Option.not_isSome_iff_eq_none.mp hblock]
          obtain ⟨child, cursor₂, hchild, hok⟩ := Reader.bind_eq_ok.mp hok
          obtain ⟨_, hpos₂, hn, -⟩ := m.spans_readChild? id _ _ _ _ hchild
          subst hn
          cases child with
          | some child =>
              have hcount := ClusterMetadata.count_readChild? hchild
              have hrest := ih _ (by omega) rfl hok
              rw [hpos₁] at hcount
              rw [hpos₂, hpos₁, Option.map_some, Option.getD_some] at hrest
              exact .pass (hid _ (.refl _ _ _)) hcount hnone hrest
          | none =>
              rw [Option.map_none, Option.getD_none, Nat.add_zero] at hpos₂
              obtain ⟨count, cursor₃, hskip, hok⟩ := Reader.bind_eq_ok.mp hok
              have hcount := counts_skipChild id _ _ _ _ hskip
              obtain ⟨_, hpos₃, rfl, -⟩ := spans_skipChild mode id _ _ _ _ hskip
              have hrest := ih _ (by omega) rfl hok
              rw [hpos₂, hpos₁] at hcount
              rw [hpos₃, hpos₂, hpos₁] at hrest
              exact .pass (hid _ (.refl _ _ _)) hcount hnone hrest
      next =>
        split at hok
        next =>
          obtain ⟨_, _, hthrow, _⟩ := Reader.bind_eq_ok.mp hok
          cases hthrow
        next =>
          obtain ⟨_, _, hrequire, hpure⟩ := Reader.bind_eq_ok.mp hok
          obtain ⟨-, rfl⟩ := requireTimecode_eq_ok.mp hrequire
          cases hpure
          exact .nil

/-- The payloads of a cluster are those of its region of blocks. -/
theorem carries_readOpening {opening : Opening} {cursor after : Cursor} {sizes : List Nat}
    (hok : readOpening mode source cursor = .ok opening after)
    (h : Carries source after.pos opening.region sizes) :
    Element.Sized Carries source cursor.pos sizes := by
  obtain ⟨_, _, hposition, hok⟩ := Reader.bind_eq_ok.mp hok
  cases hposition
  obtain ⟨⟨size, length⟩, cursor₁, hsize, hok⟩ := Reader.bind_eq_ok.mp hok
  obtain ⟨_, cursor₂, hnote, hok⟩ := Reader.bind_eq_ok.mp hok
  obtain ⟨⟨m, region⟩, _, hmetadata, hpure⟩ := Reader.bind_eq_ok.mp hok
  cases hpure
  obtain ⟨hpos₁, hvint⟩ := VarInt.of_read hsize
  have hpos₂ : cursor₂.pos = cursor.pos + length := by
    cases hnote
    exact hpos₁
  obtain ⟨n, hpos, hsum, -⟩ := foresees_readMetadata mode size 0 _ _ _ _ _ _ hmetadata
  have hall := (carried_readMetadata hmetadata).append h
  have hstop : after.pos + region = cursor.pos + length + size := by
    dsimp only at hsum
    omega
  rw [hpos₂, hstop] at hall
  exact ⟨size, length, hvint, hall⟩

end Cluster

/-! ## The blocks -/

namespace BufferedCluster

theorem asks_readChild (blocks : List ClusterBlock) (id : ElementId) :
    Asks (readChild mode blocks id)
      (Element.Sized fun source => Cluster.ChildCarries source id) := by
  rw [readChild]
  cases hkind : ClusterBlock.ofId? id with
  | some kind =>
      have hblock : Asks (Element.read kind)
          (Element.Sized fun source => Cluster.ChildCarries source id) := by
        refine Element.asks_read fun offset size hsize =>
          (ClusterBlock.asks_readBody _ hsize).mono fun source pos sizes h => ?_
        rw [Cluster.ChildCarries, hkind]
        cases kind <;> exact h
      exact hblock.bind fun _ => .pure _
  | none =>
      have hskip : Asks (Cluster.skipNonBlock mode id)
          (Element.Sized fun source => Cluster.ChildCarries source id) :=
        Element.asks_nothing (Cluster.closed_skipNonBlock closed_blind (fun _ => .note _) id)
          (Cluster.counts_skipNonBlock id) fun _ _ _ => by rw [Cluster.ChildCarries, hkind]
      exact hskip.bind fun _ => .pure _

theorem counts_readChild (blocks : List ClusterBlock) (id : ElementId) :
    Element.Counts (readChild mode blocks id) Prod.snd := by
  rw [readChild]
  split
  next => exact (Element.counts_read _).map fun _ => ⟨_, rfl, rfl⟩
  next => exact (Cluster.counts_skipNonBlock id).map fun _ => ⟨_, rfl, rfl⟩

/-- What comes of a region of blocks under other limits is told by its payloads. -/
theorem gated_readBlocks {size count : Nat} {c : BufferedCluster} {cursor : Cursor}
    {state : Held BufferedCluster Cursor}
    (hok : readBlocks mode size source ⟨c, cursor⟩ = .ok count state) :
    ∃ sizes, Cluster.Carries source cursor.pos size sizes ∧
      Gated source (readBlocks mode size) ⟨c, cursor⟩ sizes := by
  obtain ⟨blocks, _, hchildren, -⟩ := Filling.lift_bind_eq_ok.mp hok
  obtain ⟨sizes, hcarries, hgated⟩ := Element.asks_readChildren
    (fun blocks id => Reader.Advances.of_spans (spans_readChild mode blocks id)) counts_readChild
    asks_readChild .cluster size [] _ _ _ _ hchildren
  refine ⟨sizes, hcarries, (hgated.lift c).before_blind
    (Filling.lift_eq_ok.mpr ⟨hchildren, rfl⟩) ?_⟩
  exact (Filling.blind_lift (.note _)).bind fun _ => Filling.blind_commit _ _

/-- What comes of a cluster under other limits is told by its payloads. -/
theorem gated_read {count : Nat} {c : BufferedCluster} {cursor : Cursor}
    {state : Held BufferedCluster Cursor}
    (hok : (Cluster.read mode : Filling BufferedCluster Nat) source ⟨c, cursor⟩ =
      .ok count state) :
    ∃ sizes, Element.Sized Cluster.Carries source cursor.pos sizes ∧
      Gated source (Cluster.read mode : Filling BufferedCluster Nat) ⟨c, cursor⟩ sizes := by
  obtain ⟨opening, after, hopening, hblocks, -⟩ := Cluster.read_eq_ok.mp hok
  obtain ⟨sizes, hcarries, hgated⟩ := gated_readBlocks hblocks
  have hregion : Gated source (do
      let _ : Nat ← readBlocks mode opening.region
      return opening.total : Filling BufferedCluster Nat) _ sizes :=
    hgated.before_blind hblocks (.pure _)
  refine ⟨sizes, Cluster.carries_readOpening hopening hcarries, .of_eq (fun limit => ?_) hregion⟩
  exact Cluster.read_of_readOpening
    ((Cluster.blind_readOpening mode source limit cursor).trans hopening) c

end BufferedCluster

end Ebml
