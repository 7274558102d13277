import Ebml.Proofs.Cluster.Failure
import Ebml.Proofs.Numbering

/-!
# Where additions come from

Additions are numbered from 1.  One whose number is zero cannot be added, but it can be read, by
itself or within a group or a cluster.  Of all the additions that there can be
(`BlockAdditions.Reached`) this is the only exception: none has zero for its number, unless it was
read from a stream that says so (`Reached.one_le_addId_iff`).
-/

namespace Ebml

variable {source : Source} {pos : Nat}

/-! ## Blocks of clusters -/

/-- The block is what is read of a block at its offset. -/
def ClusterBlock.IsRead (source : Source) (b : ClusterBlock) : Prop :=
  ∃ kind count stop, Reader.Yields (Element.read kind) source
    (Element.offset b + (Element.id b).size) (b, count) stop

theorem ClusterBlock.isRead_of_read {kind b : ClusterBlock} {count : Nat} {start : Nat} {log : Log}
    {cursor' : Cursor}
    (hok : Element.read kind source ⟨start + (Element.id kind).size, log⟩ = .ok (b, count) cursor') :
    b.IsRead source := by
  obtain ⟨hid, hoffset⟩ := offset_of_read hok
  rw [Nat.add_sub_cancel] at hoffset
  refine ⟨kind, count, cursor'.pos, ?_⟩
  rw [hid, hoffset]
  exact Reader.Steady.of_spans (spans_read kind) _ _ _ _ hok

/-- The additions of such a block are numbered as the stream has them. -/
theorem BlockGroup.exists_zero_of_isRead {g : BlockGroup}
    (h : (ClusterBlock.group g).IsRead source) :
    (∃ entry ∈ g.additions.entries, entry.addId = 0) ↔
      Addition.SomeZero source BlockGroup.Named (g.offset + ElementId.blockGroup.size) none := by
  obtain ⟨kind, count, stop, hyields⟩ := h
  obtain ⟨_, hok⟩ := hyields #[]
  exact exists_zero_of_read hok rfl

theorem IndexEntry.isRead_of_load {entry : IndexEntry} {b : ClusterBlock} {cursor cursor' : Cursor}
    (hok : entry.load source cursor = .ok b cursor') : b.IsRead source := by
  rw [load] at hok
  cases hkind : ClusterBlock.ofId? entry.id with
  | none =>
      rw [hkind] at hok
      cases hok
  | some kind =>
      rw [hkind] at hok
      obtain ⟨_, _, hseek, hok⟩ := Reader.bind_eq_ok.mp hok
      cases hseek
      obtain ⟨_, _, hread, hpure⟩ := Reader.bind_eq_ok.mp hok
      cases hpure
      rw [← ClusterBlock.id_of_ofId? hkind] at hread
      exact ClusterBlock.isRead_of_read hread

namespace BufferedCluster

variable {mode : ParsingMode} {c c' : BufferedCluster} {b : ClusterBlock}

theorem isRead_of_traverses {stop : Nat} {blocks blocks' : List ClusterBlock}
    (h : Element.Traverses (readChild mode) source pos blocks stop blocks') (hm : b ∈ blocks') :
    b ∈ blocks ∨ b.IsRead source := by
  induction h with
  | nil => exact .inl hm
  | @cons pos stop count blocks next blocks' id _ hchild _ ih =>
      rcases ih hm with hnext | hread
      · obtain ⟨_, hok⟩ := hchild #[]
        have hfound := eq_of_readChild hok
        split at hfound
        next kind hkind =>
          obtain ⟨block, rfl, hyields⟩ := hfound
          rcases List.mem_append.mp hnext with hbefore | hblock
          · exact .inl hbefore
          · cases List.mem_singleton.mp hblock
            obtain ⟨_, hread⟩ := hyields #[]
            rw [← ClusterBlock.id_of_ofId? hkind] at hread
            exact .inr (ClusterBlock.isRead_of_read hread)
        next => exact .inl (hfound.1 ▸ hnext)
      · exact .inr hread

theorem isRead_of_readBlocks {size count : Nat} {cursor cursor' : Cursor}
    (hok : readBlocks mode size source ⟨c, cursor⟩ = .ok count ⟨c', cursor'⟩)
    (hm : b ∈ c'.blocks) : b.IsRead source := by
  obtain ⟨-, -, blocks, htraverses, rfl⟩ := of_readBlocks hok
  have hblocks : b ∈ blocks := (Timeline.perm_sort _ _).mem_iff.mp hm
  rcases isRead_of_traverses htraverses hblocks with hnil | hread
  · cases hnil
  · exact hread

/-- Reads into a cluster what comes after its ID or, where a size is given, its blocks alone. -/
def fillWith (mode : ParsingMode) (size? : Option Nat) : Filling BufferedCluster Nat :=
  match size? with
  | none => Cluster.read mode
  | some size => readBlocks mode size

/-- Whether or not a read succeeds, what there is then that was not there before was read. -/
theorem isRead_fillWith {size? : Option Nat} {cursor : Cursor}
    (hm : b ∈ (stateOf (fillWith mode size? source ⟨c, cursor⟩)).object.blocks)
    (hnew : b ∉ c.blocks) : b.IsRead source := by
  cases hresult : fillWith mode size? source ⟨c, cursor⟩ with
  | ok count state =>
      rw [hresult] at hm
      cases size? with
      | none =>
          obtain ⟨_, _, _, hblocks, _⟩ := Cluster.read_eq_ok.mp hresult
          exact isRead_of_readBlocks hblocks hm
      | some size => exact isRead_of_readBlocks hresult hm
  | error fault state =>
      rw [hresult] at hm
      cases size? with
      | none =>
          rcases Cluster.fails_read mode source c _ _ _ _ hresult with ⟨-, hreplaced⟩ | ⟨hkept, -⟩
          · obtain ⟨_, _, _, _, hblocks⟩ := hreplaced
            exact isRead_of_readBlocks hblocks hm
          · obtain ⟨m, hobject⟩ := hkept
            rw [stateOf, hobject] at hm
            exact absurd hm hnew
      | some size =>
          have hkept : state.object = c := Cluster.Retaining.kept_of_readBlocks hresult
          rw [stateOf, hkept] at hm
          exact absurd hm hnew

end BufferedCluster

/-! ## All the additions that there can be -/

/-- The additions that there can be, by themselves, within a group and within a cluster, on any
streams and whether or not reads succeed.  Along with them goes what was said of zero by the stream
that they were read from last, unless they were cleared since then. -/
inductive BlockAdditions.Reached : Prop → BlockAdditions → Prop
  | empty : Reached False {}
  | pushed {zero : Prop} {a a' : BlockAdditions} {addId : UInt64} {data : List UInt8} :
      Reached zero a → a.push addId data = .ok a' → Reached zero a'
  | cleared {zero : Prop} {a : BlockAdditions} : Reached zero a → Reached False a.clear
  | moved {zero : Prop} {a : BlockAdditions} (offset : Nat) :
      Reached zero a → Reached zero (Element.setOffset a offset)
  | filled {zero : Prop} {a : BlockAdditions} {size? : Option Nat} {source : Source}
      {cursor : Cursor} {result : EStateM.Result Error (Held BlockAdditions Cursor) Nat} :
      Reached zero a → Element.fillWith size? source ⟨a, cursor⟩ = result →
      Reached (renewed result (Addition.SomeZero source Named cursor.pos size?) zero)
        (stateOf result).object
  /-- The additions of a group that is read. -/
  | filledGroup {zero : Prop} {g : BlockGroup} {size? : Option Nat} {source : Source}
      {cursor : Cursor} {result : EStateM.Result Error (Held BlockGroup Cursor) Nat} :
      Reached zero g.additions → Element.fillWith size? source ⟨g, cursor⟩ = result →
      Reached (renewed result (Addition.SomeZero source BlockGroup.Named cursor.pos size?) zero)
        (stateOf result).object.additions
  /-- The additions of a group that is read as a block of a cluster. -/
  | filledBlock {zero : Prop} {g g' : BlockGroup} {size? : Option Nat} {source : Source}
      {cursor : Cursor} {result : EStateM.Result Error (Held ClusterBlock Cursor) Nat} :
      Reached zero g.additions → Element.fillWith size? source ⟨.group g, cursor⟩ = result →
      (stateOf result).object = .group g' →
      Reached (renewed result (Addition.SomeZero source BlockGroup.Named cursor.pos size?) zero)
        g'.additions
  /-- The additions of a group that is there in a cluster when it was read, and was not before. -/
  | filledCluster {c : BufferedCluster} {g : BlockGroup} {mode : ParsingMode}
      {size? : Option Nat} {source : Source} {cursor : Cursor} :
      .group g ∈ (stateOf (BufferedCluster.fillWith mode size? source ⟨c, cursor⟩)).object.blocks →
      .group g ∉ c.blocks →
      Reached (Addition.SomeZero source BlockGroup.Named
        (g.offset + ElementId.blockGroup.size) none) g.additions
  /-- The additions of a group that is loaded by an entry of a streaming cluster. -/
  | loaded {source : Source} {entry : IndexEntry} {g : BlockGroup} {cursor cursor' : Cursor} :
      entry.load source cursor = .ok (.group g) cursor' →
      Reached (Addition.SomeZero source BlockGroup.Named
        (g.offset + ElementId.blockGroup.size) none) g.additions

namespace BlockAdditions

theorem exists_zero_push {a a' : BlockAdditions} {addId : UInt64} {data : List UInt8}
    (hok : a.push addId data = .ok a') :
    (∃ entry ∈ a'.entries, entry.addId = 0) ↔ ∃ entry ∈ a.entries, entry.addId = 0 := by
  rw [push] at hok
  split at hok
  next => cases hok
  next hne =>
    cases hok
    constructor
    · rintro ⟨entry, hm, hzero⟩
      rcases List.mem_append.mp hm with hbefore | hpushed
      · exact ⟨entry, hbefore, hzero⟩
      · cases List.mem_singleton.mp hpushed
        exact absurd hzero hne
    · rintro ⟨entry, hm, hzero⟩
      exact ⟨entry, List.mem_append_left _ hm, hzero⟩

theorem Reached.exists_zero_iff {zero : Prop} {a : BlockAdditions} (h : Reached zero a) :
    (∃ entry ∈ a.entries, entry.addId = 0) ↔ zero := by
  induction h with
  | empty => exact iff_of_false (fun ⟨_, hm, _⟩ => nomatch hm) id
  | pushed _ hpush ih => exact (exists_zero_push hpush).trans ih
  | cleared => exact iff_of_false (fun ⟨_, hm, _⟩ => nomatch hm) id
  | moved _ _ ih => exact ih
  | filled _ hresult ih =>
      subst hresult
      exact exists_zero_fillWith rfl ih rfl
  | filledGroup _ hresult ih =>
      subst hresult
      exact exists_zero_fillWith rfl ih rfl
  | filledBlock _ hresult hgroup ih =>
      subst hresult
      exact exists_zero_fillWith rfl ih (by rw [hgroup]; rfl)
  | filledCluster hm hnew =>
      exact BlockGroup.exists_zero_of_isRead (BufferedCluster.isRead_fillWith hm hnew)
  | loaded hload => exact BlockGroup.exists_zero_of_isRead (IndexEntry.isRead_of_load hload)

/-- Additions are numbered from 1, unless they were read from a stream that gives zero for the
number of one of them.  A number without octets is zero, and so is one whose octets are. -/
theorem Reached.one_le_addId_iff {zero : Prop} {a : BlockAdditions} (h : Reached zero a) :
    (∀ entry ∈ a.entries, 1 ≤ entry.addId) ↔ ¬ zero := by
  rw [← h.exists_zero_iff, not_exists]
  refine forall_congr' fun entry => ?_
  rw [not_and]
  refine forall_congr' fun _ => ?_
  rw [UInt64.le_iff_toNat_le, ← UInt64.toNat_inj]
  show 1 ≤ entry.addId.toNat ↔ ¬ entry.addId.toNat = 0
  omega

/-- A whole element with a single addition, whose number is stored as a zero. -/
def zeroStream : Source := ⟨[0x75, 0xa1, 0x87, 0xa6, 0x85, 0xee, 0x81, 0x00, 0xa5, 0x80], 16⟩

/-- What comes of reading it after its ID. -/
def zeroRead : EStateM.Result Error (Held BlockAdditions Cursor) Nat :=
  Element.fillWith none zeroStream ⟨{}, ⟨2, #[]⟩⟩

/-- It is read, and the addition has the number that was stored. -/
theorem zeroRead_numbered :
    errorOf? zeroRead = none ∧ (stateOf zeroRead).object.entries = [⟨0, []⟩] ∧
      Addition.SomeZero zeroStream Named 2 none := by
  have hread : errorOf? zeroRead = none := by decide +kernel
  have hentries : (stateOf zeroRead).object.entries = [⟨0, []⟩] := by decide +kernel
  refine ⟨hread, hentries, ?_⟩
  have hreached : Reached (renewed zeroRead (Addition.SomeZero zeroStream Named 2 none) False)
      (stateOf zeroRead).object := .filled .empty rfl
  have hnumbers := hreached.one_le_addId_iff
  rw [renewed_iff_of_ok hread, hentries] at hnumbers
  exact Classical.byContradiction fun hnone => absurd (hnumbers.mpr hnone) (by decide)

end BlockAdditions

end Ebml
