import Ebml.Proofs.Cluster.Bookkeeping

/-!
# The order in which blocks are gone through

The blocks of a streaming cluster are gone through as its index has them.  The index of a cluster
that was read, or that was written, is in the order of timecodes.  Until a cluster is written its
index is in the order in which the blocks were handed to it, and it stays in that order if the
cluster cannot be written (`StreamingCluster.Arranged`).
-/

namespace Ebml

open IndexEntry (laid)

/-! ## Blocks in a row -/

namespace IndexEntry

theorem timecodes_laid : ∀ (pos : Nat) (blocks : List ClusterBlock),
    (laid pos blocks).map timecode = blocks.map ClusterBlock.timecode
  | _, [] => rfl
  | pos, block :: blocks => by
      rw [laid, List.map_cons, List.map_cons, timecodes_laid]

theorem le_of_mem_laid {entry : IndexEntry} : ∀ {pos : Nat} {blocks : List ClusterBlock},
    entry ∈ laid pos blocks → pos ≤ entry.offset
  | pos, block :: blocks, hm => by
      rw [laid] at hm
      rcases List.mem_cons.mp hm with rfl | hm
      · exact Nat.le_refl _
      · exact Nat.le_trans (Nat.le_add_right _ _) (le_of_mem_laid hm)

theorem offsets_laid : ∀ (pos : Nat) (blocks : List ClusterBlock),
    (laid pos blocks).Pairwise fun a b => a.offset < b.offset
  | _, [] => .nil
  | pos, block :: blocks => by
      rw [laid]
      refine .cons (fun entry hm => ?_) (offsets_laid _ blocks)
      have hle := le_of_mem_laid hm
      have hsize := (Element.id block).size_pos
      rw [Element.Encoded.totalSize_eq] at hle
      dsimp only
      omega

/-- Blocks in a row are in order if their timecodes are. -/
theorem ordered_laid_iff (pos : Nat) (blocks : List ClusterBlock) :
    (laid pos blocks).Pairwise Before ↔ blocks.Pairwise fun a b => a.timecode ≤ b.timecode := by
  have htimecodes : (laid pos blocks).Pairwise (fun a b => a.timecode ≤ b.timecode) ↔
      blocks.Pairwise fun a b => a.timecode ≤ b.timecode := by
    rw [← List.pairwise_map (f := timecode) (R := (· ≤ ·)), timecodes_laid, List.pairwise_map]
  rw [← htimecodes]
  constructor
  · intro h
    refine h.imp fun {a b} hbefore => ?_
    rcases hbefore with hlt | ⟨heq, _⟩
    · exact Int16.le_of_lt hlt
    · exact Int16.le_iff_lt_or_eq.mpr (Or.inr heq)
  · intro h
    refine (h.and (offsets_laid pos blocks)).imp fun {a b} hboth => ?_
    obtain ⟨hle, hoffset⟩ := hboth
    rcases Int16.le_iff_lt_or_eq.mp hle with hlt | heq
    · exact Or.inl hlt
    · exact Or.inr ⟨heq, hoffset⟩

end IndexEntry

namespace StreamingCluster

/-- The cluster was prepared, and neither written nor read after that. -/
def Unsettled (history : List (Made StreamingCluster)) : Prop :=
  Since Made.Prepared (fun made => made.Written ∨ made.Indexed) history

/-- How the index of a cluster lies, by what was called on it. -/
structure Arranged (history : List (Made StreamingCluster)) (c : StreamingCluster) : Prop where
  /-- An open cluster is yet to be settled. -/
  opened : ∀ state, c.state? = some state → Unsettled history
  /-- Until then its blocks are in a row. -/
  unsettled : Unsettled history → ∃ pos, c.index = laid pos (pushed history)
  /-- From then on they are in order. -/
  settled : ¬ Unsettled history → c.Ordered

variable {earlier : List (Made StreamingCluster)} {made : Made StreamingCluster}
  {after : StreamingCluster}

theorem Arranged.of_same {c : StreamingCluster} (h : Arranged earlier c)
    (hunsettled : Unsettled (made :: earlier) ↔ Unsettled earlier)
    (hpushed : pushed (made :: earlier) = pushed earlier) (hindex : after.index = c.index)
    (hopened : ∀ state, after.state? = some state → Unsettled earlier) :
    Arranged (made :: earlier) after where
  opened state hstate := hunsettled.mpr (hopened state hstate)
  unsettled hbefore := by
    rw [hindex, hpushed]
    exact h.unsettled (hunsettled.mp hbefore)
  settled hnot := by
    rw [Ordered, hindex]
    exact h.settled fun hbefore => hnot (hunsettled.mpr hbefore)

/-- One call keeps the blocks in a row, or puts them in order. -/
theorem arranged_became
    (hbalanced : ∀ state, made.before.state? = some state → Balanced earlier made.before state)
    (h : Arranged earlier made.before) (hbecame : Became made after) :
    Arranged (made :: earlier) after := by
  cases hbecame with
  | prepared hprepared =>
      have hunsettled : Unsettled (made :: earlier) := since_cons.mpr (Or.inl hprepared)
      refine ⟨fun _ _ => hunsettled, fun _ => ⟨0, ?_⟩, fun hnot => absurd hunsettled hnot⟩
      rw [pushed_of_prepared hprepared]
      rfl
  | @pushed block state hpushed hstate =>
      have hsame : Unsettled (made :: earlier) ↔ Unsettled earlier := by
        refine since_cons_iff hpushed.not_prepared ?_
        rintro (hwritten | hindexed)
        · exact hpushed.not_ended hwritten.1
        · exact hindexed.not_pushed hpushed
      have hunsettled := hsame.mpr (h.opened state hstate)
      have hextended := (hbalanced state hstate).extended hstate hpushed rfl
      exact ⟨fun _ _ => hunsettled, fun _ => ⟨_, hextended.index_eq⟩,
        fun hnot => absurd hunsettled hnot⟩
  | @written state hwritten hstate =>
      have hended : made.Ended := hwritten.1
      have hnot : ¬ Unsettled (made :: earlier) :=
        not_since_cons hended.not_prepared (Or.inl hwritten)
      refine ⟨nofun, fun hunsettled => absurd hunsettled hnot, fun _ => ordered_sorted ?_⟩
      obtain ⟨pos, hindex⟩ := h.unsettled (h.opened state hstate)
      dsimp only
      rw [hindex]
      exact IndexEntry.offsets_laid pos _
  | unwritten hended hwritten =>
      have hprepared := hended.not_prepared
      have hsame : Unsettled (made :: earlier) ↔ Unsettled earlier := by
        refine since_cons_iff hprepared ?_
        rintro (hmade | hindexed)
        · exact hwritten hmade
        · exact hindexed.not_ended hended
      exact h.of_same hsame
        (pushed_of_not hprepared fun block hpushed => hpushed.not_ended hended) rfl nofun
  | indexed hindexed hclosed hordered =>
      have hnot : ¬ Unsettled (made :: earlier) :=
        not_since_cons hindexed.not_prepared (Or.inr hindexed)
      refine ⟨fun state hstate => ?_, fun hunsettled => absurd hunsettled hnot,
        fun _ => hordered⟩
      cases hclosed.symm.trans hstate
  | kept m hprepared hpushed hended hindexed =>
      have hsame : Unsettled (made :: earlier) ↔ Unsettled earlier := by
        refine since_cons_iff hprepared ?_
        rintro (hwritten | hmade)
        · exact hended hwritten.1
        · exact hindexed hmade
      exact h.of_same hsame (pushed_of_not hprepared hpushed) rfl h.opened

/-- Whatever was called on a cluster, its index lies by that. -/
theorem arranged_run (timecode : UInt64) (placeholder : PlaceholderLength)
    (calls : List (Call × Stream)) :
    let s := (Session.mk (make timecode placeholder) []).run calls
    Arranged s.history s.cluster := by
  refine (Session.run_induction (P := fun s : Session StreamingCluster =>
    (∀ state, s.cluster.state? = some state → Balanced s.history s.cluster state) ∧
      Arranged s.history s.cluster) ?_ calls ?_).2
  · rintro s call stream ⟨hbalanced, harranged⟩
    have hbecame := became call s.cluster stream
    exact ⟨fun _ => balanced_became hbalanced hbecame,
      arranged_became hbalanced harranged hbecame⟩
  · exact ⟨nofun, nofun, fun h => absurd h not_since_nil, fun _ => .nil⟩

/-- Whatever was called on a cluster, its blocks are gone through in the order of their timecodes,
and in the order of the stream where these are the same, exactly if the cluster was written, or
read, since it was last prepared, or if the blocks were handed to it in the order of their
timecodes. -/
theorem blocks_ordered_iff (timecode : UInt64) (placeholder : PlaceholderLength)
    (calls : List (Call × Stream)) :
    let s := (Session.mk (make timecode placeholder) []).run calls
    s.cluster.blocks.entries.Pairwise IndexEntry.Before ↔
      ¬ Since Made.Prepared (fun made => made.Written ∨ made.Indexed) s.history ∨
        (pushed s.history).Pairwise fun a b => a.timecode ≤ b.timecode := by
  intro s
  obtain ⟨-, hrow, hordered⟩ : Arranged s.history s.cluster :=
    arranged_run timecode placeholder calls
  by_cases hunsettled : Unsettled s.history
  · obtain ⟨pos, hindex⟩ := hrow hunsettled
    have hentries : s.cluster.blocks.entries = laid pos (pushed s.history) := hindex
    rw [hentries, IndexEntry.ordered_laid_iff]
    exact ⟨Or.inr, fun h => h.resolve_left fun hnot => hnot hunsettled⟩
  · exact ⟨fun _ => Or.inl hunsettled, fun _ => hordered hunsettled⟩

/-- A cluster that cannot be written is closed, with its blocks as they were handed to it. -/
example :
    let block (timecode : Int16) : ClusterBlock :=
      .simple { block := { timecode, frames := [[0]] } }
    let s := (Session.mk (make 0 ⟨1, by decide⟩) []).run
      [(.prepare, {}), (.push (block 10), { data := List.replicate 8 0, pos := 8 }),
        (.push (block 0), { data := List.replicate 15 0, pos := 15 }),
        (.write, { data := List.replicate 22 0, pos := 0 })]
    s.cluster.state? = none ∧
      s.cluster.blocks.entries.map IndexEntry.timecode = [10, 0] := by decide +kernel

end StreamingCluster

end Ebml
