import Ebml.Proofs.Cluster.Changes

/-!
# The account of an open cluster

A streaming cluster counts what it writes, so that it can fill in its size in the end.  Whatever is
called on it, as long as it is open its numbers fit together (`StreamingCluster.Balanced`): where
the output is expected, how large the cluster is, and where the blocks are that were handed to it.
So what a write that succeeds returns is the size of the cluster, and stays its size.

Metadata may be edited meanwhile, and a cluster may be read into as long as that fails before its
blocks are located.  The account is one of the metadata as it was written.
-/

namespace Ebml

/-! ## Blocks in a row -/

/-- The entries of blocks that lie one after another from a position on. -/
def IndexEntry.laid (pos : Nat) : List ClusterBlock → List IndexEntry
  | [] => []
  | block :: blocks =>
    { offset := pos, id := Element.id block, timecode := block.timecode } ::
      laid (pos + Element.totalSize block) blocks

theorem IndexEntry.laid_concat (block : ClusterBlock) : ∀ (pos : Nat) (blocks : List ClusterBlock),
    laid pos (blocks ++ [block]) = laid pos blocks ++
      [{ offset := pos + Element.childrenSize blocks, id := Element.id block
         timecode := block.timecode }]
  | _, [] => rfl
  | pos, first :: blocks => by
      rw [List.cons_append, laid, laid_concat block, Element.childrenSize_cons, laid,
        List.cons_append, Nat.add_assoc]

theorem Element.childrenSize_concat (block : ClusterBlock) (blocks : List ClusterBlock) :
    childrenSize (blocks ++ [block]) = childrenSize blocks + totalSize block := by
  simp [childrenSize]

/-! ## What was handed to a cluster -/

section

variable {κ : Type}

/-- The blocks that were handed to a cluster since it was last prepared, in order. -/
def pushed : List (Made κ) → List ClusterBlock
  | [] => []
  | made :: earlier =>
    match made.call, made.error? with
    | .prepare, none => []
    | .push block, none => pushed earlier ++ [block]
    | _, _ => pushed earlier

variable {made : Made κ} {earlier : List (Made κ)}

theorem pushed_of_prepared (h : made.Prepared) : pushed (made :: earlier) = [] := by
  rw [pushed, h.1, h.2]

theorem pushed_of_pushed {block : ClusterBlock} (h : made.Pushed block) :
    pushed (made :: earlier) = pushed earlier ++ [block] := by
  rw [pushed, h.1, h.2]

theorem pushed_of_not (hprepared : ¬ made.Prepared) (hpushed : ∀ block, ¬ made.Pushed block) :
    pushed (made :: earlier) = pushed earlier := by
  rw [pushed]
  split
  next hcall herror => exact absurd ⟨hcall, herror⟩ hprepared
  next block hcall herror => exact absurd ⟨hcall, herror⟩ (hpushed block)
  next => rfl

end

namespace StreamingCluster

/-- The numbers of an open cluster fit together, and to what was called on it. -/
structure Balanced (history : List (Made StreamingCluster)) (c : StreamingCluster)
    (state : OpenState) : Prop where
  /-- It was last prepared with the metadata that it has written, where it starts. -/
  opened : Since
    (fun made => made.Prepared ∧ made.stream.pos = state.start ∧
      made.before.metadata = state.metadata)
    Made.Prepared history
  /-- The output is expected at its end. -/
  expected_eq : state.expected = state.start + c.totalSize
  /-- Its body comes after the ID, which takes four octets, and the size. -/
  bodyStart_eq : state.bodyStart = state.start + 4 + c.sizeLength
  /-- The region of blocks consists of the blocks that were handed to it. -/
  blocksSize_eq : c.blocksSize = Element.childrenSize (pushed history)
  /-- They lie one after another, from the end of the metadata on. -/
  index_eq : c.index = IndexEntry.laid (state.bodyStart + state.metadata.size) (pushed history)
  /-- They end where the output is expected. -/
  end_eq : state.bodyStart + state.metadata.size + Element.childrenSize (pushed history) =
    state.expected

theorem totalSize_of_open {c : StreamingCluster} {state : OpenState} (h : c.state? = some state) :
    c.totalSize = 4 + c.sizeLength + (state.metadata.size + c.blocksSize) := by
  rw [totalSize, bodySize, h, size_cluster]
  rfl

variable {earlier : List (Made StreamingCluster)} {made : Made StreamingCluster}
  {c after : StreamingCluster} {state : OpenState}

/-- A cluster that was opened has its head to account for. -/
theorem balanced_opened (h : made.Prepared) (hstate : (made.before.opened made.stream.pos
      (ElementId.cluster.size + made.before.placeholder.octets)
      made.before.metadata.size).state? = some state) :
    Balanced (made :: earlier) (made.before.opened made.stream.pos
      (ElementId.cluster.size + made.before.placeholder.octets)
      made.before.metadata.size) state := by
  have htotal := totalSize_of_open hstate
  cases hstate
  constructor
  · exact since_cons.mpr (Or.inl ⟨h, rfl, rfl⟩)
  · rw [htotal, size_cluster]
    dsimp only [opened]
    omega
  · rw [size_cluster]
    dsimp only [opened]
    omega
  · rw [pushed_of_prepared h]
    rfl
  · rw [pushed_of_prepared h]
    rfl
  · have hnone : Element.childrenSize ([] : List ClusterBlock) = 0 := rfl
    rw [pushed_of_prepared h, hnone]
    dsimp only
    omega

/-- A block that was handed to the cluster comes after the others. -/
theorem Balanced.extended {block : ClusterBlock} {state' : OpenState}
    (hbefore : made.before.state? = some state) (h : Balanced earlier made.before state)
    (hpushed : made.Pushed block)
    (hstate : (made.before.extended state block (Element.totalSize block)).state? = some state') :
    Balanced (made :: earlier) (made.before.extended state block (Element.totalSize block))
      state' := by
  have htotal := totalSize_of_open hstate
  have htotal' := totalSize_of_open hbefore
  have hexpected := h.expected_eq
  have hbody := h.bodyStart_eq
  have hend := h.end_eq
  cases hstate
  constructor
  · exact since_cons.mpr (Or.inr ⟨hpushed.not_prepared, h.opened⟩)
  · rw [htotal]
    dsimp only [StreamingCluster.extended]
    omega
  · exact hbody
  · rw [pushed_of_pushed hpushed, Element.childrenSize_concat, ← h.blocksSize_eq]
    rfl
  · rw [pushed_of_pushed hpushed, IndexEntry.laid_concat, ← h.index_eq, hend]
    rfl
  · rw [pushed_of_pushed hpushed, Element.childrenSize_concat, ← Nat.add_assoc, hend]

/-- An account is not affected by what changes nothing but the metadata. -/
theorem Balanced.edited (hbefore : made.before.state? = some state)
    (h : Balanced earlier made.before state) (m : ClusterMetadata) (hprepared : ¬ made.Prepared)
    (hpushed : ∀ block, ¬ made.Pushed block) :
    Balanced (made :: earlier) { made.before with metadata := m } state := by
  have hsame : pushed (made :: earlier) = pushed earlier := pushed_of_not hprepared hpushed
  have hexpected := h.expected_eq
  rw [totalSize_of_open hbefore] at hexpected
  refine ⟨since_cons.mpr (Or.inr ⟨hprepared, h.opened⟩), ?_, h.bodyStart_eq, ?_, ?_, ?_⟩
  · rw [totalSize_of_open (c := { made.before with metadata := m }) hbefore]
    exact hexpected
  · rw [hsame]
    exact h.blocksSize_eq
  · rw [hsame]
    exact h.index_eq
  · rw [hsame]
    exact h.end_eq

/-- One call keeps the account, if the cluster is open after it. -/
theorem balanced_became
    (h : ∀ state, made.before.state? = some state → Balanced earlier made.before state)
    (hbecame : Became made after) (hstate : after.state? = some state) :
    Balanced (made :: earlier) after state := by
  cases hbecame with
  | prepared hprepared => exact balanced_opened hprepared hstate
  | pushed hpushed hbefore => exact (h _ hbefore).extended hbefore hpushed hstate
  | written => cases hstate
  | unwritten => cases hstate
  | indexed _ hclosed => cases hclosed.symm.trans hstate
  | kept m hprepared hpushed => exact (h _ hstate).edited hstate m hprepared hpushed

/-- A write that succeeds returns the size of the cluster, which stays that. -/
theorem count_of_write {sink : Sink} {count : Nat} {written : Held StreamingCluster Sink}
    (h : ∀ state, c.state? = some state → Balanced earlier c state)
    (hok : StreamingCluster.write ⟨c, sink⟩ = .ok count written) :
    count = c.totalSize ∧ count = written.object.totalSize := by
  cases hstate : c.state? with
  | none =>
      rw [write_of_closed hstate] at hok
      cases hok
  | some state =>
      have hexpected := (h state hstate).expected_eq
      have htotal := totalSize_of_open hstate
      cases hfill : fillSize state c.sizeLength sink with
      | error e sink' =>
          rw [write_error hstate hfill] at hok
          cases hok
      | ok u sink' =>
          obtain ⟨log, hwrite⟩ := write_ok hstate hfill
          rw [hwrite] at hok
          cases hok
          have hcount : state.expected - state.start = c.totalSize := by omega
          refine ⟨hcount, hcount.trans (htotal.trans ?_)⟩
          rw [totalSize, size_cluster]
          rfl

/-- Whatever was called on a cluster: while it is open, its numbers fit together, and a write that
succeeds returns the size of the cluster before and after it. -/
theorem account_balanced (timecode : UInt64) (placeholder : PlaceholderLength)
    (calls : List (Call × Stream)) :
    let s := (Session.mk (make timecode placeholder) []).run calls
    (∀ state, s.cluster.state? = some state → Balanced s.history s.cluster state) ∧
      ∀ sink count written, StreamingCluster.write ⟨s.cluster, sink⟩ = .ok count written →
        count = s.cluster.totalSize ∧ count = written.object.totalSize := by
  have hrun : ∀ state, ((Session.mk (make timecode placeholder) []).run calls).cluster.state? =
      some state → Balanced _ _ state :=
    Session.run_induction (P := fun s : Session StreamingCluster =>
      ∀ state, s.cluster.state? = some state → Balanced s.history s.cluster state)
      (fun s call stream h _ => balanced_became h (became call s.cluster stream)) calls nofun
  exact ⟨hrun, fun sink count written => count_of_write hrun⟩

/-- A block is written and another refused where the output was moved to.  Meanwhile the metadata is
edited, and replaced by that of a cluster that ends too soon. -/
def interrupted : List (Call × Stream) :=
  [(.prepare, {}), (.edit { timecode := 5000 }, {}),
    (.push (filled 1), { data := List.replicate 8 0, pos := 8 }),
    (.push (filled 2), { data := List.replicate 15 0, pos := 3 }),
    (.read .strict 16, { data := [0x88, 0xe7, 0x81, 0x07] })]

/-- The cluster has 15 bytes: 5 before its body, 3 of metadata and 7 of the block. -/
theorem interrupted_balanced :
    let s := (Session.mk (make 0 ⟨1, by decide⟩) []).run interrupted
    s.cluster.metadata = { timecode := 7, sizeLength := 1 } ∧
      (∃ state, s.cluster.state? = some state ∧ state.expected = 15 ∧
        Balanced s.history s.cluster state) ∧
      ∃ written, StreamingCluster.write
          ⟨s.cluster, ⟨{ data := List.replicate 15 0, pos := 15 }, #[]⟩⟩ = .ok 15 written ∧
        s.cluster.totalSize = 15 ∧ written.object.totalSize = 15 := by
  intro s
  obtain ⟨hbalanced, hwrite⟩ := account_balanced 0 ⟨1, by decide⟩ interrupted
  have hstate : s.cluster.state? =
      some { start := 0, bodyStart := 5, expected := 15, metadata := {} } := by decide +kernel
  have hcount : (succeeded? StreamingCluster.write
      ⟨s.cluster, ⟨{ data := List.replicate 15 0, pos := 15 }, #[]⟩⟩).map Prod.fst = some 15 := by
    decide +kernel
  obtain ⟨⟨_, written⟩, hok, rfl⟩ := Option.map_eq_some_iff.mp hcount
  obtain ⟨hbefore, hafter⟩ := hwrite _ _ _ (of_succeeded? hok)
  exact ⟨by decide +kernel, ⟨_, hstate, rfl, hbalanced _ hstate⟩, written, of_succeeded? hok,
    hbefore.symm, hafter.symm⟩

end StreamingCluster

end Ebml
