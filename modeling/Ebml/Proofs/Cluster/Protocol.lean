import Ebml.Proofs.Cluster.Writing

/-!
# What an open cluster guards

An open streaming cluster shares its output with others.  Whatever happens between `prepare` and
`write` (`StreamingCluster.Run`), as long as nobody else writes before where the output is
expected, the stream has the head of the cluster and the blocks that were written, one after
another (`Guards`).  So a write that succeeds leaves the whole cluster there.
-/

namespace Ebml.StreamingCluster

/-- What can happen while a cluster is open, along with the blocks that it then has more. -/
inductive Step :
    Held StreamingCluster Sink → List ClusterBlock → Held StreamingCluster Sink → Prop
  /-- A block is written. -/
  | pushed {before after : Held StreamingCluster Sink} {block : ClusterBlock} {written : Nat} :
      push block before = .ok written after → Step before [block] after
  /-- A block is not written, or not all of it, for whatever reason. -/
  | refused {before after : Held StreamingCluster Sink} {block : ClusterBlock} {e : Error} :
      push block before = .error e after → Step before [] after
  /-- The metadata is edited. -/
  | edited {c : StreamingCluster} {sink : Sink} (m : ClusterMetadata) :
      Step ⟨c, sink⟩ [] ⟨{ c with metadata := m }, sink⟩
  /-- The output is moved, or changed from where the cluster expects it on. -/
  | disturbed {c : StreamingCluster} {sink sink' : Sink} {state : OpenState} :
      c.state? = some state →
      sink'.stream.data.take state.expected = sink.stream.data.take state.expected →
      Step ⟨c, sink⟩ [] ⟨c, sink'⟩

/-- Any number of these in any order, along with the blocks that were written. -/
inductive Run (opened : Held StreamingCluster Sink) :
    List ClusterBlock → Held StreamingCluster Sink → Prop
  | nil : Run opened [] opened
  | snoc {pushed more : List ClusterBlock} {before after : Held StreamingCluster Sink} :
      Run opened pushed before → Step before more after → Run opened (pushed ++ more) after

/-- What an open cluster that was prepared at `start` knows of its output: up to where it is
expected, there are the head of the cluster, still with a size of zero, and the blocks. -/
structure Guards (start width : Nat) (m : ClusterMetadata) (pushed : List ClusterBlock)
    (s : Held StreamingCluster Sink) : Prop where
  state_eq : s.object.state? = some
    { start, bodyStart := start + (ElementId.cluster.size + width)
      expected := start + (Cluster.layout 0 width m pushed).length, metadata := m }
  sizeLength_eq : s.object.sizeLength = width
  laid : ∃ before : List UInt8, before.length = start ∧
    before ++ Cluster.layout 0 width m pushed <+: s.medium.stream.data

variable {start width : Nat} {m : ClusterMetadata} {pushed : List ClusterBlock}
  {c : StreamingCluster} {sink : Sink} {s s' : Held StreamingCluster Sink}

theorem prepare_of_open {state : OpenState} (h : c.state? = some state) (sink : Sink) :
    prepare ⟨c, sink⟩ = .error .clusterAlreadyOpen ⟨c, sink⟩ := by
  rw [prepare, Draining.held_bind, h]
  rfl

theorem guards_of_prepare {head : Nat} (h : prepare ⟨c, sink⟩ = .ok head s) :
    Guards sink.stream.pos c.placeholder.octets c.metadata [] s := by
  cases hstate : c.state? with
  | some state =>
      rw [prepare_of_open hstate] at h
      cases h
  | none =>
      rw [prepare_eq hstate] at h
      split at h
      next head metadata sink' hhead =>
        cases h
        obtain ⟨hcounts, stream, hsettled, hpos, hstream⟩ :=
          (fillsGap_writeHead c).of_ok (emits_writeHead c fun h : False => h.elim) hhead
        cases hcounts
        refine ⟨?_, rfl, stream.data.take stream.pos, ?_, ?_⟩
        · rw [Cluster.length_layout]
          rfl
        · rw [List.length_take_of_le hsettled, hpos]
        · rw [hstream]
          exact List.prefix_append _ _
      next => cases h

/-- An output that is where it is expected is not past its end. -/
theorem Guards.settled (h : Guards start width m pushed s)
    (hpos : s.medium.stream.pos = start + (Cluster.layout 0 width m pushed).length) :
    s.medium.stream.Settled := by
  obtain ⟨before, hbefore, hlaid⟩ := h.laid
  have hle := hlaid.length_le
  rw [List.length_append, hbefore] at hle
  rw [Stream.Settled, hpos]
  exact hle

/-- What holds of the output up to where it is expected holds of any other that has the same
there. -/
theorem Guards.of_take_eq (h : Guards start width m pushed ⟨c, sink⟩) {sink' : Sink}
    (htake : sink'.stream.data.take (start + (Cluster.layout 0 width m pushed).length) =
      sink.stream.data.take (start + (Cluster.layout 0 width m pushed).length)) :
    Guards start width m pushed ⟨c, sink'⟩ := by
  obtain ⟨hstate, hlength, before, rfl, hlaid⟩ := h
  refine ⟨hstate, hlength, before, rfl, Stream.prefix_of_take_eq hlaid ?_⟩
  rw [List.length_append]
  exact htake

/-- A block that was written comes after the others. -/
theorem Guards.push (h : Guards start width m pushed s) {block : ClusterBlock} {written : Nat}
    (hpush : push block s = .ok written s') : Guards start width m (pushed ++ [block]) s' := by
  obtain ⟨c, sink⟩ := s
  rw [push_eq h.state_eq] at hpush
  split at hpush
  next written' sink' hok =>
    cases hpush
    by_cases hpos : sink.stream.pos = start + (Cluster.layout 0 width m pushed).length
    · have hsettled := h.settled hpos
      rw [pushAt_of_pos block hpos] at hok
      obtain ⟨hwritten, hstream⟩ :=
        (emits_validated fun h : False => h.elim).of_ok hsettled hok
      obtain ⟨_, hlength, before, rfl, hlaid⟩ := h
      rw [← List.length_append] at hpos
      have hnext := Cluster.layout_append 0 width m pushed [block]
      rw [List.flatMap_singleton] at hnext
      refine ⟨?_, hlength, before, rfl, ?_⟩
      · rw [hnext, List.length_append, Element.length_encoding, hwritten,
          ← Nat.add_assoc before.length (Cluster.layout 0 width m pushed).length]
        rfl
      · rw [hnext, hstream, ← List.append_assoc]
        exact Stream.prefix_overlay_append hlaid hpos
    · rw [pushAt_of_ne block hpos] at hok
      cases hok
  next => cases hpush

/-- A block that was not written leaves the output as it was up to where it is expected. -/
theorem Guards.refuse (h : Guards start width m pushed s) {block : ClusterBlock} {e : Error}
    (hpush : StreamingCluster.push block s = .error e s') : Guards start width m pushed s' := by
  obtain ⟨c, sink⟩ := s
  rw [push_eq h.state_eq] at hpush
  split at hpush
  next => cases hpush
  next e' sink' herror =>
    cases hpush
    refine h.of_take_eq ?_
    by_cases hpos : sink.stream.pos = start + (Cluster.layout 0 width m pushed).length
    · rw [pushAt_of_pos block hpos] at herror
      have hkeep := (emits_validated fun h : False => h.elim).of_error (h.settled hpos) herror
      rw [hpos] at hkeep
      exact hkeep
    · rw [pushAt_of_ne block hpos] at herror
      cases herror
      rfl

/-- One step keeps what the cluster guards. -/
theorem Guards.step {more : List ClusterBlock} (h : Guards start width m pushed s)
    (hstep : Step s more s') : Guards start width m (pushed ++ more) s' := by
  cases hstep with
  | pushed hpush => exact h.push hpush
  | refused hpush =>
      rw [List.append_nil]
      exact h.refuse hpush
  | edited edit =>
      rw [List.append_nil]
      exact ⟨h.state_eq, h.sizeLength_eq, h.laid⟩
  | disturbed hstate htake =>
      rw [List.append_nil]
      have hsame := h.state_eq
      dsimp only at hsame
      rw [hstate] at hsame
      cases hsame
      exact h.of_take_eq htake

/-- Whatever happens while the cluster is open, it guards its head and the blocks that were
written. -/
theorem Guards.run {opened : Held StreamingCluster Sink}
    (h : Guards start width m [] opened) (hrun : Run opened pushed s) :
    Guards start width m pushed s := by
  induction hrun with
  | nil => exact h
  | snoc _ hstep ih => exact ih.step hstep

/-- A write that succeeds puts the size of what was written in its place. -/
theorem Guards.write (h : Guards start width m pushed s) {count : Nat}
    (hwrite : write s = .ok count s') :
    count = ElementId.cluster.size + width + Cluster.contentSize m pushed ∧
      VarInt.Fits (Cluster.contentSize m pushed) width ∧
        s'.medium.stream.pos = start + count ∧
          ∃ before : List UInt8, before.length = start ∧
            before ++ Cluster.layout (Cluster.contentSize m pushed) width m pushed <+:
              s'.medium.stream.data := by
  obtain ⟨c, sink⟩ := s
  have hsettled := h.settled
  obtain ⟨hstate, rfl, before, rfl, hlaid⟩ := h
  cases hfill : fillSize _ c.sizeLength sink with
  | error e sink' =>
      rw [write_error hstate hfill] at hwrite
      cases hwrite
  | ok u sink' =>
      obtain ⟨log, hok⟩ := write_ok hstate hfill
      rw [hok] at hwrite
      cases hwrite
      obtain ⟨hpos, octets, sink'', hsize, rfl⟩ := of_fillSize hfill
      dsimp only at hpos hsize
      rw [Cluster.length_layout_sub] at hsize
      have hcluster := ElementId.length_encode .cluster
      have hlength := Cluster.length_layout 0 c.sizeLength m pushed
      have hend : sink.stream.pos ≤ sink.stream.data.length := hsettled hpos
      have hinside : ({ sink.stream with pos := before.length + ElementId.cluster.size } :
          Stream).Settled := by
        show before.length + ElementId.cluster.size ≤ sink.stream.data.length
        omega
      obtain ⟨_, hstream⟩ :=
        (VarInt.emits_writeSized fun h : False => h.elim).of_ok hinside hsize
      refine ⟨?_, VarInt.fits_of_writeSized hsize, ?_, before, rfl, ?_⟩
      · dsimp only
        omega
      · dsimp only
        omega
      · rw [Cluster.layout, ← List.append_assoc] at hlaid ⊢
        dsimp only
        rw [hstream]
        refine Stream.prefix_overlay_patch hlaid ?_ ?_
        · rw [List.length_append, hcluster]
        · rw [VarInt.length_sized, VarInt.length_sized]

/-! ## An output that was moved -/

theorem push_of_ne {state : OpenState} (h : c.state? = some state)
    (hne : sink.stream.pos ≠ state.expected) (block : ClusterBlock) :
    StreamingCluster.push block ⟨c, sink⟩ =
      .error (.interleavedWrite state.expected sink.stream.pos) ⟨c, sink⟩ := by
  rw [push_eq h, pushAt_of_ne block hne]

theorem write_of_ne {state : OpenState} (h : c.state? = some state)
    (hne : sink.stream.pos ≠ state.expected) :
    StreamingCluster.write ⟨c, sink⟩ =
      .error (.interleavedWrite state.expected sink.stream.pos) ⟨{ c with state? := none }, sink⟩ :=
  write_error h (fillSize_of_ne c.sizeLength hne)

/-! ## Every run -/

/-- After a cluster was prepared, whatever happens to it and to the output from where it expects
that on: if it can be written, the bytes that are counted from where it was prepared are the ID,
the size, the metadata as it was then, and just those blocks that were written, in order, and the
output is after them.  While the output is not where it is expected, nothing is written to it. -/
theorem written_of_run {head : Nat} {opened : Held StreamingCluster Sink}
    (hprepare : prepare ⟨c, sink⟩ = .ok head opened) (hrun : Run opened pushed s) :
    (∀ count s', StreamingCluster.write s = .ok count s' →
      ∃ size, count = ElementId.cluster.size + c.placeholder.octets + size ∧
        VarInt.Fits size c.placeholder.octets ∧
          (s'.medium.stream.data.drop sink.stream.pos).take count =
              ElementId.cluster.encode ++ (VarInt.sized size c.placeholder.octets ++
                (c.metadata.encoding ++ pushed.flatMap Element.encoding)) ∧
            (Cluster.layout size c.placeholder.octets c.metadata pushed).length = count ∧
              s'.medium.stream.pos = sink.stream.pos + count) ∧
      ∃ state, s.object.state? = some state ∧
        (s.medium.stream.pos ≠ state.expected →
          (∀ block, StreamingCluster.push block s =
            .error (.interleavedWrite state.expected s.medium.stream.pos) s) ∧
            ∃ c', StreamingCluster.write s =
              .error (.interleavedWrite state.expected s.medium.stream.pos) ⟨c', s.medium⟩) := by
  have hguards := (guards_of_prepare hprepare).run hrun
  refine ⟨fun count s' hwrite => ?_, _, hguards.state_eq, fun hne =>
    ⟨push_of_ne hguards.state_eq hne, _, write_of_ne hguards.state_eq hne⟩⟩
  obtain ⟨hcount, hfits, hpos, before, hbefore, rest, hrest⟩ := hguards.write hwrite
  have hlength := Cluster.length_layout (Cluster.contentSize c.metadata pushed) c.placeholder.octets
    c.metadata pushed
  rw [← hcount] at hlength
  refine ⟨_, hcount, hfits, ?_, hlength, hpos⟩
  rw [← hrest, ← hbefore, List.append_assoc, List.drop_left, ← hlength, List.take_left]
  rfl

/-- A cluster to be written to an output of 24 bytes that does not grow. -/
def cramped : Held StreamingCluster Sink where
  object := .make 0 ⟨1, by decide⟩
  medium := ⟨{ data := List.replicate 24 0, fixed := true }, #[]⟩

/-- A cluster to be written to an empty output, with an octet for its size. -/
def fresh : Held StreamingCluster Sink := { cramped with medium := ⟨{}, #[]⟩ }

/-- A block with one frame of `count` bytes. -/
def filled (count : Nat) : ClusterBlock :=
  .simple { block := { frames := [List.replicate count 0xaa] } }

/-- The cluster with its output at another position. -/
def movedTo (pos : Nat) (s : Held StreamingCluster Sink) : Held StreamingCluster Sink :=
  { s with medium := { s.medium with stream := { s.medium.stream with pos } } }

theorem Step.moved {state : OpenState} (h : s.object.state? = some state) (pos : Nat) :
    Step s [] (movedTo pos s) := .disturbed h rfl

/-- What an operation that succeeds returns and leaves. -/
def succeeded? {σ α : Type} (x : EStateM Error σ α) (state : σ) : Option (α × σ) :=
  match x state with
  | .ok a state' => some (a, state')
  | .error _ _ => none

/-- What an operation that fails says and leaves. -/
def failed? {σ α : Type} (x : EStateM Error σ α) (state : σ) : Option (Error × σ) :=
  match x state with
  | .ok _ _ => none
  | .error e state' => some (e, state')

theorem of_succeeded? {σ α : Type} {x : EStateM Error σ α} {state state' : σ} {a : α}
    (h : succeeded? x state = some (a, state')) : x state = .ok a state' := by
  rw [succeeded?] at h
  split at h
  next hok =>
    cases h
    exact hok
  next => cases h

theorem of_failed? {σ α : Type} {x : EStateM Error σ α} {state state' : σ} {e : Error}
    (h : failed? x state = some (e, state')) : x state = .error e state' := by
  rw [failed?] at h
  split at h
  next => cases h
  next herror =>
    cases h
    exact herror

/-- A block is refused while the output is elsewhere, one is written, and one is too large for
what is left.  These are the sizes of the head and of the whole cluster. -/
def crampedSizes? : Option (Nat × Nat) := do
  let (head, opened) ← succeeded? prepare cramped
  let (_, elsewhere) ← failed? (push (filled 1)) (movedTo 3 opened)
  let (_, extended) ← succeeded? (push (filled 1)) (movedTo 8 elsewhere)
  let (_, full) ← failed? (push (filled 20)) extended
  let (count, _) ← succeeded? write (movedTo 15 full)
  return (head, count)

/-- The cluster has the one block that was written. -/
theorem cramped_written : ∃ head opened s count s',
    prepare cramped = .ok head opened ∧ Run opened [filled 1] s ∧
      StreamingCluster.write s = .ok count s' ∧
        (s'.medium.stream.data.drop 0).take count =
          ElementId.cluster.encode ++ (VarInt.sized 10 1 ++
            (cramped.object.metadata.encoding ++ [filled 1].flatMap Element.encoding)) := by
  have hsizes : crampedSizes? = some (8, 15) := by decide +kernel
  simp only [crampedSizes?, Option.bind_eq_bind, Option.bind_eq_some_iff, Prod.exists] at hsizes
  obtain ⟨head, opened, hprepare, _, elsewhere, hrefused, _, extended, hpushed, _, full, hfull,
    count, s', hwrite, hsizes⟩ := hsizes
  cases hsizes
  have hprepare := of_succeeded? hprepare
  have hguards := guards_of_prepare hprepare
  have hrun : Run opened [] elsewhere :=
    .snoc (.snoc .nil (.moved hguards.state_eq 3)) (.refused (of_failed? hrefused))
  have hrun : Run opened [filled 1] extended :=
    .snoc (.snoc hrun (.moved (hguards.run hrun).state_eq 8)) (.pushed (of_succeeded? hpushed))
  have hrun : Run opened [filled 1] full := .snoc hrun (.refused (of_failed? hfull))
  have hrun : Run opened [filled 1] (movedTo 15 full) :=
    .snoc hrun (.moved (hguards.run hrun).state_eq 15)
  have hwrite := of_succeeded? hwrite
  obtain ⟨size, hsize, _, hbytes, _⟩ := (written_of_run hprepare hrun).1 _ _ hwrite
  have hten : size = 10 := Nat.add_left_cancel hsize.symm
  subst hten
  exact ⟨8, opened, movedTo 15 full, 15, s', hprepare, hrun, hwrite, hbytes⟩

end Ebml.StreamingCluster
