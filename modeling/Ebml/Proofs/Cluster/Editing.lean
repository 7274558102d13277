import Ebml.Proofs.Cluster.Bookkeeping
import Ebml.Proofs.Stream.Comparison

/-!
# Metadata that is edited while a cluster is open

The metadata of an open cluster has been written, so an edit comes too late.  Until the cluster is
closed nobody can tell: two clusters that differ in nothing but their live metadata (`Veiled`) take
the same blocks, are of the same size and write the same.

A write that succeeds takes the edits back, with a warning if there is anything to take back.  A
write that is refused (`isRefusal`), because the output was moved or because the body is too large,
returns before that.  The cluster is closed all the same, and it keeps the metadata as it was
edited.  So it may well be of another size than before.
-/

namespace Ebml.StreamingCluster

/-! ## While the cluster is open -/

/-- What is done while a cluster is open, to it or to its output. -/
inductive Action where
  /-- A block is handed to the cluster, which may refuse it. -/
  | push (block : ClusterBlock)
  /-- The metadata is edited. -/
  | edit (m : ClusterMetadata)
  /-- The output is moved or changed in any way. -/
  | disturb (f : Stream → Stream)

namespace Action

/-- What an action does. -/
def run : Action → Draining StreamingCluster Nat
  | push block => StreamingCluster.push block
  | edit m => do
    change fun c => { c with metadata := m }
    return 0
  | disturb f => do
    beside (modify fun sink => { sink with stream := f sink.stream })
    return 0

/-- Whether an action does anything but edit the metadata. -/
def isVisible : Action → Bool
  | edit _ => false
  | _ => true

/-- The metadata after an action. -/
def edited : Action → ClusterMetadata → ClusterMetadata
  | edit m, _ => m
  | _, m => m

end Action

/-- What any number of actions leave. -/
def after (s : Held StreamingCluster Sink) (actions : List Action) : Held StreamingCluster Sink :=
  actions.foldl (fun s action => stateOf (action.run s)) s

/-- What the actions that do anything but edit tell whoever takes them. -/
def answers (s : Held StreamingCluster Sink) : List Action → List (Except Error Nat)
  | [] => []
  | action :: actions =>
    let rest := answers (stateOf (action.run s)) actions
    if action.isVisible then answerOf (action.run s) :: rest else rest

/-- The metadata after any number of actions. -/
def edited (m : ClusterMetadata) (actions : List Action) : ClusterMetadata :=
  actions.foldl (fun m action => action.edited m) m

/-- Nothing but the live metadata is different. -/
def Veiled (s t : Held StreamingCluster Sink) : Prop :=
  t = { s with object := { s.object with metadata := t.object.metadata } }

/-- The cluster is open, and starts where and with the metadata that it was prepared with. -/
def Committed (start : Nat) (m : ClusterMetadata) (s : Held StreamingCluster Sink) : Prop :=
  ∃ state, s.object.state? = some state ∧ state.start = start ∧ state.metadata = m

variable {c : StreamingCluster} {sink : Sink} {s t u s' : Held StreamingCluster Sink}
  {start : Nat} {m : ClusterMetadata} {state : OpenState}

namespace Veiled

theorem refl (s : Held StreamingCluster Sink) : Veiled s s := rfl

theorem symm (h : Veiled s t) : Veiled t s := by
  rw [Veiled] at h ⊢
  rw [h]

theorem trans (h : Veiled s t) (h' : Veiled t u) : Veiled s u := by
  rw [Veiled] at h h' ⊢
  rw [h', h]

theorem edit (s : Held StreamingCluster Sink) (m : ClusterMetadata) :
    Veiled (stateOf ((Action.edit m).run s)) s := rfl

/-- An open cluster is as large as what it has written. -/
theorem sizes_eq (h : Veiled s t) (hstate : s.object.state? = some state) :
    s.object.bodySize = t.object.bodySize ∧ s.object.totalSize = t.object.totalSize := by
  have hbody : s.object.bodySize = t.object.bodySize := by
    rw [h, bodySize, bodySize, hstate]
    rfl
  refine ⟨hbody, ?_⟩
  rw [totalSize, totalSize, hbody, h]

end Veiled

/-! ## One action -/

theorem agree_push (h : Veiled s t) (block : ClusterBlock) :
    Agree Veiled Veiled (push block s) (push block t) := by
  obtain ⟨c, sink⟩ := s
  obtain ⟨m, rfl⟩ : ∃ m, t = ⟨{ c with metadata := m }, sink⟩ := ⟨_, h⟩
  rcases Option.eq_none_or_eq_some c.state? with hclosed | ⟨state, hstate⟩
  · rw [push_of_closed hclosed, push_of_closed (c := { c with metadata := m }) hclosed]
    exact .error h
  · rw [push_eq hstate, push_eq (c := { c with metadata := m }) hstate]
    cases pushAt state.expected block sink with
    | ok written sink' => exact .ok rfl
    | error e sink' => exact .error rfl

/-- No action but an edit tells two clusters apart. -/
theorem Action.agree_run (action : Action) (hvisible : action.isVisible = true) (h : Veiled s t) :
    Agree Veiled Veiled (action.run s) (action.run t) := by
  cases action with
  | push block => exact agree_push h block
  | edit m => cases hvisible
  | disturb f =>
      rw [h]
      exact .ok rfl

theorem committed_push (h : Committed start m s) (block : ClusterBlock) :
    Committed start m (stateOf (push block s)) ∧
      (stateOf (push block s)).object.metadata = s.object.metadata := by
  obtain ⟨c, sink⟩ := s
  obtain ⟨state, hstate, hstart, hmetadata⟩ := h
  rw [push_eq hstate]
  cases pushAt state.expected block sink with
  | ok written sink' => exact ⟨⟨_, rfl, hstart, hmetadata⟩, rfl⟩
  | error e sink' => exact ⟨⟨state, hstate, hstart, hmetadata⟩, rfl⟩

/-- Whatever is done, the cluster stays open, and only an edit changes its metadata. -/
theorem Action.committed_run (action : Action) (h : Committed start m s) :
    Committed start m (stateOf (action.run s)) ∧
      (stateOf (action.run s)).object.metadata = action.edited s.object.metadata := by
  cases action with
  | push block => exact committed_push h block
  | edit m' => exact ⟨h, rfl⟩
  | disturb f => exact ⟨h, rfl⟩

/-! ## Any number of actions -/

theorem committed_after (h : Committed start m s) (actions : List Action) :
    Committed start m (after s actions) ∧
      (after s actions).object.metadata = edited s.object.metadata actions := by
  induction actions generalizing s with
  | nil => exact ⟨h, rfl⟩
  | cons action actions ih =>
      obtain ⟨hnext, hmetadata⟩ := action.committed_run h
      rw [after, edited, List.foldl_cons, List.foldl_cons, ← hmetadata]
      exact ih hnext

/-- Edits may be left out. -/
theorem veiled_filter (h : Veiled s t) (actions : List Action) :
    answers s actions = answers t (actions.filter Action.isVisible) ∧
      Veiled (after s actions) (after t (actions.filter Action.isVisible)) := by
  induction actions generalizing s t with
  | nil => exact ⟨rfl, h⟩
  | cons action actions ih =>
      rw [answers, after, List.foldl_cons]
      cases hvisible : action.isVisible with
      | true =>
          have hagree := action.agree_run hvisible h
          obtain ⟨hanswers, hafter⟩ := ih hagree.state
          rw [List.filter_cons_of_pos hvisible, answers, after, List.foldl_cons, hvisible,
            if_pos rfl, if_pos rfl, hagree.answer_eq, hanswers]
          exact ⟨rfl, hafter⟩
      | false =>
          rw [List.filter_cons_of_neg (by rw [hvisible]; exact Bool.false_ne_true),
            if_neg Bool.false_ne_true]
          refine ih ?_
          cases action with
          | edit m => exact (Veiled.edit s m).trans h
          | push block => cases hvisible
          | disturb f => cases hvisible

/-- Runs that differ in their edits alone differ in the live metadata alone. -/
theorem veiled_of_filter_eq {actions others : List Action}
    (h : actions.filter Action.isVisible = others.filter Action.isVisible)
    (s : Held StreamingCluster Sink) :
    answers s actions = answers s others ∧ Veiled (after s actions) (after s others) := by
  obtain ⟨hanswers, hafter⟩ := veiled_filter (.refl s) actions
  obtain ⟨hanswers', hafter'⟩ := veiled_filter (.refl s) others
  rw [h] at hanswers hafter
  exact ⟨hanswers.trans hanswers'.symm, hafter.trans hafter'.symm⟩

/-! ## Ending the write -/

theorem committed_of_prepare {head : Nat} (h : prepare ⟨c, sink⟩ = .ok head s) :
    Committed sink.stream.pos c.metadata s ∧ s.object.metadata = c.metadata := by
  rcases Option.eq_none_or_eq_some c.state? with hclosed | ⟨state, hstate⟩
  · rw [prepare_eq hclosed] at h
    split at h
    next =>
      cases h
      exact ⟨⟨_, rfl, rfl, rfl⟩, rfl⟩
    next => cases h
  · rw [prepare_of_open hstate] at h
    cases h

/-- The clusters are one after they were written.  If they could not be, they still differ in their
metadata alone. -/
theorem agree_write (h : Veiled s t) (hstate : s.object.state? = some state) :
    Agree
      (fun s' t' => s'.object = t'.object ∧ s'.object.metadata = state.metadata ∧
        s'.medium.stream = t'.medium.stream)
      Veiled (write s) (write t) := by
  obtain ⟨c, sink⟩ := s
  obtain ⟨m, rfl⟩ : ∃ m, t = ⟨{ c with metadata := m }, sink⟩ := ⟨_, h⟩
  cases hfill : fillSize state c.sizeLength sink with
  | ok u sink' =>
      rw [write_filled hstate hfill, write_filled (c := { c with metadata := m }) hstate hfill]
      exact .ok ⟨rfl, rfl, rfl⟩
  | error e sink' =>
      rw [write_error hstate hfill, write_error (c := { c with metadata := m }) hstate hfill]
      exact .error rfl

/-- A log has grown from `before` to `after`, and these are the warnings that it has more. -/
def Warns (before after warnings : Log) : Prop :=
  ∃ events : Log, after = before ++ events ∧ events.filter Event.isWarning = warnings

namespace Warns

variable {before after warnings : Log} {event : Event}

theorem of_noted {sink sink' : Sink} (h : Noted Event.isPlain sink sink') :
    Warns sink.log sink'.log #[] := by
  obtain ⟨events, hlog, hplain⟩ := h
  refine ⟨events, hlog, Array.filter_eq_empty_iff.mpr fun event hm => ?_⟩
  have hevent := hplain event hm
  simp only [Event.isPlain, Bool.and_eq_true, Bool.not_eq_true'] at hevent
  rw [hevent.2]
  exact Bool.false_ne_true

theorem push (h : Warns before after warnings) (hevent : event.isWarning = true) :
    Warns before (after.push event) (warnings.push event) := by
  obtain ⟨events, hlog, hwarnings⟩ := h
  refine ⟨events.push event, by rw [hlog, Array.append_push], ?_⟩
  rw [Array.filter_push, if_pos hevent, hwarnings]

theorem push_quiet (h : Warns before after warnings) (hevent : event.isWarning = false) :
    Warns before (after.push event) warnings := by
  obtain ⟨events, hlog, hwarnings⟩ := h
  refine ⟨events.push event, by rw [hlog, Array.append_push], ?_⟩
  rw [Array.filter_push, hevent, if_neg Bool.false_ne_true, hwarnings]

end Warns

/-- A write that succeeds warns of edits that it takes back, and of nothing else. -/
theorem warns_of_write (hstate : s.object.state? = some state) {count : Nat}
    (hwrite : write s = .ok count s') :
    Warns s.medium.log s'.medium.log (if s.object.metadata = state.metadata then #[]
      else #[.discardedMetadata state.start]) := by
  obtain ⟨c, sink⟩ := s
  have hnoted := (plain_fillSize state c.sizeLength).leaves sink
  cases hfill : fillSize state c.sizeLength sink with
  | ok u sink' =>
      rw [write_filled hstate hfill] at hwrite
      cases hwrite
      rw [hfill] at hnoted
      dsimp only [closedLog]
      split
      next => exact (Warns.of_noted hnoted).push_quiet rfl
      next => exact ((Warns.of_noted hnoted).push rfl).push_quiet rfl
  | error e sink' =>
      rw [write_error hstate hfill] at hwrite
      cases hwrite

/-- After a cluster was prepared, edits of its metadata make no difference as long as it is open: of
two runs that differ in nothing else, every block is answered alike, the sizes are the same and so
are the output and the log.  This goes for every point of the runs, since a run may end there.  A
write does the same in both, and if it succeeds, the clusters are the same and have the metadata
that they were prepared with.  It warns once if that has been edited to anything else. -/
theorem edits_invisible {head : Nat} {actions others : List Action}
    (hprepare : prepare ⟨c, sink⟩ = .ok head s)
    (hsame : actions.filter Action.isVisible = others.filter Action.isVisible) :
    answers s actions = answers s others ∧
      (after s actions).object.bodySize = (after s others).object.bodySize ∧
      (after s actions).object.totalSize = (after s others).object.totalSize ∧
      (after s actions).medium = (after s others).medium ∧
      Agree
        (fun s' t' => s'.object = t'.object ∧ s'.object.metadata = c.metadata ∧
          s'.medium.stream = t'.medium.stream)
        (fun s' t' => s'.medium = t'.medium)
        (write (after s actions)) (write (after s others)) ∧
      ∀ count s', write (after s actions) = .ok count s' →
        Warns (after s actions).medium.log s'.medium.log
          (if edited c.metadata actions = c.metadata then #[]
            else #[.discardedMetadata sink.stream.pos]) := by
  obtain ⟨hanswers, hveiled⟩ := veiled_of_filter_eq hsame s
  obtain ⟨hcommitted, hlive⟩ := committed_of_prepare hprepare
  obtain ⟨⟨state, hstate, hstart, hmetadata⟩, hedited⟩ := committed_after hcommitted actions
  obtain ⟨hbody, htotal⟩ := hveiled.sizes_eq hstate
  refine ⟨hanswers, hbody, htotal, (congrArg Held.medium hveiled).symm, ?_, ?_⟩
  · rw [← hmetadata]
    exact (agree_write hveiled hstate).mono id fun h => (congrArg Held.medium h).symm
  · intro count s' hwrite
    have hwarns := warns_of_write hstate hwrite
    rwa [hmetadata, hedited, hlive, hstart] at hwarns

/-- The cluster after it was prepared. -/
def freshlyOpened : Held StreamingCluster Sink := stateOf (prepare fresh)

theorem prepare_fresh : prepare fresh = .ok 8 freshlyOpened := by
  have hcount : (succeeded? prepare fresh).map Prod.fst = some 8 := by decide +kernel
  obtain ⟨⟨_, opened⟩, hprepare, rfl⟩ := Option.map_eq_some_iff.mp hcount
  rw [freshlyOpened, of_succeeded? hprepare]
  rfl

/-- A block with a frame of `count` bytes is written, and the metadata edited. -/
def pushEdited (count : Nat) : List Action :=
  [.push (filled count), .edit { prevSize := 4096 }]

/-- The cluster of 15 bytes that is written has nothing of the edit. -/
theorem pushEdited_invisible : ∃ s' t',
    write (after freshlyOpened (pushEdited 1)) = .ok 15 s' ∧
      write (after freshlyOpened [.push (filled 1)]) = .ok 15 t' ∧
      s'.object = t'.object ∧ s'.object.metadata = {} ∧
      s'.medium.stream = t'.medium.stream ∧
      Warns (after freshlyOpened (pushEdited 1)).medium.log s'.medium.log
        #[.discardedMetadata 0] := by
  have hsame : (pushEdited 1).filter Action.isVisible =
      [Action.push (filled 1)].filter Action.isVisible := rfl
  obtain ⟨-, -, -, -, hagree, hwarns⟩ := edits_invisible prepare_fresh hsame
  have hcount : (succeeded? write (after freshlyOpened (pushEdited 1))).map Prod.fst = some 15 := by
    decide +kernel
  obtain ⟨⟨_, s'⟩, hwrite, rfl⟩ := Option.map_eq_some_iff.mp hcount
  have hwrite := of_succeeded? hwrite
  rw [hwrite] at hagree
  cases hwrite' : write (after freshlyOpened [.push (filled 1)]) with
  | ok count t' =>
      rw [hwrite'] at hagree
      cases hagree with
      | ok h => exact ⟨s', t', hwrite, rfl, h.1, h.2.1, h.2.2, hwarns _ _ hwrite⟩
  | error e t' =>
      rw [hwrite'] at hagree
      cases hagree

/-! ## A write that fails -/

/-- Whether an error tells that a cluster was not written because the output is elsewhere, or
because its body is too large for the room that was left for its size. -/
def isRefusal : Error → Bool
  | .interleavedWrite _ _ | .varIntTooBig _ => true
  | _ => false

/-- Bytes that cannot be written are not refused: it is the stream that fails. -/
theorem not_refused_of_emitCounted {bytes : List UInt8} {sink sink' : Sink} {e : Error}
    (herror : Writer.emitCounted bytes sink = .error e sink') : isRefusal e = false := by
  cases hemit : Writer.emit bytes sink with
  | ok u after =>
      rw [Writer.emitCounted, Writer.bind_ok hemit] at herror
      cases herror
  | error e' after =>
      rw [Writer.emitCounted, Writer.bind_error hemit] at herror
      cases herror
      rw [Writer.emit, Writer.finish] at hemit
      split at hemit
      next => cases hemit
      next =>
        cases hemit
        rfl

/-- A size is refused before any of it is written. -/
theorem data_of_writeSized {value length : Nat} {sink sink' : Sink} {e : Error}
    (herror : VarInt.writeSized value length sink = .error e sink') (he : isRefusal e = true) :
    sink'.stream.data = sink.stream.data := by
  rw [VarInt.writeSized] at herror
  cases hencode : VarInt.encodeSized value length with
  | error e' =>
      rw [hencode] at herror
      cases herror
      rfl
  | ok bytes =>
      rw [hencode] at herror
      cases (not_refused_of_emitCounted herror).symm.trans he

/-- Neither a moved output nor a body that is too large is noticed too late. -/
theorem data_of_fillSize {width : Nat} {sink' : Sink} {e : Error}
    (herror : fillSize state width sink = .error e sink') (he : isRefusal e = true) :
    sink'.stream.data = sink.stream.data := by
  by_cases hpos : sink.stream.pos = state.expected
  · rw [fillSize_eq width hpos] at herror
    split at herror
    next => cases herror
    next hsize =>
      cases herror
      have hdata := data_of_writeSized hsize he
      exact hdata
  · rw [fillSize_of_ne width hpos] at herror
    cases herror
    rfl

/-- After a cluster was prepared, whatever was done to it and to its output since: if it is refused
to be written, its output is as it was and the cluster is closed.  Its blocks and their size are as
they were as well.  But its metadata is not the one that was written: it stays as it was edited.  So
the size of the cluster is the same before and after exactly if edits have not changed that. -/
theorem refused_keeps_edits {head : Nat} {actions : List Action} {e : Error}
    (hprepare : prepare ⟨c, sink⟩ = .ok head s)
    (hwrite : write (after s actions) = .error e s') (he : isRefusal e = true) :
    s'.medium.stream.data = (after s actions).medium.stream.data ∧
      s'.object = { (after s actions).object with
        state? := none, metadata := edited c.metadata actions } ∧
      (s'.object.totalSize = (after s actions).object.totalSize ↔
        (edited c.metadata actions).size = c.metadata.size) := by
  obtain ⟨hcommitted, hlive⟩ := committed_of_prepare hprepare
  obtain ⟨⟨state, hstate, -, hmetadata⟩, hedited⟩ := committed_after hcommitted actions
  rw [hlive] at hedited
  cases hfill : fillSize state (after s actions).object.sizeLength (after s actions).medium with
  | ok u sink' =>
      rw [write_filled hstate hfill] at hwrite
      cases hwrite
  | error e' sink' =>
      rw [write_error hstate hfill] at hwrite
      cases hwrite
      refine ⟨data_of_fillSize hfill he, by rw [← hedited], ?_⟩
      rw [totalSize_of_open hstate, ← hedited, hmetadata, totalSize, size_cluster]
      dsimp only [bodySize]
      rw [Option.map_none, Option.getD_none]
      omega

/-- The output is moved away from the cluster. -/
def moveAway : Action := .disturb fun stream => { stream with pos := 3 }

/-- A cluster whose output was moved, and one with a frame too large for its size, keep an edit and
are of another size than before. -/
theorem pushEdited_refused :
    (∃ s', write (after freshlyOpened (pushEdited 1 ++ [moveAway])) =
        .error (.interleavedWrite 15 3) s' ∧
      s'.medium.stream.data =
        (after freshlyOpened (pushEdited 1 ++ [moveAway])).medium.stream.data ∧
      s'.object.metadata = { prevSize := 4096 } ∧
      s'.object.totalSize ≠
        (after freshlyOpened (pushEdited 1 ++ [moveAway])).object.totalSize) ∧
    ∃ s', write (after freshlyOpened (pushEdited 200)) = .error (.varIntTooBig 210) s' ∧
      s'.medium.stream.data = (after freshlyOpened (pushEdited 200)).medium.stream.data ∧
      s'.object.metadata = { prevSize := 4096 } ∧
      s'.object.totalSize ≠ (after freshlyOpened (pushEdited 200)).object.totalSize := by
  have hsize : ({ prevSize := 4096 } : ClusterMetadata).size ≠ ({} : ClusterMetadata).size := by
    decide +kernel
  have hmoved : errorOf? (write (after freshlyOpened (pushEdited 1 ++ [moveAway]))) =
      some (.interleavedWrite 15 3) := by decide +kernel
  have hlarge : errorOf? (write (after freshlyOpened (pushEdited 200))) =
      some (.varIntTooBig 210) := by decide +kernel
  obtain ⟨s', hmoved⟩ := of_errorOf? hmoved
  obtain ⟨t', hlarge⟩ := of_errorOf? hlarge
  obtain ⟨hdata, hobject, htotal⟩ := refused_keeps_edits prepare_fresh hmoved rfl
  obtain ⟨hdata', hobject', htotal'⟩ := refused_keeps_edits prepare_fresh hlarge rfl
  refine ⟨⟨s', hmoved, hdata, ?_, fun h => hsize (htotal.mp h)⟩,
    t', hlarge, hdata', ?_, fun h => hsize (htotal'.mp h)⟩
  · rw [hobject]
    rfl
  · rw [hobject']
    rfl

end Ebml.StreamingCluster
