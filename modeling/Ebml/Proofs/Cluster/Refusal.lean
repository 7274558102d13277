import Ebml.Proofs.Capacity
import Ebml.Proofs.Cluster.Editing
import Ebml.Proofs.Element.Writing
import Ebml.Proofs.Stream.Extent
import Ebml.Proofs.Stream.Independence

/-!
# Blocks that are refused

A streaming cluster looks at a block before it writes any of it.  So a block that is unfit to be
written leaves nothing behind but what was noted, whatever the cluster and its output are
(`StreamingCluster.push_of_fault`), and since nothing looks at the log, whatever is done after that
comes to the same as without it.  By induction on the actions, all blocks that are unfit can be left
out of a run (`StreamingCluster.told_filter`).

Nothing else can go wrong where there is room: a block that is fit, whose track can be stored and
whose size is within bounds, is written whole to every output that grows
(`StreamingCluster.push_of_sound`).
-/

namespace Ebml

open StreamingCluster (Action after)

/-! ## Looking at a block -/

namespace Block

variable {b : Block}

theorem validate_of_sound (h : b.fault? = none) (sink : Sink) : b.validate sink = .ok () sink := by
  rw [validate, h]
  rfl

/-- A block that is looked at leaves no more than a note. -/
theorem validate_of_fault {fault : Error} (h : b.fault? = some fault) (sink : Sink) :
    ∃ sink', b.validate sink = .error fault sink' ∧ Same sink' sink := by
  rw [validate, h]
  cases fault with
  | badLacedFrameSize => exact ⟨_, rfl, Sink.same_iff.mpr rfl⟩
  | _ => exact ⟨sink, rfl, .refl sink⟩

end Block

/-- A block that there can be: a simple block, or a group. -/
def ClusterBlock.Reached : ClusterBlock → Prop
  | simple b => Ebml.Reached b
  | group g => Ebml.Reached g

theorem ClusterBlock.Reached.bounded {block : ClusterBlock} (h : block.Reached) :
    block.block.Bounded := by
  cases block with
  | simple b => exact Ebml.Reached.bounded h
  | group g => exact Ebml.Reached.bounded h

namespace StreamingCluster

variable {c : StreamingCluster} {s t s' : Held StreamingCluster Sink} {state : OpenState}
  {block : ClusterBlock}

/-! ## One block -/

/-- A block that is unfit leaves no more than a note, whatever the cluster and its output are. -/
theorem push_of_fault (h : block.block.fault? ≠ none) (s : Held StreamingCluster Sink) :
    ∃ e s', push block s = .error e s' ∧ Same s' s := by
  obtain ⟨fault, hfault⟩ := Option.ne_none_iff_exists'.mp h
  obtain ⟨c, sink⟩ := s
  cases hstate : c.state? with
  | none => exact ⟨_, _, push_of_closed hstate block sink, .refl _⟩
  | some state =>
      rw [push_eq hstate]
      by_cases hpos : sink.stream.pos = state.expected
      · obtain ⟨sink', hvalidate, hsame⟩ := Block.validate_of_fault hfault sink
        rw [pushAt_of_pos block hpos, Writer.bind_error hvalidate]
        exact ⟨_, _, rfl, Held.same_iff.mpr ⟨rfl, hsame⟩⟩
      · rw [pushAt_of_ne block hpos]
        exact ⟨_, _, rfl, .refl _⟩

/-- A block that is fit is written whole where the output is expected. -/
theorem push_of_sound {sink : Sink} (hopen : c.state? = some state)
    (hpos : sink.stream.pos = state.expected) (hgrow : sink.stream.fixed = false)
    (hbounded : block.block.Bounded) (hsize : Element.bodySize block < Element.sizeBound)
    (h : block.block.fault? = none) :
    ∃ log, push block ⟨c, sink⟩ = .ok (Element.totalSize block)
      ⟨c.extended state block (Element.totalSize block),
        ⟨sink.stream.fillGap.overlay (Element.encoding block), log⟩⟩ := by
  have hvalid : block.Valid := ⟨h, hbounded.track_ne_zero, hbounded.track_le⟩
  obtain ⟨log, hwrite⟩ := (Element.fillsGap_write block).ok_of_growing
    (ClusterBlock.emits_write fun _ => ⟨hvalid, hsize⟩) trivial hgrow sink.log
  rw [push_eq hopen, pushAt_of_pos block hpos, Writer.bind_ok (Block.validate_of_sound h sink),
    hwrite]
  exact ⟨_, rfl⟩

/-! ## What comes after -/

theorem respects_push (block : ClusterBlock) : Respects Same (push block) := by
  refine Respects.held.bind fun c => ?_
  split
  next => exact .throw _
  next =>
    exact (closed_pushAt Writer.closed_respects _ block).beside.bind fun _ =>
      (Respects.change _).bind fun _ => (Writer.respects_note _).beside.bind fun _ => .pure _

theorem respects_write : Respects Same write := by
  refine Respects.held.bind fun c => ?_
  split
  next => exact .throw _
  next state _ =>
    refine (Respects.change _).bind fun _ => Respects.held.bind fun _ => ?_
    refine (closed_fillSize Writer.closed_respects state _).beside.bind fun _ => ?_
    have hend : Respects Same (do
        change sorted
        let blocks := (← held).index.length
        beside (Writer.note
          (.finishedCluster state.start blocks (state.expected - state.bodyStart)))
        return state.expected - state.start) :=
      (Respects.change _).bind fun _ => Respects.held.bind fun _ =>
        (Writer.respects_note _).beside.bind fun _ => .pure _
    refine Respects.held.bind fun _ => ?_
    split
    next =>
      exact (Writer.respects_note _).beside.bind fun _ => (Respects.change _).bind fun _ => hend
    next => exact hend

theorem Action.respects_run (action : Action) : Respects Same action.run := by
  cases action with
  | push block => exact respects_push block
  | edit m => exact (Respects.change _).bind fun _ => .pure 0
  | disturb f =>
      have hdisturb : Respects Same
          (modify fun sink => { sink with stream := f sink.stream } : Writer Unit) :=
        .of_ok (f := fun _ => ()) (fun _ => rfl) (fun _ => rfl) fun h =>
          Sink.same_iff.mpr (congrArg f (Sink.same_iff.mp h))
      exact hdisturb.beside.bind fun _ => .pure 0

/-- Every action with what it tells whoever takes it. -/
def told (s : Held StreamingCluster Sink) : List Action → List (Action × Except Error Nat)
  | [] => []
  | action :: actions =>
    (action, answerOf (action.run s)) :: told (stateOf (action.run s)) actions

theorem after_cons (s : Held StreamingCluster Sink) (action : Action) (actions : List Action) :
    after s (action :: actions) = after (stateOf (action.run s)) actions := rfl

/-- What was noted before makes no difference to a run. -/
theorem agree_run (h : Same s t) (actions : List Action) :
    told s actions = told t actions ∧ Same (after s actions) (after t actions) := by
  induction actions generalizing s t with
  | nil => exact ⟨rfl, h⟩
  | cons action actions ih =>
      have hagree := action.respects_run.agree h
      obtain ⟨htold, hafter⟩ := ih hagree.state
      rw [told, told, hagree.answer_eq, htold]
      exact ⟨rfl, hafter⟩

/-- Whether an action is anything but to hand over a block that is unfit. -/
def Action.isSound : Action → Bool
  | push block => block.block.fault?.isNone
  | _ => true

theorem Action.same_of_unsound {action : Action} (h : action.isSound = false)
    (s : Held StreamingCluster Sink) : Same (stateOf (action.run s)) s := by
  cases action with
  | push block =>
      have hfault : block.block.fault? ≠ none :=
        fun hsound => by rw [isSound, hsound] at h; cases h
      obtain ⟨e, s', herror, hsame⟩ := push_of_fault hfault s
      rw [run, herror]
      exact hsame
  | edit m => cases h
  | disturb f => cases h

/-- Blocks that are unfit may be left out. -/
theorem told_filter (s : Held StreamingCluster Sink) (actions : List Action) :
    (told s actions).filter (fun p => p.1.isSound) = told s (actions.filter Action.isSound) ∧
      Same (after s actions) (after s (actions.filter Action.isSound)) := by
  induction actions generalizing s with
  | nil => exact ⟨rfl, .refl s⟩
  | cons action actions ih =>
      obtain ⟨htold, hafter⟩ := ih (stateOf (action.run s))
      rw [told, after_cons, List.filter_cons, List.filter_cons, htold]
      cases hsound : action.isSound with
      | true =>
          rw [if_pos rfl, if_pos rfl]
          exact ⟨rfl, hafter⟩
      | false =>
          obtain ⟨htold', hafter'⟩ := agree_run (action.same_of_unsound hsound s)
            (actions.filter Action.isSound)
          rw [if_neg Bool.false_ne_true, if_neg Bool.false_ne_true, htold']
          exact ⟨rfl, hafter.trans hafter'⟩

/-- Blocks that are unfit are the ones that failed, whatever else did. -/
theorem error_of_unsound (s : Held StreamingCluster Sink) (actions : List Action) :
    ∀ p ∈ told s actions, p.1.isSound = false → ∃ e, p.2 = .error e := by
  induction actions generalizing s with
  | nil => exact fun p hm => nomatch hm
  | cons action actions ih =>
      intro p hm hunsound
      rcases List.mem_cons.mp hm with rfl | hm
      · cases action with
        | push block =>
            have hfault : block.block.fault? ≠ none :=
              fun hsound => by rw [Action.isSound, hsound] at hunsound; cases hunsound
            obtain ⟨e, s', herror, _⟩ := push_of_fault hfault s
            exact ⟨e, by rw [Action.run, herror]; rfl⟩
        | edit m => cases hunsound
        | disturb f => cases hunsound
      · exact ih _ p hm hunsound

/-- A run comes to the same without the blocks that are unfit, up to and with the end of the write.
-/
theorem agree_without_unsound (s : Held StreamingCluster Sink) (actions : List Action) :
    (told s actions).filter (fun p => p.1.isSound) = told s (actions.filter Action.isSound) ∧
      (∀ p ∈ told s actions, p.1.isSound = false → ∃ e, p.2 = .error e) ∧
      Same (after s actions) (after s (actions.filter Action.isSound)) ∧
      Agree Same Same (write (after s actions))
        (write (after s (actions.filter Action.isSound))) := by
  obtain ⟨htold, hafter⟩ := told_filter s actions
  exact ⟨htold, error_of_unsound s actions, hafter, respects_write.agree hafter⟩

/-- A streaming cluster is open, and its output grows and is where the cluster expects it.  Then a
simple block or a group whose size is within bounds is written exactly if it is found to be fit.

If it is written, that takes as many bytes as its total size says, and the index has one entry more,
for where the output was.  If it is not, the cluster is as it was and so is the output, and whatever
is done from then on comes to the same as if the block had not been handed over.  So all blocks that
are unfit, which fail in any case, can be left out of a run: the other actions are answered alike,
and the cluster and the output are the same but for the log, also after the cluster was written. -/
theorem refused_without_trace (hopen : s.object.state? = some state)
    (hpos : s.medium.stream.pos = state.expected) (hgrow : s.medium.stream.fixed = false)
    (hblock : block.Reached) (hsize : Element.bodySize block < Element.sizeBound) :
    ((∃ written s', push block s = .ok written s') ↔
        ∃ sink, block.block.validate s.medium = .ok () sink) ∧
      (∀ written s', push block s = .ok written s' →
        written = Element.totalSize block ∧
        s'.medium.stream = s.medium.stream.fillGap.overlay (Element.encoding block) ∧
        s.medium.stream.Written s'.medium.stream (Element.totalSize block) ∧
        s'.object = { s.object with
          index := s.object.index ++
            [{ offset := s.medium.stream.pos, id := Element.id block, timecode := block.timecode }]
          blocksSize := s.object.blocksSize + Element.totalSize block
          state? := some
            { state with expected := state.expected + Element.totalSize block } }) ∧
      (∀ e s', push block s = .error e s' →
        block.block.fault? = some e ∧ s'.object = s.object ∧
        s'.medium.stream = s.medium.stream ∧
        ∀ actions, told s' actions = told s actions ∧
          Same (after s' actions) (after s actions) ∧
          Agree Same Same (write (after s' actions)) (write (after s actions))) ∧
      ∀ actions,
        (told s actions).filter (fun p => p.1.isSound) = told s (actions.filter Action.isSound) ∧
        (∀ p ∈ told s actions, p.1.isSound = false → ∃ e, p.2 = .error e) ∧
        Same (after s actions) (after s (actions.filter Action.isSound)) ∧
        Agree Same Same (write (after s actions))
          (write (after s (actions.filter Action.isSound))) := by
  have hruns := agree_without_unsound s
  obtain ⟨c, sink⟩ := s
  cases hfault : block.block.fault? with
  | none =>
      obtain ⟨log, hpush⟩ := push_of_sound hopen hpos hgrow hblock.bounded hsize hfault
      have hvalidate := Block.validate_of_sound hfault sink
      refine ⟨⟨fun _ => ⟨_, hvalidate⟩, fun _ => ⟨_, _, hpush⟩⟩, ?_, ?_, hruns⟩
      · intro written s' hok
        rw [hpush] at hok
        cases hok
        refine ⟨rfl, rfl, ?_, by rw [hpos]; rfl⟩
        rw [← Element.length_encoding]
        exact sink.stream.written_overlay _
      · intro e s' herror
        rw [hpush] at herror
        cases herror
  | some fault =>
      obtain ⟨sink', hvalidate, hsame⟩ := Block.validate_of_fault hfault sink
      have hpush : push block ⟨c, sink⟩ = .error fault ⟨c, sink'⟩ := by
        rw [push_eq hopen, pushAt_of_pos block hpos, Writer.bind_error hvalidate]
      refine ⟨⟨?_, ?_⟩, ?_, ?_, hruns⟩
      · rintro ⟨_, _, hok⟩
        cases hpush.symm.trans hok
      · rintro ⟨_, hok⟩
        cases hvalidate.symm.trans hok
      · intro written s' hok
        cases hpush.symm.trans hok
      · intro e s' herror
        cases hpush.symm.trans herror
        refine ⟨rfl, rfl, Sink.same_iff.mp hsame, fun actions => ?_⟩
        have hstart : Same (⟨c, sink'⟩ : Held StreamingCluster Sink) ⟨c, sink⟩ :=
          Held.same_iff.mpr ⟨rfl, hsame⟩
        obtain ⟨htold, hafter⟩ := agree_run hstart actions
        exact ⟨htold, hafter, respects_write.agree hafter⟩

/-- A block with frames of one and of two bytes, that are to be of one size. -/
def uneven : SimpleBlock := { block := { lacing := .fixed, frames := [[0x01], [0x02, 0x03]] } }

theorem reached_uneven : ClusterBlock.Reached (.simple uneven) :=
  .edited (.push [0x02, 0x03]) (.edited (.push [0x01]) (.edited (.setLacing .fixed) .empty))

/-- The block is refused between two others, and might as well not have been there. -/
theorem uneven_without_trace :
    (told freshlyOpened [.push (filled 1), .push (.simple uneven), .push (filled 2)]).map
        (fun p => p.2.toOption) = [some 7, none, some 8] ∧
      Same (after freshlyOpened [.push (filled 1), .push (.simple uneven), .push (filled 2)])
        (after freshlyOpened [.push (filled 1), .push (filled 2)]) ∧
      ∃ s', push (.simple uneven) freshlyOpened = .error .badLacedFrameSize s' ∧
        s'.object = freshlyOpened.object ∧
        s'.medium.stream = freshlyOpened.medium.stream := by
  have hopen := (guards_of_prepare prepare_fresh).state_eq
  have herror : errorOf? (push (.simple uneven) freshlyOpened) = some .badLacedFrameSize := by
    decide +kernel
  obtain ⟨s', hpush⟩ := of_errorOf? herror
  obtain ⟨-, -, hrefused, hruns⟩ :=
    refused_without_trace hopen (by decide +kernel) rfl reached_uneven (by decide +kernel)
  obtain ⟨-, hobject, hstream, -⟩ := hrefused _ _ hpush
  exact ⟨by decide +kernel, (hruns _).2.2.1, s', hpush, hobject, hstream⟩

end StreamingCluster

end Ebml
