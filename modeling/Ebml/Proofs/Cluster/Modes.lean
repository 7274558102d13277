import Ebml.Proofs.Cluster.Reading
import Ebml.Proofs.Element.Conduct
import Ebml.Proofs.Stream.Persistence

/-!
# How strictly a cluster is read

The modes differ in what they pass over.  Where a stricter one does not pass over what a more
lenient one does, it fails, and up to there they do the same.  So it takes one look at what the
lenient one did to tell what comes of the stricter one.

*Unknown elements.*  A relaxed reader warns of each that it passes over, wherever it lies.  So its
log tells where a reader in the next mode would have failed (`Sterner`).

*Padding.*  Among the blocks it may lie in any mode.  Before them it is passed over without a
word, so here it is said which children a reader reaches (`Cluster.reached`).
-/

namespace Ebml

open Reader (bind_of_ok bind_of_error)

variable {σ κ α β : Type} [Logging σ]

/-! ## Unknown elements -/

/-- The unknown element that a warning is about. -/
def Event.skipped? : Event → Option ElementId
  | skippingChild id | skippingElement id => some id
  | _ => none

/-- As long as `lenient` warns of nothing, `stern` does the same.  It fails at the first unknown
element that `lenient` warns of. -/
def Sterner (lenient stern : ReaderT Source (EStateM Error σ) α) : Prop :=
  ∀ source state, ∃ events : Log,
    Logging.log (stateOf (lenient source state)) = Logging.log state ++ events ∧
      match events.find? Event.isWarning with
      | none => stern source state = lenient source state
      | some event => ∃ id state', event.skipped? = some id ∧
          stern source state = .error (Cluster.unexpected id) state'

namespace Sterner

/-- A computation that does not warn does the same in all modes. -/
theorem of_quiet {E : Error → Prop} {r : ReaderT Source (EStateM Error σ) α}
    (h : Reader.Behaves (Noted fun event => !event.isWarning) E r) : Sterner r r := by
  intro source state
  obtain ⟨events, hlog, hquiet⟩ := (h source).leaves state
  have hnone : events.find? Event.isWarning = none :=
    Array.find?_eq_none.mpr fun event hm => by simpa using hquiet event hm
  exact ⟨events, hlog, by rw [hnone]⟩

theorem of_plain {r : ReaderT Source (EStateM Error σ) α} (h : Reader.Plain r) : Sterner r r :=
  of_quiet <| h.mono (S := Noted fun event => !event.isWarning)
    (fun hnoted => hnoted.mono fun {event} hplain => by
      rw [Event.isPlain, Bool.and_eq_true] at hplain
      exact hplain.2) id

theorem bind {lenient stern : ReaderT Source (EStateM Error σ) α}
    {f g : α → ReaderT Source (EStateM Error σ) β} (h : Sterner lenient stern)
    (hf : ∀ a, Sterner (f a) (g a)) : Sterner (lenient >>= f) (stern >>= g) := by
  intro source state
  obtain ⟨events, hlog, hstern⟩ := h source state
  cases hfirst : lenient source state with
  | error e state' =>
      rw [hfirst] at hlog hstern
      rw [bind_of_error hfirst]
      refine ⟨events, hlog, ?_⟩
      cases hfind : events.find? Event.isWarning with
      | none =>
          rw [hfind] at hstern
          exact bind_of_error hstern
      | some event =>
          rw [hfind] at hstern
          obtain ⟨id, state'', hid, hfail⟩ := hstern
          exact ⟨id, state'', hid, bind_of_error hfail⟩
  | ok a state' =>
      rw [hfirst] at hlog hstern
      rw [bind_of_ok hfirst]
      obtain ⟨events', hlog', hstern'⟩ := hf a source state'
      have hboth : Logging.log (stateOf (f a source state')) =
          Logging.log state ++ (events ++ events') := by
        rw [hlog', ← Array.append_assoc]
        exact congrArg (· ++ events') hlog
      refine ⟨events ++ events', hboth, ?_⟩
      rw [Array.find?_append]
      cases hfind : events.find? Event.isWarning with
      | none =>
          rw [hfind] at hstern
          rw [Option.none_or, bind_of_ok hstern]
          exact hstern'
      | some event =>
          rw [hfind] at hstern
          obtain ⟨id, state'', hid, hfail⟩ := hstern
          exact ⟨id, state'', hid, bind_of_error hfail⟩

/-- What would come after a failure does not matter. -/
theorem throw_bind {e : Error} {f g : α → ReaderT Source (EStateM Error σ) β} :
    Sterner ((throw e : ReaderT Source (EStateM Error σ) α) >>= f) (throw e >>= g) :=
  fun source state => of_quiet (E := fun _ => True)
    (r := (throw e : ReaderT Source (EStateM Error σ) β)) (.throw trivial) source state

/-- Where `lenient` warns first of all, `stern` fails. -/
theorem of_warning {event : Event} {id : ElementId} (hwarns : event.isWarning = true)
    (hid : event.skipped? = some id) {r : Reader α} (hr : Reader.Plain r) :
    Sterner (Reader.note event >>= fun _ => r) (throw (Cluster.unexpected id)) := by
  intro source cursor
  obtain ⟨events, hlog, _⟩ := (hr source).leaves { cursor with log := cursor.log.push event }
  refine ⟨#[event] ++ events, ?_, ?_⟩
  · rw [← Array.append_assoc, ← Array.push_eq_append]
    exact hlog
  · rw [Array.find?_append, Array.find?_singleton, if_pos hwarns]
    exact ⟨id, cursor, hid, rfl⟩

theorem lift {lenient stern : Reader α} (h : Sterner lenient stern) :
    Sterner (Filling.lift lenient : Filling κ α) (Filling.lift stern) := by
  intro source ⟨c, cursor⟩
  obtain ⟨events, hlog, hstern⟩ := h source cursor
  refine ⟨events, ?_, ?_⟩
  · cases hfirst : lenient source cursor with
    | ok a cursor' =>
        rw [hfirst] at hlog
        rw [Filling.lift_eq_ok.mpr ⟨hfirst, rfl⟩]
        exact hlog
    | error e cursor' =>
        rw [hfirst] at hlog
        rw [Filling.lift_of_error hfirst]
        exact hlog
  · cases hfind : events.find? Event.isWarning with
    | none =>
        rw [hfind] at hstern
        simp only [Filling.lift, beside, hstern]
    | some event =>
        rw [hfind] at hstern
        obtain ⟨id, cursor', hid, hfail⟩ := hstern
        exact ⟨id, ⟨c, cursor'⟩, hid, Filling.lift_of_error hfail⟩

end Sterner

/-! ## What is passed over -/

theorem sterner_skipChild (id : ElementId) :
    Sterner (Cluster.skipChild .relaxed id) (Cluster.skipChild .bestAttempt id) := by
  rw [Cluster.skipChild, Cluster.skipChild]
  by_cases hpadding : Cluster.isPadding id = true
  · rw [if_pos hpadding, if_pos hpadding]
    exact .of_plain Element.plain_skipRest
  · rw [if_neg hpadding, if_neg hpadding]
    exact .of_warning rfl rfl Element.plain_skipRest

theorem sterner_skipNonBlock (id : ElementId) :
    Sterner (Cluster.skipNonBlock .relaxed id) (Cluster.skipNonBlock .bestAttempt id) := by
  rw [Cluster.skipNonBlock, Cluster.skipNonBlock]
  by_cases hpadding : Cluster.isPadding id = true
  · rw [if_pos hpadding, if_pos hpadding]
    exact .of_plain ((Reader.Plain.note rfl).bind fun _ => Element.plain_skipRest)
  · rw [if_neg hpadding, if_neg hpadding]
    exact .of_warning rfl rfl Element.plain_skipRest

theorem Element.sterner_readChildrenFrom {lenient stern : α → ElementId → Reader (α × Nat)}
    (h : ∀ acc id, Sterner (lenient acc id) (stern acc id)) (parent : ElementId) (size : Nat) :
    ∀ consumed acc, Sterner (readChildrenFrom parent size lenient consumed acc)
      (readChildrenFrom parent size stern consumed acc) := by
  intro consumed
  induction hleft : size - consumed using Nat.strongRecOn generalizing consumed with
  | ind left ih =>
      intro acc
      rw [readChildrenFrom, readChildrenFrom]
      split
      next hlt =>
        refine (Sterner.of_plain ElementId.plain_read).bind fun id => ?_
        have hsize := id.size_pos
        exact (Sterner.of_plain (Reader.Plain.note rfl)).bind fun _ => (h acc id).bind fun _ =>
          ih _ (by omega) _ rfl _
      next =>
        split
        next => exact .of_plain (.pure _)
        next => exact .of_plain (.throw rfl)

/-- A kind of cluster that reads its region of blocks in all modes alike, but for the unknown
elements in it.  Among the blocks, a strict reader is as lenient as one that makes its best attempt.
-/
class GradedCluster (κ : Type) [Cluster κ] : Prop where
  sterner_readBlocks : ∀ size, Sterner (Cluster.readBlocks .relaxed size : Filling κ Nat)
    (Cluster.readBlocks .bestAttempt size)
  readBlocks_strict : ∀ size, (Cluster.readBlocks .strict size : Filling κ Nat) =
    Cluster.readBlocks .bestAttempt size

instance : GradedCluster BufferedCluster where
  sterner_readBlocks size := by
    have hchild : ∀ blocks id, Sterner (BufferedCluster.readChild .relaxed blocks id)
        (BufferedCluster.readChild .bestAttempt blocks id) := fun blocks id => by
      rw [BufferedCluster.readChild, BufferedCluster.readChild]
      split
      next =>
        exact .of_plain <| (ClusterBlock.plain_read _).bind fun _ => .pure _
      next => exact (sterner_skipNonBlock id).bind fun _ => .of_plain (.pure _)
    refine (Sterner.lift (Element.sterner_readChildrenFrom hchild _ size 0 [])).bind fun _ => ?_
    exact .of_plain <| (Filling.plain_lift (Reader.Plain.note rfl)).bind fun _ =>
      (Filling.plain_change _).bind fun _ => .pure _
  readBlocks_strict _ := rfl

instance : GradedCluster StreamingCluster where
  sterner_readBlocks size := by
    have hchild : ∀ index id, Sterner (StreamingCluster.readChild .relaxed index id)
        (StreamingCluster.readChild .bestAttempt index id) := fun index id => by
      rw [StreamingCluster.readChild, StreamingCluster.readChild]
      split
      next => exact .of_plain <| (StreamingCluster.plain_locate id).bind fun _ => .pure _
      next => exact (sterner_skipNonBlock id).bind fun _ => .of_plain (.pure _)
    refine (Sterner.lift (Element.sterner_readChildrenFrom hchild _ size 0 [])).bind
      fun index => ?_
    have hnote : Sterner (Reader.note (.indexedBlocks index.length))
        (Reader.note (.indexedBlocks index.length)) :=
      .of_quiet (E := fun _ => False) fun _ =>
        .of_ok (f := fun _ => ()) (fun _ => rfl) fun _ => .push rfl rfl
    exact hnote.lift.bind fun _ => .of_plain <| (Filling.plain_change _).bind fun _ => .pure _
  readBlocks_strict _ := rfl

/-! ## Reading in the three modes -/

namespace Cluster

variable [Cluster κ] [GradedCluster κ]

theorem sterner_readContents (size : Nat) : ∀ consumed hasTimecode,
    Sterner (readContents .relaxed size consumed hasTimecode : Filling κ Contents)
      (readContents .bestAttempt size consumed hasTimecode) := by
  intro consumed
  induction hleft : size - consumed using Nat.strongRecOn generalizing consumed with
  | ind left ih =>
      intro hasTimecode
      rw [readContents, readContents]
      split
      next hlt =>
        refine (Sterner.of_plain (Filling.plain_lift ElementId.plain_read)).bind fun id => ?_
        have hsize := id.size_pos
        split
        next =>
          refine (Sterner.of_plain (Filling.plain_lift
            (Reader.Plain.position.bind fun _ => Reader.Plain.seek _))).bind fun _ => ?_
          exact (GradedCluster.sterner_readBlocks _).bind fun _ => .of_plain (.pure _)
        next =>
          refine (Sterner.of_plain Filling.plain_object).bind fun before => ?_
          refine (Sterner.of_plain (Filling.plain_lift
            (ClusterMetadata.plain_readChild? _ id))).bind fun found => ?_
          cases found with
          | some found =>
              exact (Sterner.of_plain (Filling.plain_change _)).bind fun _ =>
                ih _ (by omega) _ rfl _
          | none => exact (sterner_skipChild id).lift.bind fun _ => ih _ (by omega) _ rfl _
      next => exact .of_plain (.pure _)

theorem sterner_conclude (size sizeLength : Nat) (contents : Contents) :
    Sterner (conclude .relaxed size sizeLength contents : Filling κ Nat)
      (conclude .bestAttempt size sizeLength contents) := by
  obtain ⟨consumed, hasTimecode, hasBlocks⟩ := contents
  rw [conclude, conclude]
  by_cases hsize : consumed = size
  · rw [if_neg (Decidable.not_not.mpr hsize), if_neg (Decidable.not_not.mpr hsize)]
    cases hasTimecode with
    | false => exact .throw_bind
    | true =>
        cases hasBlocks with
        | false => exact (GradedCluster.sterner_readBlocks 0).bind fun _ => .of_plain (.pure _)
        | true => exact .of_plain (.pure _)
  · rw [if_pos hsize, if_pos hsize]
    exact .throw_bind

theorem sterner_read : Sterner (read .relaxed : Filling κ Nat) (read .bestAttempt) := by
  rw [read_eq, read_eq]
  refine (Sterner.of_plain (Filling.plain_lift Reader.Plain.position)).bind fun _ => ?_
  refine (Sterner.of_plain (Filling.plain_lift VarInt.plain_read)).bind fun ⟨size, _⟩ => ?_
  refine (Sterner.of_plain (Filling.plain_lift (Reader.Plain.note rfl))).bind fun _ => ?_
  refine (Sterner.of_plain (Filling.plain_change _)).bind fun _ => ?_
  exact (sterner_readContents size 0 false).bind fun contents => sterner_conclude size _ contents

end Cluster

/-! ## Padding -/

namespace Cluster

variable [Cluster κ]

/-- The children that are reached before the blocks, in what is left of a body of `size` bytes, of
which `consumed` are read.  The last of them may be one that cannot be read. -/
def reachedFrom (mode : ParsingMode) (source : Source) (size consumed : Nat) (m : ClusterMetadata)
    (cursor : Cursor) : List ElementId :=
  if consumed < size then
    match ElementId.read source cursor with
    | .error _ _ => []
    | .ok id cursor =>
      if (ClusterBlock.ofId? id).isSome then []
      else
        id :: match m.readChild? id source cursor with
          | .error _ _ => []
          | .ok (some (after, count)) cursor =>
            reachedFrom mode source size (consumed + id.size + count) after cursor
          | .ok none cursor =>
            match skipChild mode id source cursor with
            | .error _ _ => []
            | .ok count cursor =>
              reachedFrom mode source size (consumed + id.size + count) m cursor
  else []
termination_by size - consumed
decreasing_by
  all_goals
    have := id.size_pos
    omega

/-- The children that reading a cluster, whose ID was read, reaches before its blocks. -/
def reached (mode : ParsingMode) (source : Source) (cursor : Cursor) : List ElementId :=
  match VarInt.read source cursor with
  | .error _ _ => []
  | .ok (size, sizeLength) after =>
    let offset := cursor.pos - ElementId.cluster.size
    reachedFrom mode source size 0 { offset, sizeLength }
      { after with log := after.log.push (.readingCluster offset size) }

/-- Padding is not metadata. -/
theorem readChild?_of_padding {id : ElementId} (h : isPadding id = true) (m : ClusterMetadata) :
    m.readChild? id = pure none := by
  rw [isPadding, Bool.or_eq_true, decide_eq_true_eq, decide_eq_true_eq] at h
  rcases h with rfl | rfl
  · rfl
  · rfl

theorem skipChild_strict (id : ElementId) : skipChild .strict id = throw (unexpected id) := by
  rw [skipChild]
  split
  next => rfl
  next => rfl

theorem skipChild_of_unknown {mode : ParsingMode} {id : ElementId} (h : ¬ isPadding id = true)
    (hmode : mode ≠ .relaxed) : skipChild mode id = throw (unexpected id) := by
  rw [skipChild, if_neg h, if_pos hmode]
  rfl

theorem read_of_size (mode : ParsingMode) {source : Source} {cursor cursor' : Cursor}
    {size sizeLength : Nat} (h : VarInt.read source cursor = .ok (size, sizeLength) cursor')
    (c : κ) :
    (read mode : Filling κ Nat) source ⟨c, cursor⟩ =
      (readContents mode size 0 false >>= conclude mode size sizeLength) source
        ⟨setMetadata c { offset := cursor.pos - ElementId.cluster.size, sizeLength },
          { cursor' with
            log := cursor'.log.push
              (.readingCluster (cursor.pos - ElementId.cluster.size) size) }⟩ := by
  have hposition : (Filling.lift Reader.position : Filling κ Nat) source ⟨c, cursor⟩ =
    .ok cursor.pos ⟨c, cursor⟩ := rfl
  rw [read_eq, bind_of_ok hposition, Filling.lift_bind_of_ok h]
  rfl

variable [GradedCluster κ] [LawfulCluster κ]

theorem strict_readContents (source : Source) (size : Nat) :
    ∀ consumed hasTimecode (c : κ) cursor,
      match (reachedFrom .bestAttempt source size consumed (metadata c) cursor).find? isPadding with
      | none =>
        (readContents .strict size consumed hasTimecode : Filling κ Contents) source ⟨c, cursor⟩ =
          readContents .bestAttempt size consumed hasTimecode source ⟨c, cursor⟩
      | some id => ∃ state,
        (readContents .strict size consumed hasTimecode : Filling κ Contents) source ⟨c, cursor⟩ =
          .error (unexpected id) state := by
  intro consumed
  induction hleft : size - consumed using Nat.strongRecOn generalizing consumed with
  | ind left ih =>
      intro hasTimecode c cursor
      rw [reachedFrom, readContents, readContents]
      by_cases hlt : consumed < size
      · rw [if_pos hlt, if_pos hlt, if_pos hlt]
        cases hid : ElementId.read source cursor with
        | error e cursor' =>
            dsimp only
            rw [Filling.lift_bind_of_error hid,
              Filling.lift_bind_of_error hid]
            rfl
        | ok id cursor₁ =>
            have hsize := id.size_pos
            rw [Filling.lift_bind_of_ok hid, Filling.lift_bind_of_ok hid]
            dsimp only
            by_cases hblock : (ClusterBlock.ofId? id).isSome
            · rw [if_pos hblock, if_pos hblock, if_pos hblock]
              simp only [GradedCluster.readBlocks_strict, List.find?_nil]
            rw [if_neg hblock, if_neg hblock, if_neg hblock, Filling.object_bind,
              Filling.object_bind]
            by_cases hpadding : isPadding id = true
            · rw [List.find?_cons_of_pos hpadding, readChild?_of_padding hpadding]
              dsimp only
              refine ⟨⟨c, cursor₁⟩, ?_⟩
              rw [skipChild_strict]
              rfl
            · rw [List.find?_cons_of_neg hpadding, skipChild_of_unknown hpadding (by decide),
                skipChild_of_unknown hpadding (by decide)]
              cases hchild : (metadata c).readChild? id source cursor₁ with
              | error e cursor₂ =>
                  rw [Filling.lift_bind_of_error hchild,
                    Filling.lift_bind_of_error hchild]
                  rfl
              | ok found cursor₂ =>
                  rw [Filling.lift_bind_of_ok hchild,
                    Filling.lift_bind_of_ok hchild]
                  cases found with
                  | some found =>
                      have hrest := ih _ (by omega) (consumed + id.size + found.2) rfl
                        (hasTimecode || id = .timecode) (setMetadata c found.1) cursor₂
                      rw [LawfulCluster.metadata_setMetadata] at hrest
                      exact hrest
                  | none => rfl
      · rw [if_neg hlt, if_neg hlt, if_neg hlt]
        rfl

/-- A strict reader fails at the first padding before the blocks. -/
theorem strict_read (source : Source) (state : Held κ Cursor) :
    match (reached .bestAttempt source state.medium).find? isPadding with
    | none => (read .strict : Filling κ Nat) source state = read .bestAttempt source state
    | some id => ∃ state',
      (read .strict : Filling κ Nat) source state = .error (unexpected id) state' := by
  obtain ⟨c, cursor⟩ := state
  rw [reached]
  cases hsize : VarInt.read source cursor with
  | error e cursor' =>
      have hposition : (Filling.lift Reader.position : Filling κ Nat) source ⟨c, cursor⟩ =
        .ok cursor.pos ⟨c, cursor⟩ := rfl
      have hfails : ∀ mode, (read mode : Filling κ Nat) source ⟨c, cursor⟩ =
          .error e ⟨c, cursor'⟩ := fun mode => by
        rw [read_eq, bind_of_ok hposition, Filling.lift_bind_of_error hsize]
      exact (hfails _).trans (hfails _).symm
  | ok found cursor' =>
      obtain ⟨size, sizeLength⟩ := found
      have hcontents := strict_readContents source size 0 false
        (setMetadata c { offset := cursor.pos - ElementId.cluster.size, sizeLength })
        { cursor' with
          log := cursor'.log.push (.readingCluster (cursor.pos - ElementId.cluster.size) size) }
      have hconclude : (conclude .strict size sizeLength : Contents → Filling κ Nat) =
          conclude .bestAttempt size sizeLength := funext fun contents => by
        rw [conclude, conclude, GradedCluster.readBlocks_strict]
      rw [LawfulCluster.metadata_setMetadata] at hcontents
      dsimp only
      rw [read_of_size _ hsize, read_of_size _ hsize, hconclude]
      split at hcontents
      next => exact Reader.bind_eq_bind hcontents _
      next =>
        obtain ⟨state', hfail⟩ := hcontents
        exact ⟨state', bind_of_error hfail⟩

end Cluster

/-- The three modes of reading a kind of cluster form a chain. -/
structure ModesRefine (κ : Type) [Cluster κ] : Prop where
  /-- As long as a relaxed reader warns of nothing, one that makes its best attempt does the same.
  It fails at the first unknown element that the relaxed one warns of. -/
  relaxed : Sterner (Cluster.read .relaxed : Filling κ Nat) (Cluster.read .bestAttempt)
  /-- As long as a reader that makes its best attempt reaches no padding before the blocks, a strict
  one does the same.  It fails at the first padding that the other one reaches. -/
  bestAttempt : ∀ source (state : Held κ Cursor),
    match (Cluster.reached .bestAttempt source state.medium).find? Cluster.isPadding with
    | none =>
      (Cluster.read .strict : Filling κ Nat) source state = Cluster.read .bestAttempt source state
    | some id => ∃ state',
      (Cluster.read .strict : Filling κ Nat) source state =
        .error (Cluster.unexpected id) state'
  /-- What one mode accepts, the next does, and comes to the same. -/
  accepted : ∀ source (state state' : Held κ Cursor) count,
    (Cluster.read .strict source state = .ok count state' →
      Cluster.read .bestAttempt source state = .ok count state') ∧
    (Cluster.read .bestAttempt source state = .ok count state' →
      Cluster.read .relaxed source state = .ok count state')

theorem ModesRefine.of_graded (κ : Type) [Cluster κ] [GradedCluster κ] [LawfulCluster κ] :
    ModesRefine κ where
  relaxed := Cluster.sterner_read
  bestAttempt := Cluster.strict_read
  accepted source state state' count := by
    constructor
    · intro hok
      have hstrict := Cluster.strict_read source state
      split at hstrict
      next => exact hstrict.symm.trans hok
      next =>
        obtain ⟨_, hfail⟩ := hstrict
        cases hok.symm.trans hfail
    · intro hok
      obtain ⟨_, _, hstern⟩ := Cluster.sterner_read source state
      split at hstern
      next => exact hstern.symm.trans hok
      next =>
        obtain ⟨_, _, _, hfail⟩ := hstern
        cases hok.symm.trans hfail

/-- Whatever the stream, and wherever in it a cluster of either kind is read, relaxed reading, the
best attempt and strict reading refine each other in this order. -/
theorem modes_refine : ModesRefine BufferedCluster ∧ ModesRefine StreamingCluster :=
  ⟨.of_graded _, .of_graded _⟩

/-- A timecode, a checksum and an unknown element: the best attempt reaches all of them and fails at
the last.  A strict reader fails at the checksum. -/
example :
    Cluster.reached .bestAttempt
        ⟨[0x89, 0xe7, 0x81, 0x00, 0xbf, 0x80, 0x81, 0x80, 0xec, 0x80], 16⟩ ⟨0, #[]⟩ =
      [.timecode, .crc32, ⟨0x81, by decide⟩] := by
  decide +kernel

end Ebml
