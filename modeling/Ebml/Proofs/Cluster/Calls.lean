import Ebml.Proofs.Cluster.Reading
import Ebml.Proofs.Element.Conduct

/-!
# Calls on a cluster

A cluster is prepared, handed blocks, written, read and edited in any order, and each of these may
fail (`Call`).  A `Session` is a cluster with the calls that were made on it.  Nothing is assumed
of the streams that they are made on: every call may meet another one, and may find it anywhere.

What became of a cluster is told by its history, mostly by what happened last: `Since p q` says that
there was a call with `p` and none with `q` after it.
-/

namespace Ebml

/-- A kind of cluster that is handed its blocks one by one. -/
class Collecting (κ : Type) where
  /-- Hands a block to the cluster, and returns the number of bytes written. -/
  push : ClusterBlock → Draining κ Nat

/-- A buffered cluster keeps the block and writes nothing. -/
instance : Collecting BufferedCluster where
  push block := do
    change fun c => c.push block
    return 0

instance : Collecting StreamingCluster where
  push := StreamingCluster.push

/-- What is called on a cluster. -/
inductive Call where
  /-- The cluster begins to be written. -/
  | prepare
  /-- A block is handed to it. -/
  | push (block : ClusterBlock)
  /-- It ends being written. -/
  | write
  /-- It is read as a whole, with an allocation limit. -/
  | read (mode : ParsingMode) (limit : Nat)
  /-- Its blocks are read, from a region of a given size. -/
  | readBlocks (mode : ParsingMode) (size limit : Nat)
  /-- Its metadata is edited. -/
  | edit (m : ClusterMetadata)

/-- Whether a call reads from the stream. -/
def Call.reads : Call → Bool
  | read _ _ | readBlocks _ _ _ => true
  | _ => false

/-- What a call does. -/
def Call.run {κ : Type} [Cluster κ] [Collecting κ] : Call → Draining κ Nat
  | prepare => Cluster.prepare
  | push block => Collecting.push block
  | write => Cluster.write
  | read mode limit => Filling.onSink limit (Cluster.read mode)
  | readBlocks mode size limit => Filling.onSink limit (Cluster.readBlocks mode size)
  | edit m => do
    change fun c => Cluster.setMetadata c m
    return 0

/-- A call that was made. -/
structure Made (κ : Type) where
  /-- What was called. -/
  call : Call
  /-- The cluster that it was called on. -/
  before : κ
  /-- The stream that it was called with. -/
  stream : Stream
  /-- Why it failed, if it did. -/
  error? : Option Error
  /-- What it noted. -/
  noted : Log

namespace Made

variable {κ : Type}

/-- The cluster was prepared. -/
def Prepared (made : Made κ) : Prop := made.call = .prepare ∧ made.error? = none

/-- A block was handed to the cluster. -/
def Pushed (made : Made κ) (block : ClusterBlock) : Prop :=
  made.call = .push block ∧ made.error? = none

/-- The cluster was to be written, whether or not it could be. -/
def Ended (made : Made κ) : Prop := made.call = .write

/-- The cluster was written. -/
def Written (made : Made κ) : Prop := made.call = .write ∧ made.error? = none

/-- The cluster was read until its blocks had been located, whatever came of the call after that. -/
def Indexed (made : Made κ) : Prop :=
  made.call.reads = true ∧ made.noted.any Event.isIndexing = true

variable {made : Made κ} {block : ClusterBlock}

theorem Pushed.not_prepared (h : made.Pushed block) : ¬ made.Prepared :=
  fun hprepared => nomatch h.1.symm.trans hprepared.1

theorem Pushed.not_ended (h : made.Pushed block) : ¬ made.Ended :=
  fun hended => nomatch h.1.symm.trans hended

theorem Ended.not_prepared (h : made.Ended) : ¬ made.Prepared :=
  fun hprepared => nomatch h.symm.trans hprepared.1

theorem Indexed.not_prepared (h : made.Indexed) : ¬ made.Prepared :=
  fun hprepared => nomatch (congrArg Call.reads hprepared.1).symm.trans h.1

theorem Indexed.not_pushed (h : made.Indexed) : ¬ made.Pushed block :=
  fun hpushed => nomatch (congrArg Call.reads hpushed.1).symm.trans h.1

theorem Indexed.not_ended (h : made.Indexed) : ¬ made.Ended :=
  fun hended => nomatch (congrArg Call.reads hended).symm.trans h.1

end Made

namespace Call

variable {κ : Type} [Cluster κ] [Collecting κ]

/-- What comes of a call on a cluster, with a stream. -/
def result (call : Call) (c : κ) (stream : Stream) : EStateM.Result Error (Held κ Sink) Nat :=
  call.run ⟨c, ⟨stream, #[]⟩⟩

/-- The cluster after the call. -/
def after (call : Call) (c : κ) (stream : Stream) : κ := (stateOf (call.result c stream)).object

/-- The call as it is remembered. -/
def made (call : Call) (c : κ) (stream : Stream) : Made κ where
  call := call
  before := c
  stream := stream
  error? := errorOf? (call.result c stream)
  noted := (stateOf (call.result c stream)).medium.log

variable {call : Call} {c : κ} {stream : Stream}

@[simp] theorem call_made : (call.made c stream).call = call := rfl

theorem error_made {result : EStateM.Result Error (Held κ Sink) Nat}
    (h : call.result c stream = result) : (call.made c stream).error? = errorOf? result :=
  congrArg errorOf? h

theorem after_eq {result : EStateM.Result Error (Held κ Sink) Nat}
    (h : call.result c stream = result) : call.after c stream = (stateOf result).object :=
  congrArg (fun result => (stateOf result).object) h

end Call

/-- A cluster and the calls that were made on it, the last one first. -/
structure Session (κ : Type) where
  /-- The cluster. -/
  cluster : κ
  /-- The calls. -/
  history : List (Made κ) := []

namespace Session

variable {κ : Type} [Cluster κ] [Collecting κ]

/-- One call more. -/
def call (s : Session κ) (call : Call) (stream : Stream) : Session κ where
  cluster := call.after s.cluster stream
  history := call.made s.cluster stream :: s.history

/-- Any number of calls, each with the stream that it is made on. -/
def run (s : Session κ) : List (Call × Stream) → Session κ
  | [] => s
  | (call, stream) :: calls => (s.call call stream).run calls

/-- What holds at first and is kept by every call holds after any number of calls. -/
theorem run_induction {P : Session κ → Prop}
    (hcall : ∀ s call stream, P s → P (s.call call stream)) :
    ∀ (calls : List (Call × Stream)) {s : Session κ}, P s → P (s.run calls)
  | [], _, h => h
  | (call, stream) :: calls, s, h => run_induction hcall calls (hcall s call stream h)

end Session

/-! ## What happened last -/

section

variable {α : Type} {p q : α → Prop}

/-- There is an item with `p`, and none with `q` was added after it.  The last item is first. -/
def Since (p q : α → Prop) (history : List α) : Prop :=
  ∃ later made earlier, history = later ++ made :: earlier ∧ p made ∧ ∀ other ∈ later, ¬ q other

theorem not_since_nil : ¬ Since p q [] := by
  rintro ⟨later, made, earlier, hnil, _⟩
  cases later with
  | nil => cases hnil
  | cons => cases hnil

theorem since_cons {made : α} {earlier : List α} :
    Since p q (made :: earlier) ↔ p made ∨ ¬ q made ∧ Since p q earlier := by
  constructor
  · rintro ⟨later, found, before, heq, hp, hq⟩
    cases later with
    | nil =>
        cases heq
        exact Or.inl hp
    | cons other later =>
        cases heq
        obtain ⟨hother, hlater⟩ := List.forall_mem_cons.mp hq
        exact Or.inr ⟨hother, later, found, before, rfl, hp, hlater⟩
  · rintro (hp | ⟨hq, later, found, before, rfl, hp, hlater⟩)
    · exact ⟨[], made, earlier, rfl, hp, nofun⟩
    · exact ⟨made :: later, found, before, rfl, hp, List.forall_mem_cons.mpr ⟨hq, hlater⟩⟩

theorem not_since_cons {made : α} {earlier : List α} (hp : ¬ p made) (hq : q made) :
    ¬ Since p q (made :: earlier) := by
  rw [since_cons]
  rintro (hmade | ⟨hnot, _⟩)
  · exact hp hmade
  · exact hnot hq

/-- What is neither may be left out. -/
theorem since_cons_iff {made : α} {earlier : List α} (hp : ¬ p made) (hq : ¬ q made) :
    Since p q (made :: earlier) ↔ Since p q earlier := by
  rw [since_cons]
  constructor
  · rintro (hmade | ⟨_, hsince⟩)
    · exact absurd hmade hp
    · exact hsince
  · intro hsince
    exact Or.inr ⟨hq, hsince⟩

theorem Since.mono {p' q' : α → Prop} {history : List α} (h : Since p q history)
    (hp : ∀ made, p made → p' made) (hq : ∀ made, q' made → q made) : Since p' q' history := by
  obtain ⟨later, made, earlier, rfl, hmade, hlater⟩ := h
  exact ⟨later, made, earlier, rfl, hp made hmade, fun other hm hother =>
    hlater other hm (hq other hother)⟩

end

/-! ## What reading does -/

/-- A reader that does not note that the blocks of a cluster were located. -/
abbrev Reader.Searches {σ α : Type} [Logging σ] (r : ReaderT Source (EStateM Error σ) α) : Prop :=
  Reader.Behaves (Noted fun event => !event.isIndexing) Error.Neutral r

theorem Reader.Plain.searches {σ α : Type} [Logging σ] {r : ReaderT Source (EStateM Error σ) α}
    (h : Reader.Plain r) : Reader.Searches r :=
  h.mono (fun hnoted => hnoted.mono fun {event} hplain => by
    rw [Event.isPlain, Bool.and_eq_true] at hplain
    exact hplain.1) id

theorem Reader.closed_searches : Reader.Closed fun r => Reader.Searches r where
  pure := .pure
  bind := .bind
  throw h := .throw h.neutral
  note h := (Plain.note h).searches
  position := Plain.position.searches
  seek pos := (Plain.seek pos).searches
  next := Plain.next.searches
  take count := (Plain.take count).searches
  skip count := (Plain.skip count).searches

namespace Cluster

open Reader (Searches closed_searches)

theorem searches_note {event : Event} (h : event.isIndexing = false) :
    Searches (Reader.note event) :=
  fun _ => .of_ok (f := fun _ => ()) (fun _ => rfl) fun _ => .push rfl (by rw [h]; rfl)

theorem searches_skipNonBlock (mode : ParsingMode) (id : ElementId) :
    Searches (skipNonBlock mode id) := closed_skipNonBlock closed_searches searches_note id

theorem searches_readChildren {α : Type} {handle : α → ElementId → Reader (α × Nat)}
    (hhandle : ∀ acc id, Searches (handle acc id)) (size : Nat) (init : α) :
    Searches (Element.readChildren .cluster size init handle) :=
  Element.closed_readChildren closed_searches hhandle init

section

variable {κ : Type} {R : Held κ Cursor → Held κ Cursor → Prop}
  (hsearch : ∀ {c cursor cursor'}, Noted (fun event => !event.isIndexing) cursor cursor' →
    R ⟨c, cursor⟩ ⟨c, cursor'⟩)

include hsearch

theorem behaves_lift {α : Type} {r : Reader α} (h : Searches r) :
    Reader.Behaves R Error.Neutral (Filling.lift r : Filling κ α) :=
  fun source => (h source).beside hsearch

variable [IsPreorder (Held κ Cursor) R]

theorem closed_behaves :
    Filling.Closed (fun r => Searches r) (fun {α} (f : Filling κ α) =>
      Reader.Behaves R Error.Neutral f) where
  pure := .pure
  bind := .bind
  throw h := .throw h.neutral
  object _ := .of_ok (f := Held.object) (fun _ => rfl) fun _ => refl _
  lift := behaves_lift hsearch

/-- Reading a cluster searches the stream, replaces the metadata, and reads the region of blocks. -/
theorem behaves_read [Cluster κ] {mode : ParsingMode}
    (hmetadata : ∀ c cursor m, R ⟨c, cursor⟩ ⟨setMetadata c m, cursor⟩)
    (hblocks : ∀ size, Reader.Behaves R Error.Neutral (readBlocks mode size : Filling κ Nat)) :
    Reader.Behaves R Error.Neutral (read mode : Filling κ Nat) :=
  closed_read closed_searches searches_note (closed_behaves hsearch)
    (fun m _ => .of_ok (f := fun _ => ()) (fun _ => rfl) fun ⟨c, cursor⟩ => hmetadata c cursor m)
    hblocks

end

end Cluster

/-- What holds of reading into an object holds of it on the stream that a writer works on. -/
theorem Reader.Behaves.onSink {κ α : Type} {R : Held κ Cursor → Held κ Cursor → Prop}
    {E : Error → Prop} {f : Filling κ α} (h : Reader.Behaves R E f) (limit : Nat) :
    Ebml.Behaves (fun state state' : Held κ Sink =>
      R ⟨state.object, ⟨state.medium.stream.pos, state.medium.log⟩⟩
        ⟨state'.object, ⟨state'.medium.stream.pos, state'.medium.log⟩⟩) E
      (Filling.onSink limit f) where
  leaves state := by
    have hleaves := (h ⟨state.medium.stream.data, limit⟩).leaves
      ⟨state.object, ⟨state.medium.stream.pos, state.medium.log⟩⟩
    rw [Filling.onSink]
    dsimp only
    split
    next hok =>
      rw [hok] at hleaves
      exact hleaves
    next herror =>
      rw [herror] at hleaves
      exact hleaves
  fails {state e} herror := by
    have hfails : errorOf? (f ⟨state.medium.stream.data, limit⟩
        ⟨state.object, ⟨state.medium.stream.pos, state.medium.log⟩⟩) = some e → E e :=
      (h _).fails
    rw [Filling.onSink] at herror
    dsimp only at herror
    split at herror
    next => cases herror
    next hfail =>
      cases herror
      exact hfails (congrArg errorOf? hfail)

/-- What was read into an object on the stream that a writer works on was read from its bytes. -/
theorem Filling.of_onSink {κ α : Type} {f : Filling κ α} {limit : Nat} {state : Held κ Sink}
    (hok : errorOf? (onSink limit f state) = none) :
    ∃ a after, f ⟨state.medium.stream.data, limit⟩
        ⟨state.object, ⟨state.medium.stream.pos, state.medium.log⟩⟩ = .ok a after ∧
      Logging.log (stateOf (onSink limit f state)) = Logging.log after := by
  rw [onSink] at hok ⊢
  dsimp only at hok ⊢
  split at hok
  next a after hread => exact ⟨a, after, hread, rfl⟩
  next => cases hok

end Ebml
