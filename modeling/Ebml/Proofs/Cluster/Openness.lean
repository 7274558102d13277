import Ebml.Proofs.Cluster.Changes
import Mathlib.Data.List.Forall2

/-!
# Whether a cluster is open

A cluster has to be prepared before it is written, and is not prepared again before that.  Both
kinds of clusters refuse the same calls while they are open, or are not (`Call.refusal?`), except
that a buffered cluster takes blocks at any time.  Both are closed when they are to be written,
whether or not that succeeds.

A streaming cluster is closed by reading as well, as soon as the blocks are located.  So the same
calls are refused by both kinds as long as none is read while it is open (`Diverted`).
-/

namespace Ebml

variable {κ : Type}

/-- Why a call is refused by a cluster that is open, or by one that is not.  A cluster that writes
blocks at once does not take any while it is not open. -/
def Call.refusal? (immediate : Bool) : Call → Bool → Option Error
  | prepare, true => some .clusterAlreadyOpen
  | write, false => some .clusterNotOpen
  | push _, false => if immediate then some .clusterNotOpen else none
  | _, _ => none

/-- The error of a call, if it is that the cluster is open, or that it is not. -/
def Made.refusal? (made : Made κ) : Option Error := made.error?.filter Error.isOpenness

theorem Made.refusal_of_neutral {made : Made κ} (h : ∀ {e}, made.error? = some e → e.Neutral) :
    made.refusal? = none := by
  cases herror : made.error? with
  | none => rw [refusal?, herror, Option.filter_none]
  | some e =>
      have hneutral : e.isOpenness = false := h herror
      rw [refusal?, herror, Option.filter_some, hneutral]
      rfl

/-- The cluster was prepared, and is not open only because it was read. -/
def Diverted (history : List (Made κ)) : Prop :=
  Since Made.Prepared Made.Ended history ∧
    ¬ Since Made.Prepared (fun made => made.Ended ∨ made.Indexed) history

section

variable [Cluster κ] [Collecting κ]

/-- How calls open and close a kind of cluster, and which of them it refuses. -/
structure Regulated (closes : Made κ → Prop) (immediate : Bool) : Prop where
  isOpen_after : ∀ (call : Call) (c : κ) (stream : Stream),
    Cluster.isOpen (call.after c stream) = true ↔
      (call.made c stream).Prepared ∨ ¬ closes (call.made c stream) ∧ Cluster.isOpen c = true
  refusal_made : ∀ (call : Call) (c : κ) (stream : Stream),
    (call.made c stream).refusal? = call.refusal? immediate (Cluster.isOpen c)

/-- A cluster is open exactly if it was prepared and nothing has closed it since, and refuses a
call exactly if it has to. -/
structure Session.Follows (closes : Made κ → Prop) (immediate : Bool) (s : Session κ) : Prop where
  isOpen_iff : Cluster.isOpen s.cluster = true ↔ Since Made.Prepared closes s.history
  refusal_made : ∀ (call : Call) (stream : Stream),
    (call.made s.cluster stream).refusal? = call.refusal? immediate (Cluster.isOpen s.cluster)

/-- What one call does to a cluster decides whether it is open after any number of them. -/
theorem Regulated.follows {closes : Made κ → Prop} {immediate : Bool}
    (h : Regulated closes immediate) {c : κ} (hclosed : Cluster.isOpen c = false)
    (calls : List (Call × Stream)) : ((Session.mk c []).run calls).Follows closes immediate := by
  refine ⟨?_, fun call stream => h.refusal_made call _ stream⟩
  refine Session.run_induction (P := fun s : Session κ =>
    Cluster.isOpen s.cluster = true ↔ Since Made.Prepared closes s.history) ?_ calls ?_
  · intro s call stream ih
    refine (h.isOpen_after call s.cluster stream).trans ?_
    rw [ih]
    exact since_cons.symm
  · constructor
    · intro hopen
      cases hclosed.symm.trans hopen
    · intro hsince
      exact absurd hsince not_since_nil

end

/-! ## Buffered clusters -/

namespace BufferedCluster

variable {c : BufferedCluster} {stream : Stream}

theorem searches_readChild (mode : ParsingMode) (blocks : List ClusterBlock) (id : ElementId) :
    Reader.Searches (readChild mode blocks id) := by
  rw [readChild]
  split
  next => exact (ClusterBlock.plain_read _).searches.bind fun _ => .pure _
  next => exact (Cluster.searches_skipNonBlock mode id).bind fun _ => .pure _

/-- The cluster remembers the same place, or none. -/
def Stays (state state' : Held BufferedCluster Cursor) : Prop :=
  state'.object.start? = state.object.start?

instance : IsPreorder (Held BufferedCluster Cursor) Stays where
  refl _ := rfl
  trans _ _ _ h h' := Eq.trans h' h

theorem stays_readBlocks (mode : ParsingMode) (size : Nat) :
    Reader.Behaves Stays Error.Neutral (readBlocks mode size) := by
  have hchildren := Cluster.searches_readChildren (searches_readChild mode) size []
  have hreplace : ∀ blocks, Reader.Behaves Stays Error.Neutral
      (Filling.change fun c : BufferedCluster => sorted { c with blocks }) :=
    fun _ _ => .of_ok (f := fun _ => ()) (fun _ => rfl) fun _ => rfl
  rw [readBlocks]
  refine (Cluster.behaves_lift (fun _ => rfl) hchildren).bind fun blocks => ?_
  refine (Cluster.behaves_lift (fun _ => rfl) (Cluster.searches_note rfl)).bind fun _ => ?_
  exact (hreplace blocks).bind fun _ => .pure _

theorem stays_read (mode : ParsingMode) :
    Reader.Behaves Stays Error.Neutral (Cluster.read mode : Filling BufferedCluster Nat) :=
  Cluster.behaves_read (fun _ => rfl) (fun _ _ _ => rfl) (stays_readBlocks mode)

theorem prepare_of_open {start : Nat} (h : c.start? = some start) (sink : Sink) :
    prepare ⟨c, sink⟩ = .error .clusterAlreadyOpen ⟨c, sink⟩ := by
  rw [prepare, Draining.held_bind, h]
  rfl

theorem write_of_closed (h : c.start? = none) (sink : Sink) :
    write ⟨c, sink⟩ = .error .clusterNotOpen ⟨c, sink⟩ := by
  rw [write, Draining.held_bind]
  dsimp only
  rw [h]
  rfl

/-- What a call does to the place where a cluster was prepared, if it was. -/
structure Moves (call : Call) (c : BufferedCluster) (stream : Stream) : Prop where
  start_after : (call.after c stream).start?.isSome = true ↔
    (call.made c stream).Prepared ∨ call ≠ .write ∧ c.start?.isSome = true
  refusal_made : (call.made c stream).refusal? = call.refusal? false c.start?.isSome

theorem moves_prepare (c : BufferedCluster) (stream : Stream) : Moves .prepare c stream := by
  cases hstart : c.start? with
  | some start =>
      have hresult : Call.prepare.result c stream = _ := prepare_of_open hstart ⟨stream, #[]⟩
      constructor
      · rw [Call.after_eq hresult]
        simp [stateOf, hstart]
      · rw [Made.refusal?, Call.error_made hresult, hstart]
        rfl
  | none =>
      have hresult : Call.prepare.result c stream = _ := prepare_eq hstart ⟨stream, #[]⟩
      constructor
      · rw [Call.after_eq hresult]
        simp [stateOf, Made.Prepared, Call.error_made hresult, errorOf?]
      · rw [Made.refusal?, Call.error_made hresult, hstart]
        rfl

/-- A cluster that is to be written is closed.  If it was open, that may fail for other reasons. -/
theorem moves_write (c : BufferedCluster) (stream : Stream) : Moves .write c stream := by
  have hprepared : ¬ (Call.write.made c stream).Prepared := fun h => nomatch h.1
  cases hstart : c.start? with
  | none =>
      have hresult : Call.write.result c stream = _ := write_of_closed hstart ⟨stream, #[]⟩
      constructor
      · rw [Call.after_eq hresult]
        simp [stateOf, hstart, hprepared]
      · rw [Made.refusal?, Call.error_made hresult, hstart]
        rfl
  | some start =>
      have hclosed : (Call.write.after c stream).start? = none ∧
          ∀ {e}, (Call.write.made c stream).error? = some e → e.Neutral := by
        have hresult : Call.write.result c stream = _ := write_eq hstart ⟨stream, #[]⟩
        rw [Call.after_eq hresult, Call.error_made hresult]
        split
        next =>
          have hplain := plain_writeAt (sorted { c with start? := none }) start
          cases hwrite : (sorted { c with start? := none }).writeAt start ⟨stream, #[]⟩ with
          | ok written sink => exact ⟨rfl, nofun⟩
          | error e sink =>
              refine ⟨rfl, fun herror => ?_⟩
              cases herror
              exact hplain.fails (congrArg errorOf? hwrite)
        next =>
          refine ⟨rfl, fun herror => ?_⟩
          cases herror
          rfl
      constructor
      · simp [hclosed.1, hprepared]
      · rw [hstart]
        exact Made.refusal_of_neutral hclosed.2

/-- Any other call leaves the cluster where it was prepared, and is not refused. -/
theorem moves_of_stays {call : Call} (hprepare : call ≠ .prepare) (hwrite : call ≠ .write)
    (hstays : (call.after c stream).start? = c.start?)
    (hfails : ∀ {e}, (call.made c stream).error? = some e → e.Neutral) : Moves call c stream where
  start_after := by
    rw [hstays]
    constructor
    · intro hopen
      exact Or.inr ⟨hwrite, hopen⟩
    · rintro (hprepared | ⟨_, hopen⟩)
      · exact absurd hprepared.1 hprepare
      · exact hopen
  refusal_made := by
    rw [Made.refusal_of_neutral hfails]
    cases call with
    | prepare => exact absurd rfl hprepare
    | write => exact absurd rfl hwrite
    | push block => cases c.start? <;> rfl
    | read mode limit => rfl
    | readBlocks mode size limit => rfl
    | edit m => rfl

theorem moves (call : Call) (c : BufferedCluster) (stream : Stream) : Moves call c stream := by
  cases call with
  | prepare => exact moves_prepare c stream
  | write => exact moves_write c stream
  | push block => exact moves_of_stays nofun nofun rfl nofun
  | read mode limit =>
      have hread := (stays_read mode).onSink limit
      exact moves_of_stays nofun nofun (hread.leaves ⟨c, ⟨stream, #[]⟩⟩) hread.fails
  | readBlocks mode size limit =>
      have hread := (stays_readBlocks mode size).onSink limit
      exact moves_of_stays nofun nofun (hread.leaves ⟨c, ⟨stream, #[]⟩⟩) hread.fails
  | edit m => exact moves_of_stays nofun nofun rfl nofun

/-- A buffered cluster is closed by a write alone. -/
theorem regulated : Regulated (κ := BufferedCluster) Made.Ended false where
  isOpen_after call c stream := (moves call c stream).start_after
  refusal_made call c stream := (moves call c stream).refusal_made

end BufferedCluster

/-! ## Streaming clusters -/

namespace StreamingCluster

variable {c : StreamingCluster} {stream : Stream}

theorem isSome_of_became {made : Made StreamingCluster} {after : StreamingCluster}
    (h : Became made after) : after.state?.isSome = true ↔
      made.Prepared ∨ ¬ (made.Ended ∨ made.Indexed) ∧ made.before.state?.isSome = true := by
  have hclosing (hprepared : ¬ made.Prepared) (hcloses : made.Ended ∨ made.Indexed) :
      ¬ (made.Prepared ∨
        ¬ (made.Ended ∨ made.Indexed) ∧ made.before.state?.isSome = true) := by
    rintro (hmade | ⟨hnot, _⟩)
    · exact hprepared hmade
    · exact hnot hcloses
  cases h with
  | prepared hprepared hclosed => exact iff_of_true rfl (Or.inl hprepared)
  | @pushed block state hpushed hopen =>
      refine iff_of_true rfl (Or.inr ⟨?_, by rw [hopen]; rfl⟩)
      rintro (hended | hindexed)
      · exact hpushed.not_ended hended
      · exact hindexed.not_pushed hpushed
  | written hwritten =>
      have hended : made.Ended := hwritten.1
      exact iff_of_false nofun (hclosing hended.not_prepared (Or.inl hended))
  | unwritten hended => exact iff_of_false nofun (hclosing hended.not_prepared (Or.inl hended))
  | indexed hindexed hclosed =>
      refine iff_of_false (by rw [hclosed]; nofun) ?_
      exact hclosing hindexed.not_prepared (Or.inr hindexed)
  | kept m hprepared hpushed hended hindexed => simp [hprepared, hended, hindexed]

theorem refusal_prepare (c : StreamingCluster) (stream : Stream) :
    (Call.prepare.made c stream).refusal? = Call.prepare.refusal? true c.state?.isSome := by
  cases hstate : c.state? with
  | some state =>
      have hresult : Call.prepare.result c stream = _ := prepare_of_open hstate ⟨stream, #[]⟩
      rw [Made.refusal?, Call.error_made hresult]
      rfl
  | none =>
      refine Made.refusal_of_neutral fun {e} herror => ?_
      have hresult : Call.prepare.result c stream = _ := prepare_eq hstate ⟨stream, #[]⟩
      rw [Call.error_made hresult] at herror
      cases hhead : c.writeHead ⟨stream, #[]⟩ with
      | ok counts sink =>
          rw [hhead] at herror
          cases herror
      | error e' sink =>
          rw [hhead] at herror
          cases herror
          exact (plain_writeHead c).fails (congrArg errorOf? hhead)

theorem refusal_push (block : ClusterBlock) (c : StreamingCluster) (stream : Stream) :
    ((Call.push block).made c stream).refusal? =
      (Call.push block).refusal? true c.state?.isSome := by
  cases hstate : c.state? with
  | none =>
      have hresult : (Call.push block).result c stream = _ :=
        push_of_closed hstate block ⟨stream, #[]⟩
      rw [Made.refusal?, Call.error_made hresult]
      rfl
  | some state =>
      refine Made.refusal_of_neutral fun {e} herror => ?_
      have hresult : (Call.push block).result c stream = _ := push_eq hstate block ⟨stream, #[]⟩
      rw [Call.error_made hresult] at herror
      cases hpush : pushAt state.expected block ⟨stream, #[]⟩ with
      | ok written sink =>
          rw [hpush] at herror
          cases herror
      | error e' sink =>
          rw [hpush] at herror
          cases herror
          exact (plain_pushAt _ block).fails (congrArg errorOf? hpush)

theorem refusal_write (c : StreamingCluster) (stream : Stream) :
    (Call.write.made c stream).refusal? = Call.write.refusal? true c.state?.isSome := by
  cases hstate : c.state? with
  | none =>
      have hresult : Call.write.result c stream = _ := write_of_closed hstate ⟨stream, #[]⟩
      rw [Made.refusal?, Call.error_made hresult]
      rfl
  | some state =>
      refine Made.refusal_of_neutral fun {e} herror => ?_
      cases hfill : fillSize state c.sizeLength ⟨stream, #[]⟩ with
      | ok u sink =>
          obtain ⟨log, hwrite⟩ := write_ok hstate hfill
          have hresult : Call.write.result c stream = _ := hwrite
          cases (Call.error_made hresult).symm.trans herror
      | error e' sink =>
          have hresult : Call.write.result c stream = _ := write_error hstate hfill
          cases (Call.error_made hresult).symm.trans herror
          exact (plain_fillSize state _).fails (congrArg errorOf? hfill)

theorem noted_of_readBlocks {mode : ParsingMode} {source : Source} {size count : Nat}
    {before after : Held StreamingCluster Cursor}
    (hok : readBlocks mode size source before = .ok count after) :
    (Logging.log after).any Event.isIndexing = true := by
  obtain ⟨index, _, _, hok⟩ := Filling.lift_bind_eq_ok.mp hok
  obtain ⟨_, _, hnote, hok⟩ := Filling.lift_bind_eq_ok.mp hok
  cases hnote
  cases hok
  simp [Logging.log, Event.isIndexing]

/-- A read that succeeds has located the blocks.  One that fails may have as well. -/
theorem indexed_of_ok {call : Call} (hreads : call.reads = true)
    (hok : (call.made c stream).error? = none) : (call.made c stream).Indexed := by
  refine ⟨hreads, ?_⟩
  cases call with
  | read mode limit =>
      obtain ⟨count, ⟨_, _⟩, hread, hlog⟩ := Filling.of_onSink hok
      obtain ⟨_, _, _, hblocks, _⟩ := Cluster.read_eq_ok.mp hread
      exact (congrArg (Array.any · Event.isIndexing) hlog).trans (noted_of_readBlocks hblocks)
  | readBlocks mode size limit =>
      obtain ⟨count, after, hblocks, hlog⟩ := Filling.of_onSink hok
      exact (congrArg (Array.any · Event.isIndexing) hlog).trans (noted_of_readBlocks hblocks)
  | prepare => cases hreads
  | push block => cases hreads
  | write => cases hreads
  | edit m => cases hreads

/-- A streaming cluster is closed by reading as well. -/
theorem regulated : Regulated (κ := StreamingCluster)
    (fun made => made.Ended ∨ made.Indexed) true where
  isOpen_after call c stream := isSome_of_became (became call c stream)
  refusal_made call c stream := by
    cases call with
    | prepare => exact refusal_prepare c stream
    | push block => exact refusal_push block c stream
    | write => exact refusal_write c stream
    | read mode limit => exact Made.refusal_of_neutral ((searched_read mode).onSink limit).fails
    | readBlocks mode size limit =>
        exact Made.refusal_of_neutral ((searched_readBlocks mode size).onSink limit).fails
    | edit m => rfl

/-- A cluster that was read is not open. -/
theorem closed_of_read {call : Call} (hreads : call.reads = true)
    (hok : (call.made c stream).error? = none) :
    Cluster.isOpen (call.after c stream) = false := by
  have hindexed := indexed_of_ok hreads hok
  refine Bool.eq_false_iff.mpr fun hopen => ?_
  rcases (regulated.isOpen_after call c stream).mp hopen with hprepared | ⟨hnot, _⟩
  · exact hindexed.not_prepared hprepared
  · exact hnot (Or.inr hindexed)

end StreamingCluster

/-! ## Both kinds -/

section

variable {κ' : Type}

/-- The same was called, and if that was to prepare, it did the same. -/
def Made.Alike (made : Made κ) (made' : Made κ') : Prop :=
  made.call = made'.call ∧ (made.Prepared ↔ made'.Prepared)

theorem since_of_alike {p q : Made κ → Prop} {p' q' : Made κ' → Prop}
    (hp : ∀ {made made'}, made.Alike made' → (p made ↔ p' made'))
    (hq : ∀ {made made'}, made.Alike made' → (q made ↔ q' made'))
    {history : List (Made κ)} {history' : List (Made κ')}
    (h : List.Forall₂ Made.Alike history history') :
    Since p q history ↔ Since p' q' history' := by
  induction h with
  | nil => exact iff_of_false not_since_nil not_since_nil
  | cons halike _ ih => rw [since_cons, since_cons, hp halike, hq halike, ih]

end

/-- Whatever was called on a cluster, it is open exactly if it was prepared and nothing has closed
it since.  What closes it is a write, whether or not that succeeds, and for a streaming cluster also
a read.  Which calls are refused is decided by that.  So after the same calls, both kinds refuse to
be prepared and to be written alike, unless the streaming cluster was read while it was open. -/
theorem openness_followed (timecode timecode' : UInt64) (placeholder : PlaceholderLength)
    (calls calls' : List (Call × Stream)) :
    let b := (Session.mk (BufferedCluster.make timecode) []).run calls
    let s := (Session.mk (StreamingCluster.make timecode' placeholder) []).run calls'
    b.Follows Made.Ended false ∧
      s.Follows (fun made => made.Ended ∨ made.Indexed) true ∧
        (List.Forall₂ Made.Alike b.history s.history →
          ∀ call : Call, call = .prepare ∨ call = .write → ∀ stream stream',
            ((call.made b.cluster stream).refusal? = (call.made s.cluster stream').refusal? ↔
              ¬ Diverted s.history)) := by
  intro b s
  have hb : b.Follows Made.Ended false := BufferedCluster.regulated.follows rfl calls
  have hs : s.Follows (fun made => made.Ended ∨ made.Indexed) true :=
    StreamingCluster.regulated.follows rfl calls'
  refine ⟨hb, hs, fun halike call hcall stream stream' => ?_⟩
  have hended : Cluster.isOpen b.cluster = true ↔ Since Made.Prepared Made.Ended s.history := by
    refine hb.isOpen_iff.trans (since_of_alike (fun h => h.2) (fun h => ?_) halike)
    rw [Made.Ended, Made.Ended, h.1]
  have hdiverted : Cluster.isOpen b.cluster = Cluster.isOpen s.cluster ↔ ¬ Diverted s.history := by
    rw [Bool.eq_iff_iff, hended, hs.isOpen_iff, Diverted]
    constructor
    · rintro h ⟨hopen, hclosed⟩
      exact hclosed (h.mp hopen)
    · intro h
      refine ⟨fun hopen => not_not.mp fun hclosed => h ⟨hopen, hclosed⟩, fun hopen => ?_⟩
      exact hopen.mono (fun _ => id) fun _ => Or.inl
  rw [hb.refusal_made, hs.refusal_made, ← hdiverted]
  rcases hcall with rfl | rfl
  · cases Cluster.isOpen b.cluster <;> cases Cluster.isOpen s.cluster <;> simp [Call.refusal?]
  · cases Cluster.isOpen b.cluster <;> cases Cluster.isOpen s.cluster <;> simp [Call.refusal?]

/-- A cluster is prepared, and another one is read into it. -/
def readOver : List (Call × Stream) :=
  [(.prepare, {}), (.read .strict 16, { data := [0x83, 0xe7, 0x81, 0x07] })]

/-- The buffered cluster is still open, and the streaming one is not. -/
theorem openness_readOver :
    let b := (Session.mk (BufferedCluster.make 0) []).run readOver
    let s := (Session.mk (StreamingCluster.make 0 ⟨1, by decide⟩) []).run readOver
    Cluster.isOpen b.cluster = true ∧ Cluster.isOpen s.cluster = false ∧ Diverted s.history ∧
      (Call.write.made b.cluster {}).refusal? = none ∧
        (Call.write.made s.cluster {}).refusal? = some .clusterNotOpen := by
  intro b s
  obtain ⟨hb, hs, hagree⟩ := openness_followed 0 0 ⟨1, by decide⟩ readOver readOver
  have hopen : Cluster.isOpen b.cluster = true := by decide +kernel
  have hclosed : Cluster.isOpen s.cluster = false := by decide +kernel
  have hbuffered : (Call.write.made b.cluster {}).refusal? = none := by
    rw [hb.refusal_made, hopen]
    rfl
  have hstreaming : (Call.write.made s.cluster {}).refusal? = some .clusterNotOpen := by
    rw [hs.refusal_made, hclosed]
    rfl
  have halike : List.Forall₂ Made.Alike b.history s.history := by
    refine .cons ⟨rfl, ?read⟩ (.cons ⟨rfl, ?prepare⟩ .nil)
    case read => exact iff_of_false (fun h => nomatch h.1) fun h => nomatch h.1
    case prepare => exact iff_of_true ⟨rfl, by decide +kernel⟩ ⟨rfl, by decide +kernel⟩
  have hdiffer := hagree halike .write (Or.inr rfl) {} {}
  refine ⟨hopen, hclosed, not_not.mp fun hnot => ?_, hbuffered, hstreaming⟩
  cases hbuffered.symm.trans ((hdiffer.mpr hnot).trans hstreaming)

end Ebml
