import Ebml.Proofs.Cluster.Calls
import Ebml.Proofs.Cluster.Protocol
import Ebml.Proofs.Stream.Persistence

/-!
# What a call changes

A call on a streaming cluster opens it, adds a block, closes it, replaces its index, or changes
nothing but the metadata (`StreamingCluster.Became`).  Which of these it is depends on what was
called, on whether that failed, and of a call that reads on whether it came as far as to locate the
blocks.

An index is put in order when the cluster is read and when it is written (`Ordered`).
-/

namespace Ebml

variable {source : Source} {mode : ParsingMode}

/-! ## The order of an index -/

/-- An entry is before another if its timecode is earlier or, with the same timecode, if it lies
earlier in the stream. -/
def IndexEntry.Before (a b : IndexEntry) : Prop :=
  a.timecode < b.timecode ∨ a.timecode = b.timecode ∧ a.offset < b.offset

namespace StreamingCluster

/-- The index is in order. -/
def Ordered (c : StreamingCluster) : Prop := c.index.Pairwise IndexEntry.Before

/-- An index in the order of the stream is sorted into order. -/
theorem ordered_sorted {c : StreamingCluster}
    (h : c.index.Pairwise fun a b => a.offset < b.offset) : c.sorted.Ordered :=
  Timeline.pairwise_sort_stable h

/-- Blocks are located in the order of the stream. -/
theorem offsets_of_traverses {pos stop : Nat} {index index' : List IndexEntry}
    (h : Element.Traverses (readChild mode) source pos index stop index')
    (hindex : index.Pairwise fun a b => a.offset < b.offset)
    (hpos : ∀ entry ∈ index, entry.offset < pos) :
    index'.Pairwise fun a b => a.offset < b.offset := by
  induction h with
  | nil => exact hindex
  | @cons pos stop count index next index' id hid hchild htraverses ih =>
      have hsize := id.size_pos
      obtain ⟨log, hok⟩ := hchild #[]
      rw [readChild] at hok
      split at hok
      next =>
        obtain ⟨⟨entry, _⟩, _, hlocate, hpure⟩ := Reader.bind_eq_ok.mp hok
        cases hpure
        obtain ⟨_, _, _, _, _, _, hentry, _⟩ := eq_of_locate hlocate
        have hoffset : entry.offset = pos := by
          rw [hentry]
          exact Nat.add_sub_cancel _ _
        refine ih ?_ fun other hm => ?_
        · refine List.pairwise_append.mpr ⟨hindex, List.pairwise_singleton _ _, ?_⟩
          intro other hm last hlast
          rw [List.mem_singleton.mp hlast, hoffset]
          exact hpos other hm
        · rcases List.mem_append.mp hm with hm | hm
          · have hlt := hpos other hm
            omega
          · rw [List.mem_singleton.mp hm, hoffset]
            omega
      next =>
        obtain ⟨_, _, _, hpure⟩ := Reader.bind_eq_ok.mp hok
        cases hpure
        refine ih hindex fun other hm => ?_
        have hlt := hpos other hm
        omega

/-! ## Reading into a streaming cluster -/

theorem searches_readChild (mode : ParsingMode) (index : List IndexEntry) (id : ElementId) :
    Reader.Searches (readChild mode index id) := by
  rw [readChild]
  split
  next => exact (plain_locate id).searches.bind fun _ => .pure _
  next => exact (Cluster.searches_skipNonBlock mode id).bind fun _ => .pure _

/-- Either the blocks were located, which is noted, and then the cluster is closed and its index in
order, or the metadata may have changed and nothing else. -/
def Searched (state state' : Held StreamingCluster Cursor) : Prop :=
  ∃ events : Log, Logging.log state' = Logging.log state ++ events ∧
    (events.any Event.isIndexing = true ∧ state'.object.state? = none ∧ state'.object.Ordered ∨
      events.any Event.isIndexing = false ∧
        ∃ m, state'.object = { state.object with metadata := m })

theorem Searched.of_noted {c : StreamingCluster} {m : ClusterMetadata} {cursor cursor' : Cursor}
    (h : Noted (fun event => !event.isIndexing) cursor cursor') :
    Searched ⟨c, cursor⟩ ⟨{ c with metadata := m }, cursor'⟩ := by
  obtain ⟨events, hlog, hquiet⟩ := h
  refine ⟨events, hlog, Or.inr ⟨Array.any_eq_false'.mpr fun event hm => ?_, m, rfl⟩⟩
  simpa using hquiet event hm

theorem Searched.trans {state state' state'' : Held StreamingCluster Cursor}
    (h : Searched state state') (h' : Searched state' state'') : Searched state state'' := by
  obtain ⟨events, hlog, hfirst⟩ := h
  obtain ⟨events', hlog', hsecond⟩ := h'
  refine ⟨events ++ events', by rw [hlog', hlog, Array.append_assoc], ?_⟩
  rw [Array.any_append]
  rcases hsecond with ⟨hany', hclosed⟩ | ⟨hany', m, hobject⟩
  · exact Or.inl ⟨by rw [hany', Bool.or_true], hclosed⟩
  · rw [hany', Bool.or_false, hobject]
    rcases hfirst with ⟨hany, hclosed⟩ | ⟨hany, _, hobject⟩
    · exact Or.inl ⟨hany, hclosed⟩
    · exact Or.inr ⟨hany, m, by rw [hobject]⟩

instance : IsPreorder (Held StreamingCluster Cursor) Searched where
  refl _ := .of_noted (.refl _)
  trans _ _ _ := Searched.trans

theorem searched_readBlocks (mode : ParsingMode) (size : Nat) :
    Reader.Behaves Searched Error.Neutral (readBlocks mode size) := by
  have hchildren := Cluster.searches_readChildren (searches_readChild mode) size []
  intro source
  constructor
  · intro ⟨c, cursor⟩
    have hnoted := (hchildren source).leaves cursor
    cases hread : Element.readChildren .cluster size [] (readChild mode) source cursor with
    | error e cursor' =>
        rw [hread] at hnoted
        rw [readBlocks, Filling.lift_bind_of_error hread]
        exact .of_noted hnoted
    | ok index cursor' =>
        rw [hread] at hnoted
        obtain ⟨events, hlog, _⟩ := hnoted
        obtain ⟨htraverses, _⟩ :=
          Element.traverses_of_readChildren (advances_readChild mode) hread
        rw [readBlocks, Filling.lift_bind_of_ok hread]
        refine ⟨events.push (.indexedBlocks index.length), ?_, Or.inl ⟨?_, rfl, ?_⟩⟩
        · rw [Array.append_push]
          exact congrArg (·.push (Event.indexedBlocks index.length)) hlog
        · simp [Event.isIndexing]
        · exact ordered_sorted (offsets_of_traverses htraverses .nil nofun)
  · intro ⟨c, cursor⟩ e herror
    cases hread : Element.readChildren .cluster size [] (readChild mode) source cursor with
    | error e' cursor' =>
        rw [readBlocks, Filling.lift_bind_of_error hread] at herror
        cases herror
        exact (hchildren source).fails (congrArg errorOf? hread)
    | ok index cursor' =>
        rw [readBlocks, Filling.lift_bind_of_ok hread] at herror
        cases herror

theorem searched_read (mode : ParsingMode) :
    Reader.Behaves Searched Error.Neutral (Cluster.read mode : Filling StreamingCluster Nat) :=
  Cluster.behaves_read .of_noted (fun _ _ _ => .of_noted (.refl _)) (searched_readBlocks mode)

/-! ## What becomes of a streaming cluster -/

variable {c : StreamingCluster} {stream : Stream} {sink sink' : Sink}

theorem write_of_closed (h : c.state? = none) (sink : Sink) :
    StreamingCluster.write ⟨c, sink⟩ =
      .error .clusterNotOpen ⟨{ c with state? := none }, sink⟩ := by
  have hsame : { c with state? := none } = c := by rw [← h]
  rw [hsame, StreamingCluster.write, Draining.held_bind]
  dsimp only
  rw [h]
  rfl

theorem push_of_closed (h : c.state? = none) (block : ClusterBlock) (sink : Sink) :
    push block ⟨c, sink⟩ = .error .clusterNotOpen ⟨c, sink⟩ := by
  rw [push, Draining.held_bind]
  dsimp only
  rw [h]
  rfl

/-- A block that was written takes as many bytes as it says. -/
theorem count_of_pushAt {expected written : Nat} {block : ClusterBlock}
    (hok : pushAt expected block sink = .ok written sink') :
    written = Element.totalSize block := by
  by_cases hpos : sink.stream.pos = expected
  · rw [pushAt_of_pos block hpos] at hok
    cases hvalidate : block.block.validate sink with
    | ok u sink₁ =>
        rw [Writer.bind_ok hvalidate] at hok
        exact ((Element.fillsGap_write block).of_ok
          (ClusterBlock.emits_write fun h : False => h.elim) hok).1
    | error e sink₁ =>
        rw [Writer.bind_error hvalidate] at hok
        cases hok
  · rw [pushAt_of_ne block hpos] at hok
    cases hok

/-- What a call makes of a streaming cluster. -/
inductive Became (made : Made StreamingCluster) : StreamingCluster → Prop
  /-- It is opened where the output stands. -/
  | prepared :
      made.Prepared → made.before.state? = none →
      Became made (made.before.opened made.stream.pos
        (ElementId.cluster.size + made.before.placeholder.octets) made.before.metadata.size)
  /-- It has one block more. -/
  | pushed {block : ClusterBlock} {state : OpenState} :
      made.Pushed block → made.before.state? = some state →
      Became made (made.before.extended state block (Element.totalSize block))
  /-- It is closed as it was written. -/
  | written {state : OpenState} :
      made.Written → made.before.state? = some state → Became made (made.before.closed state)
  /-- It is closed although it could not be written. -/
  | unwritten : made.Ended → ¬ made.Written → Became made { made.before with state? := none }
  /-- It has the index of what was read. -/
  | indexed {after : StreamingCluster} :
      made.Indexed → after.state? = none → after.Ordered → Became made after
  /-- Its metadata is another, if anything. -/
  | kept (m : ClusterMetadata) :
      ¬ made.Prepared → (∀ block, ¬ made.Pushed block) → ¬ made.Ended → ¬ made.Indexed →
      Became made { made.before with metadata := m }

theorem Became.of_searched {call : Call} (hreads : call.reads = true)
    (h : Searched ⟨c, ⟨stream.pos, #[]⟩⟩
      ⟨call.after c stream, ⟨(stateOf (call.result c stream)).medium.stream.pos,
        (stateOf (call.result c stream)).medium.log⟩⟩) :
    Became (call.made c stream) (call.after c stream) := by
  obtain ⟨events, hlog, hchange⟩ := h
  have hnoted : (call.made c stream).noted = events := hlog.trans (Array.empty_append)
  rcases hchange with ⟨hany, hclosed, hordered⟩ | ⟨hany, m, hobject⟩
  · exact .indexed ⟨hreads, by rw [hnoted, hany]⟩ hclosed hordered
  · dsimp only at hobject
    rw [hobject]
    have hnot : ∀ other : Call, other.reads = false → call ≠ other := by
      rintro _ hother rfl
      rw [hreads] at hother
      cases hother
    refine .kept m (fun h => hnot _ rfl h.1) (fun block h => hnot _ rfl h.1) (hnot _ rfl) ?_
    rintro ⟨_, hindexing⟩
    rw [hnoted, hany] at hindexing
    cases hindexing

/-- A call that fails leaves the cluster as it is, unless it is one that closes it or reads. -/
theorem Became.of_error {call : Call} {e : Error} (hwrite : call ≠ .write)
    (hreads : call.reads = false) (hresult : call.result c stream = .error e ⟨c, sink⟩) :
    Became (call.made c stream) (call.after c stream) := by
  have herror := Call.error_made hresult
  rw [Call.after_eq hresult]
  refine .kept c.metadata ?_ ?_ hwrite ?_
  · rintro ⟨_, hnone⟩
    cases herror.symm.trans hnone
  · rintro block ⟨_, hnone⟩
    cases herror.symm.trans hnone
  · rintro ⟨hsome, _⟩
    cases hreads.symm.trans hsome

theorem became_prepare (c : StreamingCluster) (stream : Stream) :
    Became (Call.prepare.made c stream) (Call.prepare.after c stream) := by
  cases hstate : c.state? with
  | some state => exact .of_error nofun rfl (prepare_of_open hstate ⟨stream, #[]⟩)
  | none =>
      have hresult : Call.prepare.result c stream = _ := prepare_eq hstate ⟨stream, #[]⟩
      cases hhead : c.writeHead ⟨stream, #[]⟩ with
      | ok counts sink =>
          rw [hhead] at hresult
          obtain ⟨hcounts, _⟩ :=
            (fillsGap_writeHead c).of_ok (emits_writeHead c fun h : False => h.elim) hhead
          subst hcounts
          rw [Call.after_eq hresult]
          exact .prepared ⟨rfl, Call.error_made hresult⟩ hstate
      | error e sink =>
          rw [hhead] at hresult
          exact .of_error nofun rfl hresult

theorem became_push (block : ClusterBlock) (c : StreamingCluster) (stream : Stream) :
    Became ((Call.push block).made c stream) ((Call.push block).after c stream) := by
  cases hstate : c.state? with
  | none => exact .of_error nofun rfl (push_of_closed hstate block ⟨stream, #[]⟩)
  | some state =>
      have hresult : (Call.push block).result c stream = _ := push_eq hstate block ⟨stream, #[]⟩
      cases hpush : pushAt state.expected block ⟨stream, #[]⟩ with
      | ok written sink =>
          rw [hpush] at hresult
          rw [Call.after_eq hresult, count_of_pushAt hpush]
          exact .pushed ⟨rfl, Call.error_made hresult⟩ hstate
      | error e sink =>
          rw [hpush] at hresult
          exact .of_error nofun rfl hresult

theorem became_write (c : StreamingCluster) (stream : Stream) :
    Became (Call.write.made c stream) (Call.write.after c stream) := by
  have hunwritten : ∀ {e sink},
      Call.write.result c stream = .error e ⟨{ c with state? := none }, sink⟩ →
      Became (Call.write.made c stream) (Call.write.after c stream) := fun {e sink} hresult => by
    rw [Call.after_eq hresult]
    refine .unwritten rfl ?_
    rintro ⟨_, hnone⟩
    cases (Call.error_made hresult).symm.trans hnone
  cases hstate : c.state? with
  | none => exact hunwritten (write_of_closed hstate _)
  | some state =>
      cases hfill : fillSize state c.sizeLength ⟨stream, #[]⟩ with
      | ok u sink =>
          obtain ⟨log, hresult⟩ := write_ok hstate hfill
          have hresult : Call.write.result c stream = _ := hresult
          rw [Call.after_eq hresult]
          exact .written ⟨rfl, Call.error_made hresult⟩ hstate
      | error e sink => exact hunwritten (write_error hstate hfill)

/-- Whatever is called, on whatever cluster and with whatever stream. -/
theorem became (call : Call) (c : StreamingCluster) (stream : Stream) :
    Became (call.made c stream) (call.after c stream) := by
  cases call with
  | prepare => exact became_prepare c stream
  | push block => exact became_push block c stream
  | write => exact became_write c stream
  | read mode limit =>
      exact .of_searched rfl (((searched_read mode).onSink limit).leaves ⟨c, ⟨stream, #[]⟩⟩)
  | readBlocks mode size limit =>
      exact .of_searched rfl
        (((searched_readBlocks mode size).onSink limit).leaves ⟨c, ⟨stream, #[]⟩⟩)
  | edit m =>
      exact .kept m (by simp [Made.Prepared]) (by simp [Made.Pushed]) (by simp [Made.Ended])
        (by simp [Made.Indexed, Call.reads])

end StreamingCluster

end Ebml
