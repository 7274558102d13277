import Ebml.Error.Inspect
import Ebml.Proofs.Cluster.Persistence
import Ebml.Proofs.Cluster.Reading

/-!
# What an index depends on

A cluster is read into an index without its end in view: only when a child has been passed is its
size compared with what is left, and the timecode of a block is looked for without regard for the
size of the block.  So a child that is cut off by the end of the cluster is looked for in whatever
comes after it, and the index of a cluster that ends with an empty block has a timecode that is made
of bytes after the cluster.

The bytes after a cluster matter in no other case.  They do not matter exactly if the stream that
ends with the cluster is enough to tell what comes of the read (`Reader.Continues`), and of a
success exactly if each timecode was found before the end (`IndexEntry.Sighted`).  Even if they
matter, nothing but timecodes is made of them (`IndexEntry.Alike`): all else that a success tells is
the same in every stream (`indexing_confined_iff`).
-/

namespace Ebml

variable {source other : Source} {pos stop : Nat} {mode : ParsingMode}

/-! ## Where a timecode was found -/

/-- A timecode that was found lies within the stream. -/
theorem Block.end_le_of_readPlace {found : Nat × Int16 × Nat} {cursor cursor' : Cursor}
    (hok : readPlace source cursor = .ok found cursor') : cursor'.pos ≤ source.bytes.length := by
  obtain ⟨_, _, _, hok⟩ := Reader.bind_eq_ok.mp hok
  obtain ⟨_, _, htake, hpure⟩ := Reader.bind_eq_ok.mp hok
  cases hpure
  simp only [Reader.take] at htake
  split at htake
  next hlen =>
    cases htake
    rw [List.length_take, List.length_drop] at hlen
    dsimp only
    omega
  next => cases htake

namespace ClusterBlock

theorem end_le_of_peekGroupTimecode {size : Nat} {timecode : Int16} :
    ∀ {consumed : Nat} {cursor cursor' : Cursor},
      peekGroupTimecode size consumed source cursor = .ok timecode cursor' →
        cursor'.pos ≤ source.bytes.length := by
  intro consumed
  induction hleft : size - consumed using Nat.strongRecOn generalizing consumed with
  | ind left ih =>
      intro cursor cursor' hok
      rw [peekGroupTimecode] at hok
      split at hok
      next hlt =>
        obtain ⟨id, _, _, hok⟩ := Reader.bind_eq_ok.mp hok
        obtain ⟨_, _, _, hok⟩ := Reader.bind_eq_ok.mp hok
        have hsize := id.size_pos
        dsimp only at hok
        split at hok
        next =>
          obtain ⟨_, _, hplace, hpure⟩ := Reader.bind_eq_ok.mp hok
          cases hpure
          exact Block.end_le_of_readPlace hplace
        next =>
          obtain ⟨_, _, _, hok⟩ := Reader.bind_eq_ok.mp hok
          exact ih _ (by omega) rfl hok
      next => cases hok

theorem end_le_of_peekTimecode {id : ElementId} {size : Nat} {timecode : Int16}
    {cursor cursor' : Cursor} (hok : peekTimecode id size source cursor = .ok timecode cursor') :
    cursor'.pos ≤ source.bytes.length := by
  rw [peekTimecode] at hok
  split at hok
  next =>
    obtain ⟨_, _, hplace, hpure⟩ := Reader.bind_eq_ok.mp hok
    cases hpure
    exact Block.end_le_of_readPlace hplace
  next => exact end_le_of_peekGroupTimecode hok

end ClusterBlock

/-- The timecode of the entry was found before a position.  It is looked for from the body of the
block on, and that it lies in the body is not checked. -/
def IndexEntry.Sighted (source : Source) (stop : Nat) (entry : IndexEntry) : Prop :=
  ∃ size length after,
    Reader.Yields VarInt.read source (entry.offset + entry.id.size) (size, length)
      (entry.offset + entry.id.size + length) ∧
      Reader.Yields (ClusterBlock.peekTimecode entry.id size) source
        (entry.offset + entry.id.size + length) entry.timecode after ∧
        after ≤ stop

/-- The entries stand for one block.  They have one timecode if it was found before the position. -/
structure IndexEntry.Alike (source : Source) (stop : Nat) (entry entry' : IndexEntry) : Prop where
  offset_eq : entry'.offset = entry.offset
  id_eq : entry'.id = entry.id
  timecode_eq : entry.Sighted source stop → entry'.timecode = entry.timecode

namespace StreamingCluster

/-- A block is located in every stream that has it, if its timecode is found before the end of what
both streams have. -/
theorem carry_locate {id : ElementId} {entry : IndexEntry} {count : Nat}
    (h : Reader.Yields (locate id) source (pos + id.size) (entry, count) (pos + id.size + count))
    (hsighted : entry.Sighted source stop) (hle : pos + id.size + count ≤ stop)
    (hagrees : source.Agrees other 0 stop) (hstop : stop ≤ other.bytes.length) :
    Reader.Yields (locate id) other (pos + id.size) (entry, count) (pos + id.size + count) := by
  obtain ⟨_, hok⟩ := h #[]
  obtain ⟨size, length, _, _, rfl, _, hentry, hsize, _⟩ := eq_of_locate hok
  obtain ⟨offset, entryId, timecode⟩ := entry
  simp only [Nat.add_sub_cancel] at hentry hsize
  cases hentry
  obtain ⟨size', length', after, hsize', hpeek, hafter⟩ := hsighted
  obtain ⟨hsame, _⟩ := hsize.agree hsize'
  cases hsame
  dsimp only at hpeek hafter
  have hsize := VarInt.spans_read.carry hsize (by omega) hagrees
  have hpeek := (ClusterBlock.spans_peekTimecode _ _).carry hpeek hafter hagrees
  refine Reader.Yields.position.bind (hsize.bind (Reader.Yields.streamLength.bind ?_))
  rw [if_neg (by omega)]
  refine hpeek.bind ((Reader.Yields.seek _).bind ?_)
  rw [Nat.add_sub_cancel, Nat.add_assoc]
  exact Reader.Yields.pure _

/-- Entries that were made stay. -/
theorem prefix_of_traverses {index index' : List IndexEntry}
    (h : Element.Traverses (readChild mode) source pos index stop index') : index <+: index' := by
  induction h with
  | nil => exact List.prefix_rfl
  | @cons pos stop count index next index' id _ hchild _ ih =>
      obtain ⟨_, hok⟩ := hchild #[]
      have hnext := eq_of_readChild hok
      cases hkind : ClusterBlock.ofId? id with
      | some kind =>
          rw [hkind] at hnext
          obtain ⟨entry, rfl, _⟩ := hnext
          exact (List.prefix_append _ _).trans ih
      | none =>
          rw [hkind] at hnext
          obtain ⟨rfl, _⟩ := hnext
          exact ih

/-- A region is gone through in every stream that has it, if each timecode is found before the end
of what both streams have. -/
theorem carry_traverses {stop' : Nat} {index index' : List IndexEntry}
    (h : Element.Traverses (readChild mode) source pos index stop' index')
    (hsighted : ∀ entry ∈ index', entry.Sighted source stop) (hle : stop' ≤ stop)
    (hagrees : source.Agrees other 0 stop) (hstop : stop ≤ other.bytes.length) :
    Element.Traverses (readChild mode) other pos index stop' index' := by
  induction h with
  | nil => exact .nil
  | @cons pos stop' count index next index' id hid hchild hrest ih =>
      have hrestLe := hrest.le
      have hstays := prefix_of_traverses hrest
      have hid := ElementId.spans_read.carry hid (by omega) hagrees
      refine .cons hid ?_ (ih hsighted hle)
      obtain ⟨_, hok⟩ := hchild #[]
      have hnext := eq_of_readChild hok
      rw [readChild]
      cases hkind : ClusterBlock.ofId? id with
      | some kind =>
          rw [hkind] at hnext
          obtain ⟨entry, rfl, hlocate⟩ := hnext
          have hentry := hsighted entry (hstays.subset (by simp))
          rw [if_pos (by rfl)]
          exact (carry_locate hlocate hentry (by omega) hagrees hstop).map rfl
      | none =>
          rw [hkind] at hnext
          obtain ⟨rfl, hskip⟩ := hnext
          dsimp only at hskip
          rw [if_neg (by simp)]
          exact ((Cluster.spans_skipNonBlock mode id).carry hskip (by omega) hagrees).map rfl

/-- What is located where two streams have the same bytes is one block, as large in both. -/
theorem alike_of_locate {id : ElementId} {entry entry' : IndexEntry} {count count' : Nat}
    (h : Reader.Yields (locate id) source (pos + id.size) (entry, count) (pos + id.size + count))
    (h' : Reader.Yields (locate id) other (pos + id.size) (entry', count')
      (pos + id.size + count'))
    (hle : pos + id.size + count ≤ stop) (hagrees : source.Agrees other 0 stop) :
    count' = count ∧ entry.Alike source stop entry' := by
  obtain ⟨_, hok⟩ := h #[]
  obtain ⟨_, hok'⟩ := h' #[]
  obtain ⟨size, length, _, _, rfl, _, hentry, hsize, _⟩ := eq_of_locate hok
  obtain ⟨size', length', _, _, rfl, _, hentry', hsize', hpeek'⟩ := eq_of_locate hok'
  have hcarried := VarInt.spans_read.carry hsize (by dsimp only; omega) hagrees
  obtain ⟨hsame, -⟩ := hcarried.agree hsize'
  cases hsame
  refine ⟨rfl, ?_⟩
  rw [hentry, hentry']
  refine ⟨rfl, rfl, fun ⟨_, _, after, hsized, hpeek, hafter⟩ => ?_⟩
  simp only [Nat.add_sub_cancel] at hsized hpeek hpeek'
  obtain ⟨hsame, -⟩ := hsize.agree hsized
  cases hsame
  exact (((ClusterBlock.spans_peekTimecode _ _).carry hpeek hafter hagrees).unique hpeek').1

/-- Two ways through a region that two streams have in common come by the same blocks. -/
theorem paired_of_traverses {index index' final final' : List IndexEntry}
    (h : Element.Traverses (readChild mode) source pos index stop final)
    (h' : Element.Traverses (readChild mode) other pos index' stop final')
    (hagrees : source.Agrees other 0 stop) :
    ∃ pairs : List (IndexEntry × IndexEntry), final = index ++ pairs.map Prod.fst ∧
      final' = index' ++ pairs.map Prod.snd ∧ ∀ p ∈ pairs, p.1.Alike source stop p.2 := by
  induction h generalizing index' with
  | nil =>
      rw [h'.eq_of_nil]
      exact ⟨[], by simp, by simp, fun _ hm => nomatch hm⟩
  | @cons pos stop count index next final id hid hchild hrest ih =>
      have hle := hrest.le
      have hpos := id.size_pos
      cases h' with
      | nil => omega
      | @cons _ _ count' _ next' _ id' hid' hchild' hrest' =>
          obtain ⟨rfl, -⟩ := (ElementId.spans_read.carry hid (by omega) hagrees).agree hid'
          obtain ⟨_, hok⟩ := hchild #[]
          obtain ⟨_, hok'⟩ := hchild' #[]
          have hnext := eq_of_readChild hok
          have hnext' := eq_of_readChild hok'
          cases hkind : ClusterBlock.ofId? id' with
          | some kind =>
              rw [hkind] at hnext hnext'
              obtain ⟨entry, rfl, hlocate⟩ := hnext
              obtain ⟨entry', rfl, hlocate'⟩ := hnext'
              obtain ⟨rfl, halike⟩ := alike_of_locate hlocate hlocate' hle hagrees
              obtain ⟨pairs, rfl, rfl, hall⟩ := ih hrest' hagrees
              refine ⟨(entry, entry') :: pairs, by simp, by simp, fun p hm => ?_⟩
              rcases List.mem_cons.mp hm with rfl | hm
              · exact halike
              · exact hall p hm
          | none =>
              rw [hkind] at hnext hnext'
              obtain ⟨rfl, hskip⟩ := hnext
              obtain ⟨rfl, hskip'⟩ := hnext'
              obtain ⟨rfl, -⟩ :=
                ((Cluster.spans_skipNonBlock mode id').carry hskip hle hagrees).agree hskip'
              exact ih hrest' hagrees

/-! ## Whole clusters -/

/-- Reads a cluster and makes an index of its blocks. -/
abbrev read (mode : ParsingMode) : Filling StreamingCluster Nat := Cluster.read mode

/-- What a read that succeeded has found in a cluster that ends at `stop`. -/
theorem of_read {size length count : Nat} {c c' : StreamingCluster} {cursor cursor' : Cursor}
    (hsize : Reader.Yields VarInt.read source cursor.pos (size, length) (cursor.pos + length))
    (hok : read mode source ⟨c, cursor⟩ = .ok count ⟨c', cursor'⟩) :
    ∃ opening after index, Cluster.readOpening mode source cursor = .ok opening after ∧
      opening.total = length + size ∧ after.pos + opening.region = cursor.pos + (length + size) ∧
      Element.Traverses (readChild mode) source after.pos [] (after.pos + opening.region) index ∧
      count = opening.total ∧ cursor'.pos = after.pos + opening.region ∧
      c' = sorted { c with
        metadata := opening.metadata, index, blocksSize := opening.region, state? := none
        sizeLength := sizeLengthFor { c with metadata := opening.metadata } opening.region } := by
  obtain ⟨opening, after, hopening, hblocks, rfl⟩ := Cluster.read_eq_ok.mp hok
  obtain ⟨size', length', hsize', htotal⟩ := Cluster.counts_readOpening mode _ _ _ _ hopening
  obtain ⟨hsame, -⟩ := hsize.agree hsize'
  cases hsame
  -- the opening tells of the region that the cluster ends where the region does
  obtain ⟨n, hpos, hsum, -, -⟩ := Cluster.foresees_readOpening mode _ _ _ _ hopening
  obtain ⟨-, hend, index, htraverses, rfl⟩ := of_readBlocks hblocks
  exact ⟨opening, after, index, hopening, htotal, by omega, htraverses, rfl, hend, rfl⟩

/-- The opening of a cluster is read from every stream that has the cluster. -/
theorem carry_readOpening {opening : Cluster.Opening} {cursor after : Cursor}
    (hok : Cluster.readOpening mode source cursor = .ok opening after)
    (hstop : stop = after.pos + opening.region) (hagrees : source.Agrees other 0 stop) :
    Reader.Yields (Cluster.readOpening mode) other cursor.pos opening after.pos := by
  obtain ⟨n, hpos, -, -, hlocal⟩ := Cluster.foresees_readOpening mode _ _ _ _ hok
  rw [hpos]
  exact hlocal other (hagrees.within (by omega))

/-- A cluster is read from every stream that has it as it was read from the one, if each timecode
was found before its end. -/
theorem carry_read {size length count : Nat} {c c' : StreamingCluster} {cursor cursor' : Cursor}
    (hsize : Reader.Yields VarInt.read source cursor.pos (size, length) (cursor.pos + length))
    (hok : read mode source ⟨c, cursor⟩ = .ok count ⟨c', cursor'⟩)
    (hstop : stop = cursor.pos + (length + size))
    (hsighted : ∀ entry ∈ c'.index, entry.Sighted source stop)
    (hagrees : source.Agrees other 0 stop) (hle : stop ≤ other.bytes.length) :
    ∃ log, read mode other ⟨c, cursor⟩ = .ok count ⟨c', ⟨cursor'.pos, log⟩⟩ := by
  obtain ⟨opening, after, index, hopening, -, hend, htraverses, rfl, hpos, rfl⟩ :=
    of_read hsize hok
  have hsighted' : ∀ entry ∈ index, entry.Sighted source stop := fun entry hm =>
    hsighted entry ((Timeline.perm_sort _ _).mem_iff.mpr hm)
  have hindex := carry_traverses htraverses hsighted' (by omega) hagrees hle
  obtain ⟨log, hopening'⟩ := carry_readOpening hopening (by omega) hagrees cursor.log
  rw [hpos]
  exact read_of_traverses hopening' hindex c

end StreamingCluster

/-! ## Two streams with one cluster -/

/-- The stream holds the whole of a cluster, whose size lies at `pos` and whose body ends at `stop`.
-/
structure Source.Encloses (source : Source) (pos stop : Nat) : Prop where
  /-- Where the body ends is told by the size. -/
  extent : ∃ size length,
    Reader.Yields VarInt.read source pos (size, length) (pos + length) ∧
      stop = pos + (length + size)
  /-- The stream goes that far. -/
  stop_le : stop ≤ source.bytes.length

/-- The streams have the same bytes up to a position.  If the one holds a cluster that ends there,
so does the other. -/
def Source.Shares (source other : Source) (stop : Nat) : Prop :=
  other.bytes.take stop = source.bytes.take stop

namespace Source

theorem length_upTo (h : stop ≤ source.bytes.length) : (source.upTo stop).bytes.length = stop := by
  rw [upTo, List.length_take, Nat.min_eq_left h]

theorem shares_upTo (source : Source) (stop : Nat) : source.Shares (source.upTo stop) stop := by
  rw [Shares, upTo, List.take_take, Nat.min_self]

theorem shares_followedBy (h : stop ≤ source.bytes.length) (more : List UInt8) :
    source.Shares ((source.upTo stop).followedBy more) stop := by
  have hstop := length_upTo h
  rw [Shares, followedBy, List.take_append_of_le_length (Nat.le_of_eq hstop.symm)]
  exact shares_upTo source stop

/-- Every stream with the cluster goes on after the end of the cluster. -/
theorem Shares.prefix (h : source.Shares other stop) :
    (source.upTo stop).bytes <+: other.bytes := by
  rw [upTo, ← h]
  exact List.take_prefix stop other.bytes

theorem Shares.stop_le (h : source.Shares other stop) (hle : stop ≤ source.bytes.length) :
    stop ≤ other.bytes.length := by
  have hlength := h.prefix.length_le
  rwa [length_upTo hle] at hlength

theorem Shares.agrees (h : source.Shares other stop) (hle : stop ≤ source.bytes.length) :
    source.Agrees { other with limit := source.limit } 0 stop :=
  ⟨rfl, h, Or.inr (by rw [Nat.zero_add]; exact h.stop_le hle)⟩

end Source

namespace StreamingCluster

/-- What a caller learns of a cluster by reading it. -/
inductive Outcome where
  /-- The number of bytes read, the blocks in their order, and the metadata. -/
  | indexed (count : Nat) (index : List IndexEntry) (metadata : ClusterMetadata)
  /-- The kind of failure. -/
  | failed (kind : String)

/-- What the result of a read tells. -/
def outcome : EStateM.Result Error (Held StreamingCluster Cursor) Nat → Outcome
  | .ok count state => .indexed count state.object.index state.object.metadata
  | .error e _ => .failed e.kind

/-- A read that ran out can be told by its outcome. -/
theorem outcome_eq_iff_ranOut (result : EStateM.Result Error (Held StreamingCluster Cursor) Nat) :
    outcome result = .failed "ReadError" ↔ Reader.ranOut result = true := by
  cases result with
  | ok count state => simp [outcome, Reader.ranOut]
  | error e state => cases e <;> simp [outcome, Reader.ranOut, Error.kind]

/-- What comes after the end of the cluster makes no difference to the outcome of reading it. -/
def Confined (mode : ParsingMode) (source : Source) (stop : Nat)
    (state : Held StreamingCluster Cursor) : Prop :=
  ∀ other, source.Shares other stop →
    outcome (read mode other state) = outcome (read mode source state)

variable {state : Held StreamingCluster Cursor}

/-- If the cluster alone is enough, then everything that comes of the read is the same. -/
theorem eq_of_ranOut (h : Reader.ranOut (read mode (source.upTo stop) state) = false)
    (hshares : source.Shares other stop) :
    read mode other state = read mode (source.upTo stop) state :=
  (continues_read mode).persists _ other hshares.prefix state h

/-- If it is not, it is cut short in another way than if the right bytes follow. -/
theorem confined_iff_ranOut (hle : stop ≤ source.bytes.length) :
    Confined mode source stop state ↔
      Reader.ranOut (read mode (source.upTo stop) state) = false := by
  constructor
  · intro hconfined
    cases hran : Reader.ranOut (read mode (source.upTo stop) state) with
    | false => rfl
    | true =>
        have hcut := (outcome_eq_iff_ranOut _).mpr hran
        rw [hconfined _ (source.shares_upTo stop)] at hcut
        obtain ⟨more, hfed⟩ := (continues_read mode).enough (source.upTo stop) state
        have hsame := hconfined _ (Source.shares_followedBy hle more)
        rw [hcut, outcome_eq_iff_ranOut, hfed] at hsame
        exact hsame.symm
  · intro hran other hshares
    rw [eq_of_ranOut hran hshares, eq_of_ranOut hran (rfl : source.Shares source stop)]

/-- The timecode of a block that is located in the stream that ends with the cluster is found before
its end. -/
theorem sighted_of_locate {id : ElementId} {entry : IndexEntry} {count : Nat}
    (h : Reader.Yields (locate id) (source.upTo stop) (pos + id.size) (entry, count)
      (pos + id.size + count))
    (hle : stop ≤ source.bytes.length) : entry.Sighted source stop := by
  have hagrees : (source.upTo stop).Agrees source 0 stop :=
    ⟨rfl, (source.shares_upTo stop).symm, Or.inr (by omega)⟩
  obtain ⟨_, hok⟩ := h #[]
  obtain ⟨size, length, log, after, -, -, hentry, hsize, hpeek⟩ := eq_of_locate hok
  have hafter := ClusterBlock.end_le_of_peekTimecode hpeek
  rw [Source.length_upTo hle] at hafter
  obtain ⟨n, hn, -, -, hlocal⟩ := ClusterBlock.spans_peekTimecode id size _ _ _ _ hpeek
  dsimp only at hn hlocal hsize
  have hsize := VarInt.spans_read.carry hsize (by omega) hagrees
  have hpeek := hlocal source (hagrees.within (by omega))
  rw [hentry]
  simp only [IndexEntry.Sighted, Nat.add_sub_cancel]
  exact ⟨size, length, _, hsize, hpeek, by omega⟩

theorem sighted_of_traverses {stop' : Nat} {index index' : List IndexEntry}
    (h : Element.Traverses (readChild mode) (source.upTo stop) pos index stop' index')
    (hle : stop ≤ source.bytes.length) (hbefore : ∀ entry ∈ index, entry.Sighted source stop) :
    ∀ entry ∈ index', entry.Sighted source stop := by
  induction h with
  | nil => exact hbefore
  | @cons pos stop' count index next index' id _ hchild _ ih =>
      apply ih
      obtain ⟨_, hok⟩ := hchild #[]
      have hnext := eq_of_readChild hok
      cases hkind : ClusterBlock.ofId? id with
      | some kind =>
          rw [hkind] at hnext
          obtain ⟨entry, rfl, hlocate⟩ := hnext
          intro found hm
          rcases List.mem_append.mp hm with hm | hm
          · exact hbefore found hm
          · rw [List.mem_singleton.mp hm]
            exact sighted_of_locate hlocate hle
      | none =>
          rw [hkind] at hnext
          obtain ⟨rfl, -⟩ := hnext
          exact hbefore

/-- A success does not depend on what comes after the cluster exactly if each timecode was found
before. -/
theorem confined_iff_sighted {count : Nat} {c : StreamingCluster} {cursor : Cursor}
    (h : source.Encloses cursor.pos stop)
    (hok : read mode source ⟨c, cursor⟩ = .ok count state) :
    Confined mode source stop ⟨c, cursor⟩ ↔
      ∀ entry ∈ state.object.index, entry.Sighted source stop := by
  obtain ⟨⟨size, length, hsize, hstop⟩, hle⟩ := h
  rw [confined_iff_ranOut hle]
  constructor
  · intro hran entry hm
    have hcut := eq_of_ranOut hran (rfl : source.Shares source stop)
    rw [hok] at hcut
    obtain ⟨opening, after, hopening, hblocks, -⟩ := Cluster.read_eq_ok.mp hcut.symm
    obtain ⟨-, -, index, htraverses, hobject⟩ := of_readBlocks hblocks
    have hall := sighted_of_traverses htraverses hle fun _ hm => nomatch hm
    rw [hobject] at hm
    exact hall entry ((Timeline.perm_sort _ _).mem_iff.mp hm)
  · intro hsighted
    have hagrees : source.Agrees (source.upTo stop) 0 stop :=
      (source.shares_upTo stop).agrees hle
    obtain ⟨_, hcut⟩ := carry_read hsize hok hstop hsighted hagrees
      (Nat.le_of_eq (Source.length_upTo hle).symm)
    rw [hcut]
    rfl

/-- Two successes on streams that have a cluster in common. -/
structure Paired (source : Source) (stop : Nat) (state state' : Held StreamingCluster Cursor) :
    Prop where
  /-- They come to the same position. -/
  pos_eq : state'.medium.pos = state.medium.pos
  /-- They come by the same blocks, of which each has put its own timecodes in order. -/
  index : ∃ pairs : List (IndexEntry × IndexEntry), (∀ p ∈ pairs, p.1.Alike source stop p.2) ∧
    state.object.index = Timeline.sort IndexEntry.timecode (pairs.map Prod.fst) ∧
    state'.object.index = Timeline.sort IndexEntry.timecode (pairs.map Prod.snd)
  /-- The clusters are the same but for the index. -/
  object_eq : state'.object = { state.object with index := state'.object.index }

theorem paired_of_read {count count' : Nat} {c : StreamingCluster} {cursor : Cursor}
    {state' : Held StreamingCluster Cursor} (h : source.Encloses cursor.pos stop)
    (hshares : source.Shares other stop)
    (hok : read mode source ⟨c, cursor⟩ = .ok count state)
    (hok' : read mode other ⟨c, cursor⟩ = .ok count' state') :
    count' = count ∧ Paired source stop state state' := by
  obtain ⟨⟨size, length, hsize, hstop⟩, hle⟩ := h
  -- nothing is read into memory, so the other stream may as well have the limit of the one
  have hlimit : read mode { other with limit := source.limit } ⟨c, cursor⟩ = .ok count' state' :=
    ((continues_read mode).persists other { other with limit := source.limit } List.prefix_rfl _
      (congrArg Reader.ranOut hok')).trans hok'
  have hagrees := hshares.agrees hle
  have hsize' := VarInt.spans_read.carry hsize (by omega) hagrees
  obtain ⟨opening, after, index, hopening, -, hend, htraverses, rfl, hpos, hobject⟩ :=
    of_read hsize hok
  obtain ⟨opening', after', index', hopening', -, hend', htraverses', rfl, hpos', hobject'⟩ :=
    of_read hsize' hlimit
  have hcarried := carry_readOpening hopening (by omega) hagrees
  obtain ⟨rfl, hafter⟩ := hcarried.unique hopening'
  rw [hafter] at htraverses' hpos'
  have hstop' : after.pos + opening'.region = stop := by omega
  rw [hstop'] at htraverses htraverses'
  obtain ⟨pairs, rfl, rfl, hall⟩ := paired_of_traverses htraverses htraverses' hagrees
  rw [List.nil_append] at hobject hobject'
  refine ⟨rfl, hpos'.trans hpos.symm, ⟨pairs, hall, ?_, ?_⟩, ?_⟩
  · rw [hobject]
    rfl
  · rw [hobject']
    rfl
  · rw [hobject, hobject']
    rfl

end StreamingCluster

open StreamingCluster in
/-- What comes after the end of a cluster makes no difference to reading it into an index exactly if
the cluster alone is enough to tell what comes of the read, and then nothing at all is different.
Of a success that is so exactly if each timecode was found before the end of the cluster.  If some
timecode was not, then still no two successes differ in anything but such timecodes and the order
that they give. -/
theorem indexing_confined_iff (h : source.Encloses pos stop) (mode : ParsingMode)
    (c : StreamingCluster) (log : Log) :
    (Confined mode source stop ⟨c, ⟨pos, log⟩⟩ ↔
      Reader.ranOut (read mode (source.upTo stop) ⟨c, ⟨pos, log⟩⟩) = false) ∧
    (Confined mode source stop ⟨c, ⟨pos, log⟩⟩ → ∀ other, source.Shares other stop →
      read mode other ⟨c, ⟨pos, log⟩⟩ = read mode source ⟨c, ⟨pos, log⟩⟩) ∧
    ∀ count state, read mode source ⟨c, ⟨pos, log⟩⟩ = .ok count state →
      (Confined mode source stop ⟨c, ⟨pos, log⟩⟩ ↔
        ∀ entry ∈ state.object.index, entry.Sighted source stop) ∧
      ∀ other count' state', source.Shares other stop →
        read mode other ⟨c, ⟨pos, log⟩⟩ = .ok count' state' →
          count' = count ∧ Paired source stop state state' := by
  refine ⟨confined_iff_ranOut h.stop_le, fun hconfined other hshares => ?_,
    fun count state hok => ⟨confined_iff_sighted h hok, fun other count' state' hshares hok' =>
      paired_of_read h hshares hok hok'⟩⟩
  have hran := (confined_iff_ranOut h.stop_le).mp hconfined
  rw [eq_of_ranOut hran hshares, eq_of_ranOut hran (rfl : source.Shares source stop)]

/-- A cluster with a simple block.  The beginning of another one may follow. -/
example : StreamingCluster.Confined .strict
    ⟨[0x1f, 0x43, 0xb6, 0x75, 0x8a, 0xe7, 0x81, 0x00, 0xa3, 0x85, 0x81, 0x00, 0x05, 0x00, 0xcc] ++
      [0xa3, 0xff], 16⟩ 15 ⟨{}, ⟨4, #[]⟩⟩ :=
  (StreamingCluster.confined_iff_ranOut (by decide)).mpr (by decide +kernel)

/-- Reads the number of bytes of a cluster, and the entries of its blocks as they lie in it. -/
def StreamingCluster.scan (mode : ParsingMode) : Reader (Nat × List IndexEntry) := do
  let opening ← Cluster.readOpening mode
  let entries ← Element.readChildren .cluster opening.region [] (readChild mode)
  return (opening.total, entries)

theorem StreamingCluster.ok_of_scan {count : Nat} {entries : List IndexEntry} {cursor : Cursor}
    (h : resultOf? (scan mode source cursor) = some (count, entries)) (c : StreamingCluster) :
    ∃ state, read mode source ⟨c, cursor⟩ = .ok count state ∧
      state.object.index = Timeline.sort IndexEntry.timecode entries := by
  obtain ⟨_, hscan⟩ := of_resultOf? h
  obtain ⟨opening, after, hopening, hscan⟩ := Reader.bind_eq_ok.mp hscan
  obtain ⟨_, _, hchildren, hpure⟩ := Reader.bind_eq_ok.mp hscan
  cases hpure
  obtain ⟨htraverses, hpos⟩ :=
    Element.traverses_of_readChildren (advances_readChild mode) hchildren
  rw [hpos] at htraverses
  obtain ⟨_, hread⟩ := read_of_traverses hopening htraverses c
  exact ⟨_, hread, rfl⟩

/-- A cluster with a simple block, and at its end another one without a body. -/
def emptyBlockCluster : List UInt8 :=
  [0x1f, 0x43, 0xb6, 0x75, 0x8c, 0xe7, 0x81, 0x00, 0xa3, 0x85, 0x81, 0x00, 0x06, 0x00, 0xcc,
    0xa3, 0x80]

/-- The block at the end comes first or last as the bytes after the cluster will have it. -/
theorem emptyBlockCluster_not_confined :
    let first : Source := ⟨emptyBlockCluster ++ [0x81, 0x00, 0x05, 0x00], 16⟩
    let last : Source := ⟨emptyBlockCluster ++ [0x81, 0x00, 0x07, 0x00], 16⟩
    ∃ state state',
      StreamingCluster.read .strict first ⟨{}, ⟨4, #[]⟩⟩ = .ok 13 state ∧
      StreamingCluster.read .strict last ⟨{}, ⟨4, #[]⟩⟩ = .ok 13 state' ∧
      state.object.index = [⟨15, .simpleBlock, 5⟩, ⟨8, .simpleBlock, 6⟩] ∧
      state'.object.index = [⟨8, .simpleBlock, 6⟩, ⟨15, .simpleBlock, 7⟩] ∧
      (¬ ∀ entry ∈ state.object.index, entry.Sighted first 17) ∧
      StreamingCluster.Paired first 17 state state' := by
  intro first last
  have hencloses : first.Encloses 4 17 :=
    ⟨⟨12, 1, VarInt.yields_read_minimal (by decide) ⟨_, rfl⟩, rfl⟩, by decide⟩
  have hfirst : resultOf? (StreamingCluster.scan .strict first ⟨4, #[]⟩) =
      some (13, [⟨8, .simpleBlock, 6⟩, ⟨15, .simpleBlock, 5⟩]) := by decide +kernel
  have hlast : resultOf? (StreamingCluster.scan .strict last ⟨4, #[]⟩) =
      some (13, [⟨8, .simpleBlock, 6⟩, ⟨15, .simpleBlock, 7⟩]) := by decide +kernel
  obtain ⟨state, hok, hindex⟩ := StreamingCluster.ok_of_scan hfirst {}
  obtain ⟨state', hok', hindex'⟩ := StreamingCluster.ok_of_scan hlast {}
  rw [← Timeline.foldl_insert] at hindex hindex'
  replace hindex : state.object.index = [⟨15, .simpleBlock, 5⟩, ⟨8, .simpleBlock, 6⟩] :=
    hindex.trans (by cbv)
  replace hindex' : state'.object.index = [⟨8, .simpleBlock, 6⟩, ⟨15, .simpleBlock, 7⟩] :=
    hindex'.trans (by cbv)
  obtain ⟨-, -, hsuccess⟩ := indexing_confined_iff hencloses .strict {} #[]
  obtain ⟨hiff, hpaired⟩ := hsuccess 13 state hok
  obtain ⟨-, hpaired⟩ := hpaired last 13 state' rfl hok'
  refine ⟨state, state', hok, hok', hindex, hindex', fun hsighted => ?_, hpaired⟩
  have hsame := hiff.mpr hsighted last rfl
  rw [hok, hok'] at hsame
  obtain ⟨-, hsame, -⟩ := StreamingCluster.Outcome.indexed.inj hsame
  rw [hindex, hindex'] at hsame
  exact absurd hsame (by decide)

end Ebml
