import Ebml.Cluster.Iteration
import Ebml.Proofs.Element.Closure
import Ebml.Proofs.Stream.Independence

/-!
# Going through blocks from both ends

All blocks of a streaming cluster are read by one reader, which every read leaves somewhere else,
and a read that fails leaves it in the middle of something.  That does not show: a block is read
from where its entry says it is, so what comes of it depends on the entry and on the stream alone
(`IndexEntry.answer_load`).

So a call takes the entry off its end and tells what comes of that entry, whatever was called
before (`BlockIterator.item_next`).  By induction on the calls, what was given from the front, what
is left and what was given from the back, in reverse, always make up the index
(`BlockIterator.gathered_around`).
-/

namespace Ebml

/-! ## One entry -/

namespace IndexEntry

/-- What comes of reading the block that an entry stands for. -/
def loaded (source : Source) (entry : IndexEntry) : Except Error ClusterBlock :=
  answerOf (entry.load source ⟨0, #[]⟩)

theorem agree_load {kind : ClusterBlock} {entry : IndexEntry}
    (hkind : ClusterBlock.ofId? entry.id = some kind) (source : Source) (s t : Cursor) :
    Agree Same Same (entry.load source s) (entry.load source t) := by
  have hread : Reader.Respects Same (Element.read kind) :=
    Element.closed_read Reader.closed_respects fun _ size =>
      ClusterBlock.closed_readBody Reader.closed_respects Reader.Respects.body _ size
  have hrest : Reader.Respects Same (do let read ← Element.read kind; return read.1) :=
    hread.bind fun _ => .pure _
  rw [load, hkind]
  exact (hrest source).agree (Cursor.same_iff.mpr rfl)

/-- Where the reader stands, and what it did before, makes no difference. -/
theorem answer_load (entry : IndexEntry) (source : Source) (cursor : Cursor) :
    answerOf (entry.load source cursor) = entry.loaded source := by
  rw [loaded]
  cases hkind : ClusterBlock.ofId? entry.id with
  | none =>
      rw [load, hkind]
      rfl
  | some kind => exact (agree_load hkind source _ _).answer_eq

end IndexEntry

namespace BlockIterator

/-! ## One call -/

/-- What a call gives: nothing if no block is left, and else the block or why it cannot be read. -/
def item? : EStateM.Result Error (Held BlockIterator Cursor) (Option ClusterBlock) →
    Option (Except Error ClusterBlock)
  | .ok block? _ => block?.map .ok
  | .error e _ => some (.error e)

variable {source : Source}

theorem next_of_none {it : BlockIterator} {side : Side} (h : it.peek? side = none)
    (cursor : Cursor) : next side source ⟨it, cursor⟩ = .ok none ⟨it, cursor⟩ := by
  rw [next, Filling.object_bind, h]
  rfl

theorem next_of_some {it : BlockIterator} {side : Side} {entry : IndexEntry}
    (h : it.peek? side = some entry) (cursor : Cursor) :
    next side source ⟨it, cursor⟩ =
      match entry.load source cursor with
      | .ok block cursor' => .ok (some block) ⟨it.advance side, cursor'⟩
      | .error e cursor' => .error e ⟨it.advance side, cursor'⟩ := by
  rw [next, Filling.object_bind, h]
  dsimp only
  rw [Filling.change_bind]
  cases hload : entry.load source cursor with
  | ok block cursor' => exact Filling.lift_bind_of_ok hload
  | error e cursor' => exact Filling.lift_bind_of_error hload

theorem advance_of_none {it : BlockIterator} {side : Side} (h : it.peek? side = none) :
    it.advance side = it := by
  obtain ⟨entries⟩ := it
  cases side with
  | front =>
      obtain rfl : entries = [] := List.head?_eq_none_iff.mp h
      rfl
  | back =>
      obtain rfl : entries = [] := List.getLast?_eq_none_iff.mp h
      rfl

/-- A call gives what comes of the entry at its end. -/
theorem item_next (side : Side) (s : Held BlockIterator Cursor) :
    item? (next side source s) = (s.object.peek? side).map (IndexEntry.loaded source) := by
  obtain ⟨it, cursor⟩ := s
  cases hpeek : it.peek? side with
  | none =>
      rw [next_of_none hpeek]
      rfl
  | some entry =>
      rw [next_of_some hpeek, Option.map_some, ← entry.answer_load source cursor]
      cases entry.load source cursor with
      | ok block cursor' => rfl
      | error e cursor' => rfl

/-- A call takes the entry off its end, whether or not the block can be read. -/
theorem object_next (side : Side) (s : Held BlockIterator Cursor) :
    (stateOf (next side source s)).object = s.object.advance side := by
  obtain ⟨it, cursor⟩ := s
  cases hpeek : it.peek? side with
  | none =>
      rw [next_of_none hpeek, advance_of_none hpeek]
      rfl
  | some entry =>
      rw [next_of_some hpeek]
      cases entry.load source cursor with
      | ok block cursor' => rfl
      | error e cursor' => rfl

/-! ## Any number of calls -/

/-- What calls at these ends leave. -/
def after (source : Source) (s : Held BlockIterator Cursor) (sides : List Side) :
    Held BlockIterator Cursor :=
  sides.foldl (fun s side => stateOf (next side source s)) s

theorem after_cons (s : Held BlockIterator Cursor) (side : Side) (sides : List Side) :
    after source s (side :: sides) = after source (stateOf (next side source s)) sides := rfl

/-- What calls at these ends give at the end `chosen`, in the order of the calls. -/
def gathered (source : Source) (chosen : Side) (s : Held BlockIterator Cursor) :
    List Side → List (Except Error ClusterBlock)
  | [] => []
  | side :: sides =>
    let rest := gathered source chosen (stateOf (next side source s)) sides
    if side = chosen then (item? (next side source s)).toList ++ rest else rest

/-- Calls at the front give these items, and then nothing. -/
inductive Forward (source : Source) :
    Held BlockIterator Cursor → List (Except Error ClusterBlock) → Prop
  | nil {s : Held BlockIterator Cursor} :
      item? (next .front source s) = none → Forward source s []
  | cons {s : Held BlockIterator Cursor} {item : Except Error ClusterBlock}
      {items : List (Except Error ClusterBlock)} :
      item? (next .front source s) = some item →
      Forward source (stateOf (next .front source s)) items → Forward source s (item :: items)

/-- What comes of the entries that are left. -/
def items (source : Source) (it : BlockIterator) : List (Except Error ClusterBlock) :=
  it.entries.map (IndexEntry.loaded source)

variable {s : Held BlockIterator Cursor} {given : List (Except Error ClusterBlock)}

theorem items_front (source : Source) (it : BlockIterator) :
    ((it.peek? .front).map (IndexEntry.loaded source)).toList ++ (it.advance .front).items source =
      it.items source := by
  obtain ⟨entries⟩ := it
  cases entries with
  | nil => rfl
  | cons entry entries => rfl

theorem items_back (source : Source) (it : BlockIterator) :
    (it.advance .back).items source ++ ((it.peek? .back).map (IndexEntry.loaded source)).toList =
      it.items source := by
  obtain ⟨entries⟩ := it
  rw [items, items, advance, peek?]
  cases hlast : entries.getLast? with
  | none =>
      rw [List.getLast?_eq_none_iff.mp hlast]
      rfl
  | some entry =>
      obtain ⟨before, rfl⟩ := List.getLast?_eq_some_iff.mp hlast
      rw [List.dropLast_concat, List.map_append]
      rfl

/-- Going on from the front gives what comes of the entries, in order. -/
theorem forward_iff : Forward source s given ↔ given = s.object.items source := by
  constructor
  · intro h
    induction h with
    | @nil s hnone =>
        rw [item_next] at hnone
        have hentries : s.object.entries = [] :=
          List.head?_eq_none_iff.mp (Option.map_eq_none_iff.mp hnone)
        rw [items, hentries]
        rfl
    | cons hsome _ ih =>
        rw [item_next] at hsome
        rw [ih, object_next, ← items_front source (Held.object _), hsome]
        rfl
  · rintro rfl
    obtain ⟨⟨entries⟩, cursor⟩ := s
    induction entries generalizing cursor with
    | nil => exact .nil (item_next .front _)
    | cons entry entries ih =>
        refine .cons (item_next .front _) ?_
        have hobject : (stateOf (next .front source ⟨⟨entry :: entries⟩, cursor⟩)).object =
            ⟨entries⟩ := object_next .front _
        generalize stateOf (next .front source ⟨⟨entry :: entries⟩, cursor⟩) = s at hobject ⊢
        obtain ⟨it, cursor'⟩ := s
        obtain rfl : it = ⟨entries⟩ := hobject
        exact ih cursor'

/-- What was given from the front, what is left, and what was given from the back, in reverse, are
all items in order. -/
theorem gathered_around (source : Source) (s : Held BlockIterator Cursor) (sides : List Side) :
    gathered source .front s sides ++ (after source s sides).object.items source ++
        (gathered source .back s sides).reverse = s.object.items source := by
  induction sides generalizing s with
  | nil => exact List.append_nil _
  | cons side sides ih =>
      have hrest := ih (stateOf (next side source s))
      rw [object_next] at hrest
      rw [gathered, gathered, after_cons, item_next]
      cases side with
      | front =>
          rw [if_pos rfl, if_neg (by decide), ← items_front source s.object, ← hrest]
          simp only [List.append_assoc]
      | back =>
          have hitem : ∀ item? : Option (Except Error ClusterBlock),
              item?.toList.reverse = item?.toList := fun item? => by cases item? <;> rfl
          rw [if_neg (by decide), if_pos rfl, ← items_back source s.object, ← hrest,
            List.reverse_append, hitem]
          simp only [List.append_assoc]

theorem remaining_advance (it : BlockIterator) (side : Side) :
    (it.advance side).remaining = it.remaining - 1 := by
  cases side with
  | front => exact List.length_tail
  | back => exact List.length_dropLast

theorem remaining_after (source : Source) (s : Held BlockIterator Cursor) (sides : List Side) :
    (after source s sides).object.remaining = s.object.remaining - sides.length := by
  induction sides generalizing s with
  | nil => rfl
  | cons side sides ih =>
      rw [after_cons, ih, object_next, remaining_advance, List.length_cons]
      omega

/-- A call gives something exactly as long as there were fewer calls than entries. -/
theorem item_after (source : Source) (s : Held BlockIterator Cursor) (sides : List Side)
    (side : Side) :
    item? (next side source (after source s sides)) = none ↔
      s.object.remaining ≤ sides.length := by
  have hempty : ∀ it : BlockIterator, it.peek? side = none ↔ it.remaining = 0 := by
    intro it
    rw [remaining, List.length_eq_zero_iff]
    cases side with
    | front => exact List.head?_eq_none_iff
    | back => exact List.getLast?_eq_none_iff
  rw [item_next, Option.map_eq_none_iff, hempty, remaining_after]
  omega

/-- The blocks of a cluster can be gone through from both ends in any order.  What comes of an entry
does not depend on where the reader stands, or on what was read before.  Going on from the front
gives what comes of the entries, in order.  After any calls, what was given from the front, what
going on from the front would give now, and what was given from the back, in reverse, are the same
items, and as many entries are left as there were more than calls.  Once there were as many calls
as entries, nothing is left, and no call gives anything. -/
theorem gathered_from_both_ends (c : StreamingCluster) (source : Source) (cursor : Cursor)
    (sides : List Side) :
    let start : Held BlockIterator Cursor := ⟨c.blocks, cursor⟩
    let left := after source start sides
    let all := c.index.map (IndexEntry.loaded source)
    (∀ entry ∈ c.index, ∀ anywhere, answerOf (entry.load source anywhere) = entry.loaded source) ∧
      (∀ given, Forward source start given ↔ given = all) ∧
      (∃ rest, Forward source left rest ∧
        gathered source .front start sides ++ rest ++ (gathered source .back start sides).reverse =
          all) ∧
      (c.index.length ≤ sides.length →
        gathered source .front start sides ++ (gathered source .back start sides).reverse = all) ∧
      left.object.remaining = c.index.length - sides.length ∧
      ∀ side, item? (next side source left) = none ↔ c.index.length ≤ sides.length := by
  intro start left all
  have haround := gathered_around source start sides
  have hleft : left.object.remaining = c.index.length - sides.length :=
    remaining_after source start sides
  refine ⟨fun entry _ => entry.answer_load source, fun given => forward_iff, ⟨_, ?_, haround⟩, ?_,
    hleft, item_after source start sides⟩
  · exact forward_iff.mpr rfl
  · intro hall
    have hempty : left.object.entries = [] :=
      List.length_eq_zero_iff.mp (hleft.trans (Nat.sub_eq_zero_of_le hall))
    rwa [items, hempty, List.map_nil, List.append_nil] at haround

/-- Two blocks of one byte, and between them one that has no frame. -/
def brokenBetween : Source where
  bytes := [0xA3, 0x85, 0x81, 0, 0, 0, 7] ++ [0xA3, 0x84, 0x81, 0, 1, 0] ++
    [0xA3, 0x85, 0x81, 0, 2, 0, 8]
  limit := 0x1000

/-- The cluster that has these three. -/
def brokenBetweenIndex : StreamingCluster where
  index := [⟨0, .simpleBlock, 0⟩, ⟨7, .simpleBlock, 1⟩, ⟨13, .simpleBlock, 2⟩]

/-- Three calls give all three items, whatever their ends, though the first leaves the reader at the
end of the stream and the second makes it fail. -/
theorem gathered_around_broken :
    let start : Held BlockIterator Cursor := ⟨brokenBetweenIndex.blocks, ⟨1000, #[]⟩⟩
    let all := brokenBetweenIndex.index.map (IndexEntry.loaded brokenBetween)
    all.map (fun item => item.toOption.map ClusterBlock.timecode) = [some 0, none, some 2] ∧
      gathered brokenBetween .front start [.back, .back, .front] ++
        (gathered brokenBetween .back start [.back, .back, .front]).reverse = all :=
  ⟨by decide +kernel,
    (gathered_from_both_ends brokenBetweenIndex brokenBetween ⟨1000, #[]⟩
      [.back, .back, .front]).2.2.2.1 (by decide)⟩

end BlockIterator

end Ebml
