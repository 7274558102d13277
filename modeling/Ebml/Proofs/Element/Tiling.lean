import Ebml.Proofs.Element
import Ebml.Proofs.Stream.Conduct

/-!
# How a body is tiled by its children

`Element.consumeChildren` goes through a body with any handler.  A run of it is a list of visits
(`Element.Visits`): one for each call of the handler that came back, made with the ID that was read
just before.  How the run ends (`Element.Ends`) depends on nothing but the bytes that were counted
until then and on what the next child does.

A handler that counts is one that moves the reader by as many bytes as it says
(`Element.Truthful`).  Then the visits lie one behind the other in the stream (`Element.Tiles`), and
the run succeeds just when they fill the body.
-/

namespace Ebml.Element

/-- A child that a handler dealt with. -/
structure Visit where
  /-- Where the ID of the child starts. -/
  start : Nat
  /-- The ID of the child. -/
  id : ElementId
  /-- The number of bytes that the handler said it read. -/
  count : Nat

namespace Visit

/-- The number of bytes counted for a child: its ID and what the handler read. -/
def extent (visit : Visit) : Nat := visit.id.size + visit.count

/-- The number of bytes counted for some children. -/
def total (visits : List Visit) : Nat := (visits.map extent).sum

@[simp] theorem total_nil : total [] = 0 := rfl

@[simp] theorem total_cons (visit : Visit) (visits : List Visit) :
    total (visit :: visits) = visit.id.size + visit.count + total visits := rfl

end Visit

section

variable {α : Type}

/-- The cursor that a handler is called with: past the ID, and the child is noted. -/
def entering (parent child : ElementId) (opened : Cursor) : Cursor :=
  { opened with log := opened.log.push (.readingChild child parent) }

/-- A handler that says how far it moved the reader. -/
def Truthful (source : Source) (handle : α → ElementId → Reader (α × Nat)) : Prop :=
  ∀ acc id cursor next count after, handle acc id source cursor = .ok (next, count) after →
    after.pos = cursor.pos + count

/-- The calls of a handler that came back, in their order, and what they made of the cursor and of
what was handed on. -/
inductive Visits (handle : α → ElementId → Reader (α × Nat)) (parent : ElementId)
    (source : Source) :
    (cursor : Cursor) → (acc : α) → List Visit → (last : Cursor) → (acc' : α) → Prop
  | nil {cursor : Cursor} {acc : α} : Visits handle parent source cursor acc [] cursor acc
  | cons {cursor opened after last : Cursor} {acc next acc' : α} {id : ElementId} {count : Nat}
      {visits : List Visit} :
      ElementId.read source cursor = .ok id opened →
      handle acc id source (entering parent id opened) = .ok (next, count) after →
      Visits handle parent source after next visits last acc' →
      Visits handle parent source cursor acc (⟨cursor.pos, id, count⟩ :: visits) last acc'

/-- The ways in which going through a body of `size` bytes ends after `total` of them. -/
inductive Ends (handle : α → ElementId → Reader (α × Nat)) (parent : ElementId)
    (source : Source) (size total : Nat) (last : Cursor) (acc : α) :
    EStateM.Result Error Cursor (α × Nat) → Prop
  /-- The children fill the body. -/
  | filled : total = size → Ends handle parent source size total last acc (.ok (acc, size) last)
  /-- The last child reaches beyond the body. -/
  | overrun : size < total →
      Ends handle parent source size total last acc
        (.error (.badBodySize parent.value size total) last)
  /-- Bytes are left, and no ID can be read from them. -/
  | unread {e : Error} {stopped : Cursor} :
      total < size → ElementId.read source last = .error e stopped →
      Ends handle parent source size total last acc (.error e stopped)
  /-- Bytes are left, and the handler fails on the child they begin with. -/
  | refused {e : Error} {id : ElementId} {opened stopped : Cursor} :
      total < size → ElementId.read source last = .ok id opened →
      handle acc id source (entering parent id opened) = .error e stopped →
      Ends handle parent source size total last acc (.error e stopped)

/-- Every child but the first starts where the one before ends. -/
inductive Tiles : (pos : Nat) → List Visit → (stop : Nat) → Prop
  | nil {pos : Nat} : Tiles pos [] pos
  | cons {stop : Nat} {visit : Visit} {visits : List Visit} :
      Tiles (visit.start + visit.extent) visits stop → Tiles visit.start (visit :: visits) stop

theorem Tiles.stop_eq {pos stop : Nat} {visits : List Visit} (h : Tiles pos visits stop) :
    stop = pos + Visit.total visits := by
  induction h with
  | nil => rfl
  | cons _ ih =>
      rw [Visit.extent] at ih
      rw [Visit.total_cons]
      omega

variable {handle : α → ElementId → Reader (α × Nat)} {parent : ElementId} {source : Source}
  {size : Nat}

/-- A handler that counts the bytes it moves over is truthful. -/
theorem truthful_of_spans
    (h : ∀ acc id, Reader.Spans (handle acc id) fun result n => n = result.2) :
    Truthful source handle := by
  intro acc id cursor next count after hcall
  obtain ⟨_, hpos, rfl, _⟩ := h acc id source cursor (next, count) after hcall
  exact hpos

/-- The visits of a truthful handler lie one behind the other. -/
theorem Visits.tiles (hhandle : Truthful source handle) {cursor last : Cursor} {acc acc' : α}
    {visits : List Visit} (h : Visits handle parent source cursor acc visits last acc') :
    Tiles cursor.pos visits last.pos := by
  induction h with
  | nil => exact .nil
  | @cons cursor opened after last acc next acc' id count visits hid hcall _ ih =>
      obtain ⟨_, hopened, rfl, _⟩ := ElementId.spans_read _ _ _ _ hid
      have hafter : after.pos = cursor.pos + (id.size + count) := by
        rw [hhandle _ _ _ _ _ _ hcall, entering, hopened, Nat.add_assoc]
      rw [hafter] at ih
      exact @Tiles.cons _ ⟨cursor.pos, id, count⟩ _ ih

/-! ## Runs -/

/-- A run from `consumed` bytes of the body on: visits that each start inside the body, and one of
the ends. -/
def Runs (handle : α → ElementId → Reader (α × Nat)) (parent : ElementId) (source : Source)
    (size consumed : Nat) (cursor : Cursor) (acc : α)
    (result : EStateM.Result Error Cursor (α × Nat)) : Prop :=
  ∃ visits last acc', Visits handle parent source cursor acc visits last acc' ∧
    (∀ before visit after, visits = before ++ visit :: after →
      consumed + Visit.total before < size) ∧
    Ends handle parent source size (consumed + Visit.total visits) last acc' result

section

variable {consumed : Nat} {cursor opened after : Cursor} {acc next : α} {id : ElementId}
  {count : Nat} {result : EStateM.Result Error Cursor (α × Nat)}

/-- A run that ends before another child. -/
theorem Runs.ended (h : Ends handle parent source size consumed cursor acc result) :
    Runs handle parent source size consumed cursor acc result := by
  refine ⟨[], cursor, acc, .nil, ?_, h⟩
  intro before visit after hvisits
  simp at hvisits

/-- A run that goes on after a child. -/
theorem Runs.visited (hlt : consumed < size) (hid : ElementId.read source cursor = .ok id opened)
    (hcall : handle acc id source (entering parent id opened) = .ok (next, count) after)
    (h : Runs handle parent source size (consumed + id.size + count) after next result) :
    Runs handle parent source size consumed cursor acc result := by
  obtain ⟨visits, last, acc', hvisits, hinside, hends⟩ := h
  refine ⟨⟨cursor.pos, id, count⟩ :: visits, last, acc', .cons hid hcall hvisits, ?_, ?_⟩
  · intro before visit rest heq
    cases before with
    | nil => exact hlt
    | cons first before =>
        obtain ⟨rfl, hrest⟩ := List.cons.inj heq
        have hbefore := hinside before visit rest hrest
        rw [Visit.total_cons]
        dsimp only
        omega
  · rw [Visit.total_cons, ← Nat.add_assoc, ← Nat.add_assoc]
    exact hends

/-- What going through children does once the ID of the next one is read. -/
theorem readChildrenFrom_of_read {β : Type} {handle : β → ElementId → Reader (β × Nat)} {acc : β}
    (hlt : consumed < size) (hid : ElementId.read source cursor = .ok id opened) :
    readChildrenFrom parent size handle consumed acc source cursor =
      (handle acc id >>= fun result =>
        readChildrenFrom parent size handle (consumed + id.size + result.2) result.1)
        source (entering parent id opened) := by
  rw [readChildrenFrom, if_pos hlt, Reader.bind_of_ok hid]
  exact Reader.bind_of_ok (r := Reader.note (.readingChild id parent)) rfl

theorem counting_of_ok {counted : Nat}
    (h : handle acc id source cursor = .ok (next, count) after) :
    counting handle (acc, counted) id source cursor =
      .ok ((next, counted + id.size + count), count) after :=
  Reader.bind_of_ok h

theorem counting_of_error {counted : Nat} {e : Error}
    (h : handle acc id source cursor = .error e after) :
    counting handle (acc, counted) id source cursor = .error e after :=
  Reader.bind_of_error h

end

/-- Going through children while counting their bytes is a run. -/
theorem runs_readChildrenFrom :
    ∀ (consumed : Nat) (cursor : Cursor) (acc : α),
      Runs handle parent source size consumed cursor acc
        (readChildrenFrom parent size (counting handle) consumed (acc, consumed) source cursor) := by
  intro consumed
  -- every child takes at least the octet of its ID, so less of the body is left after it
  induction hleft : size - consumed using Nat.strongRecOn generalizing consumed with
  | ind left ih =>
      intro cursor acc
      rcases Nat.lt_trichotomy consumed size with hlt | rfl | hgt
      · cases hid : ElementId.read source cursor with
        | error e stopped =>
            rw [readChildrenFrom, if_pos hlt, Reader.bind_of_error hid]
            exact .ended (.unread hlt hid)
        | ok id opened =>
            rw [readChildrenFrom_of_read hlt hid]
            cases hcall : handle acc id source (entering parent id opened) with
            | error e stopped =>
                rw [Reader.bind_of_error (counting_of_error hcall)]
                exact .ended (.refused hlt hid hcall)
            | ok result after =>
                have hsize := id.size_pos
                rw [Reader.bind_of_ok (counting_of_ok hcall)]
                exact .visited hlt hid hcall (ih _ (by omega) _ rfl after result.1)
      · rw [readChildrenFrom, if_neg (Nat.lt_irrefl _), if_pos rfl]
        exact .ended (.filled rfl)
      · rw [readChildrenFrom, if_neg (by omega), if_neg (by omega)]
        exact .ended (.overrun hgt)

/-- Going through children comes to the same whether or not their bytes are counted. -/
theorem readChildrenFrom_counting (counted : Nat) :
    ∀ (consumed : Nat) (acc : α),
      Prod.fst <$> readChildrenFrom parent size (counting handle) consumed (acc, counted) =
        readChildrenFrom parent size handle consumed acc := by
  intro consumed
  induction hleft : size - consumed using Nat.strongRecOn generalizing consumed counted with
  | ind left ih =>
      intro acc
      rw [readChildrenFrom]
      conv => rhs; rw [readChildrenFrom]
      split
      next hlt =>
        simp only [counting, map_bind, bind_assoc, pure_bind]
        congr 1
        funext id
        have hsize := id.size_pos
        congr 1
        funext _
        congr 1
        funext result
        exact ih _ (by omega) _ _ rfl _
      next hge =>
        split
        next => exact map_pure _ _
        next => rfl

theorem fst_consumeChildren (parent : ElementId) (size : Nat) (init : α)
    (handle : α → ElementId → Reader (α × Nat)) :
    Prod.fst <$> consumeChildren parent size init handle = readChildren parent size init handle :=
  readChildrenFrom_counting 0 0 init

/-- Going through the children of a body tiles it.  The handler is called once for each child, in
the order of the stream, with the ID that was just read and never after the body is used up.  The
run succeeds just when the children fill the body.  Children that reach beyond it are told with
their size, and a failure to read an ID or of the handler is what the run fails with. -/
theorem consumeChildren_tiles_body (hhandle : Truthful source handle) (parent : ElementId)
    (size : Nat) (init : α) (cursor : Cursor) :
    ∃ visits last acc', Visits handle parent source cursor init visits last acc' ∧
      Tiles cursor.pos visits last.pos ∧
      (∀ before visit after, visits = before ++ visit :: after → Visit.total before < size) ∧
      Ends handle parent source size (Visit.total visits) last acc'
        (consumeChildren parent size init handle source cursor) ∧
      (Visit.total visits = size ↔
        consumeChildren parent size init handle source cursor = .ok (acc', size) last ∧
          last.pos = cursor.pos + size) := by
  have hruns : Runs handle parent source size 0 cursor init
      (consumeChildren parent size init handle source cursor) :=
    runs_readChildrenFrom 0 cursor init
  obtain ⟨visits, last, acc', hvisits, hinside, hends⟩ := hruns
  simp only [Nat.zero_add] at hinside hends
  have htiles := hvisits.tiles hhandle
  refine ⟨visits, last, acc', hvisits, htiles, hinside, hends, ?_⟩
  have hstop := htiles.stop_eq
  constructor
  · rintro rfl
    refine ⟨?_, hstop⟩
    generalize consumeChildren parent _ init handle source cursor = result at *
    cases hends with
    | filled => rfl
    | overrun h => omega
    | unread h => omega
    | refused h => omega
  · rintro ⟨-, hpos⟩
    omega

/-- Moves past a child and counts it. -/
def skipping (skipped : Nat) (_ : ElementId) : Reader (Nat × Nat) := do
  let count ← skipRest
  return (skipped + 1, count)

theorem truthful_skipping : Truthful source skipping :=
  truthful_of_spans fun _ _ => spans_skipRest.bind fun _ _ h => Reader.Spans.pure h

/-- A body of two track numbers. -/
def twoTracks : Source := ⟨[0x58, 0xD7, 0x81, 0x01, 0x58, 0xD7, 0x81, 0x03], 0⟩

/-- Two tracks tile a body of eight bytes.  A body that ends in the second one is refused. -/
theorem consumeChildren_tiles_twoTracks :
    Truthful twoTracks skipping ∧
      errorOf? (consumeChildren .silentTracks 6 0 skipping twoTracks ⟨0, #[]⟩) =
        some (.badBodySize ElementId.silentTracks.value 6 8) ∧
      ∃ visits last acc', Visits skipping .silentTracks twoTracks ⟨0, #[]⟩ 0 visits last acc' ∧
        Tiles 0 visits last.pos ∧ Visit.total visits = 8 ∧
        consumeChildren .silentTracks 8 0 skipping twoTracks ⟨0, #[]⟩ = .ok (acc', 8) last := by
  have htruthful : Truthful twoTracks skipping := truthful_skipping
  refine ⟨htruthful, by decide +kernel, ?_⟩
  obtain ⟨visits, last, acc', hvisits, htiles, _, hends, hfills⟩ :=
    consumeChildren_tiles_body htruthful .silentTracks 8 0 ⟨0, #[]⟩
  have hread : errorOf? (consumeChildren .silentTracks 8 0 skipping twoTracks ⟨0, #[]⟩) = none := by
    decide +kernel
  have htotal : Visit.total visits = 8 := by
    generalize consumeChildren .silentTracks 8 0 skipping twoTracks ⟨0, #[]⟩ = result at hread hends
    cases hends with
    | filled h => exact h
    | _ => cases hread
  exact ⟨visits, last, acc', hvisits, htiles, htotal, (hfills.mp htotal).1⟩

end

end Ebml.Element
