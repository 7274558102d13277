import Ebml.Proofs.Element.RoundTrip
import Ebml.Proofs.Replacement

/-!
# Offsets that lead back to an element

An element that was read records where its ID is.  Whoever goes there and reads an element of the
kind finds the same again, offset and all (`Element.Refound`).  This needs of a kind only that its
body is read alike whatever is read into (`refound_of_read`).

What a master element records is that of its children.  `Element.Sequence` lists the children that
lie in a body, with their positions.  Where a reader remembers the last child with some ID
(`Remembers`), it has what is at the last position in that list with this ID
(`Remembers.of_traverses`).
-/

namespace Ebml.Element

variable {ε : Type} [Element ε] {source : Source} {pos : Nat}

/-- Goes to a position and reads the ID there, and what follows it into an object. -/
def readAt (pos : Nat) : Filling ε (ElementId × Nat) := do
  Filling.lift (Reader.seek pos)
  readFrom

/-- The element is found at its offset by whoever reads an element of the kind there, whatever is
read into and wherever the reader was. -/
def Refound (source : Source) (e : ε) : Prop :=
  ∀ (other : ε) (cursor : Cursor), ∃ count cursor',
    (readAt (offset e) : Filling ε (ElementId × Nat)) source ⟨other, cursor⟩ =
      .ok (id e, count) ⟨e, cursor'⟩

section

variable [Fresh ε]

/-- Elements of a kind are read alike, whatever they are read into. -/
theorem read_congr (e e' : ε) : read e = read e' := by
  have hlocate : ∀ start size, readBody (setOffset e (start - (id e).size)) size =
      readBody (setOffset e' (start - (id e').size)) size := by
    intro start size
    rw [Fresh.id_eq e e']
    exact readBody_congr (by rw [Fresh.offset_setOffset, Fresh.offset_setOffset]) size
  simp only [read, locate, bind_assoc, pure_bind, hlocate]

/-- The offset stays when the body is read. -/
theorem offset_of_readBody {e e' : ε} {size : Nat} {cursor cursor' : Cursor}
    (hok : readBody e size source cursor = .ok e' cursor') : offset e' = offset e := by
  rw [Fresh.readBody_eq e e] at hok
  obtain ⟨_, _, rfl⟩ := Reader.map_eq_ok.mp hok
  exact Fresh.offset_setOffset _ _

/-- An element that was read has the position of its ID recorded, and is found there again. -/
theorem refound_of_read {kind e : ε} {count stop : Nat}
    (hid : Reader.Yields ElementId.read source pos (id kind) (pos + (id kind).size))
    (hread : Reader.Yields (read kind) source (pos + (id kind).size) (e, count) stop) :
    offset e = pos ∧ Refound source e := by
  have hoffset : offset e = pos := by
    obtain ⟨_, hok⟩ := hread #[]
    obtain ⟨_, _, _, _, _, hbody⟩ := of_read hok
    rw [offset_of_readBody hbody, Fresh.offset_setOffset, Nat.add_sub_cancel]
  refine ⟨hoffset, fun other cursor => ?_⟩
  obtain ⟨idLog, hid⟩ := hid cursor.log
  obtain ⟨log, hread⟩ := hread idLog
  rw [read_congr kind (setOffset other (pos + (id kind).size - (id other).size))] at hread
  rw [Fresh.id_eq e kind, hoffset]
  exact ⟨count, ⟨stop, log⟩, Filling.lift_bind_eq_ok.mpr ⟨_, ⟨pos, cursor.log⟩, rfl,
    Filling.lift_bind_eq_ok.mpr ⟨_, _, hid,
      Reader.bind_eq_ok.mpr ⟨_, _, fill_eq_ok.mpr hread, rfl⟩⟩⟩⟩

end

/-! ## Children and their positions -/

/-- From `pos` to `stop` there are elements one after another, with these IDs at these positions. -/
inductive Sequence (source : Source) : (pos stop : Nat) → List (ElementId × Nat) → Prop
  | nil {pos : Nat} : Sequence source pos pos []
  | cons {pos stop size length : Nat} {id : ElementId} {children : List (ElementId × Nat)} :
      Reader.Yields ElementId.read source pos id (pos + id.size) →
      Reader.Yields VarInt.read source (pos + id.size) (size, length) (pos + id.size + length) →
      Sequence source (pos + id.size + (length + size)) stop children →
      Sequence source pos stop ((id, pos) :: children)

theorem Sequence.le {stop : Nat} {children : List (ElementId × Nat)}
    (h : Sequence source pos stop children) : pos ≤ stop := by
  induction h with
  | nil => exact Nat.le_refl _
  | cons _ _ _ ih => omega

/-- Where the last child with an ID is. -/
def lastStart (id : ElementId) : List (ElementId × Nat) → Option Nat
  | [] => none
  | child :: children => (lastStart id children).or (if child.1 = id then some child.2 else none)

section

variable {α β : Type} {handle : α → ElementId → Reader (α × Nat)} {acc acc' : α} {stop : Nat}

/-- Children that a reader got through are a sequence of elements. -/
theorem sequence_of_traverses (hcounts : ∀ acc id, Counts (handle acc id) Prod.snd)
    (h : Traverses handle source pos acc stop acc') :
    ∃ children, Sequence source pos stop children := by
  induction h with
  | nil => exact ⟨[], .nil⟩
  | @cons pos stop count acc next acc' id hid hchild _ ih =>
      obtain ⟨children, hrest⟩ := ih
      obtain ⟨_, hok⟩ := hchild #[]
      obtain ⟨size, length, hsize, hcount⟩ := hcounts _ _ _ _ _ _ hok
      dsimp only at hcount
      subst hcount
      exact ⟨(id, pos) :: children, .cons hid hsize hrest⟩

/-- Of the children with the ID `id`, the reader remembers the last one: by `Found`, what `view`
then shows is told by the position of the child. -/
structure Remembers (source : Source) (id : ElementId) (handle : α → ElementId → Reader (α × Nat))
    (view : α → β) (Found : Nat → β → Prop) : Prop where
  /-- A child has a size, and that is counted. -/
  counts : ∀ acc found, Counts (handle acc found) Prod.snd
  /-- A child with the ID is shown from then on. -/
  item : ∀ {pos acc next count stop},
    Reader.Yields ElementId.read source pos id (pos + id.size) →
    Reader.Yields (handle acc id) source (pos + id.size) (next, count) stop →
    Found pos (view next)
  /-- Any other child changes nothing. -/
  other : ∀ {acc next found count cursor cursor'}, found ≠ id →
    handle acc found source cursor = .ok (next, count) cursor' → view next = view acc

/-- After all the children, the last one with the ID is shown, if there is one. -/
theorem Remembers.of_traverses {id : ElementId} {view : α → β} {Found : Nat → β → Prop}
    (h : Remembers source id handle view Found)
    (htraverses : Traverses handle source pos acc stop acc')
    {children : List (ElementId × Nat)} (hsequence : Sequence source pos stop children) :
    match lastStart id children with
    | none => view acc' = view acc
    | some start => Found start (view acc') := by
  induction hsequence generalizing acc with
  | nil => exact congrArg view htraverses.eq_of_nil
  | @cons pos stop size length found children hid hsize hrest ih =>
      have hle := hrest.le
      have hpos := found.size_pos
      obtain ⟨next, hchild, htraverses⟩ := htraverses.uncons h.counts (by omega) hid hsize
      have hlast := ih htraverses
      rw [lastStart]
      cases hstart : lastStart id children with
      | some start =>
          rw [hstart] at hlast
          exact hlast
      | none =>
          rw [hstart] at hlast
          dsimp only at hlast
          by_cases hfound : found = id
          · subst hfound
            rw [if_pos rfl, hlast]
            exact h.item hid hchild
          · obtain ⟨_, hok⟩ := hchild #[]
            rw [if_neg hfound]
            exact hlast.trans (h.other hfound hok)

end

end Ebml.Element
