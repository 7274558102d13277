import Ebml.Proofs.Element

/-!
# Children of one kind

Where a child may be repeated, what a reader makes of the children depends on all those of a kind,
in order.  `Element.Lists` says what is in the stream: between two positions there are elements one
after another, and of those with a given ID the bodies are what they are said to be.  There is one
such list at most (`Lists.unique`).  A reader that looks at the children of that kind alone
(`Collects`) makes of all the children what the list tells (`Collects.of_readChildren`).
-/

namespace Ebml.Element

variable {α β γ : Type} {source : Source} {id : ElementId} {P : Nat → Nat → α → Prop}
  {pos stop : Nat} {items : List α}

/-- There are elements from `pos` to `stop`, and of those with the ID `id`, the bodies are `items`,
in order.  By `P`, a body is told by its position and its size. -/
inductive Lists (source : Source) (id : ElementId) (P : Nat → Nat → α → Prop) :
    (pos stop : Nat) → List α → Prop
  | nil {pos : Nat} : Lists source id P pos pos []
  | item {pos stop size length : Nat} {a : α} {items : List α} :
      Reader.Yields ElementId.read source pos id (pos + id.size) →
      Reader.Yields VarInt.read source (pos + id.size) (size, length) (pos + id.size + length) →
      P (pos + id.size + length) size a →
      Lists source id P (pos + id.size + (length + size)) stop items →
      Lists source id P pos stop (a :: items)
  | other {pos stop size length : Nat} {found : ElementId} {items : List α} :
      found ≠ id →
      Reader.Yields ElementId.read source pos found (pos + found.size) →
      Reader.Yields VarInt.read source (pos + found.size) (size, length)
        (pos + found.size + length) →
      Lists source id P (pos + found.size + (length + size)) stop items →
      Lists source id P pos stop items

/-- `P`, which tells a body by its position and its size, holds of the body of the element whose ID
ends at `pos` or, where a size is given, of the body of that size at `pos`. -/
def Placed (source : Source) (P : Nat → Nat → Prop) (pos : Nat) : Option Nat → Prop
  | none => ∃ size length, Reader.Yields VarInt.read source pos (size, length) (pos + length) ∧
      P (pos + length) size
  | some size => P pos size

namespace Lists

theorem le (h : Lists source id P pos stop items) : pos ≤ stop := by
  induction h with
  | nil => exact Nat.le_refl _
  | item _ _ _ _ ih => omega
  | other _ _ _ _ ih => omega

/-- Every item is there somewhere. -/
theorem exists_of_mem (h : Lists source id P pos stop items) {a : α} (hm : a ∈ items) :
    ∃ pos size, P pos size a := by
  induction h with
  | nil => cases hm
  | item _ _ hp _ ih =>
      rcases List.mem_cons.mp hm with rfl | hm
      · exact ⟨_, _, hp⟩
      · exact ih hm
  | other _ _ _ _ ih => exact ih hm

/-- The stream tells which items there are. -/
theorem unique (hP : ∀ {pos size a b}, P pos size a → P pos size b → a = b) {items' : List α}
    (h : Lists source id P pos stop items) (h' : Lists source id P pos stop items') :
    items = items' := by
  induction h generalizing items' with
  | @nil pos =>
      cases h' with
      | nil => rfl
      | item _ _ _ hrest =>
          have hle := hrest.le
          have hsize := id.size_pos
          omega
      | @other _ _ _ _ found _ _ _ _ hrest =>
          have hle := hrest.le
          have hsize := found.size_pos
          omega
  | item hid hsize hp hrest ih =>
      cases h' with
      | nil =>
          have hle := hrest.le
          have hpos := id.size_pos
          omega
      | item hid' hsize' hp' hrest' =>
          cases (hsize.agree hsize').1
          rw [hP hp hp', ih hrest']
      | other hne hid' => exact absurd (hid.agree hid').1 hne
  | @other _ _ _ _ found _ hne hid hsize hrest ih =>
      cases h' with
      | nil =>
          have hle := hrest.le
          have hpos := found.size_pos
          omega
      | item hid' => exact absurd (hid'.agree hid).1 hne
      | other hne' hid' hsize' hrest' =>
          cases (hid.agree hid').1
          cases (hsize.agree hsize').1
          exact ih hrest'

end Lists

/-- The reader of a child does with one of ID `id` what its body tells by `P`.  What is looked at by
`view` changes by `step`, wherever the child is, and children with other IDs leave it as it is. -/
structure Collects (source : Source) (id : ElementId) (P : Nat → Nat → α → Prop)
    (handle : β → ElementId → Reader (β × Nat)) (view : β → γ) (step : γ → α → γ) : Prop where
  /-- The child takes up what it counts. -/
  spans : ∀ acc found, Reader.Spans (handle acc found) fun result n => n = result.2
  /-- It has a size, and that is counted. -/
  counts : ∀ acc found, Counts (handle acc found) Prod.snd
  /-- A child with the ID has a body that tells what changes. -/
  item : ∀ {acc next count cursor cursor'},
    handle acc id source cursor = .ok (next, count) cursor' →
      ∃ size length a,
        Reader.Yields VarInt.read source cursor.pos (size, length) (cursor.pos + length) ∧
          count = length + size ∧ P (cursor.pos + length) size a ∧ view next = step (view acc) a
  /-- Any other child changes nothing. -/
  other : ∀ {acc next found count cursor cursor'}, found ≠ id →
    handle acc found source cursor = .ok (next, count) cursor' → view next = view acc

namespace Collects

variable {handle : β → ElementId → Reader (β × Nat)} {view : β → γ} {step : γ → α → γ}
  {acc acc' : β}

/-- What is made of the children is told by the items. -/
theorem of_traverses (h : Collects source id P handle view step)
    (htraverses : Traverses handle source pos acc stop acc') :
    ∃ items, Lists source id P pos stop items ∧ view acc' = items.foldl step (view acc) := by
  induction htraverses with
  | nil => exact ⟨[], .nil, rfl⟩
  | @cons pos stop count acc next acc' found hid hchild _ ih =>
      obtain ⟨items, hrest, hview⟩ := ih
      obtain ⟨_, hok⟩ := hchild #[]
      by_cases hfound : found = id
      · subst hfound
        obtain ⟨size, length, a, hsize, rfl, hp, hstep⟩ := h.item hok
        exact ⟨a :: items, .item hid hsize hp hrest, by rw [hview, hstep, List.foldl_cons]⟩
      · obtain ⟨size, length, hsize, hcount⟩ := h.counts _ _ _ _ _ _ hok
        dsimp only at hcount
        subst hcount
        exact ⟨items, .other hfound hid hsize hrest, by rw [hview, h.other hfound hok]⟩

theorem of_readChildren (h : Collects source id P handle view step) {parent : ElementId}
    {size : Nat} {cursor cursor' : Cursor}
    (hok : readChildren parent size acc handle source cursor = .ok acc' cursor') :
    ∃ items, Lists source id P cursor.pos (cursor.pos + size) items ∧
      view acc' = items.foldl step (view acc) := by
  obtain ⟨htraverses, hstop⟩ := traverses_of_readChildren
    (fun acc found => Reader.Advances.of_spans (h.spans acc found)) hok
  rw [← hstop]
  exact h.of_traverses htraverses

end Collects

/-- Where each item replaces what there was before, the last one counts. -/
theorem foldl_last (f : α → γ) (init : γ) (items : List α) :
    items.foldl (fun _ a => f a) init = (items.getLast?.map f).getD init := by
  induction items generalizing init with
  | nil => rfl
  | cons a items ih =>
      rw [List.foldl_cons, ih, List.getLast?_cons]
      cases items.getLast? with
      | none => rfl
      | some last => rfl

end Ebml.Element
