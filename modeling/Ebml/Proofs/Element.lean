import Ebml.Element.Children
import Ebml.Proofs.ElementId
import Ebml.Proofs.Stream.Held

/-!
# Elements on streams

The encoding of an element is its ID, its size and its body (`Element.encoding`), and an element
that is written emits its encoding as soon as its body does (`Element.emits_write`).

A reader of children is described by the relation `Element.Traverses`: a way through the children
from one position to another, and what it makes of them.  `Element.readChildren` succeeds along
such a way (`yields_readChildren`), and its success means that there was one
(`traverses_of_readChildren`).
-/

namespace Ebml.Element

variable {ε : Type} [Element ε] {source : Source} {pos : Nat} {sure : Prop}

/-- The bound of the sizes that writers are sure to store.  It is that of the differences between
the sizes of laced frames. -/
def sizeBound : Nat := 0x80000000000000

theorem le_max_of_lt {size : Nat} (h : size < sizeBound) : size ≤ VarInt.max := by
  have hmax : sizeBound ≤ VarInt.max := by decide
  omega

/-- A kind of element whose size is stored as short as possible and whose body is given as bytes. -/
class Encoded (ε : Type) [Element ε] where
  /-- The bytes of the body. -/
  body : ε → List UInt8
  /-- The body is as large as it says. -/
  length_body : ∀ e, (body e).length = bodySize e
  /-- The size is stored in as few octets as possible. -/
  writeSize_eq : ∀ e : ε, writeSize e = VarInt.write (bodySize e) := by exact fun _ => rfl
  /-- The element is as large as its ID, its size and its body. -/
  totalSize_eq : ∀ e : ε,
    totalSize e = (id e).size + VarInt.octetLength (bodySize e) + bodySize e := by
      exact fun _ => rfl

/-- The bytes of an element. -/
def encoding [Encoded ε] (e : ε) : List UInt8 :=
  (Element.id e).encode ++ (VarInt.minimal (bodySize e) ++ Encoded.body e)

theorem length_encoding [Encoded ε] (e : ε) : (encoding e).length = totalSize e := by
  rw [encoding, List.length_append, List.length_append, ElementId.length_encode,
    VarInt.length_minimal, Encoded.length_body, Encoded.totalSize_eq, Nat.add_assoc]

theorem length_children [Encoded ε] (children : List ε) :
    (children.flatMap encoding).length = childrenSize children := by
  rw [List.length_flatMap, childrenSize]
  congr 1
  exact List.map_congr_left fun e _ => length_encoding e

theorem childrenSize_cons (e : ε) (children : List ε) :
    childrenSize (e :: children) = totalSize e + childrenSize children := by
  rw [childrenSize, List.map_cons, List.sum_cons, childrenSize]

theorem bodySize_le_childrenSize [Encoded ε] {children : List ε} {e : ε} (h : e ∈ children) :
    bodySize e ≤ childrenSize children := by
  have hle := VarInt.le_sum_of_mem (List.mem_map_of_mem (f := totalSize) h)
  rw [Encoded.totalSize_eq] at hle
  rw [childrenSize]
  omega

/-- What the bytes of an element are made of. -/
theorem holds_parts [Encoded ε] {e : ε} (h : source.Holds pos (encoding e)) :
    source.Holds pos (Element.id e).encode ∧
      source.Holds (pos + (Element.id e).size) (VarInt.minimal (bodySize e)) ∧
        source.Holds (pos + (Element.id e).size + VarInt.octetLength (bodySize e))
          (Encoded.body e) := by
  have hrest := h.right
  rw [ElementId.length_encode] at hrest
  have hbody := hrest.right
  rw [VarInt.length_minimal] at hbody
  exact ⟨h.left, hrest.left, hbody⟩

/-! ## Writing -/

theorem emits_write [Encoded ε] {e : ε}
    (hbody : Writer.Emits sure (Element.writeBody e) (Encoded.body e) (bodySize e))
    (h : sure → bodySize e ≤ VarInt.max) :
    Writer.Emits sure (write e) (encoding e) (totalSize e) := by
  have hrest := (VarInt.emits_write h).bind (f := fun sizeLength => do
    let body ← Element.writeBody e
    return (Element.id e).size + sizeLength + body) (hbody.map rfl)
  rw [write, writeId, Encoded.writeSize_eq, Encoded.totalSize_eq]
  exact (ElementId.emits_write (Element.id e)).bind hrest

/-- Only a size that can be stored can be written. -/
theorem le_max_of_write [Encoded ε] {e : ε} {sink sink' : Sink} {written : Nat}
    (hok : write e sink = .ok written sink') : bodySize e ≤ VarInt.max := by
  obtain ⟨_, _, _, hok⟩ := Writer.bind_eq_ok.mp hok
  obtain ⟨_, _, hsize, _⟩ := Writer.bind_eq_ok.mp hok
  rw [Encoded.writeSize_eq] at hsize
  exact VarInt.le_max_of_write hsize

/-- The ID of an element is never empty. -/
theorem fillsGap_write (e : ε) : Writer.FillsGap (write e) :=
  (ElementId.fillsGap_write (Element.id e)).bind _

/-! ## Reading -/

/-- An element is located, which does not fail, and then read. -/
theorem fill_eq (e : ε) (source : Source) (cursor : Cursor) :
    (fill : Filling ε Nat) source ⟨e, cursor⟩ =
      (do
        let result ← Filling.lift (read (setOffset e (cursor.pos - (Element.id e).size)))
        Filling.change fun _ => result.1
        return result.2 : Filling ε Nat)
        source ⟨setOffset e (cursor.pos - (Element.id e).size), cursor⟩ := rfl

/-- An element is read into an object as if it had been read where its ID is. -/
theorem fill_eq_ok {e e' : ε} {count : Nat} {cursor cursor' : Cursor} :
    (fill : Filling ε Nat) source ⟨e, cursor⟩ = .ok count ⟨e', cursor'⟩ ↔
      read (setOffset e (cursor.pos - (Element.id e).size)) source cursor =
        .ok (e', count) cursor' := by
  rw [fill_eq, Filling.lift_bind_eq_ok]
  constructor
  · rintro ⟨⟨found, n⟩, cursor₁, hread, hrest⟩
    cases hrest
    exact hread
  · intro hread
    exact ⟨_, _, hread, rfl⟩

theorem fillBody_eq_ok {e e' : ε} {size count : Nat} {cursor cursor' : Cursor} :
    (fillBody size : Filling ε Nat) source ⟨e, cursor⟩ = .ok count ⟨e', cursor'⟩ ↔
      count = size ∧ readBody e size source cursor = .ok e' cursor' := by
  rw [fillBody, Filling.object_bind, Filling.lift_bind_eq_ok]
  constructor
  · rintro ⟨found, cursor₁, hread, hrest⟩
    cases hrest
    exact ⟨rfl, hread⟩
  · rintro ⟨rfl, hread⟩
    exact ⟨_, _, hread, rfl⟩

theorem yields_locate (e : ε) :
    Reader.Yields (locate e) source pos (setOffset e (pos - (Element.id e).size)) pos :=
  Reader.Yields.position.map rfl

/-- The size and the body of an element, read into another one. -/
theorem yields_read {e e' : ε} {size : Nat} (hmax : size ≤ VarInt.max)
    (hsize : source.Holds pos (VarInt.minimal size))
    (hbody : Reader.Yields (readBody (setOffset e (pos - (Element.id e).size)) size) source
      (pos + VarInt.octetLength size) e' (pos + VarInt.octetLength size + size)) :
    Reader.Yields (read e) source pos (e', VarInt.octetLength size + size)
      (pos + VarInt.octetLength size + size) :=
  (yields_locate e).bind ((VarInt.yields_read_minimal hmax hsize).bind (hbody.map rfl))

theorem spans_locate (e : ε) : Reader.Spans (locate e) fun _ n => n = 0 :=
  Reader.Spans.position.bind fun _ _ h => Reader.Spans.pure h

/-- An element that was read moved the reader over the bytes that were counted, if its body did. -/
theorem spans_read
    (hbody : ∀ (e : ε) size, size < UInt64.size →
      Reader.Spans (readBody e size) fun _ n => n = size)
    (e : ε) : Reader.Spans (read e) fun result n => n = result.2 := by
  refine (spans_locate e).bind fun located n hn => ?_
  subst hn
  refine VarInt.spans_read.bind fun result n hn => ?_
  obtain ⟨rfl, hsize⟩ := hn
  refine (hbody located result.1 (VarInt.lt_size hsize)).bind fun e' n hn => Reader.Spans.pure ?_
  subst hn
  simp only [Nat.zero_add, Nat.add_zero]

/-- An element that was read has a size and a body, and these were counted. -/
theorem of_read {e e' : ε} {count : Nat} {cursor cursor' : Cursor}
    (hok : read e source cursor = .ok (e', count) cursor') :
    ∃ size length log, count = length + size ∧
      Reader.Yields VarInt.read source cursor.pos (size, length) (cursor.pos + length) ∧
        readBody (setOffset e (cursor.pos - (Element.id e).size)) size source
          ⟨cursor.pos + length, log⟩ = .ok e' cursor' := by
  obtain ⟨_, _, hlocate, hok⟩ := Reader.bind_eq_ok.mp hok
  cases hlocate
  obtain ⟨⟨size, length⟩, ⟨_, log⟩, hsize, hok⟩ := Reader.bind_eq_ok.mp hok
  obtain ⟨_, _, hbody, hpure⟩ := Reader.bind_eq_ok.mp hok
  cases hpure
  obtain ⟨hpos, hyields⟩ := VarInt.of_read hsize
  dsimp only at hpos
  subst hpos
  exact ⟨size, length, log, rfl, hyields, hbody⟩

theorem spans_skipRest : Reader.Spans skipRest fun count n => n = count := by
  refine VarInt.spans_read.bind fun result n hn => ?_
  obtain ⟨rfl, _⟩ := hn
  refine (Reader.Spans.skip _).bind fun _ n hn => Reader.Spans.pure ?_
  subst hn
  rfl

/-! ## What is counted -/

section

variable {α β : Type} {count : α → Nat} {count' : β → Nat}

/-- A success of the reader began with the size of an element, and the bytes of the size and of the
body are those that its result counts. -/
def Counts (r : Reader α) (count : α → Nat) : Prop :=
  ∀ source cursor a cursor', r source cursor = .ok a cursor' →
    ∃ size length, Reader.Yields VarInt.read source cursor.pos (size, length)
      (cursor.pos + length) ∧ count a = length + size

theorem Counts.map {r : Reader α} {f : α → Reader β} (h : Counts r count)
    (hf : ∀ a, ∃ b, f a = Pure.pure b ∧ count' b = count a) : Counts (r >>= f) count' := by
  intro source cursor b cursor'' hok
  obtain ⟨a, cursor', hr, hrest⟩ := Reader.bind_eq_ok.mp hok
  obtain ⟨b', hpure, hcount⟩ := hf a
  obtain ⟨size, length, hsize, hsum⟩ := h source cursor a cursor' hr
  rw [hpure] at hrest
  cases hrest
  exact ⟨size, length, hsize, hcount.trans hsum⟩

theorem Counts.after_note {f : Unit → Reader β} (event : Event) (h : Counts (f ()) count') :
    Counts (Reader.note event >>= f) count' := by
  intro source cursor b cursor'' hok
  obtain ⟨_, _, hnote, hrest⟩ := Reader.bind_eq_ok.mp hok
  cases hnote
  obtain ⟨size, length, hsize, hsum⟩ := h source _ b cursor'' hrest
  exact ⟨size, length, hsize, hsum⟩

theorem counts_varInt {f : Nat × Nat → Reader β}
    (hf : ∀ size length source cursor b cursor', f (size, length) source cursor = .ok b cursor' →
      count' b = length + size) : Counts (VarInt.read >>= f) count' := by
  intro source cursor b cursor'' hok
  obtain ⟨⟨size, _⟩, cursor', hread, hrest⟩ := Reader.bind_eq_ok.mp hok
  obtain ⟨n, _, ⟨hn, _⟩, _, hlocal⟩ := VarInt.spans_read _ _ _ _ hread
  subst hn
  exact ⟨size, n, hlocal source (.refl _ _ _), hf size n _ _ _ _ hrest⟩

theorem counts_read (e : ε) : Counts (read e) Prod.snd := by
  intro source cursor ⟨e', count⟩ cursor' hok
  obtain ⟨size, length, _, hcount, hsize, _⟩ := of_read hok
  exact ⟨size, length, hsize, hcount⟩

theorem counts_skipRest : Counts skipRest fun count => count :=
  counts_varInt fun size length _ _ _ _ hskip => by
    obtain ⟨_, _, _, hpure⟩ := Reader.bind_eq_ok.mp hskip
    cases hpure
    rfl

theorem counts_throw (e : Error) : Counts (throw e : Reader α) count := by
  intro source cursor a cursor' hok
  cases hok

end

/-! ## Children -/

section

variable {α : Type} {handle : α → ElementId → Reader (α × Nat)} {acc acc' : α}

/-- A way through children from `pos` to `stop`, which turns `acc` into `acc'`. -/
inductive Traverses (handle : α → ElementId → Reader (α × Nat)) (source : Source) :
    (pos : Nat) → (acc : α) → (stop : Nat) → (acc' : α) → Prop
  | nil {pos : Nat} {acc : α} : Traverses handle source pos acc pos acc
  | cons {pos stop count : Nat} {acc next acc' : α} {id : ElementId} :
      Reader.Yields ElementId.read source pos id (pos + id.size) →
      Reader.Yields (handle acc id) source (pos + id.size) (next, count) (pos + id.size + count) →
      Traverses handle source (pos + id.size + count) next stop acc' →
      Traverses handle source pos acc stop acc'

theorem Traverses.le {stop : Nat} {acc acc' : α} (h : Traverses handle source pos acc stop acc') :
    pos ≤ stop := by
  induction h with
  | nil => exact Nat.le_refl _
  | cons _ _ _ ih => omega

theorem Traverses.append {mid stop : Nat} {acc acc' acc'' : α}
    (h₁ : Traverses handle source pos acc mid acc')
    (h₂ : Traverses handle source mid acc' stop acc'') :
    Traverses handle source pos acc stop acc'' := by
  induction h₁ with
  | nil => exact h₂
  | cons hid hchild _ ih => exact .cons hid hchild (ih h₂)

/-- Where there are no bytes there are no children. -/
theorem Traverses.eq_of_nil (h : Traverses handle source pos acc pos acc') : acc' = acc := by
  cases h with
  | nil => rfl
  | @cons _ _ _ _ _ _ id _ _ hrest =>
      have hle := hrest.le
      have hpos := id.size_pos
      omega

/-- A handler that counts deals with a child as with the element that lies there. -/
theorem Traverses.uncons {id : ElementId} {size width stop : Nat}
    (hcounts : ∀ acc id, Counts (handle acc id) Prod.snd)
    (h : Traverses handle source pos acc stop acc') (hne : pos ≠ stop)
    (hid : Reader.Yields ElementId.read source pos id (pos + id.size))
    (hsize : Reader.Yields VarInt.read source (pos + id.size) (size, width)
      (pos + id.size + width)) :
    ∃ next, Reader.Yields (handle acc id) source (pos + id.size) (next, width + size)
        (pos + id.size + (width + size)) ∧
      Traverses handle source (pos + id.size + (width + size)) next stop acc' := by
  cases h with
  | nil => exact absurd rfl hne
  | @cons _ _ count _ next _ found hfound hchild hrest =>
      cases (hid.agree hfound).1
      obtain ⟨_, hok⟩ := hchild #[]
      obtain ⟨_, _, hfound, hcount⟩ := hcounts _ _ _ _ _ _ hok
      cases (hsize.agree hfound).1
      dsimp only at hcount
      subst hcount
      exact ⟨next, hchild, hrest⟩

/-- A single child whose encoding is known. -/
theorem Traverses.child {acc next : α} {id : ElementId} {count : Nat}
    (hid : source.Holds pos id.encode)
    (hchild : Reader.Yields (handle acc id) source (pos + id.size) (next, count)
      (pos + id.size + count)) :
    Traverses handle source pos acc (pos + id.size + count) next :=
  .cons (ElementId.yields_read hid) hchild .nil

/-- A child that is left out where a reader comes to the same without it. -/
theorem Traverses.optional [Encoded ε] {absent : Prop} [Decidable absent] {child : ε}
    (handle : α → ElementId → Reader (α × Nat)) (acc next : α)
    (h : source.Holds pos ((if absent then [] else [child]).flatMap encoding))
    (habsent : absent → acc = next)
    (hpresent : source.Holds pos (encoding child) →
      Traverses handle source pos acc (pos + (encoding child).length) next) :
    Traverses handle source pos acc
      (pos + ((if absent then [] else [child]).flatMap encoding).length) next := by
  split at h
  next ha =>
    rw [if_pos ha, ← habsent ha]
    exact .nil
  next ha =>
    rw [if_neg ha]
    rw [List.flatMap_singleton] at h ⊢
    exact hpresent h

/-- Going through children succeeds if they fill the body. -/
theorem yields_readChildrenFrom {parent : ElementId} {size stop : Nat} {acc acc' : α}
    (h : Traverses handle source pos acc stop acc') :
    ∀ {consumed : Nat}, consumed + stop = size + pos →
      Reader.Yields (readChildrenFrom parent size handle consumed acc) source pos acc' stop := by
  induction h with
  | nil =>
      intro consumed hsum
      rw [readChildrenFrom, if_neg (by omega), if_pos (by omega)]
      exact Reader.Yields.pure _
  | @cons pos stop count acc next acc' id hid hchild hrest ih =>
      intro consumed hsum
      have hle := hrest.le
      have hpos := id.size_pos
      rw [readChildrenFrom, if_pos (by omega)]
      exact hid.bind ((Reader.Yields.note _).bind (hchild.bind (ih (by omega))))

theorem yields_readChildren (parent : ElementId) {size : Nat} {acc acc' : α}
    (h : Traverses handle source pos acc (pos + size) acc') :
    Reader.Yields (readChildren parent size acc handle) source pos acc' (pos + size) :=
  yields_readChildrenFrom h (by omega)

/-- A success of going through children is a way through them that fills the body. -/
theorem traverses_of_readChildrenFrom
    (hhandle : ∀ acc id, Reader.Advances (handle acc id) Prod.snd)
    {parent : ElementId} {size : Nat} :
    ∀ {consumed : Nat} {acc acc' : α} {cursor cursor' : Cursor},
      readChildrenFrom parent size handle consumed acc source cursor = .ok acc' cursor' →
      Traverses handle source cursor.pos acc cursor'.pos acc' ∧
        consumed + cursor'.pos = size + cursor.pos := by
  intro consumed
  -- every child takes at least the octet of its ID, so less of the body is left after it
  induction hleft : size - consumed using Nat.strongRecOn generalizing consumed with
  | ind left ih =>
      intro acc acc' cursor cursor' hok
      rw [readChildrenFrom] at hok
      split at hok
      next hlt =>
        obtain ⟨id, cursor₁, hid, hok⟩ := Reader.bind_eq_ok.mp hok
        obtain ⟨_, cursor₂, hnote, hok⟩ := Reader.bind_eq_ok.mp hok
        cases hnote
        obtain ⟨⟨next, count⟩, cursor₃, hchild, hrest⟩ := Reader.bind_eq_ok.mp hok
        obtain ⟨_, hpos₁, rfl, _, hid⟩ := ElementId.spans_read _ _ _ _ hid
        obtain ⟨hpos₃, hchild⟩ := hhandle _ _ _ _ _ _ hchild
        have hsize := id.size_pos
        obtain ⟨hrest, hsum⟩ := ih _ (by omega) rfl hrest
        simp only [hpos₁] at hpos₃ hchild
        rw [hpos₃] at hrest hsum
        exact ⟨.cons (hid _ (.refl _ _ _)) hchild hrest, by omega⟩
      next hge =>
        split at hok
        next heq =>
          cases hok
          exact ⟨.nil, by omega⟩
        next => cases hok

theorem traverses_of_readChildren
    (hhandle : ∀ acc id, Reader.Advances (handle acc id) Prod.snd)
    {parent : ElementId} {size : Nat} {acc acc' : α} {cursor cursor' : Cursor}
    (hok : readChildren parent size acc handle source cursor = .ok acc' cursor') :
    Traverses handle source cursor.pos acc cursor'.pos acc' ∧ cursor'.pos = cursor.pos + size := by
  obtain ⟨htraverses, hsum⟩ := traverses_of_readChildrenFrom hhandle hok
  exact ⟨htraverses, by omega⟩

theorem spans_readChildrenFrom
    (hhandle : ∀ acc id, Reader.Spans (handle acc id) fun result n => n = result.2)
    (parent : ElementId) (size : Nat) :
    ∀ (consumed : Nat) (acc : α),
      Reader.Spans (readChildrenFrom parent size handle consumed acc) fun _ n =>
        consumed + n = size := by
  intro consumed
  induction hleft : size - consumed using Nat.strongRecOn generalizing consumed with
  | ind left ih =>
      intro acc
      rw [readChildrenFrom]
      split
      next hlt =>
        refine ElementId.spans_read.bind fun id n hn => ?_
        subst hn
        refine (Reader.Spans.note _).bind fun _ n hn => ?_
        subst hn
        refine (hhandle acc id).bind fun result n hn => ?_
        subst hn
        have hsize := id.size_pos
        exact (ih _ (by omega) _ rfl _).mono fun _ n hn => by omega
      next hge =>
        split
        next heq => exact Reader.Spans.pure heq
        next => exact Reader.Spans.throw

/-- Children that were read fill the body. -/
theorem spans_readChildren
    (hhandle : ∀ acc id, Reader.Spans (handle acc id) fun result n => n = result.2)
    (parent : ElementId) (size : Nat) (acc : α) :
    Reader.Spans (readChildren parent size acc handle) fun _ n => n = size :=
  (spans_readChildrenFrom hhandle parent size 0 acc).mono fun _ n h => by omega

end

end Ebml.Element
