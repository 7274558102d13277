import Ebml.Proofs.Stream.Conduct

/-!
# Properties that composition keeps

Much of what can be said of a reader holds because it holds of the steps that the reader is put
together from.  Such a property is `Reader.Closed`: it composes along `bind`, and it holds of the
steps that look at the stream, of notes and of failures.  Only plain notes and failures count, so
that being plain is one of these properties (`Reader.closed_plain`).  A body that is read into
memory does not count either, since there is more to it.

So the readers of the library are gone through once, for all properties of this kind, and a new
property has to be proved of the steps alone.  `Filling.Closed` is the same for what reads into an
object, and `Writer.Closed` for what writes.
-/

namespace Ebml

variable {α β κ : Type}

/-- An error of the data: nothing was asked of the stream that it could not do, and it does not tell
whether a cluster is open. -/
abbrev Error.OfData (e : Error) : Prop := (e.isOpenness || e.isStreamFault) = false

theorem Error.OfData.neutral {e : Error} (h : e.OfData) : e.Neutral :=
  (Bool.or_eq_false_iff.mp h).1

/-- A property of readers that composes. -/
structure Reader.Composes (C : ∀ {α : Type}, Reader α → Prop) : Prop where
  pure : ∀ {α : Type} (a : α), C (Pure.pure a : Reader α)
  bind : ∀ {α β : Type} {r : Reader α} {f : α → Reader β}, C r → (∀ a, C (f a)) → C (r >>= f)

/-- A property of readers that composes, and holds of every step but for reading a body. -/
structure Reader.Closed (C : ∀ {α : Type}, Reader α → Prop) : Prop extends Reader.Composes C where
  throw : ∀ {α : Type} {e : Error}, e.OfData → C (MonadExcept.throw e : Reader α)
  note : ∀ {event : Event}, event.isPlain → C (Reader.note event)
  position : C Reader.position
  seek : ∀ pos, C (Reader.seek pos)
  next : C Reader.next
  take : ∀ count, C (Reader.take count)
  skip : ∀ count, C (Reader.skip count)

namespace Reader.Closed

variable {C : ∀ {α : Type}, Reader α → Prop}

/-- What would come after a failure does not matter. -/
theorem throw_bind (hC : Closed C) {e : Error} {f : α → Reader β} (h : e.OfData) :
    C ((MonadExcept.throw e : Reader α) >>= f) := hC.throw h

theorem ofExcept (hC : Closed C) {x : Except Error α} (h : ∀ {e}, x = .error e → e.OfData) :
    C (Reader.ofExcept x) := by
  cases x with
  | ok a => exact hC.pure a
  | error e => exact hC.throw (h rfl)

end Reader.Closed

/-- A property `D` of what reads into an object that composes, and holds of readers of which `C`
holds.  How the object may be changed is not said. -/
structure Filling.Closed (C : ∀ {α : Type}, Reader α → Prop)
    (D : ∀ {α : Type}, Filling κ α → Prop) : Prop where
  pure : ∀ {α : Type} (a : α), D (Pure.pure a : Filling κ α)
  bind : ∀ {α β : Type} {f : Filling κ α} {g : α → Filling κ β}, D f → (∀ a, D (g a)) → D (f >>= g)
  throw : ∀ {α : Type} {e : Error}, e.OfData → D (MonadExcept.throw e : Filling κ α)
  object : D (Filling.object : Filling κ κ)
  lift : ∀ {α : Type} {reader : Reader α}, C reader → D (Filling.lift reader : Filling κ α)

/-- What would come after a failure does not matter. -/
theorem Filling.Closed.throw_bind {C : ∀ {α : Type}, Reader α → Prop}
    {D : ∀ {α : Type}, Filling κ α → Prop} (hD : Closed C D) {e : Error} {g : α → Filling κ β}
    (h : e.OfData) : D ((MonadExcept.throw e : Filling κ α) >>= g) := hD.throw h

theorem Reader.closed_plain : Reader.Closed Reader.Plain where
  pure := .pure
  bind := .bind
  throw h := .throw h.neutral
  note := .note
  position := .position
  seek := .seek
  next := .next
  take := .take
  skip := .skip

/-! ## Writing -/

/-- A property of writers that composes, and holds of every step. -/
structure Writer.Closed (C : ∀ {α : Type}, Writer α → Prop) : Prop where
  pure : ∀ {α : Type} (a : α), C (Pure.pure a : Writer α)
  bind : ∀ {α β : Type} {w : Writer α} {f : α → Writer β}, C w → (∀ a, C (f a)) → C (w >>= f)
  throw : ∀ {α : Type} {e : Error}, e.Neutral → C (MonadExcept.throw e : Writer α)
  note : ∀ {event : Event}, event.isPlain → C (Writer.note event)
  position : C Writer.position
  seek : ∀ pos, C (Writer.seek pos)
  emit : ∀ bytes, C (Writer.emit bytes)

namespace Writer.Closed

variable {C : ∀ {α : Type}, Writer α → Prop}

theorem ofExcept (hC : Closed C) {x : Except Error α} (h : ∀ {e}, x = .error e → e.Neutral) :
    C (Writer.ofExcept x) := by
  cases x with
  | ok a => exact hC.pure a
  | error e => exact hC.throw (h rfl)

theorem emitCounted (hC : Closed C) (bytes : List UInt8) : C (Writer.emitCounted bytes) :=
  hC.bind (hC.emit bytes) fun _ => hC.pure _

theorem each (hC : Closed C) {write : α → Writer Nat} :
    ∀ {items : List α}, (∀ item ∈ items, C (write item)) → C (Writer.each write items)
  | [], _ => hC.pure 0
  | item :: _, h =>
      hC.bind (h item (List.mem_cons_self ..)) fun _ =>
        hC.bind (each hC fun other hm => h other (List.mem_cons_of_mem item hm)) fun _ => hC.pure _

end Writer.Closed

theorem Writer.closed_plain : Writer.Closed Writer.Plain where
  pure := .pure
  bind := .bind
  throw := .throw
  note := .note
  position := .position
  seek := .seek
  emit := .emit

end Ebml
