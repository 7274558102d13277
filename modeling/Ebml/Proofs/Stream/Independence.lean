import Ebml.Proofs.Stream.Closure
import Ebml.Proofs.Stream.Comparison

/-!
# What makes no difference

A computation `Respects` a relation of states if it makes no difference from which of two related
states it starts: it comes to the same, and leaves states that are related again.  This composes
along `bind`, whatever the relation is.

The relation here is that two states are the same but for what was noted before (`Same`).  Nothing
in the library looks at the log, so every reader and every writer respects this, also when it fails
(`Reader.closed_respects`, `Writer.closed_respects`).  A reader that was at work before can then
only be noticed by where it left the position.
-/

namespace Ebml

variable {σ κ α β : Type}

/-! ## Relations that a computation respects -/

/-- From related states the computation comes to the same, and leaves related states. -/
structure Respects (R : σ → σ → Prop) (x : EStateM Error σ α) : Prop where
  agree : ∀ {s t}, R s t → Agree R R (x s) (x t)

namespace Respects

variable {R : σ → σ → Prop}

theorem pure (a : α) : Respects R (Pure.pure a) := ⟨.ok⟩

theorem throw (e : Error) : Respects R (throw e : EStateM Error σ α) := ⟨.error⟩

theorem bind {x : EStateM Error σ α} {f : α → EStateM Error σ β} (hx : Respects R x)
    (hf : ∀ a, Respects R (f a)) : Respects R (x >>= f) :=
  ⟨fun h => (hx.agree h).bind fun a _ _ hst => (hf a).agree hst⟩

/-- A computation that does not fail. -/
theorem of_ok {x : EStateM Error σ α} {f : σ → α} {g : σ → σ}
    (h : ∀ state, x state = .ok (f state) (g state)) (hf : ∀ {s t}, R s t → f s = f t)
    (hg : ∀ {s t}, R s t → R (g s) (g t)) : Respects R x where
  agree hst := by
    rw [h, h, hf hst]
    exact .ok (hg hst)

end Respects

/-- The same of a computation that is given a stream. -/
def Reader.Respects (R : σ → σ → Prop) (r : ReaderT Source (EStateM Error σ) α) : Prop :=
  ∀ source, Ebml.Respects R (r source)

namespace Reader.Respects

variable {R : σ → σ → Prop}

theorem pure (a : α) :
    Respects R (Pure.pure a : ReaderT Source (EStateM Error σ) α) := fun _ => .pure a

theorem throw (e : Error) :
    Respects R (throw e : ReaderT Source (EStateM Error σ) α) := fun _ => .throw e

theorem bind {r : ReaderT Source (EStateM Error σ) α} {f : α → ReaderT Source (EStateM Error σ) β}
    (hr : Respects R r) (hf : ∀ a, Respects R (f a)) : Respects R (r >>= f) :=
  fun source => (hr source).bind fun a => hf a source

/-- What would come after a failure does not matter. -/
theorem throw_bind {e : Error} {f : α → ReaderT Source (EStateM Error σ) β} :
    Respects R ((MonadExcept.throw e : ReaderT Source (EStateM Error σ) α) >>= f) :=
  fun _ => ⟨.error⟩

end Reader.Respects

/-! ## The same but for the log -/

/-- What has a log beside other things. -/
class Muting (σ : Type) where
  /-- The same with nothing noted. -/
  mute : σ → σ

instance : Muting Cursor := ⟨fun cursor => { cursor with log := #[] }⟩

instance : Muting Sink := ⟨fun sink => { sink with log := #[] }⟩

instance [Muting σ] : Muting (Held κ σ) :=
  ⟨fun state => { state with medium := Muting.mute state.medium }⟩

/-- The states differ in nothing but their logs. -/
def Same [Muting σ] (s t : σ) : Prop := Muting.mute s = Muting.mute t

theorem Same.refl [Muting σ] (s : σ) : Same s s := rfl

theorem Same.trans [Muting σ] {s t u : σ} (h : Same s t) (h' : Same t u) : Same s u :=
  Eq.trans h h'

theorem Cursor.same_iff {s t : Cursor} : Same s t ↔ s.pos = t.pos :=
  (Iff.of_eq (Cursor.mk.injEq ..)).trans (and_iff_left rfl)

theorem Sink.same_iff {s t : Sink} : Same s t ↔ s.stream = t.stream :=
  (Iff.of_eq (Sink.mk.injEq ..)).trans (and_iff_left rfl)

theorem Held.same_iff [Muting σ] {s t : Held κ σ} :
    Same s t ↔ s.object = t.object ∧ Same s.medium t.medium :=
  Iff.of_eq (Held.mk.injEq ..)

/-! ### Reading -/

namespace Reader.Respects

theorem note (event : Event) : Respects Same (Reader.note event) :=
  fun _ => .of_ok (f := fun _ => ()) (fun _ => rfl) (fun _ => rfl) id

theorem position : Respects Same Reader.position :=
  fun _ => .of_ok (f := Cursor.pos) (fun _ => rfl) Cursor.same_iff.mp id

theorem seek (pos : Nat) : Respects Same (Reader.seek pos) :=
  fun _ => .of_ok (f := fun _ => ()) (fun _ => rfl) (fun _ => rfl) fun _ => Cursor.same_iff.mpr rfl

theorem streamLength : Respects Same Reader.streamLength :=
  fun source => .of_ok (f := fun _ => source.bytes.length) (fun _ => rfl) (fun _ => rfl) id

theorem next : Respects Same Reader.next := by
  refine fun source => ⟨fun {s t} h => ?_⟩
  rw [Reader.next, Reader.next, Cursor.same_iff.mp h]
  split
  next => exact .ok (Cursor.same_iff.mpr rfl)
  next => exact .error (Cursor.same_iff.mpr rfl)

theorem take (count : Nat) : Respects Same (Reader.take count) := by
  refine fun source => ⟨fun {s t} h => ?_⟩
  simp only [Reader.take, Cursor.same_iff.mp h]
  split
  next => exact .ok (Cursor.same_iff.mpr rfl)
  next => exact .error (Cursor.same_iff.mpr rfl)

theorem skip (count : Nat) : Respects Same (Reader.skip count) := by
  rw [Reader.skip]
  split
  next => exact throw_bind
  next =>
    refine position.bind fun _ => streamLength.bind fun _ => ?_
    split
    next => exact throw_bind
    next => exact seek _

theorem allocate (size : Nat) : Respects Same (Reader.allocate size) := by
  rw [Reader.allocate]
  split
  next => exact pure ()
  next =>
    have hread : Respects Same (read : Reader Source) :=
      fun source => .of_ok (f := fun _ => source) (fun _ => rfl) (fun _ => rfl) id
    refine hread.bind fun _ => ?_
    dsimp only
    split
    next => exact (note _).bind fun _ => throw_bind
    next =>
      split
      next =>
        refine streamLength.bind fun _ => ?_
        split
        next => exact pure ()
        next => exact throw _
      next => exact pure ()

theorem body (size : Nat) : Respects Same (Reader.body size) :=
  (allocate size).bind fun _ => take size

end Reader.Respects

theorem Reader.closed_respects : Reader.Closed fun r => Reader.Respects Same r where
  pure := .pure
  bind := .bind
  throw _ := .throw _
  note _ := .note _
  position := .position
  seek := .seek
  next := .next
  take := .take
  skip := .skip

/-! ### Writing -/

theorem Writer.respects_note (event : Event) : Respects Same (Writer.note event) :=
  .of_ok (f := fun _ => ()) (fun _ => rfl) (fun _ => rfl) fun h =>
    Sink.same_iff.mpr (Sink.same_iff.mp h)

theorem Writer.respects_emit (bytes : List UInt8) : Respects Same (Writer.emit bytes) where
  agree h := by
    rw [Writer.emit, Writer.emit, Sink.same_iff.mp h, finish, finish]
    split
    next => exact .ok (Sink.same_iff.mpr rfl)
    next => exact .error (Sink.same_iff.mpr rfl)

theorem Writer.closed_respects : Writer.Closed fun w => Respects Same w where
  pure := .pure
  bind := .bind
  throw _ := .throw _
  note _ := respects_note _
  position := .of_ok (f := fun sink => sink.stream.pos) (fun _ => rfl)
    (fun h => congrArg Stream.pos (Sink.same_iff.mp h)) id
  seek pos := .of_ok (f := fun _ => ()) (fun _ => rfl) (fun _ => rfl) fun h =>
    Sink.same_iff.mpr (congrArg (fun stream : Stream => { stream with pos }) (Sink.same_iff.mp h))
  emit := respects_emit

/-! ### Objects beside a stream -/

namespace Respects

variable [Muting σ]

theorem beside {x : EStateM Error σ α} (h : Respects Same x) :
    Respects Same (Ebml.beside x : EStateM Error (Held κ σ) α) where
  agree {s t} hsame := by
    obtain ⟨hobject, hmedium⟩ := Held.same_iff.mp hsame
    have hagree := h.agree hmedium
    rw [Ebml.beside, Ebml.beside]
    generalize x s.medium = first at hagree ⊢
    generalize x t.medium = other at hagree ⊢
    cases hagree with
    | ok hst => exact .ok (Held.same_iff.mpr ⟨hobject, hst⟩)
    | error hst => exact .error (Held.same_iff.mpr ⟨hobject, hst⟩)

theorem held : Respects Same (held : EStateM Error (Held κ σ) κ) :=
  .of_ok (f := Held.object) (fun _ => rfl) (fun h => (Held.same_iff.mp h).1) id

theorem change (f : κ → κ) : Respects Same (change f : EStateM Error (Held κ σ) Unit) :=
  .of_ok (f := fun _ => ()) (fun _ => rfl) (fun _ => rfl) fun h =>
    Held.same_iff.mpr ⟨congrArg f (Held.same_iff.mp h).1, (Held.same_iff.mp h).2⟩

end Respects

end Ebml
