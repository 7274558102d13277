import Ebml.Proofs.Stream.Reading
import Ebml.Stream.Held

/-!
# Reading into an object

What reads into an object is a sequence of readers, and of changes of the object between them.  A
reader leaves the object as it is (`Filling.lift_bind_eq_ok`), and a change leaves the stream.
-/

namespace Ebml.Filling

variable {κ α β : Type} {reader : Reader α} {source : Source} {c c' : κ} {cursor cursor' : Cursor}

theorem lift_eq_ok {a : α} :
    (lift reader : Filling κ α) source ⟨c, cursor⟩ = .ok a ⟨c', cursor'⟩ ↔
      reader source cursor = .ok a cursor' ∧ c = c' := by
  simp only [lift, beside]
  cases reader source cursor with
  | ok a medium =>
      rw [EStateM.Result.ok.injEq, EStateM.Result.ok.injEq, Held.mk.injEq]
      exact ⟨fun ⟨ha, hc, hm⟩ => ⟨⟨ha, hm⟩, hc⟩, fun ⟨⟨ha, hm⟩, hc⟩ => ⟨ha, hc, hm⟩⟩
  | error e medium => simp

theorem lift_of_error {e : Error} (h : reader source cursor = .error e cursor') :
    (lift reader : Filling κ α) source ⟨c, cursor⟩ = .error e ⟨c, cursor'⟩ := by
  simp only [lift, beside, h]

theorem lift_bind_of_ok {a : α} {f : α → Filling κ β} (h : reader source cursor = .ok a cursor') :
    (lift reader >>= f) source ⟨c, cursor⟩ = f a source ⟨c, cursor'⟩ :=
  Reader.bind_of_ok (lift_eq_ok.mpr ⟨h, rfl⟩)

theorem lift_bind_of_error {e : Error} {f : α → Filling κ β}
    (h : reader source cursor = .error e cursor') :
    (lift reader >>= f) source ⟨c, cursor⟩ = .error e ⟨c, cursor'⟩ :=
  Reader.bind_of_error (lift_of_error h)

/-- What comes after a reader goes on with the object as it was. -/
theorem lift_bind_eq_ok {f : α → Filling κ β} {b : β} {state : Held κ Cursor} :
    (lift reader >>= f) source ⟨c, cursor⟩ = .ok b state ↔
      ∃ a cursor', reader source cursor = .ok a cursor' ∧
        f a source ⟨c, cursor'⟩ = .ok b state := by
  rw [Reader.bind_eq_ok]
  constructor
  · rintro ⟨a, ⟨_, cursor'⟩, hlift, hok⟩
    obtain ⟨hreader, rfl⟩ := lift_eq_ok.mp hlift
    exact ⟨a, cursor', hreader, hok⟩
  · rintro ⟨a, cursor', hreader, hok⟩
    exact ⟨a, ⟨c, cursor'⟩, lift_eq_ok.mpr ⟨hreader, rfl⟩, hok⟩

theorem object_bind (f : κ → Filling κ β) :
    (object >>= f) source ⟨c, cursor⟩ = f c source ⟨c, cursor⟩ := rfl

theorem change_bind (g : κ → κ) (f : Unit → Filling κ β) :
    (change g >>= f) source ⟨c, cursor⟩ = f () source ⟨g c, cursor⟩ := rfl

/-- A success moves over `n` bytes such that `P` holds of the result and `n`, and depends on the
object and these bytes alone.  So any stream that agrees on them gives the same result and the same
object. -/
def Spans (f : Filling κ α) (P : α → Nat → Prop) : Prop :=
  ∀ source c cursor a c' cursor', f source ⟨c, cursor⟩ = .ok a ⟨c', cursor'⟩ →
    ∃ n, cursor'.pos = cursor.pos + n ∧ P a n ∧
      (source.Admits cursor.pos → source.Admits (cursor.pos + n)) ∧
        ∀ other, source.Agrees other cursor.pos n → ∀ log, ∃ log',
          f other ⟨c, ⟨cursor.pos, log⟩⟩ = .ok a ⟨c', ⟨cursor.pos + n, log'⟩⟩

end Ebml.Filling
