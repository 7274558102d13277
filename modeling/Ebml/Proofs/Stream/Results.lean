import Ebml.Proofs.Stream.Reading

/-!
# What the result of a reader tells

A reader checks what it reads before it returns it.  So something can be said of its result even
where nothing is known of the stream (`Reader.Ensures`).  Whoever goes on with the result may rely
on it, which is how such statements compose along `bind`.
-/

namespace Ebml.Reader

variable {α β : Type} {source : Source}

/-- Whatever the reader comes to in the stream, wherever it starts, `P` holds of it. -/
def Ensures (r : Reader α) (source : Source) (P : α → Prop) : Prop :=
  ∀ cursor a cursor', r source cursor = .ok a cursor' → P a

namespace Ensures

variable {r : Reader α} {P Q : α → Prop}

theorem any : Ensures r source fun _ => True := fun _ _ _ _ => trivial

theorem mono (h : Ensures r source P) (himp : ∀ a, P a → Q a) : Ensures r source Q :=
  fun cursor a cursor' hok => himp a (h cursor a cursor' hok)

theorem pure {a : α} (h : P a) : Ensures (Pure.pure a) source P := by
  intro cursor b cursor' hok
  cases hok
  exact h

theorem throw {e : Error} : Ensures (throw e : Reader α) source P := by
  intro cursor a cursor' hok
  cases hok

theorem bind {f : α → Reader β} {R : β → Prop} (hr : Ensures r source P)
    (hf : ∀ a, P a → Ensures (f a) source R) : Ensures (r >>= f) source R := by
  intro cursor b cursor'' hok
  obtain ⟨a, cursor', h₁, h₂⟩ := bind_eq_ok.mp hok
  exact hf a (hr cursor a cursor' h₁) cursor' b cursor'' h₂

/-- What would come after a failure does not matter. -/
theorem throw_bind {e : Error} {f : α → Reader β} {R : β → Prop} :
    Ensures ((MonadExcept.throw e : Reader α) >>= f) source R :=
  throw.bind (P := fun _ => False) fun _ h => h.elim

/-- What a reader tells of its result and the bytes that it moved over, it tells of its result. -/
theorem of_spans {S : α → Nat → Prop} (h : Spans r S) : Ensures r source fun a => ∃ n, S a n := by
  intro cursor a cursor' hok
  obtain ⟨n, _, hs, _⟩ := h source cursor a cursor' hok
  exact ⟨n, hs⟩

theorem ofExcept (x : Except Error α) : Ensures (Reader.ofExcept x) source fun a => x = .ok a :=
  (of_spans (Spans.ofExcept x)).mono fun _ ⟨_, h⟩ => h.2

/-- A body that was read into memory has the size that was asked for, and keeps to the limit. -/
theorem body (size : Nat) :
    Ensures (Reader.body size) source fun bytes =>
      bytes.length = size ∧ size ≤ source.limit := by
  intro cursor bytes cursor' hok
  obtain ⟨_, _, ⟨_, hlength⟩, _⟩ := Spans.body size source cursor bytes cursor' hok
  obtain ⟨_, _, hallocate, _⟩ := bind_eq_ok.mp hok
  obtain ⟨haffords, _⟩ := allocate_eq_ok.mp hallocate
  refine ⟨hlength, ?_⟩
  rcases haffords with hzero | ⟨hlimit, _⟩
  · rw [hzero]
    exact Nat.zero_le _
  · exact hlimit

end Ensures

end Ebml.Reader
