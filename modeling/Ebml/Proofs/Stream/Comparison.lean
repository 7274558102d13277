import Ebml.Proofs.Stream.Assignment
import Ebml.Proofs.Stream.Conduct

/-!
# Two computations side by side

What a computation depends on shows when it is made twice from states that differ.  `Agree S E` says
of two outcomes that they are one to whoever called: both returned the same value, or both failed
with the same error.  The states that are left are related by `S` in the one case, and by `E` in the
other.

Of two computations that read into objects, `Filling.Alike` says that they agree wherever they
start, that they leave the stream side alike even if they fail, and that the objects they leave are
related if they succeed.  It composes along the readers, which must be the same, and the changes of
the objects, which need not be.
-/

namespace Ebml

variable {σ τ κ α β : Type}

/-- Both outcomes are successes with the same value, or failures with the same error. -/
inductive Agree (S E : σ → τ → Prop) :
    EStateM.Result Error σ α → EStateM.Result Error τ α → Prop
  /-- Both succeeded. -/
  | ok {a : α} {s : σ} {t : τ} : S s t → Agree S E (.ok a s) (.ok a t)
  /-- Both failed. -/
  | error {e : Error} {s : σ} {t : τ} : E s t → Agree S E (.error e s) (.error e t)

theorem Agree.mono {S E S' E' : σ → τ → Prop} {x : EStateM.Result Error σ α}
    {y : EStateM.Result Error τ α} (h : Agree S E x y) (hS : ∀ {s t}, S s t → S' s t)
    (hE : ∀ {s t}, E s t → E' s t) : Agree S' E' x y := by
  cases h with
  | ok hst => exact .ok (hS hst)
  | error hst => exact .error (hE hst)

/-- Computations that agree may be followed by any that agree on the states that are left. -/
theorem Agree.bind {S E S' : σ → τ → Prop} {x : EStateM Error σ α} {y : EStateM Error τ α}
    {f : α → EStateM Error σ β} {g : α → EStateM Error τ β} {s : σ} {t : τ}
    (h : Agree S E (x s) (y t)) (hrest : ∀ a s t, S s t → Agree S' E (f a s) (g a t)) :
    Agree S' E ((x >>= f) s) ((y >>= g) t) := by
  show Agree S' E (EStateM.bind x f s) (EStateM.bind y g t)
  rw [EStateM.bind, EStateM.bind]
  generalize x s = first at h ⊢
  generalize y t = other at h ⊢
  cases h with
  | ok hst => exact hrest _ _ _ hst
  | error hst => exact .error hst

/-- What a computation tells whoever called it. -/
def answerOf : EStateM.Result Error σ α → Except Error α
  | .ok a _ => .ok a
  | .error e _ => .error e

theorem Agree.answer_eq {S E : σ → τ → Prop} {x : EStateM.Result Error σ α}
    {y : EStateM.Result Error τ α} (h : Agree S E x y) : answerOf x = answerOf y := by
  cases h with
  | ok => rfl
  | error => rfl

theorem Agree.state {S : σ → σ → Prop} {x y : EStateM.Result Error σ α} (h : Agree S S x y) :
    S (stateOf x) (stateOf y) := by
  cases h with
  | ok hst => exact hst
  | error hst => exact hst

namespace Filling

/-- From the objects `c` and `d`, wherever they start, both computations come to the same, and leave
the stream side alike.  If they succeed, the objects that they leave are related. -/
def Alike (R : κ → κ → Prop) (c d : κ) (f g : Filling κ α) : Prop :=
  ∀ source cursor,
    Agree (fun s t => R s.object t.object ∧ s.medium = t.medium) (fun s t => s.medium = t.medium)
      (f source ⟨c, cursor⟩) (g source ⟨d, cursor⟩)

namespace Alike

variable {R : κ → κ → Prop} {c d : κ}

theorem pure {a : α} (h : R c d) : Alike R c d (Pure.pure a) (Pure.pure a) :=
  fun _ _ => .ok ⟨h, rfl⟩

/-- What would come after a failure does not matter. -/
theorem throw_bind {e : Error} {f g : α → Filling κ β} :
    Alike R c d ((MonadExcept.throw e : Filling κ α) >>= f) (MonadExcept.throw e >>= g) :=
  fun _ _ => .error rfl

theorem object_bind {f g : κ → Filling κ α} (h : Alike R c d (f c) (g d)) :
    Alike R c d (object >>= f) (object >>= g) := h

theorem change_bind {p q : κ → κ} {f g : Unit → Filling κ α}
    (h : Alike R (p c) (q d) (f ()) (g ())) :
    Alike R c d (change p >>= f) (change q >>= g) := h

theorem lift_bind {r : Reader α} {f g : α → Filling κ β} (h : ∀ a, Alike R c d (f a) (g a)) :
    Alike R c d (lift r >>= f) (lift r >>= g) := by
  intro source cursor
  cases hr : r source cursor with
  | ok a cursor' =>
      rw [lift_bind_of_ok hr, lift_bind_of_ok hr]
      exact h a source cursor'
  | error e cursor' =>
      rw [lift_bind_of_error hr, lift_bind_of_error hr]
      exact .error rfl

/-- What comes after may rely on how the objects are related. -/
theorem bind {f g : Filling κ α} {f' g' : α → Filling κ β} (h : Alike R c d f g)
    (hrest : ∀ a c' d', R c' d' → Alike S c' d' (f' a) (g' a)) :
    Alike S c d (f >>= f') (g >>= g') := by
  intro source cursor
  refine (h source cursor).bind fun a s t hst => ?_
  have ht : t = ⟨t.object, s.medium⟩ := by rw [hst.2]
  rw [ht]
  exact hrest a s.object t.object hst.1 source s.medium

/-- Where one object is read, and `put` of it the other time, these are the objects in the end. -/
theorem of_commits {f g : Filling κ α} {whole : Reader (κ × α)} (put : κ → κ)
    (hf : Commits c f whole)
    (hg : Commits d g (whole >>= fun found => Pure.pure (put found.1, found.2)))
    (h : ∀ e, R e (put e)) : Alike R c d f g := by
  intro source cursor
  rw [hf, hg]
  cases hwhole : whole source cursor with
  | ok found cursor' =>
      rw [Reader.bind_of_ok hwhole]
      exact .ok ⟨h found.1, rfl⟩
  | error e cursor' =>
      rw [Reader.bind_of_error hwhole]
      exact .error rfl

/-- Where the same object is read both times, it is the same in the end. -/
theorem eq_of_commits {f g : Filling κ α} {whole : Reader (κ × α)} (hf : Commits c f whole)
    (hg : Commits d g whole) : Alike Eq c d f g :=
  of_commits id hf ((bind_pure whole).symm ▸ hg) fun _ => rfl

end Alike

end Filling

end Ebml
