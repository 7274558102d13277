import Ebml.Proofs.Stream.Held

/-!
# Reading first and assigning then

An operation may change an object in several steps.  If all that can fail comes before the first
of them, then nothing of the object has changed when the operation fails, and it might as well
have made the new object as a whole (`Filling.Commits`).

Such an operation is a sequence of readers, with assignments after the last.  It is the other way
round that is never to be found: a reader after an assignment.
-/

namespace Ebml.Filling

variable {κ γ α β : Type}

/-- Replaces the object by what a check makes of it.  The object stays if the check fails. -/
def update (f : κ → Except Error κ) : Filling κ Unit := do
  let c ← lift (Reader.ofExcept (f (← object)))
  change fun _ => c

/-- Works on a part of the object, which is put back whether or not that succeeds. -/
def inside (part : γ) (put : γ → κ) (f : Filling γ α) : Filling κ α := fun source state =>
  match f source ⟨part, state.medium⟩ with
  | .ok a after => .ok a ⟨put after.object, after.medium⟩
  | .error e after => .error e ⟨put after.object, after.medium⟩

/-- From the object `c` the computation comes to what `whole` reads.  It leaves `c` as it is if it
fails, and otherwise replaces it by the object read. -/
def Commits (c : κ) (f : Filling κ α) (whole : Reader (κ × α)) : Prop :=
  ∀ source cursor, f source ⟨c, cursor⟩ =
    match whole source cursor with
    | .ok (c', a) after => .ok a ⟨c', after⟩
    | .error e after => .error e ⟨c, after⟩

/-- From the object `c` the computation reads nothing and does not fail, and comes to `c'`. -/
def Assigns (c : κ) (f : Filling κ α) (c' : κ) (a : α) : Prop :=
  ∀ source cursor, f source ⟨c, cursor⟩ = .ok a ⟨c', cursor⟩

namespace Commits

variable {c : κ} {f : Filling κ α} {whole : Reader (κ × α)}

/-- What fails keeps the object. -/
theorem kept (h : Commits c f whole) {source : Source} {cursor cursor' : Cursor} {e : Error}
    {c' : κ} (herror : f source ⟨c, cursor⟩ = .error e ⟨c', cursor'⟩) : c' = c := by
  rw [h source cursor] at herror
  split at herror
  next => cases herror
  next =>
    cases herror
    rfl

/-- Two computations that come to the same are the same. -/
theorem unique {g : Filling κ α} {wholes : κ → Reader (κ × α)}
    (hf : ∀ c, Commits c f (wholes c)) (hg : ∀ c, Commits c g (wholes c)) : f = g := by
  funext source ⟨c, cursor⟩
  rw [hf c source cursor, hg c source cursor]

/-- What would come after a failure does not matter. -/
theorem throw_bind {e : Error} {g : β → Filling κ α} {w : β → Reader (κ × α)} :
    Commits c ((MonadExcept.throw e : Filling κ β) >>= g)
      ((MonadExcept.throw e : Reader β) >>= w) :=
  fun _ _ => rfl

theorem object_bind {g : κ → Filling κ α} (h : Commits c (g c) whole) :
    Commits c (object >>= g) whole := h

theorem lift_bind {r : Reader β} {g : β → Filling κ α} {w : β → Reader (κ × α)}
    (h : ∀ b, Commits c (g b) (w b)) : Commits c (lift r >>= g) (r >>= w) := by
  intro source cursor
  cases hr : r source cursor with
  | ok b after =>
      rw [lift_bind_of_ok hr, Reader.bind_of_ok hr]
      exact h b source after
  | error e after =>
      rw [lift_bind_of_error hr, Reader.bind_of_error hr]

/-- Assignments may follow. -/
theorem bind {g : α → Filling κ β} {k : κ × α → κ × β} (h : Commits c f whole)
    (hg : ∀ c' a, Assigns c' (g a) (k (c', a)).1 (k (c', a)).2) :
    Commits c (f >>= g) (whole >>= fun result => pure (k result)) := by
  intro source cursor
  have hf := h source cursor
  cases hwhole : whole source cursor with
  | ok result after =>
      rw [hwhole] at hf
      rw [Reader.bind_of_ok hf, Reader.bind_of_ok hwhole]
      exact hg _ _ source after
  | error e after =>
      rw [hwhole] at hf
      rw [Reader.bind_of_error hf, Reader.bind_of_error hwhole]

theorem inside {part : γ} {g : Filling γ α} {whole : Reader (γ × α)} (put : γ → κ)
    (h : Commits part g whole) :
    Commits (put part) (inside part put g)
      (whole >>= fun result => pure (put result.1, result.2)) := by
  intro source cursor
  rw [Filling.inside, h source cursor]
  cases hwhole : whole source cursor with
  | ok result after => rw [Reader.bind_of_ok hwhole]; rfl
  | error e after => rw [Reader.bind_of_error hwhole]

end Commits

end Ebml.Filling
