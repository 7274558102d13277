import Ebml.Proofs.Stream.Results

/-!
# Readers that count with machine words

The readers count with natural numbers.  A machine counts with words of a fixed width, and there an
operation may have no result: a sum may be too large for its width, a divisor may be zero, a shift
may be as long as the word, an index may lie outside its buffer.  A `Guarded` reader stops with a
`Trap` where that happens.  Its operations are one for one those of a machine that checks for all of
this.  Others have a result of their own for such a case, and never trap: `saturatingAdd`,
`checkedSub` and `checkedAddSigned`.

`Guarded.Follows R x y` says that the guarded reader `x` does what the reader `y` does, without a
trap, and that the results are related by `R`.  It composes along `bind`.  In between, every
operation on words needs that it has a result (`add_of_lt` and the lemmas after it).
-/

namespace Ebml

/-- Why an operation on words has no result. -/
inductive Trap where
  /-- The result is not a number of the width. -/
  | overflow
  /-- Zero was divided by, or its logarithm taken. -/
  | zero
  /-- The shift is not shorter than the word. -/
  | shift
  /-- The index lies outside the buffer. -/
  | bounds
deriving DecidableEq, Repr

/-- A reader that counts with words. -/
abbrev Guarded := ExceptT Trap Reader

namespace Guarded

variable {w : Nat} {α β γ δ : Type}

/-- Fails as a reader does, which is not a trap. -/
def fail (e : Error) : Guarded α := ExceptT.lift (throw e)

/-! ## Operations that may trap -/

/-- The sum of unsigned words. -/
def add (a b : BitVec w) : Guarded (BitVec w) :=
  if a.uaddOverflow b then throw .overflow else return a + b

/-- The difference of unsigned words. -/
def sub (a b : BitVec w) : Guarded (BitVec w) :=
  if a.usubOverflow b then throw .overflow else return a - b

/-- The product of unsigned words. -/
def mul (a b : BitVec w) : Guarded (BitVec w) :=
  if a.umulOverflow b then throw .overflow else return a * b

/-- The difference of signed words. -/
def subSigned (a b : BitVec w) : Guarded (BitVec w) :=
  if a.ssubOverflow b then throw .overflow else return a - b

/-- The quotient of unsigned words. -/
def div (a b : BitVec w) : Guarded (BitVec w) :=
  if b = 0 then throw .zero else return a / b

/-- The remainder of unsigned words. -/
def rem (a b : BitVec w) : Guarded (BitVec w) :=
  if b = 0 then throw .zero else return a % b

/-- The word shifted to the left.  The bits that leave it are lost without a trap. -/
def shiftLeft (a : BitVec w) (count : BitVec 32) : Guarded (BitVec w) :=
  if count.toNat < w then return a <<< count.toNat else throw .shift

/-- The position of the highest bit. -/
def log2 (a : BitVec w) : Guarded (BitVec 32) :=
  if a = 0 then throw .zero else return BitVec.ofNat 32 a.toNat.log2

/-- Checks that the first `count` places of a buffer of `size` places are within it. -/
def within (count : BitVec w) (size : Nat) : Guarded Unit :=
  if count.toNat ≤ size then return else throw .bounds

/-! ## Operations that always have a result -/

/-- The sum of unsigned words, or the largest word if that is less. -/
def saturatingAdd (a b : BitVec w) : BitVec w :=
  if a.uaddOverflow b then BitVec.allOnes w else a + b

/-- The difference of unsigned words, if it is one. -/
def checkedSub (a b : BitVec w) : Option (BitVec w) :=
  if a.usubOverflow b then none else some (a - b)

/-- The sum of an unsigned and a signed word, if it is an unsigned word. -/
def checkedAddSigned (a b : BitVec w) : Option (BitVec w) :=
  if 0 ≤ a.toNat + b.toInt ∧ a.toNat + b.toInt < 2 ^ w then some (a + b) else none

section

variable {a b : BitVec w}

/-- Zero is the word that is zero as a number. -/
theorem toNat_eq_zero : a.toNat = 0 ↔ a = 0 :=
  ⟨fun h => BitVec.eq_of_toNat_eq (h.trans BitVec.toNat_zero.symm),
    fun h => h ▸ BitVec.toNat_zero⟩

theorem add_of_lt (h : a.toNat + b.toNat < 2 ^ w) : add a b = pure (a + b) :=
  if_neg (by rw [BitVec.uaddOverflow, decide_eq_true_eq]; omega)

theorem sub_of_le (h : b.toNat ≤ a.toNat) : sub a b = pure (a - b) :=
  if_neg (by rw [BitVec.usubOverflow, decide_eq_true_eq]; omega)

theorem mul_of_lt (h : a.toNat * b.toNat < 2 ^ w) : mul a b = pure (a * b) :=
  if_neg (by rw [BitVec.umulOverflow, decide_eq_true_eq]; omega)

theorem div_of_ne (h : b ≠ 0) : div a b = pure (a / b) := if_neg h

theorem rem_of_ne (h : b ≠ 0) : rem a b = pure (a % b) := if_neg h

theorem shiftLeft_of_lt {count : BitVec 32} (h : count.toNat < w) :
    shiftLeft a count = pure (a <<< count.toNat) := if_pos h

theorem log2_of_ne (h : a ≠ 0) : log2 a = pure (BitVec.ofNat 32 a.toNat.log2) := if_neg h

theorem within_of_le {size : Nat} (h : a.toNat ≤ size) : within a size = pure () := if_pos h

theorem saturatingAdd_of_lt (h : a.toNat + b.toNat < 2 ^ w) : saturatingAdd a b = a + b :=
  if_neg (by rw [BitVec.uaddOverflow, decide_eq_true_eq]; omega)

theorem toNat_saturatingAdd (a b : BitVec w) :
    (saturatingAdd a b).toNat = min (a.toNat + b.toNat) (2 ^ w - 1) := by
  rw [saturatingAdd]
  split
  next h =>
    rw [BitVec.uaddOverflow, decide_eq_true_eq] at h
    rw [BitVec.toNat_allOnes]
    omega
  next h =>
    rw [BitVec.toNat_add_of_not_uaddOverflow h]
    rw [BitVec.uaddOverflow, decide_eq_true_eq] at h
    omega

theorem checkedAddSigned_of_neg (h : a.toNat + b.toInt < 0) : checkedAddSigned a b = none :=
  if_neg fun hrange => Int.not_lt.mpr hrange.1 h

theorem checkedAddSigned_of_lt (hlow : 0 ≤ a.toNat + b.toInt) (hhigh : a.toNat + b.toInt < 2 ^ w) :
    checkedAddSigned a b = some (a + b) ∧ ((a + b).toNat : Int) = a.toNat + b.toInt := by
  refine ⟨if_pos ⟨hlow, hhigh⟩, ?_⟩
  have ha := a.isLt
  have hb := b.isLt
  have hpow : ((2 ^ w : Nat) : Int) = 2 ^ w := Int.natCast_pow 2 w
  rw [BitVec.toNat_add]
  rw [BitVec.toInt_eq_toNat_cond, hpow] at hlow hhigh ⊢
  split at hlow
  next hsign =>
    rw [if_pos hsign] at hhigh ⊢
    rw [Nat.mod_eq_of_lt (by omega)]
    omega
  next hsign =>
    rw [if_neg hsign] at hhigh ⊢
    rw [Nat.mod_eq_sub_mod (by omega), Nat.mod_eq_of_lt (by omega)]
    omega

theorem checkedSub_of_le (h : b.toNat ≤ a.toNat) : checkedSub a b = some (a - b) :=
  if_neg (by rw [BitVec.usubOverflow, decide_eq_true_eq]; omega)

theorem checkedSub_of_lt (h : a.toNat < b.toNat) : checkedSub a b = none :=
  if_pos (by rw [BitVec.usubOverflow, decide_eq_true_eq]; exact h)

end

/-- Where one step had a result, the next one goes on from it. -/
theorem run_bind_of_ok {x : Guarded α} {f : α → Guarded γ} {source : Source}
    {cursor cursor' : Cursor} {a : α} (h : x.run source cursor = .ok (.ok a) cursor') :
    (x >>= f).run source cursor = (f a).run source cursor' := by
  rw [ExceptT.run_bind, Reader.bind_of_ok h]

/-! ## Doing what a reader does -/

/-- The outcome of a guarded reader is that of a reader, and so it is not a trap. -/
inductive Shows (R : α → β → Prop) :
    EStateM.Result Error Cursor (Except Trap α) → EStateM.Result Error Cursor β → Prop
  /-- Both gave a result. -/
  | ok {a : α} {b : β} {cursor : Cursor} : R a b → Shows R (.ok (.ok a) cursor) (.ok b cursor)
  /-- Both failed. -/
  | error {e : Error} {cursor : Cursor} : Shows R (.error e cursor) (.error e cursor)

/-- The guarded reader does what the reader does, with related results. -/
def Follows (R : α → β → Prop) (x : Guarded α) (y : Reader β) : Prop :=
  ∀ source cursor, Shows R (x.run source cursor) (y source cursor)

namespace Follows

variable {R : α → β → Prop} {S : γ → δ → Prop} {x : Guarded α} {y : Reader β}

theorem pure {a : α} {b : β} (h : R a b) : Follows R (Pure.pure a) (Pure.pure b) :=
  fun _ _ => .ok h

theorem fail {e : Error} : Follows R (Guarded.fail e) (throw e) := fun _ _ => .error

theorem bind {f : α → Guarded γ} {g : β → Reader δ} (h : Follows R x y)
    (hrest : ∀ a b, R a b → Follows S (f a) (g b)) : Follows S (x >>= f) (y >>= g) := by
  intro source cursor
  rw [ExceptT.run_bind]
  have hfirst := h source cursor
  generalize hx : x.run source cursor = first at hfirst
  generalize hy : y source cursor = other at hfirst
  cases hfirst with
  | ok hab =>
      rw [Reader.bind_of_ok hx, Reader.bind_of_ok hy]
      exact hrest _ _ hab _ _
  | error =>
      rw [Reader.bind_of_error hx, Reader.bind_of_error hy]
      exact .error

/-- A reader may work something out of its result where the guarded one holds it at hand. -/
theorem map {S : α → δ → Prop} {g : β → δ} (h : Follows R x y)
    (himp : ∀ a b, R a b → S a (g b)) : Follows S x (y >>= fun b => Pure.pure (g b)) := by
  rw [← bind_pure x]
  exact h.bind fun a b hab => pure (himp a b hab)

/-- What would come after a failure does not matter. -/
theorem fail_bind {e : Error} {f : α → Guarded γ} {z : Reader δ}
    (h : ∀ source cursor, z source cursor = .error e cursor) :
    Follows S (Guarded.fail e >>= f) z := by
  intro source cursor
  rw [h]
  exact .error

/-- What no words are part of is done as it is. -/
theorem lift (r : Reader β) : Follows Eq (liftM r : Guarded β) r := by
  intro source cursor
  show Shows _ ((r >>= fun a => Pure.pure (Except.ok a)) source cursor) _
  cases hr : r source cursor with
  | ok a cursor' =>
      rw [Reader.bind_of_ok hr]
      exact .ok rfl
  | error e cursor' =>
      rw [Reader.bind_of_error hr]
      exact .error

/-- What a reader tells of its result may be relied on. -/
theorem ensuring {P : β → Prop} (h : Follows R x y) (hy : ∀ source, y.Ensures source P) :
    Follows (fun a b => R a b ∧ P b) x y := by
  intro source cursor
  have hshows := h source cursor
  generalize hfirst : x.run source cursor = first at hshows ⊢
  generalize hother : y source cursor = other at hshows ⊢
  cases hshows with
  | ok hab => exact .ok ⟨hab, hy _ _ _ _ hother⟩
  | error => exact .error

/-- There is no trap. -/
theorem not_trap (h : Follows R x y) {source : Source} {cursor cursor' : Cursor} {trap : Trap} :
    x.run source cursor ≠ .ok (.error trap) cursor' := by
  intro htrap
  have hshows := h source cursor
  rw [htrap] at hshows
  cases hshows

/-- A result is one of the reader as well. -/
theorem of_ok (h : Follows R x y) {source : Source} {cursor cursor' : Cursor} {a : α}
    (hok : x.run source cursor = .ok (.ok a) cursor') :
    ∃ b, y source cursor = .ok b cursor' ∧ R a b := by
  have hshows := h source cursor
  rw [hok] at hshows
  generalize y source cursor = other at hshows ⊢
  cases hshows with
  | ok hab => exact ⟨_, rfl, hab⟩

/-- A guarded reader that does what a reader does is that reader, but for how results are held. -/
theorem map_run_eq {view : α → β} (h : Follows (fun a b => view a = b) x y) :
    (do return (← x.run).map view : Reader (Except Trap β)) = (do return .ok (← y)) := by
  funext source cursor
  have hshows := h source cursor
  generalize hx : x.run source cursor = first at hshows
  generalize hy : y source cursor = other at hshows
  cases hshows with
  | ok hab =>
      rw [Reader.bind_of_ok hx, Reader.bind_of_ok hy, ← hab]
      rfl
  | error => rw [Reader.bind_of_error hx, Reader.bind_of_error hy]

end Follows

end Guarded

end Ebml
