import Ebml.Proofs.Stream.Closure

/-!
# Streams that go on

Whatever a reader makes of a stream, it makes of every stream that goes on after the end of that
one, unless it came to the end and failed for want of bytes (`Reader.Persists`).  This says of
failures what `Reader.Spans` says of successes, and less: the result depends on what lies before
the end of the stream, wherever the reader stands.

It holds of readers that go back or look ahead, too, and composes along `bind` without a word about
how far they move.  It does not hold of a reader that asks for memory, since a body that is large
enough is refused unless the stream is as large.
-/

namespace Ebml

/-- The stream up to a position. -/
def Source.upTo (source : Source) (stop : Nat) : Source :=
  { source with bytes := source.bytes.take stop }

/-- The stream with more bytes after its end. -/
def Source.followedBy (source : Source) (more : List UInt8) : Source :=
  { source with bytes := source.bytes ++ more }

theorem Source.followedBy_append (source : Source) (more more' : List UInt8) :
    source.followedBy (more ++ more') = (source.followedBy more).followedBy more' := by
  simp only [followedBy, List.append_assoc]

namespace Reader

variable {σ α β : Type}

/-- Whether a reader failed for want of bytes. -/
def ranOut : EStateM.Result Error σ α → Bool
  | .ok _ _ => false
  | .error e _ => e matches .readError _

/-- A result other than that the stream ran out is the same on every stream that goes on. -/
def Persists (r : ReaderT Source (EStateM Error σ) α) : Prop :=
  ∀ source other : Source, source.bytes <+: other.bytes → ∀ state,
    ranOut (r source state) = false → r other state = r source state

section

variable {r : ReaderT Source (EStateM Error σ) α} {source : Source} {state : σ}

/-- First steps that come to the same may stand for each other. -/
theorem bind_eq_bind {r' : ReaderT Source (EStateM Error σ) α}
    (h : r source state = r' source state)
    (f : α → ReaderT Source (EStateM Error σ) β) :
    (r >>= f) source state = (r' >>= f) source state := by
  cases hfirst : r' source state with
  | ok a state' => rw [bind_of_ok hfirst, bind_of_ok (h.trans hfirst)]
  | error e state' => rw [bind_of_error hfirst, bind_of_error (h.trans hfirst)]

end

namespace Persists

/-- A computation that does not look at the stream. -/
theorem of_blind {r : ReaderT Source (EStateM Error σ) α}
    (h : ∀ source other state, r other state = r source state) : Persists r :=
  fun source other _ state _ => h source other state

theorem pure (a : α) : Persists (Pure.pure a : ReaderT Source (EStateM Error σ) α) :=
  of_blind fun _ _ _ => rfl

theorem throw (e : Error) : Persists (throw e : ReaderT Source (EStateM Error σ) α) :=
  of_blind fun _ _ _ => rfl

theorem bind {r : ReaderT Source (EStateM Error σ) α} {f : α → ReaderT Source (EStateM Error σ) β}
    (hr : Persists r) (hf : ∀ a, Persists (f a)) : Persists (r >>= f) := by
  intro source other hgoes state hran
  have hfirst := hr source other hgoes state
  cases h : r source state with
  | ok a state' =>
      rw [h] at hfirst
      rw [bind_of_ok h] at hran ⊢
      rw [bind_of_ok (hfirst rfl)]
      exact hf a source other hgoes state' hran
  | error e state' =>
      rw [h] at hfirst
      rw [bind_of_error h] at hran ⊢
      exact bind_of_error (hfirst hran)

theorem note (event : Event) : Persists (Reader.note event) := of_blind fun _ _ _ => rfl

theorem position : Persists Reader.position := of_blind fun _ _ _ => rfl

theorem seek (pos : Nat) : Persists (Reader.seek pos) := of_blind fun _ _ _ => rfl

theorem next : Persists Reader.next := by
  intro source other hgoes cursor hran
  simp only [Reader.next] at hran ⊢
  cases hbyte : source.bytes[cursor.pos]? with
  | none =>
      rw [hbyte] at hran
      cases hran
  | some byte =>
      obtain ⟨hlt, _⟩ := List.getElem?_eq_some_iff.mp hbyte
      obtain ⟨rest, hrest⟩ := hgoes
      rw [← hrest, List.getElem?_append_left hlt, hbyte]

theorem take (count : Nat) : Persists (Reader.take count) := by
  intro source other hgoes cursor hran
  obtain ⟨rest, hrest⟩ := hgoes
  simp only [Reader.take] at hran ⊢
  split at hran
  next hlen =>
    have hle : count ≤ (source.bytes.drop cursor.pos).length := by
      rw [List.length_take] at hlen
      omega
    have hsame : (other.bytes.drop cursor.pos).take count =
        (source.bytes.drop cursor.pos).take count := by
      by_cases h0 : count = 0
      · rw [h0, List.take_zero, List.take_zero]
      · rw [List.length_drop] at hle
        rw [← hrest, List.drop_append_of_le_length (by omega),
          List.take_append_of_le_length (by rw [List.length_drop]; exact hle)]
    rw [hsame, if_pos hlen, if_pos hlen]
  next => cases hran

/-- A reader that asks how long the stream is, and runs out if it is too short. -/
theorem streamLength_bind {f : Nat → Reader α} {g : Reader α} (enough : Nat) (hg : Persists g)
    (hshort : ∀ {length}, length < enough → ∀ source cursor,
      ranOut (f length source cursor) = true)
    (hlong : ∀ {length}, enough ≤ length → f length = g) :
    Persists (Reader.streamLength >>= f) := by
  intro source other hgoes cursor hran
  have hfirst : ∀ source, (Reader.streamLength >>= f) source cursor =
      f source.bytes.length source cursor := fun _ => rfl
  have hlength := hgoes.length_le
  rw [hfirst] at hran
  rw [hfirst, hfirst]
  by_cases hle : enough ≤ source.bytes.length
  · rw [hlong hle] at hran ⊢
    rw [hlong (Nat.le_trans hle hlength)]
    exact hg source other hgoes cursor hran
  · rw [hshort (Nat.lt_of_not_le hle)] at hran
    cases hran

end Persists

/-- A result other than that the stream ran out is the same on every stream that goes on, and every
stream can go on so that it does not run out. -/
structure Continues (r : ReaderT Source (EStateM Error σ) α) : Prop where
  persists : Persists r
  enough : ∀ (source : Source) state, ∃ more, ranOut (r (source.followedBy more) state) = false

namespace Continues

/-- A computation that never runs out. -/
theorem of_persists {r : ReaderT Source (EStateM Error σ) α} (h : Persists r)
    (hran : ∀ source state, ranOut (r source state) = false) : Continues r :=
  ⟨h, fun _ state => ⟨[], hran _ state⟩⟩

/-- A computation that does not run out on a stream that is long enough. -/
theorem of_length {r : ReaderT Source (EStateM Error σ) α} (enough : σ → Nat) (h : Persists r)
    (hran : ∀ source state, enough state ≤ source.bytes.length →
      ranOut (r source state) = false) : Continues r := by
  refine ⟨h, fun source state => ⟨List.replicate (enough state) 0, hran _ state ?_⟩⟩
  rw [Source.followedBy, List.length_append, List.length_replicate]
  exact Nat.le_add_left _ _

theorem pure (a : α) : Continues (Pure.pure a : ReaderT Source (EStateM Error σ) α) :=
  of_persists (.pure a) fun _ _ => rfl

theorem throw {e : Error} (h : e.OfData) :
    Continues (throw e : ReaderT Source (EStateM Error σ) α) := by
  refine of_persists (.throw e) fun _ _ => ?_
  cases e with
  | readError _ => cases h
  | _ => rfl

/-- The bytes that let the second step go on come after those that let the first one do. -/
theorem bind {r : ReaderT Source (EStateM Error σ) α} {f : α → ReaderT Source (EStateM Error σ) β}
    (hr : Continues r) (hf : ∀ a, Continues (f a)) : Continues (r >>= f) := by
  refine ⟨hr.persists.bind fun a => (hf a).persists, fun source state => ?_⟩
  obtain ⟨more, hran⟩ := hr.enough source state
  cases h : r (source.followedBy more) state with
  | ok a state' =>
      obtain ⟨more', hran'⟩ := (hf a).enough (source.followedBy more) state'
      have hgoes : (source.followedBy more).bytes <+:
          ((source.followedBy more).followedBy more').bytes := List.prefix_append _ _
      have hfirst := hr.persists _ _ hgoes state hran
      rw [h] at hfirst
      refine ⟨more ++ more', ?_⟩
      rw [Source.followedBy_append, bind_of_ok hfirst]
      exact hran'
  | error e state' =>
      rw [h] at hran
      refine ⟨more, ?_⟩
      rw [bind_of_error h]
      exact hran

/-- What would come after a failure does not matter. -/
theorem throw_bind {e : Error} {f : α → ReaderT Source (EStateM Error σ) β} (h : e.OfData) :
    Continues ((MonadExcept.throw e : ReaderT Source (EStateM Error σ) α) >>= f) := throw h

theorem note (event : Event) : Continues (Reader.note event) :=
  of_persists (.note event) fun _ _ => rfl

theorem position : Continues Reader.position := of_persists .position fun _ _ => rfl

theorem seek (pos : Nat) : Continues (Reader.seek pos) := of_persists (.seek pos) fun _ _ => rfl

theorem next : Continues Reader.next := by
  refine of_length (fun cursor => cursor.pos + 1) .next fun source cursor hle => ?_
  rw [Reader.next, List.getElem?_eq_getElem hle]
  rfl

theorem take (count : Nat) : Continues (Reader.take count) := by
  refine of_length (fun cursor => cursor.pos + count) (.take count)
    fun source cursor hle => ?_
  have hlen : ((source.bytes.drop cursor.pos).take count).length = count := by
    rw [List.length_take, List.length_drop]
    omega
  rw [Reader.take, if_pos hlen]
  rfl

/-- A reader that asks how long the stream is, and runs out if it is too short. -/
theorem streamLength_bind {f : Nat → Reader α} {g : Reader α} (enough : Nat) (hg : Continues g)
    (hshort : ∀ {length}, length < enough → ∀ source cursor,
      ranOut (f length source cursor) = true)
    (hlong : ∀ {length}, enough ≤ length → f length = g) :
    Continues (Reader.streamLength >>= f) := by
  refine ⟨hg.persists.streamLength_bind enough hshort hlong, fun source cursor => ?_⟩
  obtain ⟨more, hran⟩ := hg.enough (source.followedBy (List.replicate enough 0)) cursor
  refine ⟨List.replicate enough 0 ++ more, ?_⟩
  have hfirst : ∀ source, (Reader.streamLength >>= f) source cursor =
      f source.bytes.length source cursor := fun _ => rfl
  have hle : enough ≤ (source.followedBy (List.replicate enough 0 ++ more)).bytes.length := by
    simp only [Source.followedBy, List.length_append, List.length_replicate]
    omega
  rw [hfirst, hlong hle, Source.followedBy_append]
  exact hran

theorem skip (count : Nat) : Continues (Reader.skip count) := by
  rw [Reader.skip]
  split
  next => exact throw_bind rfl
  next =>
    refine position.bind fun pos => ?_
    by_cases hsmall : pos + count < UInt64.size
    · refine streamLength_bind 0 (seek (pos + count)) (fun hlt => ?_) fun _ => ?_
      · cases hlt
      · rw [if_neg (by simp [Stream.admits, hsmall])]
    · refine streamLength_bind (pos + count) (seek (pos + count)) (fun hlt _ _ => ?_)
        fun hle => ?_
      · rw [if_pos (by simp [Stream.admits, hsmall]; omega)]
        rfl
      · rw [if_neg (by simp [Stream.admits, hle])]

end Continues

theorem closed_continues : Closed fun r => Continues r where
  pure := .pure
  bind := .bind
  throw := .throw
  note _ := .note _
  position := .position
  seek := .seek
  next := .next
  take := .take
  skip := .skip

end Reader

namespace Filling

open Reader (Continues Persists ranOut)

variable {κ α : Type}

theorem ranOut_lift (reader : Reader α) (source : Source) (state : Held κ Cursor) :
    ranOut ((lift reader : Filling κ α) source state) = ranOut (reader source state.medium) := by
  have hlift : (lift reader : Filling κ α) source state = beside (reader source) state := rfl
  rw [hlift, beside]
  cases reader source state.medium with
  | ok a cursor => rfl
  | error e cursor => rfl

theorem persists_lift {reader : Reader α} (h : Persists reader) :
    Persists (lift reader : Filling κ α) := by
  intro source other hgoes state hran
  rw [ranOut_lift] at hran
  have hlift : ∀ source, (lift reader : Filling κ α) source state =
      beside (reader source) state := fun _ => rfl
  rw [hlift, hlift, beside, beside, h source other hgoes _ hran]

theorem continues_lift {reader : Reader α} (h : Continues reader) :
    Continues (lift reader : Filling κ α) where
  persists := persists_lift h.persists
  enough source state := by
    obtain ⟨more, hran⟩ := h.enough source state.medium
    exact ⟨more, (ranOut_lift reader _ state).trans hran⟩

theorem continues_change (f : κ → κ) : Continues (change f) :=
  .of_persists (.of_blind fun _ _ _ => rfl) fun _ _ => rfl

theorem closed_continues : Closed (fun r => Continues r)
    fun {α} (f : Filling κ α) => Continues f where
  pure := .pure
  bind := .bind
  throw := .throw
  object := .of_persists (.of_blind fun _ _ _ => rfl) fun _ _ => rfl
  lift := continues_lift

end Filling

end Ebml
