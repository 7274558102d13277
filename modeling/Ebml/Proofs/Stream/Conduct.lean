import Ebml.Proofs.Stream.Emission
import Ebml.Proofs.Stream.Held
import Mathlib.Order.Defs.Unbundled

/-!
# How computations behave

`Behaves R E x` says of a computation what holds whether or not it succeeds: what it leaves is
related by `R` to what it started from, and if it fails, `E` holds of the error.  If `R` is a
preorder, this composes along `bind`.

The relation is mostly one of logs.  A log only grows, and `Noted p` says that whatever was added
satisfies `p`.  Most of the library is `Plain`: it warns of nothing, it does not note that the
blocks of a cluster were located, and it does not fail because a cluster is open or is not.
-/

namespace Ebml

variable {σ κ α β : Type} {R S : σ → σ → Prop} {E E' : Error → Prop}

/-! ## Whatever comes of it -/

/-- What a computation leaves, whether or not it succeeds. -/
def stateOf : EStateM.Result Error σ α → σ
  | .ok _ state => state
  | .error _ state => state

/-- What a computation that succeeded came to. -/
def resultOf? : EStateM.Result Error σ α → Option α
  | .ok a _ => some a
  | .error _ _ => none

theorem of_resultOf? {result : EStateM.Result Error σ α} {a : α} (h : resultOf? result = some a) :
    ∃ state, result = .ok a state := by
  cases result with
  | ok found state =>
      cases h
      exact ⟨state, rfl⟩
  | error e state => cases h

/-- The error of a computation that failed. -/
def errorOf? : EStateM.Result Error σ α → Option Error
  | .ok _ _ => none
  | .error e _ => some e

theorem of_errorOf? {result : EStateM.Result Error σ α} {e : Error}
    (h : errorOf? result = some e) : ∃ state, result = .error e state := by
  cases result with
  | ok a state => cases h
  | error found state =>
      cases h
      exact ⟨state, rfl⟩

/-- What a computation leaves is related by `R` to what it started from, and `E` holds of its error
if it fails. -/
structure Behaves (R : σ → σ → Prop) (E : Error → Prop) (x : EStateM Error σ α) : Prop where
  leaves : ∀ state, R state (stateOf (x state))
  fails : ∀ {state e}, errorOf? (x state) = some e → E e

namespace Behaves

theorem mono {x : EStateM Error σ α} (h : Behaves R E x)
    (hR : ∀ {state state'}, R state state' → S state state') (hE : ∀ {e}, E e → E' e) :
    Behaves S E' x where
  leaves state := hR (h.leaves state)
  fails herror := hE (h.fails herror)

/-- A computation that does not fail. -/
theorem of_ok {x : EStateM Error σ α} {f : σ → α} {g : σ → σ}
    (h : ∀ state, x state = .ok (f state) (g state)) (hR : ∀ state, R state (g state)) :
    Behaves R E x where
  leaves state := by
    rw [h]
    exact hR state
  fails {state e} herror := by
    rw [h] at herror
    cases herror

/-- A computation on the stream side alone. -/
theorem beside {T : Held κ σ → Held κ σ → Prop} {x : EStateM Error σ α} (h : Behaves R E x)
    (hT : ∀ {c state state'}, R state state' → T ⟨c, state⟩ ⟨c, state'⟩) :
    Behaves T E (Ebml.beside x) where
  leaves := by
    intro ⟨c, state⟩
    have hleaves := h.leaves state
    rw [Ebml.beside]
    cases hx : x state with
    | ok a state' =>
        rw [hx] at hleaves
        exact hT hleaves
    | error e state' =>
        rw [hx] at hleaves
        exact hT hleaves
  fails := by
    intro ⟨c, state⟩ e herror
    rw [Ebml.beside] at herror
    cases hx : x state with
    | ok a state' =>
        rw [hx] at herror
        cases herror
    | error e state' =>
        rw [hx] at herror
        cases herror
        exact h.fails (congrArg errorOf? hx)

variable [IsPreorder σ R]

theorem pure (a : α) : Behaves R E (Pure.pure a) :=
  of_ok (f := fun _ => a) (fun _ => rfl) fun _ => refl _

theorem throw {e : Error} (h : E e) : Behaves R E (throw e : EStateM Error σ α) where
  leaves _ := refl _
  fails herror := by
    cases herror
    exact h

theorem bind {x : EStateM Error σ α} {f : α → EStateM Error σ β} (hx : Behaves R E x)
    (hf : ∀ a, Behaves R E (f a)) : Behaves R E (x >>= f) where
  leaves state := by
    have hfirst := hx.leaves state
    cases h : x state with
    | ok a state' =>
        rw [h] at hfirst
        rw [Writer.bind_ok h]
        exact IsTrans.trans _ _ _ hfirst ((hf a).leaves state')
    | error e state' =>
        rw [h] at hfirst
        rw [Writer.bind_error h]
        exact hfirst
  fails {state e} herror := by
    cases h : x state with
    | ok a state' =>
        rw [Writer.bind_ok h] at herror
        exact (hf a).fails herror
    | error e' state' =>
        rw [Writer.bind_error h] at herror
        cases herror
        exact hx.fails (congrArg errorOf? h)

/-- What would come after a failure does not matter. -/
theorem throw_bind {e : Error} {f : α → EStateM Error σ β} (h : E e) :
    Behaves R E ((MonadExcept.throw e : EStateM Error σ α) >>= f) where
  leaves _ := refl _
  fails herror := by
    cases herror
    exact h

end Behaves

/-- The same of a computation that is given a stream. -/
def Reader.Behaves (R : σ → σ → Prop) (E : Error → Prop)
    (r : ReaderT Source (EStateM Error σ) α) : Prop :=
  ∀ source, Ebml.Behaves R E (r source)

namespace Reader.Behaves

theorem mono {r : ReaderT Source (EStateM Error σ) α} (h : Behaves R E r)
    (hR : ∀ {state state'}, R state state' → S state state') (hE : ∀ {e}, E e → E' e) :
    Behaves S E' r :=
  fun source => (h source).mono hR hE

variable [IsPreorder σ R]

theorem pure (a : α) : Behaves R E (Pure.pure a) := fun _ => .pure a

theorem throw {e : Error} (h : E e) :
    Behaves R E (throw e : ReaderT Source (EStateM Error σ) α) :=
  fun _ => .throw h

theorem bind {r : ReaderT Source (EStateM Error σ) α} {f : α → ReaderT Source (EStateM Error σ) β}
    (hr : Behaves R E r) (hf : ∀ a, Behaves R E (f a)) : Behaves R E (r >>= f) :=
  fun source => (hr source).bind fun a => hf a source

theorem throw_bind {e : Error} {f : α → ReaderT Source (EStateM Error σ) β} (h : E e) :
    Behaves R E ((MonadExcept.throw e : ReaderT Source (EStateM Error σ) α) >>= f) :=
  fun source => .throw_bind (f := fun a => f a source) h

end Reader.Behaves

/-! ## What is noted -/

/-- What has a log. -/
class Logging (σ : Type) where
  /-- The events noted so far. -/
  log : σ → Log

instance : Logging Cursor := ⟨Cursor.log⟩

instance : Logging Sink := ⟨Sink.log⟩

instance [Logging σ] : Logging (Held κ σ) := ⟨fun state => Logging.log state.medium⟩

variable [Logging σ] {p q : Event → Bool}

/-- The log has grown by events that satisfy `p`. -/
def Noted (p : Event → Bool) (state state' : σ) : Prop :=
  ∃ events : Log, Logging.log state' = Logging.log state ++ events ∧ ∀ event ∈ events, p event

namespace Noted

theorem refl (state : σ) : Noted p state state :=
  ⟨#[], (Array.append_empty).symm, by simp⟩

theorem trans {state state' state'' : σ} (h : Noted p state state') (h' : Noted p state' state'') :
    Noted p state state'' := by
  obtain ⟨events, hlog, hp⟩ := h
  obtain ⟨events', hlog', hp'⟩ := h'
  refine ⟨events ++ events', by rw [hlog', hlog, Array.append_assoc], fun event hm => ?_⟩
  rcases Array.mem_append.mp hm with hm | hm
  · exact hp event hm
  · exact hp' event hm

theorem mono {state state' : σ} (h : Noted p state state') (himp : ∀ {event}, p event → q event) :
    Noted q state state' := by
  obtain ⟨events, hlog, hp⟩ := h
  exact ⟨events, hlog, fun event hm => himp (hp event hm)⟩

/-- One event more. -/
theorem push {state state' : σ} {event : Event}
    (hlog : Logging.log state' = (Logging.log state).push event) (h : p event) :
    Noted p state state' := by
  refine ⟨#[event], hlog.trans Array.push_eq_append, fun event' hm => ?_⟩
  rw [List.mem_toArray, List.mem_singleton] at hm
  exact hm ▸ h

instance : IsPreorder σ (Noted p) where
  refl := refl
  trans _ _ _ := trans

end Noted

/-! ## What is plain -/

/-- Whether an event tells that the blocks of a cluster were located. -/
def Event.isIndexing : Event → Bool
  | indexedBlocks _ => true
  | _ => false

/-- Whether an event is a warning. -/
def Event.isWarning (event : Event) : Bool := event.level = .warn

/-- Whether an event is neither. -/
def Event.isPlain (event : Event) : Bool := !event.isIndexing && !event.isWarning

/-- Whether an error tells that a cluster is open, or that it is not. -/
def Error.isOpenness : Error → Bool
  | clusterNotOpen | clusterAlreadyOpen => true
  | _ => false

/-- An error that does not tell whether a cluster is open. -/
abbrev Error.Neutral (e : Error) : Prop := e.isOpenness = false

/-- The computation notes only plain events, and does not fail because a cluster is open or is not.
-/
abbrev Writer.Plain (x : EStateM Error σ α) : Prop :=
  Behaves (Noted Event.isPlain) Error.Neutral x

/-- The same of a computation that is given a stream. -/
abbrev Reader.Plain (r : ReaderT Source (EStateM Error σ) α) : Prop :=
  Reader.Behaves (Noted Event.isPlain) Error.Neutral r

namespace Writer.Plain

theorem note {event : Event} (h : event.isPlain) : Plain (Writer.note event) :=
  .of_ok (f := fun _ => ()) (fun _ => rfl) fun _ => .push rfl h

theorem position : Plain Writer.position :=
  .of_ok (f := fun sink => sink.stream.pos) (fun _ => rfl) .refl

theorem seek (pos : Nat) : Plain (Writer.seek pos) :=
  .of_ok (f := fun _ => ()) (fun _ => rfl) .refl

theorem emit (bytes : List UInt8) : Plain (Writer.emit bytes) where
  leaves sink := by
    rw [Writer.emit, Writer.finish]
    split
    next => exact .refl sink
    next => exact .refl sink
  fails {sink e} herror := by
    rw [Writer.emit, Writer.finish] at herror
    split at herror
    next => cases herror
    next =>
      cases herror
      rfl

end Writer.Plain

namespace Reader.Plain

theorem note {event : Event} (h : event.isPlain) : Plain (Reader.note event) :=
  fun _ => .of_ok (f := fun _ => ()) (fun _ => rfl) fun _ => .push rfl h

theorem position : Plain Reader.position :=
  fun _ => .of_ok (f := Cursor.pos) (fun _ => rfl) .refl

theorem seek (pos : Nat) : Plain (Reader.seek pos) :=
  fun _ => .of_ok (f := fun _ => ()) (fun _ => rfl) .refl

theorem streamLength : Plain Reader.streamLength :=
  fun source => .of_ok (f := fun _ => source.bytes.length) (fun _ => rfl) .refl

theorem take (count : Nat) : Plain (Reader.take count) := fun source =>
  { leaves := fun cursor => by
      simp only [Reader.take]
      split
      next => exact .refl cursor
      next => exact .refl cursor
    fails := fun {cursor e} herror => by
      simp only [Reader.take] at herror
      split at herror
      next => cases herror
      next =>
        cases herror
        rfl }

theorem next : Plain Reader.next := fun source =>
  { leaves := fun cursor => by
      rw [Reader.next]
      split
      next => exact .refl cursor
      next => exact .refl cursor
    fails := fun {cursor e} herror => by
      rw [Reader.next] at herror
      split at herror
      next => cases herror
      next =>
        cases herror
        rfl }

theorem skip (count : Nat) : Plain (Reader.skip count) := by
  rw [Reader.skip]
  split
  next => exact .throw_bind rfl
  next =>
    refine position.bind fun _ => streamLength.bind fun _ => ?_
    split
    next => exact .throw_bind rfl
    next => exact seek _

theorem allocate (size : Nat) : Plain (Reader.allocate size) := by
  rw [Reader.allocate]
  split
  next => exact .pure ()
  next =>
    have hread : Plain (read : Reader Source) :=
      fun source => .of_ok (f := fun _ => source) (fun _ => rfl) .refl
    refine hread.bind fun _ => ?_
    dsimp only
    split
    next => exact (note rfl).bind fun _ => .throw_bind rfl
    next =>
      split
      next =>
        refine streamLength.bind fun _ => ?_
        split
        next => exact .pure ()
        next => exact .throw rfl
      next => exact .pure ()

theorem body (size : Nat) : Plain (Reader.body size) := (allocate size).bind fun _ => take size

end Reader.Plain

namespace Filling

/-- Reading is plain whatever it is read into. -/
theorem plain_lift {reader : Reader α} (h : Reader.Plain reader) :
    Reader.Plain (lift reader : Filling κ α) :=
  fun source => (h source).beside fun hnoted => hnoted

theorem plain_object : Reader.Plain (object : Filling κ κ) :=
  fun _ => .of_ok (f := Held.object) (fun _ => rfl) .refl

theorem plain_change (f : κ → κ) : Reader.Plain (change f) :=
  fun _ => .of_ok (f := fun _ => ()) (fun _ => rfl) .refl

end Filling

end Ebml
