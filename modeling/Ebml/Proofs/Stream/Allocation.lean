import Ebml.Proofs.Stream.Closure

/-!
# What a reader asks memory for

Where a body is read into memory, its size is first held against the limit (`Reader.body`).  Most
readers do not look at the limit at all, and come to the same under any (`Reader.Blind`).  Of the
others there are sizes that tell what comes of a success under another limit (`Reader.Gated`).  If
none of the sizes exceeds it, the result is the same, and otherwise it is refused.

Which sizes these are has to be shown of every reader, from what is in the stream (`Reader.Asks`).
-/

namespace Ebml

namespace Reader

variable {σ α β κ : Type} {source : Source}

/-! ## Readers that do not look at the limit -/

/-- The computation comes to the same whatever the limit is, also if it fails. -/
def Blind (r : ReaderT Source (EStateM Error σ) α) : Prop :=
  ∀ source limit state, r { source with limit } state = r source state

namespace Blind

theorem pure (a : α) : Blind (Pure.pure a : ReaderT Source (EStateM Error σ) α) :=
  fun _ _ _ => rfl

theorem throw (e : Error) : Blind (throw e : ReaderT Source (EStateM Error σ) α) :=
  fun _ _ _ => rfl

theorem bind {r : ReaderT Source (EStateM Error σ) α} {f : α → ReaderT Source (EStateM Error σ) β}
    (hr : Blind r) (hf : ∀ a, Blind (f a)) : Blind (r >>= f) := by
  intro source limit state
  cases h : r source state with
  | ok a state' =>
      rw [bind_of_ok h, bind_of_ok ((hr source limit state).trans h)]
      exact hf a source limit state'
  | error e state' => rw [bind_of_error h, bind_of_error ((hr source limit state).trans h)]

/-- What would come after a failure does not matter. -/
theorem throw_bind {e : Error} {f : α → ReaderT Source (EStateM Error σ) β} :
    Blind ((MonadExcept.throw e : ReaderT Source (EStateM Error σ) α) >>= f) := throw e

theorem note (event : Event) : Blind (Reader.note event) := fun _ _ _ => rfl

theorem skip (count : Nat) : Blind (Reader.skip count) := by
  rw [Reader.skip]
  split
  next => exact throw_bind
  next =>
    have hposition : Blind Reader.position := fun _ _ _ => rfl
    have hlength : Blind Reader.streamLength := fun _ _ _ => rfl
    refine hposition.bind fun pos => hlength.bind fun length => ?_
    split
    next => exact throw_bind
    next => exact fun _ _ _ => rfl

end Blind

theorem closed_blind : Closed fun r => Blind r where
  pure := .pure
  bind := .bind
  throw _ := .throw _
  note _ := .note _
  position _ _ _ := rfl
  seek _ _ _ _ := rfl
  next _ _ _ := rfl
  take _ _ _ _ := rfl
  skip := .skip

/-! ## Bodies that are read into memory -/

theorem body_eq_ok {size : Nat} {cursor cursor' : Cursor} {bytes : List UInt8} :
    body size source cursor = .ok bytes cursor' ↔
      source.Affords size ∧ take size source cursor = .ok bytes cursor' := by
  rw [body, bind_eq_ok]
  constructor
  · rintro ⟨_, _, hallocate, htake⟩
    obtain ⟨haffords, rfl⟩ := allocate_eq_ok.mp hallocate
    exact ⟨haffords, htake⟩
  · rintro ⟨haffords, htake⟩
    exact ⟨(), cursor, allocate_eq_ok.mpr ⟨haffords, rfl⟩, htake⟩

/-- A body that is larger than the limit is refused before anything is read of it. -/
theorem body_of_lt {size : Nat} (h : source.limit < size) (cursor : Cursor) :
    body size source cursor =
      .error .tooMuchData { cursor with log := cursor.log.push (.allocationRefused size) } := by
  have hallocate : allocate size source cursor =
      .error .tooMuchData { cursor with log := cursor.log.push (.allocationRefused size) } := by
    rw [allocate, if_neg (by omega)]
    show (if size > source.limit then _ else _ : Reader Unit) source cursor = _
    rw [if_pos h]
    rfl
  exact bind_of_error hallocate

/-- What comes of a computation under another limit than its own.  It is the same if none of the
sizes exceeds the limit, and otherwise it is refused. -/
structure Gated (source : Source) (r : ReaderT Source (EStateM Error σ) α) (state : σ)
    (sizes : List Nat) : Prop where
  same : ∀ {limit}, (∀ size ∈ sizes, size ≤ limit) → r { source with limit } state = r source state
  refused : ∀ {limit}, (∃ size ∈ sizes, limit < size) →
    ∃ after, r { source with limit } state = .error .tooMuchData after

namespace Gated

variable {r : ReaderT Source (EStateM Error σ) α} {f : α → ReaderT Source (EStateM Error σ) β}
  {state state' : σ} {a : α} {sizes first rest : List Nat}

theorem blind (h : Blind r) : Gated source r state [] where
  same _ := h source _ state
  refused hlt := by
    obtain ⟨_, hm, _⟩ := hlt
    cases hm

theorem body {size : Nat} {bytes : List UInt8} {cursor cursor' : Cursor}
    (hok : Reader.body size source cursor = .ok bytes cursor') :
    Gated source (Reader.body size) cursor [size] where
  same hle := by
    obtain ⟨haffords, htake⟩ := body_eq_ok.mp hok
    rw [hok]
    refine body_eq_ok.mpr ⟨?_, htake⟩
    rcases haffords with hzero | ⟨_, hbound⟩
    · exact Or.inl hzero
    · exact Or.inr ⟨hle size (List.mem_singleton_self size), hbound⟩
  refused hlt := by
    obtain ⟨_, hm, hlt⟩ := hlt
    rw [List.mem_singleton.mp hm] at hlt
    exact ⟨_, body_of_lt hlt cursor⟩

/-- Two steps.  A limit that the first one is refused under refuses both, and under any other the
second one starts where it did. -/
theorem bind (hok : r source state = .ok a state') (hfirst : Gated source r state first)
    (hrest : Gated source (f a) state' rest) : Gated source (r >>= f) state (first ++ rest) where
  same hle := by
    rw [bind_of_ok hok,
      bind_of_ok ((hfirst.same fun size hm => hle size (List.mem_append_left _ hm)).trans hok)]
    exact hrest.same fun size hm => hle size (List.mem_append_right _ hm)
  refused {limit} hlt := by
    by_cases hany : ∃ size ∈ first, limit < size
    · obtain ⟨after, herror⟩ := hfirst.refused hany
      exact ⟨after, bind_of_error herror⟩
    · have hall : ∀ size ∈ first, size ≤ limit := fun size hm =>
        Nat.le_of_not_lt fun hsize => hany ⟨size, hm, hsize⟩
      obtain ⟨size, hm, hsize⟩ := hlt
      have hlater : ∃ size ∈ rest, limit < size :=
        ⟨size, (List.mem_append.mp hm).resolve_left fun hm => hany ⟨size, hm, hsize⟩, hsize⟩
      rw [bind_of_ok ((hfirst.same hall).trans hok)]
      exact hrest.refused hlater

/-- A first step that does not look at the limit. -/
theorem after_blind (hr : Blind r) (hok : r source state = .ok a state')
    (h : Gated source (f a) state' sizes) : Gated source (r >>= f) state sizes :=
  .bind hok (.blind hr) h

/-- A second step that does not look at the limit. -/
theorem before_blind (hok : r source state = .ok a state') (h : Gated source r state sizes)
    (hf : Blind (f a)) : Gated source (r >>= f) state sizes := by
  have hgated := h.bind hok (.blind hf)
  rwa [List.append_nil] at hgated

/-- A computation that comes to the same as another one under every limit. -/
theorem of_eq {r' : ReaderT Source (EStateM Error σ) α}
    (heq : ∀ limit, r { source with limit } state = r' { source with limit } state')
    (h : Gated source r' state' sizes) : Gated source r state sizes where
  same hle := ((heq _).trans (h.same hle)).trans (heq source.limit).symm
  refused hlt := by
    obtain ⟨after, herror⟩ := h.refused hlt
    exact ⟨after, (heq _).trans herror⟩

/-- A reader beside an object. -/
theorem lift {reader : Reader α} {cursor : Cursor} (h : Gated source reader cursor sizes) (c : κ) :
    Gated source (Filling.lift reader : Filling κ α) ⟨c, cursor⟩ sizes where
  same {limit} hle := by
    show beside (reader { source with limit }) _ = beside (reader source) _
    simp only [beside, h.same hle]
  refused hlt := by
    obtain ⟨after, herror⟩ := h.refused hlt
    exact ⟨_, Filling.lift_of_error herror⟩

/-- No size that tells what comes of a success exceeds the limit in force. -/
theorem le_limit (h : Gated source r state sizes) (hok : r source state = .ok a state') :
    ∀ size ∈ sizes, size ≤ source.limit := by
  intro size hm
  refine Nat.le_of_not_lt fun hlt => ?_
  obtain ⟨_, herror⟩ := h.refused ⟨size, hm, hlt⟩
  rw [hok] at herror
  cases herror

end Gated

/-! ## Sizes that the stream tells -/

/-- What comes of a success under other limits is told by the sizes that are told of the stream at
the position of the reader. -/
def Asks (r : Reader α) (tells : Source → Nat → List Nat → Prop) : Prop :=
  ∀ source cursor a cursor', r source cursor = .ok a cursor' →
    ∃ sizes, tells source cursor.pos sizes ∧ Gated source r cursor sizes

namespace Asks

variable {tells tells' : Source → Nat → List Nat → Prop}

theorem mono {r : Reader α} (h : Asks r tells)
    (himp : ∀ source pos sizes, tells source pos sizes → tells' source pos sizes) :
    Asks r tells' := by
  intro source cursor a cursor' hok
  obtain ⟨sizes, htells, hgated⟩ := h source cursor a cursor' hok
  exact ⟨sizes, himp source cursor.pos sizes htells, hgated⟩

/-- A reader that does not look at the limit asks for no memory. -/
theorem of_blind {r : Reader α} (h : Blind r)
    (htells : ∀ source cursor a cursor', r source cursor = .ok a cursor' →
      tells source cursor.pos []) : Asks r tells := by
  intro source cursor a cursor' hok
  exact ⟨[], htells source cursor a cursor' hok, .blind h⟩

theorem throw {e : Error} : Asks (MonadExcept.throw e : Reader α) tells := by
  intro source cursor a cursor' hok
  cases hok

theorem body (size : Nat) : Asks (Reader.body size) fun _ _ sizes => sizes = [size] :=
  fun _ _ _ _ hok => ⟨[size], rfl, .body hok⟩

/-- What is worked out of what was read. -/
theorem bind {r : Reader α} {f : α → Reader β} (h : Asks r tells) (hf : ∀ a, Blind (f a)) :
    Asks (r >>= f) tells := by
  intro source cursor b cursor'' hok
  obtain ⟨a, cursor', hr, -⟩ := bind_eq_ok.mp hok
  obtain ⟨sizes, htells, hgated⟩ := h source cursor a cursor' hr
  exact ⟨sizes, htells, hgated.before_blind hr (hf a)⟩

/-- What is read after a note. -/
theorem after_note {f : Unit → Reader β} (event : Event) (h : Asks (f ()) tells) :
    Asks (Reader.note event >>= f) tells := by
  intro source cursor b cursor'' hok
  obtain ⟨_, _, hnote, hrest⟩ := bind_eq_ok.mp hok
  cases hnote
  obtain ⟨sizes, htells, hgated⟩ := h source _ b cursor'' hrest
  exact ⟨sizes, htells, .after_blind (.note event) rfl hgated⟩

/-- What is read after the position was asked for. -/
theorem after_position {f : Nat → Reader β} (h : ∀ pos, Asks (f pos) tells) :
    Asks (Reader.position >>= f) tells := by
  intro source cursor b cursor'' hok
  obtain ⟨sizes, htells, hgated⟩ := h cursor.pos source cursor b cursor'' hok
  exact ⟨sizes, htells, .after_blind (fun _ _ _ => rfl) rfl hgated⟩

end Asks

end Reader

namespace Filling

open Reader (Blind)

variable {κ α : Type}

theorem blind_lift {reader : Reader α} (h : Blind reader) : Blind (lift reader : Filling κ α) := by
  intro source limit state
  show beside (reader { source with limit }) state = beside (reader source) state
  rw [beside, beside, h]

/-- A change of the object in the end. -/
theorem blind_commit (f : κ → κ) (a : α) : Blind (do change f; return a : Filling κ α) :=
  fun _ _ _ => rfl

theorem blind_object : Blind (object : Filling κ κ) := fun _ _ _ => rfl

end Filling

end Ebml
