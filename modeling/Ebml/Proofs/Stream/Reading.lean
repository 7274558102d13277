import Ebml.Stream.Reader

/-!
# Where a reader comes to

A reader is described in two directions.

*Forwards.*  `Reader.Yields r source pos a pos'` says that from `pos` the reader comes to `pos'`
with `a`, whatever has been noted before.  It composes along `bind`, and `Source.Holds` says which
bytes lie at a position, so that what a writer emitted can be read back step by step.

*Backwards.*  `Reader.Spans r P` says what a success tells: how many bytes the reader moved over,
what holds of them and of its result (`P`), and that nothing else of the stream mattered.  Any
stream that agrees on these bytes gives the same result (`Source.Agrees`).  A reader that looks
ahead goes back in the end and depends on more than it moved over (`Reader.Foresees`).  Of one that
goes wherever the stream sends it there is only to say that on the same stream it repeats its
result, whatever has been noted (`Reader.Steady`).  It may still count the bytes that it moved over
(`Reader.Advances`).
-/

namespace Ebml

/-! ## Bytes at a position -/

namespace Source

variable {source other : Source} {pos n m : Nat}

/-- The bytes lie in the stream at a position. -/
def Holds (source : Source) (pos : Nat) (bytes : List UInt8) : Prop :=
  bytes <+: source.bytes.drop pos

theorem Holds.left {first second : List UInt8} (h : source.Holds pos (first ++ second)) :
    source.Holds pos first := (List.prefix_append first second).trans h

theorem Holds.right {first second : List UInt8} (h : source.Holds pos (first ++ second)) :
    source.Holds (pos + first.length) second := by
  obtain ⟨rest, hrest⟩ := h
  refine ⟨rest, ?_⟩
  rw [← List.drop_drop, ← hrest, List.append_assoc, List.drop_left]

theorem Holds.head {byte : UInt8} {rest : List UInt8} (h : source.Holds pos (byte :: rest)) :
    source.Holds pos [byte] := (List.prefix_append [byte] rest).trans h

theorem Holds.tail {byte : UInt8} {rest : List UInt8} (h : source.Holds pos (byte :: rest)) :
    source.Holds (pos + 1) rest := by
  rw [← List.singleton_append] at h
  exact h.right

theorem Holds.take_eq {bytes : List UInt8} (h : source.Holds pos bytes) :
    (source.bytes.drop pos).take bytes.length = bytes := (List.prefix_iff_eq_take.mp h).symm

/-- Bytes that are not empty end within the stream. -/
theorem Holds.end_le {bytes : List UInt8} (h : source.Holds pos bytes) (hne : bytes ≠ []) :
    pos + bytes.length ≤ source.bytes.length := by
  have hle := h.length_le
  have hpos := List.length_pos_iff.mpr hne
  rw [List.length_drop] at hle
  omega

/-- The two streams have the same `n` bytes at a position, and the same limit.  The other one does
not end within these bytes if the one does not. -/
def Agrees (source other : Source) (pos n : Nat) : Prop :=
  other.limit = source.limit ∧
    (other.bytes.drop pos).take n = (source.bytes.drop pos).take n ∧
      (source.bytes.length ≤ other.bytes.length ∨ pos + n ≤ other.bytes.length)

theorem Agrees.refl (source : Source) (pos n : Nat) : source.Agrees source pos n :=
  ⟨rfl, rfl, Or.inl (Nat.le_refl _)⟩

theorem Agrees.left (h : source.Agrees other pos (n + m)) : source.Agrees other pos n := by
  obtain ⟨hlimit, hbytes, hlength⟩ := h
  refine ⟨hlimit, ?_, by omega⟩
  have h' := congrArg (List.take n) hbytes
  rwa [List.take_take, List.take_take, Nat.min_eq_left (Nat.le_add_right n m)] at h'

theorem Agrees.right (h : source.Agrees other pos (n + m)) : source.Agrees other (pos + n) m := by
  obtain ⟨hlimit, hbytes, hlength⟩ := h
  refine ⟨hlimit, ?_, by omega⟩
  have h' := congrArg (List.drop n) hbytes
  rwa [List.drop_take, List.drop_take, List.drop_drop, List.drop_drop,
    Nat.add_sub_cancel_left] at h'

/-- Streams that agree up to a position agree on whatever lies before it. -/
theorem Agrees.within {stop : Nat} (h : source.Agrees other 0 stop) (hle : pos + n ≤ stop) :
    source.Agrees other pos n := by
  obtain ⟨m, rfl⟩ := Nat.exists_eq_add_of_le hle
  rw [Nat.add_assoc] at h
  have hright := h.right
  rw [Nat.zero_add] at hright
  exact hright.left

/-- A reader of the stream may stand at a position. -/
def Admits (source : Source) (pos : Nat) : Prop :=
  Stream.admits source.bytes.length pos = true

theorem admits_of_le (h : pos ≤ source.bytes.length) : source.Admits pos := by
  simp only [Admits, Stream.admits, Bool.or_eq_true, decide_eq_true_eq]
  exact Or.inr h

/-- A body of `size` bytes may be read into memory. -/
def Affords (source : Source) (size : Nat) : Prop :=
  size = 0 ∨ size ≤ source.limit ∧ (size < Reader.memoryBound ∨ size ≤ source.bytes.length)

end Source

namespace Reader

variable {α β : Type} {source : Source} {pos pos' pos'' : Nat}

section

variable {σ : Type} {r : ReaderT Source (EStateM Error σ) α}
  {f : α → ReaderT Source (EStateM Error σ) β} {state state' : σ}

theorem bind_of_ok {a : α} (h : r source state = .ok a state') :
    (r >>= f) source state = f a source state' := by
  show EStateM.bind (r source) (fun a => f a source) state = _
  rw [EStateM.bind, h]

theorem bind_of_error {e : Error} (h : r source state = .error e state') :
    (r >>= f) source state = .error e state' := by
  show EStateM.bind (r source) (fun a => f a source) state = _
  rw [EStateM.bind, h]

end

/-- A computation in two steps succeeds if both steps do, also if it changes more than a cursor. -/
theorem bind_eq_ok {σ : Type} {r : ReaderT Source (EStateM Error σ) α}
    {f : α → ReaderT Source (EStateM Error σ) β} {state state'' : σ} {b : β} :
    (r >>= f) source state = .ok b state'' ↔
      ∃ a state', r source state = .ok a state' ∧ f a source state' = .ok b state'' := by
  show EStateM.bind (r source) (fun a => f a source) state = _ ↔ _
  rw [EStateM.bind]
  cases h : r source state with
  | ok a state' =>
      constructor
      · intro h'
        exact ⟨a, state', rfl, h'⟩
      · rintro ⟨_, _, h₁, h₂⟩
        cases h₁
        exact h₂
  | error e state' =>
      constructor
      · intro h'
        cases h'
      · rintro ⟨_, _, h₁, _⟩
        cases h₁

/-- What is said of where two steps come to is said of the second one, after the first. -/
theorem exists_bind_eq_ok {r : Reader α} {f : α → Reader β} {cursor : Cursor}
    {P : β → Cursor → Prop} :
    (∃ b after, (r >>= f) source cursor = .ok b after ∧ P b after) ↔
      ∃ a cursor', r source cursor = .ok a cursor' ∧
        ∃ b after, f a source cursor' = .ok b after ∧ P b after := by
  constructor
  · rintro ⟨b, after, hok, hb⟩
    obtain ⟨a, cursor', hr, hf⟩ := bind_eq_ok.mp hok
    exact ⟨a, cursor', hr, b, after, hf, hb⟩
  · rintro ⟨a, cursor', hr, b, after, hf, hb⟩
    exact ⟨b, after, bind_eq_ok.mpr ⟨a, cursor', hr, hf⟩, hb⟩

theorem map_eq_ok {r : Reader α} {f : α → β} {cursor cursor' : Cursor} {b : β} :
    (f <$> r) source cursor = .ok b cursor' ↔
      ∃ a, r source cursor = .ok a cursor' ∧ f a = b := by
  show (r >>= fun a => Pure.pure (f a)) source cursor = _ ↔ _
  rw [bind_eq_ok]
  constructor
  · rintro ⟨a, _, hr, hpure⟩
    cases hpure
    exact ⟨a, hr, rfl⟩
  · rintro ⟨a, hr, rfl⟩
    exact ⟨a, cursor', hr, rfl⟩

theorem allocate_eq_ok {size : Nat} {cursor cursor' : Cursor} {u : Unit} :
    allocate size source cursor = .ok u cursor' ↔ source.Affords size ∧ cursor = cursor' := by
  rw [allocate, Source.Affords]
  by_cases h0 : size = 0
  · rw [if_pos h0]
    show EStateM.Result.ok () cursor = _ ↔ _
    simp [h0]
  · rw [if_neg h0]
    show (if size > source.limit then _ else _ : Reader Unit) source cursor = _ ↔ _
    by_cases hlimit : size > source.limit
    · rw [if_pos hlimit]
      show EStateM.Result.error _ _ = _ ↔ _
      simp [h0, Nat.not_le.mpr hlimit]
    · rw [if_neg hlimit]
      by_cases hbound : size ≥ memoryBound
      · rw [if_pos hbound]
        show (if size ≤ source.bytes.length then _ else _ : Reader Unit) source cursor = _ ↔ _
        by_cases hlength : size ≤ source.bytes.length
        · rw [if_pos hlength]
          show EStateM.Result.ok () cursor = _ ↔ _
          simp [hlength, Nat.le_of_not_lt hlimit]
        · rw [if_neg hlength]
          show EStateM.Result.error _ _ = _ ↔ _
          simp [h0, hlength, Nat.not_lt.mpr hbound]
      · rw [if_neg hbound]
        show EStateM.Result.ok () cursor = _ ↔ _
        simp [Nat.lt_of_not_le hbound, Nat.le_of_not_lt hlimit]

theorem skip_eq_ok {count : Nat} {cursor cursor' : Cursor} {u : Unit} :
    skip count source cursor = .ok u cursor' ↔
      (count < Stream.reach ∧ Stream.admits source.bytes.length (cursor.pos + count) = true) ∧
        { cursor with pos := cursor.pos + count } = cursor' := by
  rw [skip]
  by_cases hreach : count ≥ Stream.reach
  · rw [if_pos hreach]
    show EStateM.Result.error _ _ = _ ↔ _
    simp [Nat.not_lt.mpr hreach]
  · rw [if_neg hreach]
    show (if (!Stream.admits source.bytes.length (cursor.pos + count)) = true then _ else _ :
      Reader Unit) source cursor = _ ↔ _
    by_cases hadmits : Stream.admits source.bytes.length (cursor.pos + count) = true
    · rw [if_neg (by simp [hadmits])]
      show EStateM.Result.ok () _ = _ ↔ _
      simp [hadmits, Nat.lt_of_not_le hreach]
    · rw [if_pos (by simp [hadmits])]
      show EStateM.Result.error _ _ = _ ↔ _
      simp [hadmits]

/-! ## Forwards -/

/-- From `pos` the reader comes to `pos'` with `a`, whatever has been noted before. -/
def Yields (r : Reader α) (source : Source) (pos : Nat) (a : α) (pos' : Nat) : Prop :=
  ∀ log, ∃ log', r source ⟨pos, log⟩ = .ok a ⟨pos', log'⟩

namespace Yields

theorem pure (a : α) : Yields (Pure.pure a) source pos a pos := fun log => ⟨log, rfl⟩

theorem bind {r : Reader α} {f : α → Reader β} {a : α} {b : β}
    (hr : Yields r source pos a pos') (hf : Yields (f a) source pos' b pos'') :
    Yields (r >>= f) source pos b pos'' := by
  intro log
  obtain ⟨log', h1⟩ := hr log
  obtain ⟨log'', h2⟩ := hf log'
  exact ⟨log'', bind_eq_ok.mpr ⟨a, _, h1, h2⟩⟩

/-- A result that is worked out of what a reader gave. -/
theorem map {r : Reader α} {f : α → Reader β} {a : α} {b : β}
    (hr : Yields r source pos a pos') (hf : f a = Pure.pure b) :
    Yields (r >>= f) source pos b pos' := hr.bind (hf ▸ pure b)

theorem cast {r : Reader α} {a : α} {pos₁ : Nat} (h : Yields r source pos a pos')
    (hpos : pos' = pos₁) : Yields r source pos a pos₁ := hpos ▸ h

/-- A reader comes to one result. -/
theorem unique {r : Reader α} {a b : α} {log : Log} {cursor : Cursor}
    (h : Yields r source pos a pos') (hok : r source ⟨pos, log⟩ = .ok b cursor) :
    b = a ∧ cursor.pos = pos' := by
  obtain ⟨log', h'⟩ := h log
  rw [h'] at hok
  cases hok
  exact ⟨rfl, rfl⟩

theorem agree {r : Reader α} {a b : α} (h : Yields r source pos a pos')
    (h' : Yields r source pos b pos'') : b = a ∧ pos'' = pos' := by
  obtain ⟨_, hok⟩ := h' #[]
  exact h.unique hok

theorem note (event : Event) : Yields (Reader.note event) source pos () pos :=
  fun log => ⟨log.push event, rfl⟩

theorem position : Yields Reader.position source pos pos pos := fun log => ⟨log, rfl⟩

theorem seek (target : Nat) : Yields (Reader.seek target) source pos () target :=
  fun log => ⟨log, rfl⟩

theorem streamLength : Yields Reader.streamLength source pos source.bytes.length pos :=
  fun log => ⟨log, rfl⟩

theorem ofExcept {x : Except Error α} {a : α} (h : x = .ok a) :
    Yields (Reader.ofExcept x) source pos a pos := by
  subst h
  exact pure a

theorem take {bytes : List UInt8} (h : source.Holds pos bytes) :
    Yields (Reader.take bytes.length) source pos bytes (pos + bytes.length) := by
  intro log
  exact ⟨log, by simp [Reader.take, h.take_eq]⟩

theorem next {byte : UInt8} (h : source.Holds pos [byte]) :
    Yields Reader.next source pos byte (pos + 1) := by
  intro log
  obtain ⟨rest, hrest⟩ := h
  have hget : source.bytes[pos]? = some byte := by
    rw [← Nat.add_zero pos, ← List.getElem?_drop, ← hrest]
    rfl
  exact ⟨log, by simp [Reader.next, hget]⟩

theorem allocate {size : Nat} (h : source.Affords size) :
    Yields (Reader.allocate size) source pos () pos :=
  fun log => ⟨log, allocate_eq_ok.mpr ⟨h, rfl⟩⟩

theorem body {bytes : List UInt8} (h : source.Holds pos bytes)
    (hlimit : bytes.length ≤ source.limit) :
    Yields (Reader.body bytes.length) source pos bytes (pos + bytes.length) := by
  have haffords : source.Affords bytes.length := by
    by_cases hne : bytes = []
    · exact Or.inl (by rw [hne]; rfl)
    · have hend := h.end_le hne
      exact Or.inr ⟨hlimit, Or.inr (by omega)⟩
  exact (allocate haffords).bind (take h)

end Yields

/-! ## Backwards -/

/-- A success moves over `n` bytes, which the stream admits, such that `P` holds of the result and
`n`, and depends on these bytes alone. -/
def Spans (r : Reader α) (P : α → Nat → Prop) : Prop :=
  ∀ source cursor a cursor', r source cursor = .ok a cursor' →
    ∃ n, cursor'.pos = cursor.pos + n ∧ P a n ∧
      (source.Admits cursor.pos → source.Admits (cursor.pos + n)) ∧
        ∀ other, source.Agrees other cursor.pos n → Yields r other cursor.pos a (cursor.pos + n)

namespace Spans

variable {P Q : α → Nat → Prop}

theorem mono {r : Reader α} (h : Spans r P) (himp : ∀ a n, P a n → Q a n) : Spans r Q := by
  intro source cursor a cursor' hok
  obtain ⟨n, hpos, hp, hrest⟩ := h source cursor a cursor' hok
  exact ⟨n, hpos, himp a n hp, hrest⟩

theorem pure {a : α} (h : P a 0) : Spans (Pure.pure a) P := by
  intro source cursor b cursor' hok
  cases hok
  exact ⟨0, rfl, h, id, fun other _ => Yields.pure a⟩

theorem throw {e : Error} : Spans (throw e : Reader α) P := by
  intro source cursor a cursor' hok
  cases hok

theorem bind {r : Reader α} {f : α → Reader β} {R : β → Nat → Prop} (hr : Spans r P)
    (hf : ∀ a n, P a n → Spans (f a) fun b m => R b (n + m)) : Spans (r >>= f) R := by
  intro source cursor b cursor'' hok
  obtain ⟨a, cursor', h₁, h₂⟩ := bind_eq_ok.mp hok
  obtain ⟨n, hn, hp, hadmits, hlocal⟩ := hr source cursor a cursor' h₁
  obtain ⟨m, hm, hq, hadmits', hlocal'⟩ := hf a n hp source cursor' b cursor'' h₂
  rw [hn] at hm hadmits' hlocal'
  rw [Nat.add_assoc] at hm
  refine ⟨n + m, hm, hq, ?_, fun other hagrees => ?_⟩
  · rw [← Nat.add_assoc]
    exact hadmits' ∘ hadmits
  · rw [← Nat.add_assoc]
    exact (hlocal other hagrees.left).bind (hlocal' other hagrees.right)

/-- What would come after a failure does not matter. -/
theorem throw_bind {e : Error} {f : α → Reader β} {R : β → Nat → Prop} :
    Spans ((MonadExcept.throw e : Reader α) >>= f) R :=
  throw.bind (P := fun _ _ => False) fun _ _ h => h.elim

theorem note (event : Event) : Spans (Reader.note event) fun _ n => n = 0 := by
  intro source cursor a cursor' hok
  cases hok
  exact ⟨0, rfl, rfl, id, fun other _ => Yields.note event⟩

theorem position : Spans Reader.position fun _ n => n = 0 := by
  intro source cursor a cursor' hok
  cases hok
  exact ⟨0, rfl, rfl, id, fun other _ => Yields.position⟩

theorem ofExcept (x : Except Error α) : Spans (Reader.ofExcept x) fun a n => n = 0 ∧ x = .ok a := by
  cases x with
  | ok a => exact pure ⟨rfl, rfl⟩
  | error e => exact throw

theorem take (count : Nat) :
    Spans (Reader.take count) fun bytes n => n = count ∧ bytes.length = count := by
  intro source cursor bytes cursor' hok
  simp only [Reader.take] at hok
  split at hok
  next hlen =>
    cases hok
    refine ⟨count, rfl, ⟨rfl, hlen⟩, fun hadmits => ?_, fun other hagrees => ?_⟩
    · by_cases h0 : count = 0
      · rwa [h0]
      · rw [List.length_take, List.length_drop] at hlen
        exact Source.admits_of_le (by omega)
    have hheld : other.Holds cursor.pos ((source.bytes.drop cursor.pos).take count) := by
      rw [← hagrees.2.1]
      exact List.take_prefix count _
    have hyields := Yields.take hheld
    rwa [hlen] at hyields
  next => cases hok

theorem skip (count : Nat) : Spans (Reader.skip count) fun _ n => n = count := by
  intro source cursor u cursor' hok
  obtain ⟨⟨hreach, hadmits⟩, hcursor⟩ := skip_eq_ok.mp hok
  subst hcursor
  refine ⟨count, rfl, rfl, fun _ => hadmits,
    fun other hagrees log => ⟨log, skip_eq_ok.mpr ⟨⟨hreach, ?_⟩, rfl⟩⟩⟩
  simp only [Stream.admits, Bool.or_eq_true, decide_eq_true_eq] at hadmits ⊢
  have hlength := hagrees.2.2
  omega

theorem body (size : Nat) :
    Spans (Reader.body size) fun bytes n => n = size ∧ bytes.length = size := by
  intro source cursor bytes cursor' hok
  obtain ⟨_, _, hallocate, htake⟩ := bind_eq_ok.mp hok
  obtain ⟨haffords, rfl⟩ := allocate_eq_ok.mp hallocate
  obtain ⟨n, hpos, ⟨hn, hlen⟩, hadmits, hlocal⟩ := take size source cursor bytes cursor' htake
  refine ⟨n, hpos, ⟨hn, hlen⟩, hadmits, fun other hagrees => ?_⟩
  refine (Yields.allocate ?_).bind (hlocal other hagrees)
  -- what was read lies in the other stream too, so that one is not too short either
  rcases haffords with h0 | ⟨hlimit, hbound⟩
  · exact Or.inl h0
  · refine Or.inr ⟨hagrees.1 ▸ hlimit, ?_⟩
    have hlength := hagrees.2.2
    omega

/-- What a reader comes to in one stream, it comes to in another that agrees as far as it goes. -/
theorem carry {r : Reader α} {other : Source} {a : α} {stop : Nat} (h : Spans r P)
    (hyields : Yields r source pos a pos') (hle : pos' ≤ stop)
    (hagrees : source.Agrees other 0 stop) : Yields r other pos a pos' := by
  obtain ⟨_, hok⟩ := hyields #[]
  obtain ⟨n, hpos, _, _, hlocal⟩ := h source _ a _ hok
  dsimp only at hpos hlocal
  subst hpos
  exact hlocal other (hagrees.within hle)

end Spans

/-! ## Looking ahead -/

/-- A success moves over `n` bytes such that `P` holds of the result and `n`, and depends on these
bytes and on as many after them as the result tells. -/
def Foresees (r : Reader α) (ahead : α → Nat) (P : α → Nat → Prop) : Prop :=
  ∀ source cursor a cursor', r source cursor = .ok a cursor' →
    ∃ n, cursor'.pos = cursor.pos + n ∧ P a n ∧
      (source.Admits cursor.pos → source.Admits (cursor.pos + n)) ∧
        ∀ other, source.Agrees other cursor.pos (n + ahead a) →
          Yields r other cursor.pos a (cursor.pos + n)

/-- A success goes back by `n` bytes with a result of which `P` holds, whatever the stream is. -/
def Retreats (r : Reader α) (n : Nat) (P : α → Prop) : Prop :=
  ∀ source cursor a cursor', r source cursor = .ok a cursor' →
    cursor'.pos = cursor.pos - n ∧ P a ∧ ∀ other, Yields r other cursor.pos a (cursor.pos - n)

theorem Retreats.mono {r : Reader α} {n : Nat} {P Q : α → Prop} (h : Retreats r n P)
    (himp : ∀ a, P a → Q a) : Retreats r n Q := by
  intro source cursor a cursor' hok
  obtain ⟨hpos, hp, hyields⟩ := h source cursor a cursor' hok
  exact ⟨hpos, himp a hp, hyields⟩

namespace Foresees

variable {ahead : α → Nat} {P Q : α → Nat → Prop}

theorem of_spans {r : Reader α} (h : Spans r P) : Foresees r ahead P := by
  intro source cursor a cursor' hok
  obtain ⟨n, hpos, hp, hadmits, hlocal⟩ := h source cursor a cursor' hok
  exact ⟨n, hpos, hp, hadmits, fun other hagrees => hlocal other hagrees.left⟩

theorem mono {r : Reader α} (h : Foresees r ahead P) (himp : ∀ a n, P a n → Q a n) :
    Foresees r ahead Q := by
  intro source cursor a cursor' hok
  obtain ⟨n, hpos, hp, hrest⟩ := h source cursor a cursor' hok
  exact ⟨n, hpos, himp a n hp, hrest⟩

/-- After a step forward the reader goes on, or goes back over it and so has only looked. -/
theorem bind {r : Reader α} {f : α → Reader β} {ahead : β → Nat} {R : β → Nat → Prop}
    (hr : Spans r P)
    (hf : ∀ a n, P a n → Foresees (f a) ahead (fun b m => R b (n + m)) ∨
      Retreats (f a) n fun b => n ≤ ahead b ∧ R b 0) :
    Foresees (r >>= f) ahead R := by
  intro source cursor b cursor'' hok
  obtain ⟨a, cursor', h₁, h₂⟩ := bind_eq_ok.mp hok
  obtain ⟨n, hn, hp, hadmits, hlocal⟩ := hr source cursor a cursor' h₁
  rcases hf a n hp with hf | hf
  · obtain ⟨m, hm, hq, hadmits', hlocal'⟩ := hf source cursor' b cursor'' h₂
    rw [hn] at hm hadmits' hlocal'
    rw [Nat.add_assoc] at hm
    refine ⟨n + m, hm, hq, ?_, fun other hagrees => ?_⟩
    · rw [← Nat.add_assoc]
      exact hadmits' ∘ hadmits
    · rw [Nat.add_assoc] at hagrees
      rw [← Nat.add_assoc]
      exact (hlocal other hagrees.left).bind (hlocal' other hagrees.right)
  · obtain ⟨hm, ⟨hle, hq⟩, hyields⟩ := hf source cursor' b cursor'' h₂
    rw [hn, Nat.add_sub_cancel] at hm
    rw [hn, Nat.add_sub_cancel] at hyields
    refine ⟨0, hm, hq, id, fun other hagrees => ?_⟩
    rw [Nat.zero_add, ← Nat.add_sub_cancel' hle] at hagrees
    exact (hlocal other hagrees.left).bind (hyields other)

theorem map {r : Reader α} {f : α → Reader β} {ahead' : β → Nat} {R : β → Nat → Prop}
    (h : Foresees r ahead P) (hf : ∀ a, ∃ b, f a = Pure.pure b ∧ ahead' b = ahead a ∧
      ∀ n, P a n → R b n) : Foresees (r >>= f) ahead' R := by
  intro source cursor b cursor'' hok
  obtain ⟨a, cursor', h₁, h₂⟩ := bind_eq_ok.mp hok
  obtain ⟨b', hpure, hahead, himp⟩ := hf a
  rw [hpure] at h₂
  cases h₂
  obtain ⟨n, hpos, hp, hadmits, hlocal⟩ := h source cursor a _ h₁
  exact ⟨n, hpos, himp n hp, hadmits, fun other hagrees =>
    (hlocal other (hahead ▸ hagrees)).map hpure⟩

end Foresees

/-! ## On the same stream -/

/-- On the same stream the reader repeats its result, whatever has been noted. -/
def Steady (r : Reader α) : Prop :=
  ∀ source cursor a cursor', r source cursor = .ok a cursor' →
    Yields r source cursor.pos a cursor'.pos

namespace Steady

theorem of_spans {r : Reader α} {P : α → Nat → Prop} (h : Spans r P) : Steady r := by
  intro source cursor a cursor' hok
  obtain ⟨n, hpos, _, _, hlocal⟩ := h source cursor a cursor' hok
  rw [hpos]
  exact hlocal source (Source.Agrees.refl _ _ _)

theorem of_foresees {r : Reader α} {ahead : α → Nat} {P : α → Nat → Prop}
    (h : Foresees r ahead P) : Steady r := by
  intro source cursor a cursor' hok
  obtain ⟨n, hpos, _, _, hlocal⟩ := h source cursor a cursor' hok
  rw [hpos]
  exact hlocal source (Source.Agrees.refl _ _ _)

theorem pure (a : α) : Steady (Pure.pure a) := of_spans (Spans.pure (P := fun _ _ => True) trivial)

theorem throw {e : Error} : Steady (throw e : Reader α) :=
  of_spans (Spans.throw (P := fun _ _ => True))

theorem bind {r : Reader α} {f : α → Reader β} (hr : Steady r) (hf : ∀ a, Steady (f a)) :
    Steady (r >>= f) := by
  intro source cursor b cursor'' hok
  obtain ⟨a, cursor', h₁, h₂⟩ := bind_eq_ok.mp hok
  exact (hr source cursor a cursor' h₁).bind (hf a source cursor' b cursor'' h₂)

theorem seek (target : Nat) : Steady (Reader.seek target) := by
  intro source cursor u cursor' hok
  cases hok
  exact Yields.seek target

theorem streamLength : Steady Reader.streamLength := by
  intro source cursor length cursor' hok
  cases hok
  exact Yields.streamLength

end Steady

/-- On the same stream the reader repeats its result, which counts the bytes that it moved over. -/
def Advances (r : Reader α) (count : α → Nat) : Prop :=
  ∀ source cursor a cursor', r source cursor = .ok a cursor' →
    cursor'.pos = cursor.pos + count a ∧ Yields r source cursor.pos a (cursor.pos + count a)

theorem Advances.of_spans {r : Reader α} {count : α → Nat} (h : Spans r fun a n => n = count a) :
    Advances r count := by
  intro source cursor a cursor' hok
  obtain ⟨n, hpos, rfl, _, hlocal⟩ := h source cursor a cursor' hok
  exact ⟨hpos, hlocal source (.refl _ _ _)⟩

end Reader

end Ebml
