import Ebml.Proofs.Stream.Reading

/-!
# The bytes that a reader moved over

A format is a relation between a value and the bytes that store it.  `Reader.Parses r source P`
says that a success of the reader is sound for the format `P`: the bytes that it moved over are
related to its result.  Formats that stand one after the other compose along `bind`.

The way back, that whatever is in the format is accepted, is `Reader.Yields`.  A reader of which
both are known depends on nothing but the bytes of the format (`Parses.spans`).
-/

namespace Ebml

theorem Source.Holds.append {source : Source} {pos : Nat} {first second : List UInt8}
    (h : source.Holds pos first) (h' : source.Holds (pos + first.length) second) :
    source.Holds pos (first ++ second) := by
  obtain ⟨rest, hrest⟩ := h
  rw [Source.Holds, ← List.drop_drop, ← hrest, List.drop_left] at h'
  rw [Source.Holds, ← hrest]
  exact (List.prefix_append_right_inj first).mpr h'

/-- Two strings of one length at one position are the same. -/
theorem Source.Holds.unique {source : Source} {pos : Nat} {bytes other : List UInt8}
    (h : source.Holds pos bytes) (h' : source.Holds pos other)
    (hlength : bytes.length = other.length) : bytes = other := by
  rw [← h.take_eq, ← h'.take_eq, hlength]

/-- A stream that agrees with another on some bytes has them as well. -/
theorem Source.Agrees.holds {source other : Source} {pos : Nat} {bytes : List UInt8}
    (h : source.Agrees other pos bytes.length) (hheld : source.Holds pos bytes) :
    other.Holds pos bytes := by
  rw [Source.Holds, ← hheld.take_eq, ← h.2.1]
  exact List.take_prefix _ _

namespace Reader

variable {α β : Type} {source : Source}

/-- A success moves over bytes of which, with the result, `P` holds. -/
def Parses (r : Reader α) (source : Source) (P : α → List UInt8 → Prop) : Prop :=
  ∀ cursor a cursor', r source cursor = .ok a cursor' →
    ∃ bytes, source.Holds cursor.pos bytes ∧ cursor'.pos = cursor.pos + bytes.length ∧ P a bytes

namespace Parses

variable {P Q : α → List UInt8 → Prop}

theorem mono {r : Reader α} (h : Parses r source P) (himp : ∀ a bytes, P a bytes → Q a bytes) :
    Parses r source Q := by
  intro cursor a cursor' hok
  obtain ⟨bytes, hheld, hpos, hp⟩ := h cursor a cursor' hok
  exact ⟨bytes, hheld, hpos, himp a bytes hp⟩

theorem pure {a : α} (h : P a []) : Parses (Pure.pure a) source P := by
  intro cursor b cursor' hok
  cases hok
  exact ⟨[], List.nil_prefix, rfl, h⟩

theorem throw {e : Error} : Parses (throw e : Reader α) source P := by
  intro cursor a cursor' hok
  cases hok

theorem bind {r : Reader α} {f : α → Reader β} {R : β → List UInt8 → Prop}
    (hr : Parses r source P)
    (hf : ∀ a bytes, P a bytes → Parses (f a) source fun b rest => R b (bytes ++ rest)) :
    Parses (r >>= f) source R := by
  intro cursor b cursor'' hok
  obtain ⟨a, cursor', h₁, h₂⟩ := bind_eq_ok.mp hok
  obtain ⟨bytes, hheld, hpos, hp⟩ := hr cursor a cursor' h₁
  obtain ⟨rest, hheld', hpos', hr⟩ := hf a bytes hp cursor' b cursor'' h₂
  rw [hpos] at hheld' hpos'
  refine ⟨bytes ++ rest, hheld.append hheld', ?_, hr⟩
  rw [hpos', List.length_append, Nat.add_assoc]

/-- A result that is worked out of what a reader gave. -/
theorem map {r : Reader α} {f : α → β} {R : β → List UInt8 → Prop} (hr : Parses r source P)
    (himp : ∀ a bytes, P a bytes → R (f a) bytes) :
    Parses (r >>= fun a => Pure.pure (f a)) source R :=
  hr.bind fun a bytes hp => pure ((List.append_nil bytes).symm ▸ himp a bytes hp)

/-- What would come after a failure does not matter. -/
theorem throw_bind {e : Error} {f : α → Reader β} {R : β → List UInt8 → Prop} :
    Parses ((MonadExcept.throw e : Reader α) >>= f) source R :=
  throw.bind (P := fun _ _ => False) fun _ _ h => h.elim

theorem note (event : Event) : Parses (Reader.note event) source fun _ bytes => bytes = [] := by
  intro cursor a cursor' hok
  cases hok
  exact ⟨[], List.nil_prefix, rfl, rfl⟩

theorem ofExcept (x : Except Error α) :
    Parses (Reader.ofExcept x) source fun a bytes => bytes = [] ∧ x = .ok a := by
  cases x with
  | ok a => exact pure ⟨rfl, rfl⟩
  | error e => exact throw

theorem take (count : Nat) :
    Parses (Reader.take count) source fun octets bytes =>
      octets = bytes ∧ bytes.length = count := by
  intro cursor octets cursor' hok
  simp only [Reader.take] at hok
  split at hok
  next hlength =>
    cases hok
    exact ⟨_, List.take_prefix count _, by rw [hlength], rfl, hlength⟩
  next => cases hok

theorem next : Parses Reader.next source fun byte bytes => bytes = [byte] := by
  intro cursor byte cursor' hok
  simp only [Reader.next] at hok
  split at hok
  next found hfound =>
    cases hok
    refine ⟨[byte], ?_, rfl, rfl⟩
    obtain ⟨hlt, hbyte⟩ := List.getElem?_eq_some_iff.mp hfound
    rw [Source.Holds, List.drop_eq_getElem_cons hlt, hbyte]
    exact List.prefix_append [byte] _
  next => cases hok

theorem body (size : Nat) :
    Parses (Reader.body size) source fun octets bytes =>
      octets = bytes ∧ bytes.length = size ∧ size ≤ source.limit := by
  intro cursor octets cursor' hok
  obtain ⟨_, _, hallocate, htake⟩ := bind_eq_ok.mp hok
  obtain ⟨haffords, rfl⟩ := allocate_eq_ok.mp hallocate
  obtain ⟨bytes, hheld, hpos, hoctets, hlength⟩ := take size cursor octets cursor' htake
  refine ⟨bytes, hheld, hpos, hoctets, hlength, ?_⟩
  rcases haffords with rfl | ⟨hlimit, _⟩
  · exact Nat.zero_le _
  · exact hlimit

/-- A reader that accepts a format and nothing else depends on the allocation limit and the bytes of
the format alone. -/
theorem spans_within {r : Reader α} {G : Nat → α → List UInt8 → Prop}
    (hsound : ∀ source, Parses r source (G source.limit))
    (hcomplete : ∀ source pos a bytes, G source.limit a bytes → source.Holds pos bytes →
      Yields r source pos a (pos + bytes.length)) :
    Spans r fun a n => ∃ limit bytes, n = bytes.length ∧ G limit a bytes := by
  intro source cursor a cursor' hok
  obtain ⟨bytes, hheld, hpos, hg⟩ := hsound source cursor a cursor' hok
  refine ⟨bytes.length, hpos, ⟨_, bytes, rfl, hg⟩, fun hadmits => ?_, fun other hagrees =>
    hcomplete other _ a bytes (hagrees.1 ▸ hg) (hagrees.holds hheld)⟩
  by_cases hne : bytes = []
  · rwa [hne]
  · exact Source.admits_of_le (hheld.end_le hne)

theorem spans {r : Reader α} (hsound : ∀ source, Parses r source P)
    (hcomplete : ∀ source pos a bytes, P a bytes → source.Holds pos bytes →
      Yields r source pos a (pos + bytes.length)) :
    Spans r fun a n => ∃ bytes, n = bytes.length ∧ P a bytes :=
  (spans_within (G := fun _ => P) hsound hcomplete).mono fun _ _ ⟨_, h⟩ => h

end Parses

end Reader

end Ebml
