import Ebml.Proofs.Stream.Overlay
import Ebml.Stream.Writer

/-!
# What a writer emits

`Writer.Emits sure w bytes a` says all that matters of a writer that only goes forward: it lays
`bytes` over the stream and returns `a`.  It may fail on the way, and then what lies before the
position stays as it was.  If `sure` holds, it fails only for want of room in a fixed stream.

Such writers compose along `++` (`Emits.bind`), so one statement about each function of the library
tells both that it writes nothing but its encoding and when it cannot fail.

The position may not be past the end of the stream.  A writer that begins by writing sees to that
itself (`Writer.FillsGap`): it fills the gap of a stream that grows, and fails on a fixed one.
-/

namespace Ebml.Writer

variable {α β : Type} {sure : Prop}

/-- The writer lays `bytes` over the stream and returns `a`, or fails and keeps what lies before
the position.  If `sure` holds, it fails only on a stream that does not grow. -/
def Emits (sure : Prop) (w : Writer α) (bytes : List UInt8) (a : α) : Prop :=
  ∀ sink : Sink, sink.stream.Settled →
    (∃ log, w sink = .ok a ⟨sink.stream.overlay bytes, log⟩) ∨
      ∃ e sink', w sink = .error e sink' ∧
        sink'.stream.data.take sink.stream.pos = sink.stream.data.take sink.stream.pos ∧
        (sure → sink.stream.fixed = true)

section

variable {σ : Type} {w : EStateM Error σ α} {f : α → EStateM Error σ β} {state state' : σ}

/-- A computation goes on where the first step succeeded, also if it changes more than a sink. -/
theorem bind_ok {a : α} (h : w state = .ok a state') : (w >>= f) state = f a state' := by
  show EStateM.bind w f state = _
  rw [EStateM.bind, h]

theorem bind_error {e : Error} (h : w state = .error e state') :
    (w >>= f) state = .error e state' := by
  show EStateM.bind w f state = _
  rw [EStateM.bind, h]

theorem bind_eq_ok {state'' : σ} {b : β} :
    (w >>= f) state = .ok b state'' ↔
      ∃ a state', w state = .ok a state' ∧ f a state' = .ok b state'' := by
  cases h : w state with
  | ok a state' =>
      rw [bind_ok h]
      constructor
      · intro hok
        exact ⟨a, state', rfl, hok⟩
      · rintro ⟨_, _, heq, hok⟩
        cases heq
        exact hok
  | error e state' =>
      rw [bind_error h]
      constructor
      · intro hok
        cases hok
      · rintro ⟨_, _, heq, _⟩
        cases heq

end

/-- Zeros are emitted like any other bytes, if there are any. -/
theorem emitZeros_eq {count : Nat} (h : count ≠ 0) :
    emitZeros count = emit (List.replicate count 0) := by
  funext sink
  rw [emitZeros, if_neg h, Stream.writeZeros_eq, emit]

/-- A stream that grows takes all the bytes. -/
theorem emitCounted_of_growing {stream : Stream} (h : stream.fixed = false) (bytes : List UInt8)
    (log : Log) : emitCounted bytes ⟨stream, log⟩ =
      .ok bytes.length ⟨stream.fillGap.overlay bytes, log⟩ := by
  have hemit : emit bytes ⟨stream, log⟩ = .ok () ⟨stream.fillGap.overlay bytes, log⟩ := by
    simp [emit, finish, Stream.write, h]
  exact bind_ok hemit

namespace Emits

theorem pure (a : α) : Emits sure (Pure.pure a) [] a := by
  intro sink _
  exact Or.inl ⟨sink.log, by rw [Stream.overlay_nil]; rfl⟩

/-- A failure that `sure` rules out. -/
theorem throw {e : Error} {bytes : List UInt8} {a : α} (h : ¬ sure) :
    Emits sure (throw e) bytes a := by
  intro sink _
  exact Or.inr ⟨e, sink, rfl, rfl, fun hs => absurd hs h⟩

/-- One writer after another emits the one's bytes and then the other's. -/
theorem bind {w : Writer α} {f : α → Writer β} {first second : List UInt8} {a : α} {b : β}
    (hw : Emits sure w first a) (hf : Emits sure (f a) second b) :
    Emits sure (w >>= f) (first ++ second) b := by
  intro sink hs
  rcases hw sink hs with ⟨log, h1⟩ | ⟨e, sink', h1, hkeep, hfixed⟩
  · have hs' := Stream.settled_overlay hs first
    rw [bind_ok h1]
    rcases hf ⟨sink.stream.overlay first, log⟩ hs' with ⟨log', h2⟩ | ⟨e, sink', h2, hkeep, hfixed⟩
    · exact Or.inl ⟨log', by rw [h2, Stream.overlay_overlay hs]⟩
    · refine Or.inr ⟨e, sink', h2, ?_, hfixed⟩
      have hpre := congrArg (List.take sink.stream.pos) hkeep
      rw [List.take_take, List.take_take, Stream.pos_overlay,
        Nat.min_eq_left (Nat.le_add_right _ _)] at hpre
      rw [hpre, Stream.take_overlay hs first (Nat.le_refl _)]
  · exact Or.inr ⟨e, sink', bind_error h1, hkeep, hfixed⟩

/-- A result that is worked out of what a writer returned. -/
theorem map {w : Writer α} {f : α → Writer β} {bytes : List UInt8} {a : α} {b : β}
    (hw : Emits sure w bytes a) (hf : f a = Pure.pure b) : Emits sure (w >>= f) bytes b := by
  have h := bind hw (hf ▸ pure b)
  rwa [List.append_nil] at h

theorem cast {w : Writer α} {bytes bytes' : List UInt8} {a a' : α}
    (h : Emits sure w bytes a) (hbytes : bytes = bytes') (ha : a = a') :
    Emits sure w bytes' a' := hbytes ▸ ha ▸ h

theorem note (event : Event) : Emits sure (Writer.note event) [] () := by
  intro sink _
  exact Or.inl ⟨sink.log.push event, by rw [Stream.overlay_nil]; rfl⟩

theorem emit (bytes : List UInt8) : Emits sure (Writer.emit bytes) bytes () := by
  intro sink hs
  rcases Stream.write_of_settled hs bytes with hw | ⟨hfixed, hw⟩
  · exact Or.inl ⟨sink.log, by simp [Writer.emit, finish, hw]⟩
  · refine Or.inr ⟨.writeError .unwritten, { sink with stream := _ },
      by simp [Writer.emit, finish, hw]; rfl, ?_, fun _ => hfixed⟩
    exact Stream.take_overlay hs _ (Nat.le_refl _)

theorem emitCounted (bytes : List UInt8) :
    Emits sure (Writer.emitCounted bytes) bytes bytes.length :=
  (emit bytes).map rfl

theorem emitZeros (count : Nat) :
    Emits sure (Writer.emitZeros count) (List.replicate count 0) () := by
  by_cases h0 : count = 0
  · subst h0
    exact pure ()
  · rw [emitZeros_eq h0]
    exact emit _

theorem each {write : α → Writer Nat} {encoding : α → List UInt8} {count : α → Nat} :
    ∀ {items : List α}, (∀ item ∈ items, Emits sure (write item) (encoding item) (count item)) →
      Emits sure (Writer.each write items) (items.flatMap encoding) (items.map count).sum
  | [], _ => pure 0
  | item :: items, h => by
      have hfirst := h item (List.mem_cons_self ..)
      have hrest := each fun other hm => h other (List.mem_cons_of_mem item hm)
      rw [List.flatMap_cons, List.map_cons, List.sum_cons]
      exact hfirst.bind (hrest.map rfl)

/-- Writers that return the number of bytes that they emit, for the items of a list. -/
theorem eachCounted {write : α → Writer Nat} {encoding : α → List UInt8} {items : List α}
    (h : ∀ item ∈ items, Emits sure (write item) (encoding item) (encoding item).length) :
    Emits sure (Writer.each write items) (items.flatMap encoding)
      (items.flatMap encoding).length := by
  rw [List.length_flatMap]
  exact each h

/-- On a stream that grows, a writer that is sure to succeed does. -/
theorem ok_of_growing {w : Writer α} {bytes : List UInt8} {a : α} (h : Emits sure w bytes a)
    (hsure : sure) {stream : Stream} (hs : stream.Settled) (hgrow : stream.fixed = false)
    (log : Log) : ∃ log', w ⟨stream, log⟩ = .ok a ⟨stream.overlay bytes, log'⟩ := by
  rcases h ⟨stream, log⟩ hs with hok | ⟨_, _, _, _, hfixed⟩
  · exact hok
  · rw [hfixed hsure] at hgrow
    cases hgrow

/-- Whatever the stream, success means that the bytes are in it. -/
theorem of_ok {w : Writer α} {bytes : List UInt8} {a a' : α} (h : Emits sure w bytes a)
    {sink sink' : Sink} (hs : sink.stream.Settled) (hok : w sink = .ok a' sink') :
    a' = a ∧ sink'.stream = sink.stream.overlay bytes := by
  rcases h sink hs with ⟨log, h1⟩ | ⟨_, _, h1, _, _⟩
  · rw [h1] at hok
    cases hok
    exact ⟨rfl, rfl⟩
  · rw [h1] at hok
    cases hok

/-- What lies before the position stays, also if the writer fails. -/
theorem of_error {w : Writer α} {bytes : List UInt8} {a : α} {e : Error} (h : Emits sure w bytes a)
    {sink sink' : Sink} (hs : sink.stream.Settled) (herr : w sink = .error e sink') :
    sink'.stream.data.take sink.stream.pos = sink.stream.data.take sink.stream.pos := by
  rcases h sink hs with ⟨log, h1⟩ | ⟨_, _, h1, hkeep, _⟩
  · rw [h1] at herr
    cases herr
  · rw [h1] at herr
    cases herr
    exact hkeep

end Emits

/-! ## Gaps -/

/-- On a stream that grows, the writer first fills the gap before the position. -/
def Settles (w : Writer α) : Prop :=
  ∀ sink : Sink, sink.stream.fixed = false → w sink = w { sink with stream := sink.stream.fillGap }

theorem Settles.bind {w : Writer α} (h : Settles w) (f : α → Writer β) : Settles (w >>= f) := by
  intro sink hgrow
  show EStateM.bind w f sink = EStateM.bind w f _
  rw [EStateM.bind, EStateM.bind, h sink hgrow]

theorem Settles.note {w : Writer α} (h : Settles w) (event : Event) :
    Settles (do Writer.note event; w) := fun sink hgrow =>
  h { sink with log := sink.log.push event } hgrow

/-- The gap is filled even if nothing is emitted. -/
theorem settles_emit (bytes : List UInt8) : Settles (emit bytes) := by
  intro sink hgrow
  have hsame : sink.stream.fillGap.fillGap = sink.stream.fillGap :=
    Stream.fillGap_of_settled (Stream.settled_fillGap _)
  simp [emit, finish, Stream.write, hgrow, hsame]

/-- The writer begins by writing something.  So on a stream that grows it first fills the gap before
the position, and on a fixed one it fails if there is a gap. -/
structure FillsGap (w : Writer α) : Prop where
  fills : Settles w
  refuses : ∀ sink : Sink, sink.stream.fixed = true → ¬ sink.stream.Settled →
    ∃ e sink', w sink = .error e sink'

theorem fillsGap_emit {bytes : List UInt8} (h : bytes ≠ []) : FillsGap (emit bytes) where
  fills := settles_emit bytes
  refuses sink hfixed hgap := by
    have hroom : ¬ bytes.length ≤ sink.stream.room := by
      have hpos := List.length_pos_iff.mpr h
      rw [Stream.Settled] at hgap
      rw [Stream.room]
      omega
    exact ⟨.writeError .unwritten, ⟨sink.stream.overlay (bytes.take sink.stream.room), sink.log⟩,
      by simp [emit, finish, Stream.write, hfixed, hroom]⟩

namespace FillsGap

variable {w : Writer α} {bytes : List UInt8} {a a' : α} {sink sink' : Sink}

theorem bind (h : FillsGap w) (f : α → Writer β) : FillsGap (w >>= f) where
  fills := h.fills.bind f
  refuses sink hfixed hgap := by
    obtain ⟨e, sink', herror⟩ := h.refuses sink hfixed hgap
    exact ⟨e, sink', bind_error herror⟩

/-- On a stream that grows, a writer that is sure to succeed does, wherever the position is. -/
theorem ok_of_growing (h : FillsGap w) (hemits : Emits sure w bytes a) (hsure : sure)
    {stream : Stream} (hgrow : stream.fixed = false) (log : Log) :
    ∃ log', w ⟨stream, log⟩ = .ok a ⟨stream.fillGap.overlay bytes, log'⟩ := by
  rw [h.fills ⟨stream, log⟩ hgrow]
  exact hemits.ok_of_growing hsure (Stream.settled_fillGap _) hgrow log

/-- On a stream that grows, success means that the bytes follow what was there, up to a gap. -/
theorem of_ok_of_growing (h : FillsGap w) (hemits : Emits sure w bytes a)
    (hgrow : sink.stream.fixed = false) (hok : w sink = .ok a' sink') :
    a' = a ∧ sink'.stream = sink.stream.fillGap.overlay bytes := by
  rw [h.fills sink hgrow] at hok
  exact hemits.of_ok (Stream.settled_fillGap _) hok

/-- Whatever the stream and the position, success means that the bytes are in the stream. -/
theorem of_ok (h : FillsGap w) (hemits : Emits sure w bytes a) (hok : w sink = .ok a' sink') :
    a' = a ∧
      ∃ s : Stream, s.Settled ∧ s.pos = sink.stream.pos ∧ sink'.stream = s.overlay bytes := by
  by_cases hsettled : sink.stream.Settled
  · obtain ⟨ha, hstream⟩ := hemits.of_ok hsettled hok
    exact ⟨ha, sink.stream, hsettled, rfl, hstream⟩
  · cases hfixed : sink.stream.fixed with
    | true =>
        obtain ⟨_, _, herror⟩ := h.refuses sink hfixed hsettled
        rw [herror] at hok
        cases hok
    | false =>
        obtain ⟨ha, hstream⟩ := h.of_ok_of_growing hemits hfixed hok
        exact ⟨ha, sink.stream.fillGap, Stream.settled_fillGap _, rfl, hstream⟩

end FillsGap

end Ebml.Writer
