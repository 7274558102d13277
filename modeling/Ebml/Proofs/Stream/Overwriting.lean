import Ebml.Proofs.Stream.Extent
import Ebml.Proofs.Stream.Reading

/-!
# Writing over what is there

Where a stream already holds as many bytes as are to be written, it does not matter whether it can
grow: a writer that lays its bytes over them succeeds (`Writer.Overwrites`).  The stream keeps its
length, and all other bytes (`Stream.written_overlay_of_le`).  So nothing changes for a reader that
keeps to other bytes (`Stream.Written.agrees`).
-/

namespace Ebml

theorem Stream.written_overlay_of_le {s : Stream} {bytes : List UInt8}
    (h : s.pos + bytes.length ≤ s.data.length) :
    s.Written (s.overlay bytes) bytes.length ∧ (s.overlay bytes).data.length = s.data.length := by
  have hsettled : s.Settled := Nat.le_trans (Nat.le_add_right _ _) h
  constructor
  · have hwritten := s.written_overlay bytes
    rwa [fillGap_of_settled hsettled] at hwritten
  · rw [length_overlay hsettled]
    exact Nat.max_eq_left h

/-- A move past bytes that the stream holds counts like writing them. -/
theorem Stream.Written.move {s t : Stream} {n m : Nat} (h : s.Written t n)
    (hlength : t.data.length = s.data.length) (hroom : s.pos + (n + m) ≤ s.data.length) :
    s.Written { t with pos := t.pos + m } (n + m) where
  pos_eq := by
    show t.pos + m = _
    rw [h.pos_eq, Nat.add_assoc]
  length_eq _ := by
    show t.data.length = _
    rw [hlength, Nat.max_eq_left hroom]
  kept i hi houtside := h.kept i hi (by omega)

/-- On bytes that were not written to, the stream agrees with what it was. -/
theorem Stream.Written.agrees {s t : Stream} {n pos m : Nat} (h : s.Written t n)
    (hlength : t.data.length = s.data.length) (houtside : pos + m ≤ s.pos ∨ s.pos + n ≤ pos)
    (limit : Nat) : (⟨s.data, limit⟩ : Source).Agrees ⟨t.data, limit⟩ pos m := by
  refine ⟨rfl, List.ext_getElem? fun i => ?_, Or.inl (Nat.le_of_eq hlength.symm)⟩
  rw [List.getElem?_take, List.getElem?_take]
  split
  next hi =>
    rw [List.getElem?_drop, List.getElem?_drop]
    by_cases hwithin : pos + i < s.data.length
    · exact h.kept _ hwithin (by omega)
    · rw [List.getElem?_eq_none (Nat.le_of_not_lt hwithin),
        List.getElem?_eq_none (by rw [hlength]; exact Nat.le_of_not_lt hwithin)]
  next => rfl

namespace Writer

variable {α β : Type}

theorem skip_eq_ok {count : Nat} {sink sink' : Sink} {u : Unit} :
    skip count sink = .ok u sink' ↔
      (count < Stream.reach ∧
        Stream.admits sink.stream.data.length (sink.stream.pos + count) = true) ∧
        { sink with stream := { sink.stream with pos := sink.stream.pos + count } } = sink' := by
  rw [skip]
  by_cases hreach : count ≥ Stream.reach
  · rw [if_pos hreach]
    show EStateM.Result.error _ _ = _ ↔ _
    simp [Nat.not_lt.mpr hreach]
  · rw [if_neg hreach]
    show (if (!Stream.admits sink.stream.data.length (sink.stream.pos + count)) = true then _
      else _ : Writer Unit) sink = _ ↔ _
    by_cases hadmits : Stream.admits sink.stream.data.length (sink.stream.pos + count) = true
    · rw [if_neg (by simp [hadmits])]
      show EStateM.Result.ok () _ = _ ↔ _
      simp [hadmits, Nat.lt_of_not_le hreach]
    · rw [if_pos (by simp [hadmits])]
      show EStateM.Result.error _ _ = _ ↔ _
      simp [hadmits]

/-- The writer lays `bytes` over as many of the stream and returns `a`. -/
def Overwrites (w : Writer α) (bytes : List UInt8) (a : α) : Prop :=
  ∀ sink : Sink, sink.stream.pos + bytes.length ≤ sink.stream.data.length →
    ∃ log, w sink = .ok a ⟨sink.stream.overlay bytes, log⟩

namespace Overwrites

theorem pure (a : α) : Overwrites (Pure.pure a) [] a := by
  intro sink _
  exact ⟨sink.log, by rw [Stream.overlay_nil]; rfl⟩

theorem bind {w : Writer α} {f : α → Writer β} {first second : List UInt8} {a : α} {b : β}
    (hw : Overwrites w first a) (hf : Overwrites (f a) second b) :
    Overwrites (w >>= f) (first ++ second) b := by
  intro sink hroom
  rw [List.length_append] at hroom
  have hfirst : sink.stream.pos + first.length ≤ sink.stream.data.length := by omega
  obtain ⟨log, hok⟩ := hw sink hfirst
  obtain ⟨log', hok'⟩ := hf ⟨sink.stream.overlay first, log⟩ (by
    rw [(Stream.written_overlay_of_le hfirst).2, Stream.pos_overlay, Nat.add_assoc]
    exact hroom)
  refine ⟨log', ?_⟩
  rw [bind_ok hok, hok', Stream.overlay_overlay (Nat.le_trans (Nat.le_add_right _ _) hroom)]

/-- A result that is worked out of what a writer returned. -/
theorem map {w : Writer α} {f : α → Writer β} {bytes : List UInt8} {a : α} {b : β}
    (hw : Overwrites w bytes a) (hf : f a = Pure.pure b) : Overwrites (w >>= f) bytes b := by
  have h := hw.bind (hf ▸ pure b)
  rwa [List.append_nil] at h

theorem emit (bytes : List UInt8) : Overwrites (Writer.emit bytes) bytes () := by
  intro sink hroom
  have hsettled : sink.stream.Settled := Nat.le_trans (Nat.le_add_right _ _) hroom
  rcases Stream.write_of_settled hsettled bytes with hwrite | ⟨hfixed, hwrite⟩
  · exact ⟨sink.log, by simp [Writer.emit, finish, hwrite]⟩
  · -- a fixed stream has room for the bytes as well
    have hle : bytes.length ≤ sink.stream.room := by
      rw [Stream.room]
      omega
    simp [Stream.write, hfixed, hle] at hwrite

theorem emitCounted (bytes : List UInt8) :
    Overwrites (Writer.emitCounted bytes) bytes bytes.length :=
  (emit bytes).map rfl

theorem emitZeros (count : Nat) :
    Overwrites (Writer.emitZeros count) (List.replicate count 0) () := by
  by_cases h0 : count = 0
  · subst h0
    exact pure ()
  · rw [emitZeros_eq h0]
    exact emit _

end Overwrites

end Writer

end Ebml
