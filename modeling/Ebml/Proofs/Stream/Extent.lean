import Ebml.Proofs.Stream.Emission

/-!
# How far a writer goes

Whoever lays out a stream by sizes wants to know less of a writer than which bytes it emits: that
it moves on by as many bytes as it counts, and that it leaves all others as they were
(`Writer.Covers`).  This is said of streams that grow, wherever their position is.

A writer that begins by emitting something covers what it emits (`Covers.of_emits`), also where it
has to fill a gap first.
-/

namespace Ebml

/-- `t` is what `s` becomes when `n` bytes are written at its position. -/
structure Stream.Written (s t : Stream) (n : Nat) : Prop where
  /-- The position is after the bytes. -/
  pos_eq : t.pos = s.pos + n
  /-- If there are any, the stream now reaches at least to their end. -/
  length_eq : n ≠ 0 → t.data.length = max s.data.length (s.pos + n)
  /-- What was there before and after them is still there. -/
  kept : ∀ i < s.data.length, i < s.pos ∨ s.pos + n ≤ i → t.data[i]? = s.data[i]?

namespace Stream

theorem written_zero (s : Stream) : s.Written s 0 where
  pos_eq := rfl
  length_eq h := absurd rfl h
  kept _ _ _ := rfl

theorem getElem?_fillGap {s : Stream} {i : Nat} (h : i < s.data.length) :
    s.fillGap.data[i]? = s.data[i]? := List.getElem?_append_left h

theorem getElem?_overlay {s : Stream} (h : s.Settled) {bytes : List UInt8} {i : Nat}
    (hi : i < s.pos ∨ s.pos + bytes.length ≤ i) : (s.overlay bytes).data[i]? = s.data[i]? := by
  rcases hi with hbefore | hafter
  · have htake := congrArg (fun data => data[i]?) (take_overlay h bytes (Nat.le_refl _))
    simpa only [List.getElem?_take_of_lt hbefore] using htake
  · have hdrop := congrArg (fun data => data[i - s.pos]?) (drop_overlay h bytes)
    simp only [List.getElem?_drop] at hdrop
    rw [Nat.add_sub_cancel' (by omega), List.getElem?_append_right (by omega),
      List.getElem?_drop] at hdrop
    rw [hdrop]
    congr 1
    omega

theorem written_overlay (s : Stream) (bytes : List UInt8) :
    s.Written (s.fillGap.overlay bytes) bytes.length where
  pos_eq := rfl
  length_eq h := by
    rw [length_overlay (settled_fillGap s), pos_fillGap]
    simp only [fillGap, List.length_append, List.length_replicate]
    omega
  kept i hi houtside := by
    rw [getElem?_overlay (settled_fillGap s) houtside, getElem?_fillGap hi]

end Stream

namespace Writer

/-- On every stream that grows, the writer succeeds, and writes the bytes that it counts. -/
def Covers (w : Writer Nat) (count : Nat) : Prop :=
  ∀ (stream : Stream) (log : Log), stream.fixed = false →
    ∃ sink, w ⟨stream, log⟩ = .ok count sink ∧ stream.Written sink.stream count

theorem Covers.of_emits {w : Writer Nat} {bytes : List UInt8} {count : Nat} (hsettles : Settles w)
    (h : Emits True w bytes count) (hlength : bytes.length = count) : Covers w count := by
  intro stream log hgrow
  subst hlength
  obtain ⟨log', hok⟩ := h.ok_of_growing trivial (Stream.settled_fillGap stream) hgrow log
  rw [← hsettles ⟨stream, log⟩ hgrow] at hok
  exact ⟨_, hok, stream.written_overlay bytes⟩

theorem covers_pure : Covers (pure 0) 0 := fun stream log _ =>
  ⟨⟨stream, log⟩, rfl, stream.written_zero⟩

end Writer

end Ebml
