import Ebml.Stream

/-!
# Laying bytes over a stream

What `Stream.write` does is told by three facts about `Stream.overlay`, all for a stream whose
position is not past its end (`Stream.Settled`).  Two overlays in a row are one of both byte strings
(`overlay_overlay`), what lies before the position stays (`take_overlay`), and the bytes can be
found where they were laid (`drop_overlay`).  A stream that grows is first settled by
`Stream.fillGap`.

A part of what was written can be replaced later by as many bytes (`overlay_patch`).  Where only the
beginning of the stream is known, the same two facts hold of that (`prefix_overlay_append`,
`prefix_overlay_patch`).
-/

namespace Ebml.Stream

/-- The position is not past the end. -/
def Settled (s : Stream) : Prop := s.pos ≤ s.data.length

theorem settled_fillGap (s : Stream) : s.fillGap.Settled := by
  simp only [Settled, fillGap, List.length_append, List.length_replicate]
  omega

theorem fillGap_of_settled {s : Stream} (h : s.Settled) : s.fillGap = s := by
  have hzero : s.pos - s.data.length = 0 := Nat.sub_eq_zero_of_le h
  simp [fillGap, hzero]

@[simp] theorem pos_fillGap (s : Stream) : s.fillGap.pos = s.pos := rfl

@[simp] theorem fixed_fillGap (s : Stream) : s.fillGap.fixed = s.fixed := rfl

@[simp] theorem pos_overlay (s : Stream) (bytes : List UInt8) :
    (s.overlay bytes).pos = s.pos + bytes.length := rfl

@[simp] theorem fixed_overlay (s : Stream) (bytes : List UInt8) :
    (s.overlay bytes).fixed = s.fixed := rfl

theorem length_overlay {s : Stream} (h : s.Settled) (bytes : List UInt8) :
    (s.overlay bytes).data.length = max s.data.length (s.pos + bytes.length) := by
  simp only [Settled] at h
  simp only [overlay, List.length_append, List.length_take, List.length_drop]
  omega

theorem settled_overlay {s : Stream} (h : s.Settled) (bytes : List UInt8) :
    (s.overlay bytes).Settled := by
  rw [Settled, length_overlay h, pos_overlay]
  exact Nat.le_max_right _ _

@[simp] theorem overlay_nil (s : Stream) : s.overlay [] = s := by
  simp [overlay]

/-- What lies before the position stays. -/
theorem take_overlay {s : Stream} (h : s.Settled) (bytes : List UInt8) {n : Nat} (hn : n ≤ s.pos) :
    (s.overlay bytes).data.take n = s.data.take n := by
  have hlen : n ≤ (s.data.take s.pos).length := by
    rw [List.length_take]
    exact Nat.le_min.mpr ⟨hn, Nat.le_trans hn h⟩
  rw [overlay, List.append_assoc, List.take_append_of_le_length hlen, List.take_take,
    Nat.min_eq_left hn]

/-- The bytes are where they were laid, and what was after them follows. -/
theorem drop_overlay {s : Stream} (h : s.Settled) (bytes : List UInt8) :
    (s.overlay bytes).data.drop s.pos = bytes ++ s.data.drop (s.pos + bytes.length) := by
  have hlen : (s.data.take s.pos).length = s.pos := List.length_take_of_le h
  rw [overlay, List.append_assoc, List.drop_append_of_le_length (Nat.le_of_eq hlen.symm),
    List.drop_eq_nil_of_le (Nat.le_of_eq hlen), List.nil_append]

/-- Two overlays in a row are one. -/
theorem overlay_overlay {s : Stream} (h : s.Settled) (first second : List UInt8) :
    (s.overlay first).overlay second = s.overlay (first ++ second) := by
  have hlen : (s.data.take s.pos).length = s.pos := List.length_take_of_le h
  have htake : (s.overlay first).data.take (s.pos + first.length) = s.data.take s.pos ++ first := by
    rw [overlay, List.take_append_of_le_length (by simp [hlen]),
      List.take_of_length_le (by simp [hlen])]
  have hdrop : (s.overlay first).data.drop (s.pos + first.length + second.length)
      = s.data.drop (s.pos + (first.length + second.length)) := by
    rw [overlay, List.drop_append, List.drop_eq_nil_of_le (by simp [hlen]), List.drop_drop]
    simp only [List.length_append, hlen, List.nil_append]
    congr 1
    omega
  rw [overlay, pos_overlay, htake, hdrop]
  simp only [overlay, List.length_append, List.append_assoc, Nat.add_assoc]

/-- A position within what was written. -/
theorem settled_at {s : Stream} (h : s.Settled) {bytes : List UInt8} {n : Nat}
    (hn : n ≤ bytes.length) : ({ s.overlay bytes with pos := s.pos + n } : Stream).Settled := by
  show s.pos + n ≤ (s.overlay bytes).data.length
  rw [length_overlay h]
  omega

/-- Replaces a part of what was written by as many bytes, and goes back to the end. -/
theorem overlay_patch {s : Stream} (h : s.Settled) {before old new after : List UInt8}
    (hnew : new.length = old.length) :
    { ({ s.overlay (before ++ (old ++ after)) with pos := s.pos + before.length }.overlay new) with
        pos := s.pos + (before ++ (old ++ after)).length }
      = s.overlay (before ++ (new ++ after)) := by
  have hlen : (s.data.take s.pos).length = s.pos := List.length_take_of_le h
  simp only [overlay, List.length_append, hnew, List.append_assoc]
  congr 1
  have htake : ∀ rest : List UInt8,
      (s.data.take s.pos ++ (before ++ rest)).take (s.pos + before.length)
        = s.data.take s.pos ++ before := by
    intro rest
    rw [← List.append_assoc, List.take_append_of_le_length (by simp [hlen]),
      List.take_of_length_le (by simp [hlen])]
  have hdrop : ∀ rest : List UInt8,
      (s.data.take s.pos ++ (before ++ (old ++ rest))).drop (s.pos + before.length + old.length)
        = rest := by
    intro rest
    rw [← List.append_assoc, ← List.append_assoc]
    have hl : (s.data.take s.pos ++ before ++ old).length = s.pos + before.length + old.length := by
      simp [hlen, Nat.add_assoc]
    rw [← hl, List.drop_left]
  rw [htake, hdrop, List.append_assoc]

/-- Bytes that fit, or a stream that grows, are laid over whole. -/
theorem write_of_settled {s : Stream} (h : s.Settled) (bytes : List UInt8) :
    s.write bytes = (s.overlay bytes, true) ∨
      (s.fixed = true ∧ s.write bytes = (s.overlay (bytes.take s.room), false)) := by
  by_cases hfixed : s.fixed
  · by_cases hroom : bytes.length ≤ s.room
    · left
      simp [write, hfixed, hroom, List.take_of_length_le hroom]
    · right
      simp [write, hfixed, hroom]
  · left
    simp [write, hfixed, fillGap_of_settled h]

/-! ## What a stream begins with -/

theorem prefix_of_take_eq {bytes data data' : List UInt8} (h : bytes <+: data)
    (htake : data'.take bytes.length = data.take bytes.length) : bytes <+: data' := by
  rw [List.prefix_iff_eq_take] at h ⊢
  rw [htake]
  exact h

/-- Bytes that are laid after what a stream begins with go on from there. -/
theorem prefix_overlay_append {s : Stream} {before bytes : List UInt8} (h : before <+: s.data)
    (hpos : s.pos = before.length) : before ++ bytes <+: (s.overlay bytes).data := by
  rw [overlay, hpos, ← List.prefix_iff_eq_take.mp h]
  exact List.prefix_append _ _

/-- Bytes that are laid over as many others take their place. -/
theorem prefix_overlay_patch {s : Stream} {before old new after : List UInt8}
    (h : before ++ (old ++ after) <+: s.data) (hpos : s.pos = before.length)
    (hnew : new.length = old.length) : before ++ (new ++ after) <+: (s.overlay new).data := by
  obtain ⟨rest, hrest⟩ := h
  have hbefore : s.data.take s.pos = before := by
    rw [← hrest, hpos, List.append_assoc, List.take_left]
  have hafter : s.data.drop (s.pos + new.length) = after ++ rest := by
    rw [← hrest, hpos, hnew, ← List.drop_drop, List.append_assoc, List.drop_left,
      List.append_assoc, List.drop_left]
  rw [overlay, hbefore, hafter]
  exact ⟨rest, by simp only [List.append_assoc]⟩

end Ebml.Stream
