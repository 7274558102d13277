import Ebml.Proofs.Void

/-!
# How wide the size of a void element is

A void element is widened when its size is stored in more octets than it needs.  This is done for
the totals that no other void element has: one more byte of body would need one more octet for the
size, and the total would grow by two (`VoidElement.Gap`).  So every total from two bytes on is
reached (`totalSize_ofTotalSize`), and an element of a given total is widened just in the gaps
(`widened_ofTotalSize`).
-/

namespace Ebml.VoidElement

/-- The size is stored in more octets than it needs. -/
def Widened (e : VoidElement) : Prop := VarInt.octetLength e.size < e.sizeLength

/-- One byte more than the largest void element whose size takes `length` octets. -/
def Gap (total : Nat) : Prop :=
  ∃ length, 1 ≤ length ∧ length < VarInt.maxLength ∧ total = 1 + length + 128 ^ length

/-! ## The search for a width -/

theorem fitting?_eq_some {space length : Nat} :
    fitting? space = some length ↔
      space - length < 128 ^ length ∧ (1 ≤ length ∧ length ≤ VarInt.maxLength) ∧
        ∀ shorter, 1 ≤ shorter → shorter < length → 128 ^ shorter ≤ space - shorter := by
  rw [fitting?, List.find?_range'_eq_some, List.mem_range'_1]
  constructor
  · rintro ⟨hroom, hbounds, hfirst⟩
    have hpos : 1 ≤ length := hbounds.1
    refine ⟨(VarInt.octetLength_le_iff hpos).mp (of_decide_eq_true hroom),
      ⟨hpos, by omega⟩, fun shorter hmin hlt => ?_⟩
    have hfail := hfirst shorter hmin hlt
    rw [Bool.not_eq_true', decide_eq_false_iff_not, VarInt.octetLength_le_iff hmin] at hfail
    exact Nat.le_of_not_lt hfail
  · rintro ⟨hroom, hbounds, hfirst⟩
    refine ⟨decide_eq_true ((VarInt.octetLength_le_iff hbounds.1).mpr hroom), by omega,
      fun shorter hmin hlt => ?_⟩
    rw [Bool.not_eq_true', decide_eq_false_iff_not, VarInt.octetLength_le_iff hmin]
    exact Nat.not_lt.mpr (hfirst shorter hmin hlt)

theorem le_of_fitting?_eq_none {space : Nat} (h : fitting? space = none) :
    128 ^ VarInt.maxLength ≤ space - VarInt.maxLength := by
  rw [fitting?, List.find?_eq_none] at h
  have hfail := h VarInt.maxLength (by rw [List.mem_range'_1]; decide)
  rw [decide_eq_true_eq, VarInt.octetLength_le_iff (by decide)] at hfail
  exact Nat.le_of_not_lt hfail

/-- The width that is found needs no more room than there is. -/
theorem le_of_fitting?_eq_some {space length : Nat} (h : fitting? space = some length)
    (hspace : 1 ≤ space) : length ≤ space := by
  obtain ⟨_, _, hfirst⟩ := fitting?_eq_some.mp h
  by_cases hone : length ≤ 1
  · exact Nat.le_trans hone hspace
  · have hprevious := hfirst (length - 1) (by omega) (by omega)
    have hpos : 0 < 128 ^ (length - 1) := Nat.pow_pos (by decide)
    omega

/-! ## Totals -/

/-- An element made for a total that can be stored has it. -/
theorem totalSize_ofTotalSize {total : Nat} (hmin : 2 ≤ total)
    (hmax : total ≤ 128 ^ VarInt.maxLength + VarInt.maxLength) (fill : Bool) :
    Element.totalSize (ofTotalSize total fill) = total := by
  rw [ofTotalSize]
  split
  next length hfitting =>
    have hle := le_of_fitting?_eq_some hfitting (by omega)
    show 1 + length + (total - 1 - length) = total
    omega
  next hnone =>
    have hlarge := le_of_fitting?_eq_none hnone
    have hpos : 0 < 128 ^ VarInt.maxLength := Nat.pow_pos (by decide)
    omega

/-- A void element that can be stored has a total that can be had. -/
theorem Made.totalSize_le {e : VoidElement} (h : e.Made) (hmax : e.size ≤ VarInt.max) :
    2 ≤ Element.totalSize e ∧
      Element.totalSize e ≤ 128 ^ VarInt.maxLength + VarInt.maxLength := by
  obtain ⟨hpos, hlength, -, -⟩ := h.fits hmax
  have hbound : VarInt.max + 1 + VarInt.maxLength ≤ 128 ^ VarInt.maxLength + VarInt.maxLength := by
    decide
  show 2 ≤ 1 + e.sizeLength + e.size ∧ 1 + e.sizeLength + e.size ≤ _
  omega

/-! ## Which elements are widened -/

theorem octetLength_pow_pred {length : Nat} (h : 1 ≤ length) :
    VarInt.octetLength (128 ^ length - 1) = length := by
  have hpos : 0 < 128 ^ length := Nat.pow_pos (by decide)
  apply Nat.le_antisymm
  · rw [VarInt.octetLength_le_iff h]
    omega
  · by_cases hone : length = 1
    · subst hone
      exact VarInt.octetLength_pos _
    · -- fewer octets have no room for the value
      have hless : ¬ VarInt.octetLength (128 ^ length - 1) ≤ length - 1 := by
        rw [VarInt.octetLength_le_iff (by omega)]
        have hpow : 128 ^ length = 128 * 128 ^ (length - 1) := by
          rw [← Nat.pow_succ']
          congr 1
          omega
        have hpos' : 0 < 128 ^ (length - 1) := Nat.pow_pos (by decide)
        omega
      omega

theorem not_widened_of_minimal {size offset : Nat} {fill : Bool} :
    ¬ Widened { size, sizeLength := VarInt.octetLength size, fill, offset } :=
  Nat.lt_irrefl _

/-- A width that the size does not need is one octet wider, and the size is the largest for the
octets that it needs. -/
theorem of_fitting?_of_lt {space length : Nat} (h : fitting? space = some length)
    (hwide : VarInt.octetLength (space - length) < length) :
    2 ≤ length ∧ space = length - 1 + 128 ^ (length - 1) := by
  obtain ⟨_, ⟨hmin, _⟩, hfirst⟩ := fitting?_eq_some.mp h
  have hpos := VarInt.octetLength_pos (space - length)
  have hneeded : VarInt.octetLength (space - length) ≤ length - 1 := by omega
  rw [VarInt.octetLength_le_iff (by omega)] at hneeded
  have hprevious := hfirst (length - 1) (by omega) (by omega)
  have hpow : 0 < 128 ^ (length - 1) := Nat.pow_pos (by decide)
  omega

/-- In a gap, one octet more is enough. -/
theorem fitting?_of_gap {length : Nat} (hmin : 1 ≤ length) (hmax : length < VarInt.maxLength) :
    fitting? (length + 128 ^ length) = some (length + 1) := by
  have hpos : 0 < 128 ^ length := Nat.pow_pos (by decide)
  rw [fitting?_eq_some]
  refine ⟨?_, ⟨by omega, hmax⟩, fun shorter _ hlt => ?_⟩
  · rw [Nat.pow_succ]
    omega
  · have hle : 128 ^ shorter ≤ 128 ^ length := Nat.pow_le_pow_right (by decide) (by omega)
    omega

/-- An element made for a total is widened just in the gaps. -/
theorem widened_ofTotalSize (total : Nat) (fill : Bool) :
    Widened (ofTotalSize total fill) ↔ Gap total := by
  constructor
  · intro hwide
    rw [ofTotalSize] at hwide
    split at hwide
    next width hfitting =>
      obtain ⟨hmin, hspace⟩ := of_fitting?_of_lt hfitting hwide
      obtain ⟨_, ⟨_, hmax⟩, _⟩ := fitting?_eq_some.mp hfitting
      have hpos : 0 < 128 ^ (width - 1) := Nat.pow_pos (by decide)
      exact ⟨width - 1, by omega, by omega, by omega⟩
    next => exact absurd hwide not_widened_of_minimal
  · rintro ⟨length, hmin, hmax, rfl⟩
    have hpos : 0 < 128 ^ length := Nat.pow_pos (by decide)
    have hspace : 1 + length + 128 ^ length - 1 = length + 128 ^ length := by omega
    have hsize : length + 128 ^ length - (length + 1) = 128 ^ length - 1 := by omega
    rw [ofTotalSize, hspace, fitting?_of_gap hmin hmax, Widened]
    dsimp only
    rw [hsize, octetLength_pow_pred hmin]
    exact Nat.lt_succ_self length

/-- However an element was made, it is widened by one octet at most. -/
theorem Made.sizeLength_le {e : VoidElement} (h : e.Made) :
    e.sizeLength ≤ VarInt.octetLength e.size + 1 := by
  induction h with
  | replacing replaced fill =>
      rw [VoidElement.replacing, ofTotalSize]
      split
      next width hfitting =>
        rcases Nat.lt_or_ge (VarInt.octetLength (Element.totalSize replaced - 1 - width)) width with
          hwide | hminimal
        · obtain ⟨hmin, hspace⟩ := of_fitting?_of_lt hfitting hwide
          have hpos : 0 < 128 ^ (width - 1) := Nat.pow_pos (by decide)
          have hsize : Element.totalSize replaced - 1 - width = 128 ^ (width - 1) - 1 := by omega
          dsimp only
          rw [hsize, octetLength_pow_pred (by omega)]
          omega
        · exact Nat.le_succ_of_le hminimal
      next => exact Nat.le_succ _
  | read _ hok =>
      obtain ⟨_, _, _, hpure⟩ := Reader.bind_eq_ok.mp hok
      cases hpure
      exact Nat.le_succ _
  | new | setSize => exact Nat.le_succ _
  | setFill _ _ ih | setOffset _ _ ih => exact ih

end Ebml.VoidElement
