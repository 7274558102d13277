import Ebml.Proofs.Timeline
import Mathlib.Data.List.Basic
import Mathlib.Data.List.InsertIdx

/-!
# What makes an order stable

The order of timecodes is told without saying how it is made (`Timeline.Arranges`): no item is lost
or doubled, no item comes before an earlier one, and those with one timecode are in the order in
which they were given.  There is one such list, and sorting makes it (`Timeline.arranges_iff`).

So sorting commutes with whatever keeps these three.  Above all, an item can be taken out before or
after (`Timeline.sort_without`).  Since items may be equal, the one that is taken out is told by its
place among those that were given (`Timeline.place?`).
-/

namespace Ebml.Timeline

variable {α : Type} {timecode : α → Int16} {items sorted : List α}

/-! ## The arrangement of a list -/

/-- The items in the order of their timecodes, those with one timecode as they were given. -/
structure Arranges (timecode : α → Int16) (items sorted : List α) : Prop where
  /-- None is lost, and none is doubled. -/
  perm : sorted.Perm items
  /-- None comes before an earlier one. -/
  ordered : sorted.Pairwise fun a b => timecode a ≤ timecode b
  /-- Those with one timecode keep their order. -/
  stable : ∀ t, sorted.filter (fun a => timecode a = t) = items.filter fun a => timecode a = t

/-- Sorting leaves the items with one timecode as they are. -/
theorem filter_sort (t : Int16) (items : List α) :
    (sort timecode items).filter (fun a => timecode a = t) =
      items.filter fun a => timecode a = t := by
  induction items with
  | nil => simp [sort]
  | cons item items ih =>
      rw [sort_cons, List.filter_append, List.filter_cons, List.filter_cons, List.filter_filter,
        List.filter_filter, ← ih]
      -- the items with one timecode are all on one side of the first item
      by_cases hle : timecode item ≤ t
      · have hbefore : (sort timecode items).filter (fun a =>
            decide (timecode a = t) && decide (¬ timecode item ≤ timecode a)) = [] :=
          List.filter_eq_nil_iff.mpr fun a _ => by simpa using fun h => h ▸ hle
        have hafter : (sort timecode items).filter (fun a =>
            decide (timecode a = t) && decide (timecode item ≤ timecode a)) =
              (sort timecode items).filter fun a => timecode a = t :=
          List.filter_congr fun a _ => by simpa using fun h => h ▸ hle
        rw [hbefore, hafter, List.nil_append]
      · have hne : timecode item ≠ t := fun h => hle (Int16.le_of_eq h)
        have hbefore : (sort timecode items).filter (fun a =>
            decide (timecode a = t) && decide (¬ timecode item ≤ timecode a)) =
              (sort timecode items).filter fun a => timecode a = t :=
          List.filter_congr fun a _ => by simpa using fun h => h ▸ Int16.not_le.mp hle
        have hafter : (sort timecode items).filter (fun a =>
            decide (timecode a = t) && decide (timecode item ≤ timecode a)) = [] :=
          List.filter_eq_nil_iff.mpr fun a _ => by simpa using fun h => h ▸ Int16.not_le.mp hle
        rw [hbefore, hafter, decide_eq_false hne, if_neg Bool.false_ne_true,
          if_neg Bool.false_ne_true, List.append_nil]

theorem arranges_sort (timecode : α → Int16) (items : List α) :
    Arranges timecode items (sort timecode items) where
  perm := perm_sort timecode items
  ordered := pairwise_sort timecode items
  stable t := filter_sort t items

/-- Two lists in order are one if they agree on the items of every timecode. -/
theorem eq_of_filter_eq : ∀ {first second : List α},
    (first.Pairwise fun a b => timecode a ≤ timecode b) →
    (second.Pairwise fun a b => timecode a ≤ timecode b) →
    (∀ t, first.filter (fun a => timecode a = t) = second.filter fun a => timecode a = t) →
    first = second
  | [], [], _, _, _ => rfl
  | [], b :: second, _, _, h => by
      have hb := h (timecode b)
      simp at hb
  | a :: first, [], _, _, h => by
      have ha := h (timecode a)
      simp at ha
  | a :: first, b :: second, h₁, h₂, h => by
      obtain ⟨ha, hfirst⟩ := List.pairwise_cons.mp h₁
      obtain ⟨hb, hsecond⟩ := List.pairwise_cons.mp h₂
      have hmem : ∀ c, c ∈ a :: first ↔ c ∈ b :: second := fun c => by
        have hc := congrArg (c ∈ ·) (h (timecode c))
        simpa using hc
      have hle : timecode a ≤ timecode b := by
        rcases List.mem_cons.mp ((hmem b).mpr (List.mem_cons_self ..)) with rfl | hm
        · exact Int16.le_refl _
        · exact ha b hm
      have hge : timecode b ≤ timecode a := by
        rcases List.mem_cons.mp ((hmem a).mp (List.mem_cons_self ..)) with rfl | hm
        · exact Int16.le_refl _
        · exact hb a hm
      have heq : timecode a = timecode b := Int16.le_antisymm hle hge
      -- the first items of the earliest timecode are the first of all
      have hheads := h (timecode a)
      rw [List.filter_cons, List.filter_cons, if_pos (decide_eq_true rfl),
        if_pos (decide_eq_true heq.symm)] at hheads
      obtain ⟨rfl, hrest⟩ := List.cons.inj hheads
      refine congrArg (a :: ·) (eq_of_filter_eq hfirst hsecond fun t => ?_)
      by_cases ht : timecode a = t
      · exact ht ▸ hrest
      · have htails := h t
        rwa [List.filter_cons_of_neg (by simpa using ht),
          List.filter_cons_of_neg (by simpa using ht)] at htails

/-- The arrangement of a list is the sorted list. -/
theorem arranges_iff : Arranges timecode items sorted ↔ sorted = sort timecode items := by
  constructor
  · intro h
    exact eq_of_filter_eq h.ordered (pairwise_sort timecode items) fun t =>
      (h.stable t).trans (filter_sort t items).symm
  · rintro rfl
    exact arranges_sort timecode items

/-! ## An item less -/

/-- Items can be left out before or after. -/
theorem sort_filter (p : α → Bool) (items : List α) :
    sort timecode (items.filter p) = (sort timecode items).filter p := by
  refine (arranges_iff.mp ?_).symm
  exact {
    perm := (perm_sort timecode items).filter p
    ordered := (pairwise_sort timecode items).filter p
    stable := fun t => by rw [List.filter_comm, filter_sort, List.filter_comm] }

/-- Where the item at an index of the sorted list is among the items. -/
def place? (timecode : α → Int16) (items : List α) (index : Nat) : Option Nat :=
  (sort (fun numbered => timecode numbered.1) items.zipIdx)[index]?.map Prod.snd

/-- The items without the one at an index of the sorted list. -/
def without (timecode : α → Int16) (items : List α) (index : Nat) : List α :=
  match place? timecode items index with
  | some place => items.eraseIdx place
  | none => items

/-- The numbers can be dropped after sorting. -/
theorem map_sort_zipIdx (timecode : α → Int16) (items : List α) :
    (sort (fun numbered => timecode numbered.1) items.zipIdx).map Prod.fst =
      sort timecode items := by
  rw [← sort_map, List.zipIdx_map_fst]

/-- The place of an item is where it is. -/
theorem getElem?_sort (timecode : α → Int16) (items : List α) (index : Nat) :
    (sort timecode items)[index]? =
      (place? timecode items index).bind fun place => items[place]? := by
  rw [← map_sort_zipIdx, List.getElem?_map, place?]
  cases hitem : (sort (fun numbered => timecode numbered.1) items.zipIdx)[index]? with
  | none => rfl
  | some numbered =>
      have hm := (perm_sort _ _).mem_iff.mp (List.mem_of_getElem? hitem)
      exact (List.mem_zipIdx_iff_getElem?.mp hm).symm

/-- Of numbered items, one that is taken out is told by its number. -/
theorem eraseIdx_of_nodup : ∀ {numbered : List (α × Nat)} {index : Nat} {item : α} {n : Nat},
    (numbered.map Prod.snd).Nodup → numbered[index]? = some (item, n) →
    numbered.eraseIdx index = numbered.filter fun other => other.2 ≠ n
  | [], _, _, _, _, h => by simp at h
  | (first, m) :: numbered, 0, item, n, hnodup, h => by
      obtain ⟨hfirst, -⟩ := List.nodup_cons.mp hnodup
      cases h
      rw [List.eraseIdx_cons_zero, List.filter_cons_of_neg (by simp), eq_comm,
        List.filter_eq_self]
      intro other hm
      have hother : other.2 ∈ numbered.map Prod.snd := List.mem_map_of_mem hm
      exact decide_eq_true fun heq => hfirst (heq ▸ hother)
  | (first, m) :: numbered, index + 1, item, n, hnodup, h => by
      obtain ⟨hfirst, hrest⟩ := List.nodup_cons.mp hnodup
      rw [List.getElem?_cons_succ] at h
      have hitem : n ∈ numbered.map Prod.snd := List.mem_map_of_mem (List.mem_of_getElem? h)
      have hne : m ≠ n := fun heq => hfirst (heq ▸ hitem)
      rw [List.eraseIdx_cons_succ, List.filter_cons, if_pos (decide_eq_true hne),
        eraseIdx_of_nodup hrest h]

/-- An item can be taken out before or after. -/
theorem sort_without (timecode : α → Int16) (items : List α) (index : Nat) :
    sort timecode (without timecode items index) = (sort timecode items).eraseIdx index := by
  have hnodup : (items.zipIdx.map Prod.snd).Nodup := by
    rw [List.zipIdx_map_snd]
    exact List.nodup_range'
  have hnodup' : ((sort (fun numbered => timecode numbered.1) items.zipIdx).map Prod.snd).Nodup :=
    (((perm_sort _ _).map Prod.snd).nodup_iff).mpr hnodup
  rw [without, place?, ← map_sort_zipIdx timecode items, List.eraseIdx_map]
  cases hitem : (sort (fun numbered => timecode numbered.1) items.zipIdx)[index]? with
  | none =>
      rw [List.eraseIdx_of_length_le (List.getElem?_eq_none_iff.mp hitem), map_sort_zipIdx]
      rfl
  | some numbered =>
      obtain ⟨item, place⟩ := numbered
      have hm := (perm_sort _ _).mem_iff.mp (List.mem_of_getElem? hitem)
      have hplace : items.zipIdx[place]? = some (item, place) := by
        rw [List.getElem?_zipIdx, List.mem_zipIdx_iff_getElem?.mp hm, Nat.zero_add]
        rfl
      rw [eraseIdx_of_nodup hnodup' hitem, ← sort_filter, ← eraseIdx_of_nodup hnodup hplace,
        ← sort_map, ← List.eraseIdx_map, List.zipIdx_map_fst]
      rfl

end Ebml.Timeline
