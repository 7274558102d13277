import Ebml.Cluster.Block

/-!
# Looking for the place of an item

An item that is added to a list goes where halving finds its place: of the part of the list where
the place lies, the item in the middle is looked at, and one half is left (`Timeline.bisect`).  What
is found is the end of the items that are not later if these come before all others
(`bisect_of_parted`), as they do in a list that is in order, and then the item goes between them and
the others (`insert_of_pairwise`).  In any other list it goes where the halving ends, which may be
elsewhere.
-/

namespace Ebml.Timeline

variable {α : Type} {p : α → Bool} {items : List α}

/-- The items of which `p` holds come first. -/
def Parted (p : α → Bool) (items : List α) : Prop := items.Pairwise fun a b => p b → p a

/-- A probe of a parted list tells on which side of the place it is. -/
theorem probe_of_parted : ∀ {items : List α}, Parted p items → ∀ index,
    probe p items index = decide (index < (items.takeWhile p).length)
  | [], _, index => rfl
  | first :: items, h, index => by
      obtain ⟨hfirst, hitems⟩ := List.pairwise_cons.mp h
      cases hp : p first with
      | true =>
          rw [List.takeWhile_cons_of_pos hp, List.length_cons]
          cases index with
          | zero => simp [probe, hp]
          | succ index =>
              have hrest := probe_of_parted hitems index
              simpa [probe] using hrest
      | false =>
          -- none of the others can be on the near side either
          have hnone : ∀ a ∈ items, p a = false := fun a hm =>
            Bool.eq_false_iff.mpr fun ha => by rw [hfirst a hm ha] at hp; cases hp
          rw [List.takeWhile_cons_of_neg (by simp [hp])]
          cases index with
          | zero => simp [probe, hp]
          | succ index =>
              cases hitem : items[index]? with
              | none => simp [probe, hitem]
              | some a => simp [probe, hitem, hnone a (List.mem_of_getElem? hitem)]

/-- Halving keeps the place within the part that is left. -/
theorem bisectFrom_eq {place : Nat} (h : ∀ index, probe p items index = decide (index < place)) :
    ∀ {base size : Nat}, 1 ≤ size → base ≤ place → place ≤ base + size →
      bisectFrom p items base size = place := by
  intro base size
  induction size using Nat.strongRecOn generalizing base with
  | ind size ih =>
      intro hsize hbase hplace
      rw [bisectFrom]
      split
      next hlt =>
        have hhalf : 1 ≤ size / 2 := Nat.div_pos hlt (by decide)
        dsimp only
        rw [h]
        by_cases hmid : base + size / 2 < place
        · rw [decide_eq_true hmid, if_pos rfl]
          exact ih _ (by omega) (by omega) (by omega) (by omega)
        · rw [decide_eq_false hmid, if_neg Bool.false_ne_true]
          exact ih _ (by omega) (by omega) hbase (by omega)
      next hnot =>
        rw [h]
        by_cases hlt : base < place
        · rw [decide_eq_true hlt, if_pos rfl]
          omega
        · rw [decide_eq_false hlt, if_neg Bool.false_ne_true]
          omega

theorem bisect_of_parted (h : Parted p items) : bisect p items = (items.takeWhile p).length := by
  rw [bisect]
  split
  next hempty =>
    rw [List.isEmpty_iff.mp hempty]
    rfl
  next hne =>
    have hlength : items.length ≠ 0 := fun h0 =>
      hne (List.isEmpty_iff.mpr (List.length_eq_zero_iff.mp h0))
    have hle := (List.takeWhile_sublist p (l := items)).length_le
    exact bisectFrom_eq (probe_of_parted h) (by omega) (Nat.zero_le _) (by omega)

theorem insertIdx_takeWhile (p : α → Bool) (item : α) : ∀ items : List α,
    items.insertIdx (items.takeWhile p).length item =
      items.takeWhile p ++ item :: items.dropWhile p
  | [] => rfl
  | first :: items => by
      cases hp : p first with
      | true =>
          rw [List.takeWhile_cons_of_pos hp, List.dropWhile_cons_of_pos hp, List.length_cons,
            List.insertIdx_succ_cons, insertIdx_takeWhile p item items]
          rfl
      | false =>
          have hnot : ¬ p first = true := Bool.eq_false_iff.mp hp
          rw [List.takeWhile_cons_of_neg hnot, List.dropWhile_cons_of_neg hnot]
          rfl

/-! ## Lists in order -/

theorem parted_of_pairwise {timecode : α → Int16}
    (h : items.Pairwise fun a b => timecode a ≤ timecode b) (item : α) :
    Parted (fun a => timecode a ≤ timecode item) items :=
  h.imp fun hle hlater => decide_eq_true (Int16.le_trans hle (of_decide_eq_true hlater))

/-- In a list in order, an item goes after those that are not later, and before all others. -/
theorem insert_of_pairwise {timecode : α → Int16}
    (h : items.Pairwise fun a b => timecode a ≤ timecode b) (item : α) :
    insert timecode item items =
      items.takeWhile (fun a => timecode a ≤ timecode item) ++
        item :: items.dropWhile fun a => timecode a ≤ timecode item := by
  rw [insert, bisect_of_parted (parted_of_pairwise h item), insertIdx_takeWhile]

/-- In a list out of order, an item may go behind a later one. -/
example : insert id 7 [9, 5] = [9, 5, 7] := by cbv

end Ebml.Timeline
