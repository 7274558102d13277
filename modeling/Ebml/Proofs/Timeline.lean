import Ebml.Proofs.Timeline.Bisection

/-!
# The order of timecodes

Sorting by timecode is stable, which is all that is said about it here in two ways: an item that
comes first goes before the first item that is not earlier (`sort_cons`), and an item that comes
last goes after the last one that is not later (`sort_concat`).  So inserting items one by one
sorts them (`foldl_insert`), and two timecodes give the same order if and only if they agree on
every two items where one comes before the other (`sort_eq_sort_iff`).
-/

namespace Ebml.Timeline

variable {α β : Type} {timecode : α → Int16} {items : List α}

theorem le_trans (timecode : α → Int16) (a b c : α) :
    decide (timecode a ≤ timecode b) = true → decide (timecode b ≤ timecode c) = true →
      decide (timecode a ≤ timecode c) = true := by
  simp only [decide_eq_true_eq]
  exact Int16.le_trans

theorem le_total (timecode : α → Int16) (a b : α) :
    (decide (timecode a ≤ timecode b) || decide (timecode b ≤ timecode a)) = true := by
  simp only [Bool.or_eq_true, decide_eq_true_eq]
  exact Int16.le_total _ _

/-! ## Sorted lists -/

theorem pairwise_sort (timecode : α → Int16) (items : List α) :
    (sort timecode items).Pairwise fun a b => timecode a ≤ timecode b :=
  (List.pairwise_mergeSort (le_trans timecode) (le_total timecode) items).imp of_decide_eq_true

theorem perm_sort (timecode : α → Int16) (items : List α) : (sort timecode items).Perm items :=
  List.mergeSort_perm items _

theorem sort_of_pairwise (h : items.Pairwise fun a b => timecode a ≤ timecode b) :
    sort timecode items = items :=
  List.mergeSort_of_pairwise (h.imp decide_eq_true)

theorem sort_sort (timecode : α → Int16) (items : List α) :
    sort timecode (sort timecode items) = sort timecode items :=
  sort_of_pairwise (pairwise_sort timecode items)

/-- Items are sorted as what they stand for. -/
theorem sort_map (f : β → α) (items : List β) :
    sort timecode (items.map f) = (sort (fun b => timecode (f b)) items).map f :=
  (List.map_mergeSort (r := fun a b => decide (timecode (f a) ≤ timecode (f b)))
    fun _ _ _ _ => rfl).symm

/-! ## One item more -/

/-- An item that comes first goes before the first one that is not earlier. -/
theorem sort_cons (item : α) (items : List α) :
    sort timecode (item :: items) =
      (sort timecode items).filter (fun a => ¬ timecode item ≤ timecode a) ++
        item :: (sort timecode items).filter fun a => timecode item ≤ timecode a := by
  obtain ⟨before, after, hcons, hsort, hbefore⟩ :=
    List.mergeSort_cons (le_trans timecode) (le_total timecode) item items
  have hsorted := pairwise_sort timecode (item :: items)
  rw [sort, hcons] at hsorted
  have hafter : ∀ a ∈ after, timecode item ≤ timecode a :=
    (List.pairwise_cons.mp (List.pairwise_append.mp hsorted).2.1).1
  have hearlier : ∀ a ∈ before, ¬ timecode item ≤ timecode a := fun a hm => by
    simpa using hbefore a hm
  rw [sort, hcons, sort, hsort, List.filter_append, List.filter_append]
  rw [List.filter_eq_self.mpr fun a hm => decide_eq_true (hearlier a hm),
    List.filter_eq_nil_iff.mpr fun a hm => by simpa using hafter a hm,
    List.filter_eq_nil_iff.mpr fun a hm => by simpa using hearlier a hm,
    List.filter_eq_self.mpr fun a hm => decide_eq_true (hafter a hm)]
  rw [List.append_nil, List.nil_append]

/-- Items with one timecode keep their order. -/
theorem pairwise_sort_stable {R : α → α → Prop} (h : items.Pairwise R) :
    (sort timecode items).Pairwise fun a b =>
      timecode a < timecode b ∨ timecode a = timecode b ∧ R a b := by
  induction items with
  | nil => simp [sort]
  | cons item items ih =>
      obtain ⟨hitem, hitems⟩ := List.pairwise_cons.mp h
      have hsorted := ih hitems
      rw [sort_cons, List.pairwise_append, List.pairwise_cons]
      refine ⟨hsorted.filter _, ⟨fun a hm => ?_, hsorted.filter _⟩, fun a hm b hm' => ?_⟩
      · obtain ⟨hm, hle⟩ := List.mem_filter.mp hm
        rcases Int16.le_iff_lt_or_eq.mp (of_decide_eq_true hle) with hlt | heq
        · exact Or.inl hlt
        · exact Or.inr ⟨heq, hitem a ((perm_sort timecode items).mem_iff.mp hm)⟩
      · have hlt := Int16.not_le.mp (of_decide_eq_true (List.mem_filter.mp hm).2)
        rcases List.mem_cons.mp hm' with rfl | hm'
        · exact Or.inl hlt
        · exact Or.inl (Int16.lt_of_lt_of_le hlt (of_decide_eq_true (List.mem_filter.mp hm').2))

theorem filter_of_parted {p : α → Bool} :
    ∀ {items : List α}, Parted p items →
      items.takeWhile p = items.filter p ∧ items.dropWhile p = items.filter fun a => ¬ p a
  | [], _ => ⟨rfl, rfl⟩
  | first :: items, h => by
      obtain ⟨hfirst, hitems⟩ := List.pairwise_cons.mp h
      cases hp : p first with
      | true =>
          obtain ⟨htake, hdrop⟩ := filter_of_parted hitems
          simp [hp, htake, hdrop]
      | false =>
          have hnone : ∀ a ∈ items, p a = false := fun a hm =>
            Bool.eq_false_iff.mpr fun ha => by rw [hfirst a hm ha] at hp; cases hp
          have hall : items.filter (fun a => !p a) = items :=
            List.filter_eq_self.mpr fun a hm => by simp [hnone a hm]
          simpa [hp, hall] using hnone

/-- In a list in order, insertion parts the items that are not later from those that are. -/
theorem insert_eq_filter (h : items.Pairwise fun a b => timecode a ≤ timecode b) (item : α) :
    insert timecode item items =
      items.filter (fun a => timecode a ≤ timecode item) ++
        item :: items.filter fun a => ¬ timecode a ≤ timecode item := by
  obtain ⟨htake, hdrop⟩ := filter_of_parted (parted_of_pairwise h item)
  rw [insert_of_pairwise h, htake, hdrop]
  simp

/-- An item that comes last goes after the last one that is not later. -/
theorem sort_concat (items : List α) (item : α) :
    sort timecode (items ++ [item]) = insert timecode item (sort timecode items) := by
  rw [insert_eq_filter (pairwise_sort timecode items)]
  induction items with
  | nil => simp [sort]
  | cons first items ih =>
      rw [List.cons_append, sort_cons, ih, sort_cons]
      simp only [List.filter_append, List.filter_cons, List.filter_filter]
      -- both sides part the other items at the two timecodes, and nothing lies beyond both
      by_cases hle : timecode first ≤ timecode item
      · have hnone : (sort timecode items).filter (fun a =>
            decide (timecode item < timecode a) && decide (timecode a < timecode first)) = [] :=
          List.filter_eq_nil_iff.mpr fun a _ => by
            simpa using fun h => Int16.le_trans hle (Int16.le_of_lt h)
        simp [hle, hnone, Bool.and_comm]
      · have hnone : (sort timecode items).filter (fun a =>
            decide (timecode first ≤ timecode a) && decide (timecode a ≤ timecode item)) = [] :=
          List.filter_eq_nil_iff.mpr fun a _ => by
            simpa using fun h => Int16.lt_of_lt_of_le (Int16.not_le.mp hle) h
        simp [hle, hnone, Bool.and_comm]

/-- Inserting items one by one sorts them. -/
theorem foldl_insert (pushed : List α) :
    pushed.foldl (fun items item => insert timecode item items) [] = sort timecode pushed := by
  have hall : ∀ pushed before : List α,
      pushed.foldl (fun items item => insert timecode item items) (sort timecode before) =
        sort timecode (before ++ pushed) := by
    intro pushed
    induction pushed with
    | nil => intro before; rw [List.append_nil]; rfl
    | cons item pushed ih =>
        intro before
        rw [List.foldl_cons, ← sort_concat, ih, List.append_assoc, List.singleton_append]
  have h := hall pushed []
  simpa [sort] using h

/-! ## Two orders -/

/-- Two timecodes give the same order exactly if they agree on every two items where one comes
before the other. -/
theorem sort_eq_sort_iff {other : α → Int16} :
    sort timecode items = sort other items ↔
      items.Pairwise fun a b => timecode a ≤ timecode b ↔ other a ≤ other b := by
  constructor
  · intro hsort
    refine List.pairwise_iff_forall_sublist.mpr fun {a b} hsub => ⟨fun hle => ?_, fun hle => ?_⟩
    · have hkept := List.pair_sublist_mergeSort (le_trans timecode) (le_total timecode)
        (decide_eq_true hle) hsub
      have hsorted := pairwise_sort other items
      rw [← hsort] at hsorted
      have hpair : [a, b].Pairwise fun a b => other a ≤ other b := hsorted.sublist hkept
      simpa using hpair
    · have hkept := List.pair_sublist_mergeSort (le_trans other) (le_total other)
        (decide_eq_true hle) hsub
      have hsorted := pairwise_sort timecode items
      rw [hsort] at hsorted
      have hpair : [a, b].Pairwise fun a b => timecode a ≤ timecode b := hsorted.sublist hkept
      simpa using hpair
  · intro hagree
    induction items with
    | nil => simp [sort]
    | cons item items ih =>
        obtain ⟨hitem, hitems⟩ := List.pairwise_cons.mp hagree
        have hsame : ∀ a ∈ sort other items,
            (timecode item ≤ timecode a ↔ other item ≤ other a) :=
          fun a hm => hitem a ((perm_sort other items).mem_iff.mp hm)
        rw [sort_cons, sort_cons, ih hitems]
        congr 1
        · exact List.filter_congr fun a hm => by simp only [hsame a hm]
        · congr 1
          exact List.filter_congr fun a hm => by simp only [hsame a hm]

/-- Timecodes that are the same for all items give the same order. -/
theorem sort_congr {other : α → Int16} (h : ∀ a ∈ items, timecode a = other a) :
    sort timecode items = sort other items :=
  sort_eq_sort_iff.mpr (List.pairwise_iff_forall_sublist.mpr fun {a b} hsub => by
    rw [h a (hsub.subset (List.mem_cons_self ..)),
      h b (hsub.subset (List.mem_cons_of_mem _ (List.mem_singleton_self b)))])

/-! ## Equal items -/

section

variable [BEq α]

theorem append_beq {second second' : List α} (hsecond : (second == second') = true) :
    ∀ {first first' : List α}, (first == first') = true →
      (first ++ second == first' ++ second') = true
  | [], [], _ => hsecond
  | [], _ :: _, h => by cases h
  | _ :: _, [], h => by cases h
  | _ :: _, _ :: _, h => by
      rw [List.cons_beq_cons, Bool.and_eq_true] at h
      rw [List.cons_append, List.cons_append, List.cons_beq_cons, h.1, append_beq hsecond h.2]
      rfl

theorem filter_beq {p q : α → Bool} (hp : ∀ a b, (a == b) = true → p a = q b) :
    ∀ {items items' : List α}, (items == items') = true →
      (items.filter p == items'.filter q) = true
  | [], [], _ => rfl
  | [], _ :: _, h => by cases h
  | _ :: _, [], h => by cases h
  | a :: items, b :: items', h => by
      rw [List.cons_beq_cons, Bool.and_eq_true] at h
      have hrest := filter_beq hp h.2
      rw [List.filter_cons, List.filter_cons, hp a b h.1]
      split
      next =>
        rw [List.cons_beq_cons, h.1, hrest]
        rfl
      next => exact hrest

/-- Lists of equal items are sorted alike, if equal items have one timecode. -/
theorem sort_beq (htimecode : ∀ a b : α, (a == b) = true → timecode a = timecode b) :
    ∀ {items items' : List α}, (items == items') = true →
      (sort timecode items == sort timecode items') = true
  | [], [], _ => by
      rw [sort, List.mergeSort_nil]
      rfl
  | [], _ :: _, h => by cases h
  | _ :: _, [], h => by cases h
  | a :: items, b :: items', h => by
      rw [List.cons_beq_cons, Bool.and_eq_true] at h
      have hrest := sort_beq htimecode h.2
      have hab := htimecode a b h.1
      rw [sort_cons, sort_cons]
      refine append_beq ?_ (filter_beq (fun c d hcd => ?_) hrest)
      · rw [List.cons_beq_cons, h.1, filter_beq (fun c d hcd => ?_) hrest]
        · rfl
        · rw [hab, htimecode c d hcd]
      · rw [hab, htimecode c d hcd]

end

end Ebml.Timeline
