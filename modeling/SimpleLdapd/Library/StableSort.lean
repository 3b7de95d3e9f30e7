import Mathlib.Data.List.Sort

/-!
# Sorting by a key

Insertion sort by the key of an item leaves items with equal keys in their order.
A list that is sorted by the key is therefore known by its items of each key.
-/

namespace SimpleLdapd.StableSort

variable {Item Key : Type*} [LinearOrder Key] (key : Item → Key)

def sortBy (items : List Item) : List Item :=
  items.insertionSort fun left right => key left ≤ key right

theorem sorted_sort_by (items : List Item) :
    (sortBy key items).Pairwise fun left right => key left ≤ key right := by
  have : Std.Total fun left right : Item => key left ≤ key right :=
    ⟨fun left right => le_total (key left) (key right)⟩
  have : IsTrans Item fun left right => key left ≤ key right :=
    ⟨fun _ _ _ before after => before.trans after⟩
  exact List.pairwise_insertionSort _ items

variable [DecidableEq Key]

theorem filter_ordered_insert (wanted : Key) (item : Item) (items : List Item) :
    (items.orderedInsert (fun left right => key left ≤ key right) item).filter
        (key · = wanted) = (item :: items).filter (key · = wanted) := by
  induction items with
  | nil => rfl
  | cons first rest ih =>
      by_cases before : key item ≤ key first
      · rw [List.orderedInsert_cons, if_pos before]
      · rw [List.orderedInsert_cons, if_neg before, List.filter_cons, ih]
        -- the item passes `first`, so the two have different keys
        have apart : ¬ (key item = wanted ∧ key first = wanted) :=
          fun both => before (by rw [both.1, both.2])
        by_cases inserted : key item = wanted
        · have other : key first ≠ wanted := fun same => apart ⟨inserted, same⟩
          simp [inserted, other]
        · simp [inserted, List.filter_cons]

/-- The sort is stable. -/
theorem filter_sort_by (wanted : Key) (items : List Item) :
    (sortBy key items).filter (key · = wanted) = items.filter (key · = wanted) := by
  induction items with
  | nil => rfl
  | cons item rest ih =>
      change (List.orderedInsert _ item (sortBy key rest)).filter _ = _
      rw [filter_ordered_insert, List.filter_cons, ih, List.filter_cons]

variable {key}

/-- A sorted list begins with the least of its keys. -/
theorem head_key_le {first : Item} {rest other : List Item}
    (sorted : (first :: rest).Pairwise fun left right => key left ≤ key right)
    {item : Item} (member : item ∈ other)
    (same : ∀ wanted, (first :: rest).filter (key · = wanted) = other.filter (key · = wanted)) :
    key first ≤ key item := by
  have inside : item ∈ (first :: rest).filter (key · = key item) := by
    rw [same]
    exact List.mem_filter.mpr ⟨member, by simp⟩
  rcases List.mem_cons.mp (List.mem_filter.mp inside).1 with here | later
  · rw [here]
  · exact (List.pairwise_cons.mp sorted).1 item later

theorem eq_of_sorted {left right : List Item}
    (leftSorted : left.Pairwise fun first second => key first ≤ key second)
    (rightSorted : right.Pairwise fun first second => key first ≤ key second)
    (same : ∀ wanted, left.filter (key · = wanted) = right.filter (key · = wanted)) :
    left = right := by
  induction left generalizing right with
  | nil =>
      apply Eq.symm
      apply List.eq_nil_iff_forall_not_mem.mpr
      intro item member
      have inside : item ∈ right.filter (key · = key item) := List.mem_filter.mpr ⟨member, by simp⟩
      rw [← same] at inside
      cases inside
  | cons first rest ih =>
      cases right with
      | nil =>
          have none := same (key first)
          simp at none
      | cons other others =>
          have equal : key first = key other :=
            le_antisymm (head_key_le leftSorted List.mem_cons_self same)
              (head_key_le rightSorted List.mem_cons_self fun wanted => (same wanted).symm)
          have heads := same (key first)
          rw [List.filter_cons_of_pos (by simp), List.filter_cons_of_pos (by simp [equal]),
            List.cons.injEq] at heads
          have tails (wanted : Key) :
              rest.filter (key · = wanted) = others.filter (key · = wanted) := by
            have whole := same wanted
            by_cases here : key first = wanted
            · rw [← here]
              exact heads.2
            · rwa [List.filter_cons_of_neg (by simpa using here),
                List.filter_cons_of_neg (by simpa [← equal] using here)] at whole
          rw [heads.1, ih (List.pairwise_cons.mp leftSorted).2 (List.pairwise_cons.mp rightSorted).2
            tails]

theorem sort_by_map {Source : Type*} (image : Source → Item) (items : List Source) :
    sortBy key (items.map image) = (sortBy (fun source => key (image source)) items).map image := by
  apply eq_of_sorted (sorted_sort_by key _)
  · exact List.pairwise_map.mpr (sorted_sort_by (fun source => key (image source)) items)
  · intro wanted
    rw [filter_sort_by, List.filter_map, List.filter_map]
    exact congrArg _ (filter_sort_by (fun source => key (image source)) wanted items).symm

end SimpleLdapd.StableSort
