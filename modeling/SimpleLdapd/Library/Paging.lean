import Mathlib.Data.Nat.Find
import Mathlib.Order.Basic

/-!
# Reading a sequence page by page

A reader asks for one page after another. The size of each page is the reader's
choice, and a page starts where the one before it ended. Nothing is skipped and
nothing comes twice, and a reader who never asks for an empty page comes to the
end.
-/

namespace SimpleLdapd.Paging

variable (sizes : Nat → Nat) (total : Nat)

/-- Where a page starts in a sequence of `total` items. -/
def start : Nat → Nat
  | 0 => 0
  | page + 1 => min (start page + sizes page) total

theorem start_le (page : Nat) : start sizes total page ≤ total := by
  cases page with
  | zero => exact Nat.zero_le total
  | succ page => exact Nat.min_le_right _ _

theorem min_le_start (positive : ∀ page, 0 < sizes page) (page : Nat) :
    min page total ≤ start sizes total page := by
  induction page with
  | zero =>
      rw [start]
      omega
  | succ page ih =>
      have grows := positive page
      rw [start]
      omega

theorem reaches_end (positive : ∀ page, 0 < sizes page) :
    ∃ last, (∀ page < last, start sizes total (page + 1) < total) ∧
      start sizes total (last + 1) = total := by
  have ends : ∃ page, start sizes total (page + 1) = total := by
    have far := min_le_start sizes total positive (total + 1)
    have near := start_le sizes total (total + 1)
    exact ⟨total, by omega⟩
  refine ⟨Nat.find ends, ?_, Nat.find_spec ends⟩
  intro page earlier
  exact lt_of_le_of_ne (start_le sizes total (page + 1)) (Nat.find_min ends earlier)

section Items

variable {Item : Type} (items : List Item)

def page (number : Nat) : List Item :=
  (items.drop (start sizes items.length number)).take (sizes number)

theorem start_add_length (number : Nat) :
    start sizes items.length number + (page sizes items number).length =
      start sizes items.length (number + 1) := by
  have inside := start_le sizes items.length number
  rw [page, List.length_take, List.length_drop, start]
  omega

theorem pages_concat (count : Nat) :
    (List.range count).flatMap (page sizes items) =
      items.take (start sizes items.length count) := by
  induction count with
  | zero => rfl
  | succ count ih =>
      rw [List.range_succ, List.flatMap_append, ih, List.flatMap_singleton, page, ← List.take_add,
        start]
      exact List.take_eq_take_min

end Items

end SimpleLdapd.Paging
