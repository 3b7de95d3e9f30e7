import Mathlib.Data.List.Infix
import Mathlib.Logic.Relation

/-!
# Hierarchical names as paths of components

A name is the list of its components, the deepest one first. Its parent drops
the first component, and the names below a base are the lists that end with the
base. Following parents upward therefore meets exactly the suffixes.
-/

namespace SimpleLdapd

namespace Paths

variable {Component : Type*}

def ChildOf (lower upper : List Component) : Prop := ∃ head, lower = head :: upper

theorem child_of_parent (head : Component) (rest : List Component) :
    ChildOf (head :: rest) rest := ⟨head, rfl⟩

theorem child_suffix {lower upper : List Component} (child : ChildOf lower upper) :
    upper <:+ lower := by
  rcases child with ⟨head, split⟩
  rw [split]
  exact List.suffix_cons head upper

theorem child_longer {lower upper : List Component} (child : ChildOf lower upper) :
    lower.length = upper.length + 1 := by
  rcases child with ⟨head, split⟩
  rw [split, List.length_cons]

/-- Following parents upward meets exactly the suffixes. -/
theorem descends_iff_suffix (lower upper : List Component) :
    Relation.ReflTransGen ChildOf lower upper ↔ upper <:+ lower := by
  constructor
  · intro descends
    induction descends with
    | refl => exact List.suffix_rfl
    | tail _ child reached => exact (child_suffix child).trans reached
  · intro suffix
    induction lower with
    | nil =>
        rw [List.suffix_nil.mp suffix]
    | cons head rest reached =>
        rcases List.suffix_cons_iff.mp suffix with whole | inner
        · rw [whole]
        · exact (reached inner).head (child_of_parent head rest)

/-- Properly below means below and different. -/
theorem descends_properly_iff (lower upper : List Component) :
    Relation.TransGen ChildOf lower upper ↔ upper <:+ lower ∧ upper ≠ lower := by
  constructor
  · intro descends
    rcases Relation.TransGen.tail'_iff.mp descends with ⟨middle, above, child⟩
    have inner := (descends_iff_suffix lower middle).mp above
    refine ⟨(child_suffix child).trans inner, ?_⟩
    intro same
    have longer := child_longer child
    have bound := inner.length_le
    rw [same] at longer
    omega
  · intro below
    have descends := (descends_iff_suffix lower upper).mpr below.1
    rcases Relation.reflTransGen_iff_eq_or_transGen.mp descends with same | proper
    · exact absurd same below.2
    · exact proper

end Paths

end SimpleLdapd
