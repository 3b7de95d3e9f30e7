import SimpleLdapd.Library.Paths
import SimpleLdapd.Utils.Dn

/-!
# DNs as paths

The path of a DN is its text in lower case, cut at every comma. The helpers look
for commas in four different ways; all of them are statements about this path.
-/

namespace SimpleLdapd

open Paths

namespace Dn

/-- The components of a DN as the helpers see them, the RDN first. -/
def path (dn : Bytes) : List Bytes := (toLowerAscii dn).splitOn (chr ',')

theorem path_single {dn : Bytes} (absent : chr ',' ∉ dn) : path dn = [toLowerAscii dn] := by
  have lower : chr ',' ∉ toLowerAscii dn := by rwa [comma_mem_to_lower]
  exact List.splitOn_eq_singleton lower

theorem path_append {rdn : Bytes} (absent : chr ',' ∉ rdn) (parent : Bytes) :
    path (rdn ++ chr ',' :: parent) = toLowerAscii rdn :: path parent := by
  have lower : chr ',' ∉ toLowerAscii rdn := by rwa [comma_mem_to_lower]
  rw [path, to_lower_split, List.splitOn_append_cons_self_of_not_mem lower]
  rfl

theorem path_nonempty (dn : Bytes) : path dn ≠ [] := List.splitOn_ne_nil _ _

/-- The path determines the DN up to case. -/
theorem path_eq_iff (left right : Bytes) :
    path left = path right ↔ dnEquals left right = true := by
  rw [dn_equals_iff]
  constructor
  · intro same
    have joined := congrArg ([chr ','].intercalate ·) same
    simpa only [path, List.intercalate_splitOn] using joined
  · intro same
    rw [path, path, same]

theorem dn_rdn_append {rdn : Bytes} (absent : chr ',' ∉ rdn) (rest : Bytes) :
    dnRdn (rdn ++ chr ',' :: rest) = rdn := by
  simp [dnRdn, find_byte_append absent, substr]

theorem path_parent {dn : Bytes} (present : chr ',' ∈ dn) :
    path dn = toLowerAscii (dnRdn dn) :: path (dnParent dn) := by
  rcases dn_split dn with absent | ⟨rdn, parent, split, absent⟩
  · exact absurd present absent
  · rw [split, path_append absent, dn_parent_append absent, dn_rdn_append absent]

/-- A property of DNs is shown of single RDNs and carried from a parent to its child. -/
@[elab_as_elim] theorem dn_induction {holds : Bytes → Prop}
    (single : ∀ dn, chr ',' ∉ dn → holds dn)
    (child : ∀ dn, chr ',' ∈ dn → holds (dnParent dn) → holds dn) (dn : Bytes) : holds dn := by
  induction size : dn.length using Nat.strong_induction_on generalizing dn with
  | h size below =>
      by_cases present : chr ',' ∈ dn
      · apply child dn present
        have bound := dn_parent_length dn
        have positive := List.length_pos_of_mem present
        exact below _ (by omega) _ rfl
      · exact single dn present

theorem path_to_lower (dn : Bytes) : path (toLowerAscii dn) = path dn := by
  rw [path, path, to_lower_idempotent]

theorem path_suffix (front base : Bytes) : path base <:+ path (front ++ chr ',' :: base) := by
  rw [path, path, to_lower_split, List.splitOn_append_cons_self]
  exact List.suffix_append _ _

theorem dn_ends_with_parent {dn : Bytes} (present : chr ',' ∈ dn) (placed : dnParent dn ≠ []) :
    dnEndsWith dn (dnParent dn) = true := by
  rcases dn_split dn with absent | ⟨rdn, parent, split, absent⟩
  · exact absurd present absent
  · rw [split, dn_parent_append absent] at placed ⊢
    rw [dn_ends_with_iff _ placed, to_lower_split]
    exact Or.inr ⟨_, rfl⟩

theorem dn_ends_with_of_equals {dn base : Bytes} (same : dnEquals dn base = true) :
    dnEndsWith dn base = true := by
  by_cases whole : base = []
  · simp [dnEndsWith, whole]
  · rw [dn_ends_with_iff dn whole]
    exact Or.inl ((dn_equals_iff dn base).mp same)

theorem ends_with_nonempty {dn base : Bytes} (named : base ≠ [])
    (ends : dnEndsWith dn base = true) : dn ≠ [] := by
  intro blank
  rw [blank, dn_ends_with_iff [] named] at ends
  rcases ends with same | ⟨front, split⟩
  · exact named ((to_lower_eq_nil base).mp same.symm)
  · simp [toLowerAscii] at split

/-- The suffix test on text is the suffix test on paths. -/
theorem dn_ends_with_iff_suffix (dn : Bytes) {base : Bytes} (named : base ≠ []) :
    dnEndsWith dn base = true ↔ path base <:+ path dn := by
  constructor
  · intro ends
    rcases (dn_ends_with_iff dn named).mp ends with same | ⟨front, split⟩
    · rw [(path_eq_iff dn base).mpr ((dn_equals_iff dn base).mpr same)]
    · rw [← path_to_lower dn, ← path_to_lower base, split]
      exact path_suffix front (toLowerAscii base)
  · induction dn using dn_induction with
    | single dn absent =>
        intro suffix
        rw [path_single absent] at suffix
        rcases List.suffix_cons_iff.mp suffix with whole | beyond
        · rw [← path_single absent, path_eq_iff, dn_equals_iff] at whole
          exact dn_ends_with_of_equals ((dn_equals_iff dn base).mpr whole.symm)
        · exact absurd (List.suffix_nil.mp beyond) (path_nonempty base)
    | child dn present reached =>
        intro suffix
        rw [path_parent present] at suffix
        rcases List.suffix_cons_iff.mp suffix with whole | inner
        · rw [← path_parent present, path_eq_iff, dn_equals_iff] at whole
          exact dn_ends_with_of_equals ((dn_equals_iff dn base).mpr whole.symm)
        · have placed : dnParent dn ≠ [] := ends_with_nonempty named (reached inner)
          exact dn_ends_with_trans placed (dn_ends_with_parent present placed) (reached inner)

theorem one_level_iff_child (dn : Bytes) {base : Bytes} (named : base ≠ []) :
    dnIsOneLevelChild dn base = true ↔ ChildOf (path dn) (path base) := by
  rw [one_level_child_iff dn named]
  constructor
  · rintro ⟨present, same⟩
    rw [path_parent present, (path_eq_iff _ _).mpr ((dn_equals_iff _ _).mpr same)]
    exact child_of_parent _ _
  · rintro ⟨rdn, split⟩
    by_cases present : chr ',' ∈ dn
    · rw [path_parent present, List.cons.injEq, path_eq_iff, dn_equals_iff] at split
      exact ⟨present, split.2⟩
    · rw [path_single present, List.cons.injEq] at split
      exact absurd split.2.symm (path_nonempty base)

section Ascent

/-- One application of `dnParent` to a DN that still has a comma. -/
def Ascends (lower upper : Bytes) : Prop := chr ',' ∈ lower ∧ upper = dnParent lower

def OneLevel (lower upper : Bytes) : Prop := dnIsOneLevelChild lower upper = true

theorem ascends_child {lower upper : Bytes} (ascends : Ascends lower upper) :
    ChildOf (path lower) (path upper) := by
  rw [ascends.2, path_parent ascends.1]
  exact child_of_parent _ _

theorem ascends_one_level {lower upper : Bytes} (ascends : Ascends lower upper)
    (named : upper ≠ []) : OneLevel lower upper :=
  (one_level_iff_child lower named).mpr (ascends_child ascends)

theorem one_level_nonempty {lower upper : Bytes} (named : upper ≠ [])
    (child : OneLevel lower upper) : lower ≠ [] := by
  intro blank
  rw [OneLevel, blank, one_level_child_iff [] named] at child
  exact absurd child.1 List.not_mem_nil

/-- Every name between a DN and a named base is itself named. -/
theorem one_level_descends {lower upper : Bytes} (named : upper ≠ [])
    (below : Relation.TransGen OneLevel lower upper) :
    Relation.TransGen ChildOf (path lower) (path upper) := by
  induction below with
  | single child => exact .single ((one_level_iff_child lower named).mp child)
  | @tail middle upper below child reached =>
      have above : ChildOf (path middle) (path upper) := (one_level_iff_child middle named).mp child
      exact (reached (one_level_nonempty named child)).tail above

variable {base : Bytes}

/-- The suffix test climbs one parent at a time. -/
theorem ends_with_step (dn : Bytes) (named : base ≠ []) :
    dnEndsWith dn base = true ↔
      dnEquals dn base = true ∨ chr ',' ∈ dn ∧ dnEndsWith (dnParent dn) base = true := by
  rw [dn_ends_with_iff_suffix dn named, dn_ends_with_iff_suffix _ named,
    ← path_eq_iff dn base]
  by_cases present : chr ',' ∈ dn
  · rw [path_parent present, List.suffix_cons_iff, eq_comm]
    simp only [present, true_and]
  · rw [path_single present, List.suffix_cons_iff, List.suffix_nil, eq_comm]
    simp only [present, false_and, path_nonempty base]

/-- It holds where some ancestor, reached by `dnParent` alone, equals the base. -/
theorem ends_with_iff_ascends (dn : Bytes) (named : base ≠ []) :
    dnEndsWith dn base = true ↔
      ∃ upper, Relation.ReflTransGen Ascends dn upper ∧ dnEquals upper base = true := by
  constructor
  · induction dn using dn_induction with
    | single dn absent =>
        intro ends
        rcases (ends_with_step dn named).mp ends with same | higher
        · exact ⟨dn, .refl, same⟩
        · exact absurd higher.1 absent
    | child dn present reached =>
        intro ends
        rcases (ends_with_step dn named).mp ends with same | higher
        · exact ⟨dn, .refl, same⟩
        · rcases reached higher.2 with ⟨upper, climbs, same⟩
          exact ⟨upper, climbs.head ⟨present, rfl⟩, same⟩
  · rintro ⟨upper, climbs, same⟩
    induction climbs using Relation.ReflTransGen.head_induction_on with
    | refl => exact dn_ends_with_of_equals same
    | head ascends _ reached =>
        rw [ends_with_step _ named]
        rw [ascends.2] at reached
        exact Or.inr ⟨ascends.1, reached⟩

/-- Subtree scope is one-level scope, taken any number of times. -/
theorem ends_with_iff_closure (dn : Bytes) (named : base ≠ []) :
    dnEndsWith dn base = true ↔
      dnEquals dn base = true ∨ Relation.TransGen OneLevel dn base := by
  constructor
  · induction dn using dn_induction with
    | single dn absent =>
        intro ends
        rcases (ends_with_step dn named).mp ends with same | higher
        · exact Or.inl same
        · exact absurd higher.1 absent
    | child dn present reached =>
        intro ends
        rcases (ends_with_step dn named).mp ends with same | higher
        · exact Or.inl same
        · right
          rcases reached higher.2 with same | below
          · have equal := (dn_equals_iff _ _).mp same
            exact .single ((one_level_child_iff dn named).mpr ⟨present, equal⟩)
          · have placed : dnParent dn ≠ [] := ends_with_nonempty named higher.2
            exact below.head (ascends_one_level ⟨present, rfl⟩ placed)
  · rintro (same | below)
    · exact dn_ends_with_of_equals same
    · rw [dn_ends_with_iff_suffix dn named]
      exact ((descends_properly_iff _ _).mp (one_level_descends named below)).1

end Ascent

end Dn

end SimpleLdapd
