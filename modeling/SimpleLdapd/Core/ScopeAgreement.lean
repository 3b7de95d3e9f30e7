import SimpleLdapd.Core.WriteOutcome
import SimpleLdapd.Utils.DnPath

/-!
# Scopes, parents and children agree

The scope tests of a search, the parent check of an add and the child check of a
delete all read the path of a DN, so they agree with one another. The path is cut
at every comma, the escaped ones included.
-/

namespace SimpleLdapd.Session

open Dn Paths MemoryBackend

theorem lookup_some_iff (store : MemoryStore) (dn : Bytes) :
    lookup store dn ≠ none ↔ ∃ pair ∈ store.entries, dnEquals pair.1 dn = true := by
  rw [Ne, lookup_eq_none_iff, ← Ne, ← any_equal_iff, List.any_eq_true]

/-- What the parent check of an add asks for: a stored entry of which the DN is a child. -/
theorem parent_stored_iff (store : MemoryStore) (dn : Bytes) :
    ((emptyOrStored (dnParent dn)).run exec store).1 = true ↔
      dnParent dn = [] ∨ ∃ pair ∈ store.entries, pair.1 ≠ [] ∧ OneLevel dn pair.1 := by
  rw [empty_or_stored_iff, lookup_some_iff]
  by_cases top : dnParent dn = []
  · simp only [top, true_or]
  · simp only [top, false_or]
    have present : chr ',' ∈ dn := by
      by_contra absent
      exact top (dn_parent_of_no_comma absent)
    constructor
    · rintro ⟨pair, member, same⟩
      rw [dn_equals_iff] at same
      have named : pair.1 ≠ [] := by
        intro blank
        rw [blank] at same
        exact top ((to_lower_eq_nil _).mp same.symm)
      exact ⟨pair, member, named, (one_level_child_iff dn named).mpr ⟨present, same.symm⟩⟩
    · rintro ⟨pair, member, named, child⟩
      have same := ((one_level_child_iff dn named).mp child).2
      exact ⟨pair, member, (dn_equals_iff _ _).mpr same.symm⟩

/-- What the child check of a delete finds: an entry whose add would ask for this one. -/
theorem children_stored_iff (store : MemoryStore) {base : Bytes} (named : base ≠ []) :
    hasChildren store base = true ↔
      ∃ pair ∈ store.entries, dnParent pair.1 ≠ [] ∧ dnEquals (dnParent pair.1) base = true := by
  rw [has_children_iff store named]
  apply exists_congr
  intro pair
  apply and_congr_right
  intro member
  rw [dn_equals_iff]
  constructor
  · rintro ⟨-, same⟩
    refine ⟨?_, same⟩
    intro top
    rw [top] at same
    exact named ((to_lower_eq_nil base).mp same.symm)
  · rintro ⟨placed, same⟩
    refine ⟨?_, same⟩
    by_contra absent
    exact placed (dn_parent_of_no_comma absent)

/-- One-level scope is the parent function, subtree scope is its closure, and the checks of add
and delete are the two directions of one relation. -/
theorem scopes_follow_parents (dn : Bytes) {base : Bytes} (named : base ≠ []) :
    (dnIsOneLevelChild dn base = true ↔
      chr ',' ∈ dn ∧ dnEquals (dnParent dn) base = true) ∧
    (dnEndsWith dn base = true ↔
      dnEquals dn base = true ∨
        ∃ upper, Relation.TransGen Ascends dn upper ∧ dnEquals upper base = true) ∧
    (Backend.inScope .subtree dn base = true ↔
      Backend.inScope .base dn base = true ∨
        Relation.TransGen (fun lower upper => Backend.inScope .oneLevel lower upper = true)
          dn base) ∧
    ∀ store : MemoryStore,
      (((emptyOrStored (dnParent dn)).run exec store).1 = true ↔
        dnParent dn = [] ∨
          ∃ pair ∈ store.entries, pair.1 ≠ [] ∧ dnIsOneLevelChild dn pair.1 = true) ∧
      (hasChildren store base = true ↔
        ∃ pair ∈ store.entries, dnParent pair.1 ≠ [] ∧ dnEquals (dnParent pair.1) base = true) := by
  refine ⟨?_, ?_, ends_with_iff_closure dn named, ?_⟩
  · rw [one_level_child_iff dn named, dn_equals_iff]
  · rw [ends_with_iff_ascends dn named]
    constructor
    · rintro ⟨upper, climbs, same⟩
      rcases Relation.reflTransGen_iff_eq_or_transGen.mp climbs with here | higher
      · rw [here] at same
        exact Or.inl same
      · exact Or.inr ⟨upper, higher, same⟩
    · rintro (same | ⟨upper, climbs, same⟩)
      · exact ⟨dn, .refl, same⟩
      · exact ⟨upper, climbs.to_reflTransGen, same⟩
  · intro store
    exact ⟨parent_stored_iff store dn, children_stored_iff store named⟩

theorem scopes_follow_parents_applied :
    dnEndsWith (text "cn=a,dc=X") (text "dc=x") = true ↔
      dnEquals (text "cn=a,dc=X") (text "dc=x") = true ∨
        ∃ upper, Relation.TransGen Ascends (text "cn=a,dc=X") upper ∧
          dnEquals upper (text "dc=x") = true :=
  (scopes_follow_parents (text "cn=a,dc=X") (by decide)).2.1

section FirstComma

variable {rdn parent : Bytes}

/-- A DN is one level below exactly what follows its first comma. -/
theorem one_level_append (named : parent ≠ []) (absent : chr ',' ∉ rdn) (rest : Bytes) :
    dnIsOneLevelChild (rdn ++ chr ',' :: rest) parent = true ↔ dnEquals rest parent = true := by
  rw [one_level_child_iff _ named, dn_parent_append absent, dn_equals_iff]
  simp

theorem deeper_not_equal (back parent : Bytes) :
    dnEquals (back ++ chr ',' :: parent) parent ≠ true := by
  rw [Ne, dn_equals_iff]
  intro same
  have lengths := congrArg List.length same
  simp only [to_lower_length, List.length_append, List.length_cons] at lengths
  omega

/-- The helpers split a composed name at the first comma of the RDN if there is one, an escaped
comma or not, and at the joining comma only otherwise. -/
theorem names_split_at_first_comma (rdn : Bytes) {parent : Bytes} (named : parent ≠ []) :
    ((dnRdn (rdn ++ text "," ++ parent) = rdn ∧ dnParent (rdn ++ text "," ++ parent) = parent ∧
        dnIsOneLevelChild (rdn ++ text "," ++ parent) parent = true) ↔ chr ',' ∉ rdn) ∧
    (∀ front back, chr ',' ∉ front → rdn = front ++ text "," ++ back →
      dnRdn (rdn ++ text "," ++ parent) = front ∧
        dnParent (rdn ++ text "," ++ parent) = back ++ text "," ++ parent ∧
        dnIsOneLevelChild (rdn ++ text "," ++ parent) parent = false) ∧
    (chr ',' ∉ rdn → ∀ store : MemoryStore,
      ((emptyOrStored (dnParent (rdn ++ text "," ++ parent))).run exec store).1 =
          (lookup store parent).isSome ∧
        ∀ pair ∈ store.entries, pair.1 = rdn ++ text "," ++ parent →
          hasChildren store parent = true) := by
  have joined : ∀ front rest : Bytes, front ++ text "," ++ rest = front ++ chr ',' :: rest :=
    fun front rest => List.append_assoc front _ rest
  have whole : chr ',' ∉ rdn → dnIsOneLevelChild (rdn ++ chr ',' :: parent) parent = true :=
    fun absent => (one_level_append named absent parent).mpr (by rw [dn_equals_iff])
  simp only [joined]
  refine ⟨⟨?_, ?_⟩, ?_, ?_⟩
  · rintro ⟨same, -, -⟩ present
    rcases dn_split rdn with absent | ⟨front, back, split, absent⟩
    · exact absent present
    · rw [split, List.append_assoc, List.cons_append, dn_rdn_append absent] at same
      exact absurd (congrArg List.length same) (by simp)
  · intro absent
    exact ⟨dn_rdn_append absent parent, dn_parent_append absent parent, whole absent⟩
  · intro front back absent split
    rw [split, List.append_assoc, List.cons_append, dn_rdn_append absent, dn_parent_append absent,
      ← Bool.not_eq_true, one_level_append named absent]
    exact ⟨rfl, rfl, deeper_not_equal back parent⟩
  · intro absent store
    refine ⟨?_, ?_⟩
    · rw [dn_parent_append absent, Bool.eq_iff_iff, empty_or_stored_iff, Option.isSome_iff_ne_none]
      simp only [named, false_or]
    · intro pair member key
      rw [hasChildren, List.any_eq_true]
      exact ⟨pair, member, by rw [key]; exact whole absent⟩

theorem names_split_at_first_comma_applied :
    dnRdn (text "cn=a" ++ text "," ++ text "dc=x") = text "cn=a" ∧
      dnParent (text "cn=a" ++ text "," ++ text "dc=x") = text "dc=x" ∧
      dnIsOneLevelChild (text "cn=a" ++ text "," ++ text "dc=x") (text "dc=x") = true :=
  (names_split_at_first_comma (text "cn=a") (by decide)).1.mpr (by decide)

/-- The value `a,b`, written with its comma escaped. -/
theorem escaped_comma_splits :
    ¬(dnRdn (text "cn=a\\,b" ++ text "," ++ text "dc=x") = text "cn=a\\,b" ∧
      dnParent (text "cn=a\\,b" ++ text "," ++ text "dc=x") = text "dc=x" ∧
      dnIsOneLevelChild (text "cn=a\\,b" ++ text "," ++ text "dc=x") (text "dc=x") = true) := by
  decide +kernel

end FirstComma

end SimpleLdapd.Session
