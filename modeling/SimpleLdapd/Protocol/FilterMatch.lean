import SimpleLdapd.Library.Placement
import SimpleLdapd.Protocol.Filter

/-!
# Substring matching

`substringMatches` commits to the leftmost occurrence of each component and looks
at the final part last. The general argument that nothing is missed this way is
`Placement.leftmost_search_iff`; here the loop is shown to be that search.
-/

namespace SimpleLdapd.Filter

open Dn Placement

theorem occurs_at_iff {hay needle : Bytes} {index : Nat} :
    OccursAt hay needle index ↔ index ≤ hay.length ∧ needle <+: hay.drop index := by
  constructor
  · rintro ⟨before, after, rfl, rfl⟩
    simp
  · rintro ⟨inside, after, split⟩
    refine ⟨hay.take index, after, ?_, by simp [inside]⟩
    rw [List.append_assoc, split, List.take_append_drop]

/-- `std::string::find` gives the least place from the position on. -/
theorem find_from_some_iff {hay needle : Bytes} {position found : Nat} :
    findFrom hay needle position = some found ↔
      IsLeast {place | position ≤ place ∧ OccursAt hay needle place} found := by
  unfold findFrom
  rw [List.find?_range_eq_some]
  simp only [Bool.and_eq_true, decide_eq_true_eq, List.isPrefixOf_iff_prefix, List.mem_range]
  constructor
  · rintro ⟨⟨later, here⟩, inside, none⟩
    refine ⟨⟨later, occurs_at_iff.mpr ⟨by omega, here⟩⟩, ?_⟩
    rintro other ⟨otherLater, occurs⟩
    by_contra before
    obtain ⟨_, there⟩ := occurs_at_iff.mp occurs
    have missed := none other (by omega)
    simp [otherLater, List.isPrefixOf_iff_prefix.mpr there] at missed
  · rintro ⟨⟨later, occurs⟩, least⟩
    obtain ⟨inside, here⟩ := occurs_at_iff.mp occurs
    refine ⟨⟨later, here⟩, by omega, ?_⟩
    intro other before
    by_contra hit
    simp only [Bool.not_eq_true', Bool.not_eq_false, Bool.and_eq_true, decide_eq_true_eq,
      List.isPrefixOf_iff_prefix] at hit
    have bound := least ⟨hit.1, occurs_at_iff.mpr ⟨by omega, hit.2⟩⟩
    omega

theorem find_parts_iff {hay : Bytes} {parts : List Bytes} {position last : Nat} :
    findParts hay parts position = some last ↔
      Leftmost hay (parts.map toLowerAscii) position last := by
  induction parts generalizing position with
  | nil => simp [findParts, Leftmost, eq_comm]
  | cons part rest ih =>
      rw [findParts, List.map_cons, Leftmost]
      cases found : findFrom hay (toLowerAscii part) position with
      | none =>
          simp only [reduceCtorEq, false_iff, not_exists, not_and]
          intro index least
          rw [find_from_some_iff.mpr least] at found
          cases found
      | some index =>
          have least := find_from_some_iff.mp found
          rw [ih]
          constructor
          · intro leftmost
            exact ⟨index, least, leftmost⟩
          · rintro ⟨other, otherLeast, leftmost⟩
            rwa [least.unique otherLeast]

/-- The test of the final part, which an empty part always passes. -/
theorem final_part_iff {hay final : Bytes} {last : Nat} (inside : last ≤ hay.length) :
    (if final = [] then true
      else if hay.length < last + final.length then false
      else decide (hay.drop (hay.length - final.length) = final)) = true ↔
      final <:+ hay ∧ last + final.length ≤ hay.length := by
  by_cases empty : final = []
  · simp [empty, inside]
  · rw [if_neg empty]
    by_cases short : hay.length < last + final.length
    · simp [short]
    · rw [if_neg short, decide_eq_true_eq, List.suffix_iff_eq_drop, eq_comm]
      simp [Nat.not_lt.mp short]

/-- A value matches exactly when, folded to lower case, it can be cut into the initial part,
the other components in their order and the final part. -/
theorem substring_matches_iff (haystack : Bytes) (node : FilterNode) :
    substringMatches haystack node = true ↔
      ∃ middle, toLowerAscii haystack =
          toLowerAscii node.initial ++ middle ++ toLowerAscii node.final ∧
        Embeds (node.any.map toLowerAscii) middle := by
  rw [← leftmost_search_iff]
  have start : (if node.initial ≠ [] then (toLowerAscii node.initial).length else 0) =
      (toLowerAscii node.initial).length := by
    by_cases empty : node.initial = [] <;> simp [empty]
  have begins : (node.initial ≠ [] && !(toLowerAscii node.initial).isPrefixOf
      (toLowerAscii haystack)) = true ↔
      ¬ toLowerAscii node.initial <+: toLowerAscii haystack := by
    by_cases empty : node.initial = []
    · simp [empty, toLowerAscii]
    · simp [empty, ← List.isPrefixOf_iff_prefix]
  unfold substringMatches
  simp only [start]
  by_cases front : toLowerAscii node.initial <+: toLowerAscii haystack
  · rw [if_neg (fun wrong => begins.mp wrong front)]
    cases found : findParts (toLowerAscii haystack) node.any (toLowerAscii node.initial).length with
    | none =>
        simp only [Bool.false_eq_true, false_iff]
        rintro ⟨_, _, last, leftmost, _⟩
        rw [find_parts_iff.mpr leftmost] at found
        cases found
    | some position =>
        have leftmost := find_parts_iff.mp found
        have empty : node.final = [] ↔ toLowerAscii node.final = [] :=
          (to_lower_eq_nil node.final).symm
        simp only [empty]
        rw [final_part_iff (leftmost.inside front.length_le)]
        constructor
        · rintro ⟨back, room⟩
          exact ⟨front, back, position, leftmost, room⟩
        · rintro ⟨_, back, last, otherLeftmost, room⟩
          rw [otherLeftmost.unique leftmost] at room
          exact ⟨back, room⟩
  · rw [if_pos (begins.mpr front)]
    simp [front]

end SimpleLdapd.Filter
