import SimpleLdapd.Backend.Modify
import SimpleLdapd.Library.GuardedRun

/-!
# Attribute value sets under modification (`backend/modify.cpp`)

The values of an attribute are a set, compared ignoring case. `applyModifications`
compares a value with the stored ones only where it adds to an attribute that is
already there; a list written to an absent attribute or in place of the stored
one is taken as it comes. Such a list stays until a later change of the same
attribute removes its repetitions one by one or writes the attribute anew, and
that is what decides whether a change list keeps the value sets well formed.
-/

namespace SimpleLdapd

namespace Modify

open Dn

def WellFormedValues (values : List Bytes) : Prop :=
  values ≠ [] ∧ values.Pairwise fun left right => ¬ iequals left right

/-- Every value list is non-empty and free of duplicates ignoring case. -/
def WellFormed (entry : DirectoryEntry) : Prop :=
  ∀ pair ∈ entry.attributes.entries, WellFormedValues pair.2

instance (values : List Bytes) : Decidable (WellFormedValues values) :=
  inferInstanceAs (Decidable (_ ∧ _))

instance (entry : DirectoryEntry) : Decidable (WellFormed entry) :=
  inferInstanceAs (Decidable (∀ pair ∈ entry.attributes.entries, _))

/-- How often a value stands in a list, ignoring case. -/
def copies (value : Bytes) (values : List Bytes) : Nat :=
  values.countP fun other => iequals other value

theorem copies_eq_zero_iff (value : Bytes) (values : List Bytes) :
    copies value values = 0 ↔ hasValue values value = false := by
  simp [copies, hasValue]

theorem present_of_copies {existing removed : List Bytes} (some : removed ≠ [])
    (counts : ∀ value, copies value removed ≤ copies value existing) : existing ≠ [] := by
  rcases List.exists_cons_of_ne_nil some with ⟨value, rest, split⟩
  intro empty
  have count := counts value
  rw [split, empty, copies, List.countP_cons, if_pos ((iequals_iff value value).mpr rfl)] at count
  exact absurd count (Nat.not_succ_le_zero _)

theorem duplicate_free_iff (values : List Bytes) :
    (values.Pairwise fun left right => ¬ iequals left right) ↔
      ∀ value, copies value values ≤ 1 := by
  induction values with
  | nil => simp [copies]
  | cons head rest ih =>
      rw [List.pairwise_cons, ih]
      constructor
      · intro apart value
        have later := apart.2 value
        unfold copies at later ⊢
        rw [List.countP_cons]
        by_cases same : iequals head value = true
        · have absent : rest.countP (fun other => iequals other value) = 0 := by
            rw [List.countP_eq_zero]
            intro other member equal
            rw [iequals_iff] at same equal
            exact apart.1 other member ((iequals_iff head other).mpr (same.trans equal.symm))
          rw [absent, if_pos same]
        · rw [if_neg same]
          exact later
      · intro single
        constructor
        · intro other member equal
          have many := single other
          have present : 0 < rest.countP fun candidate => iequals candidate other :=
            List.countP_pos_iff.mpr ⟨other, member, (iequals_iff other other).mpr rfl⟩
          rw [copies, List.countP_cons, if_pos equal] at many
          omega
        · intro value
          have many := single value
          rw [copies, List.countP_cons] at many
          unfold copies
          omega

theorem add_values_success {existing added : List Bytes}
    (succeeded : (addValues existing added).1 = true) :
    (addValues existing added).2 = existing ++ added ∧
      ∀ value, copies value added = 0 ∨ copies value (existing ++ added) = 1 := by
  induction added generalizing existing with
  | nil =>
      simp [addValues, copies]
  | cons next rest ih =>
      unfold addValues at succeeded ⊢
      split at succeeded
      · cases succeeded
      · rename_i fresh
        rw [if_neg fresh]
        rcases ih succeeded with ⟨same, single⟩
        rw [List.append_assoc, List.singleton_append] at same
        refine ⟨same, ?_⟩
        intro value
        have later := single value
        rw [List.append_assoc, List.singleton_append] at later
        rcases later with absent | once
        · by_cases here : iequals next value = true
          · right
            have none : copies value existing = 0 := by
              rw [copies_eq_zero_iff, ← Bool.not_eq_true]
              intro stored
              apply fresh
              rw [hasValue, List.any_eq_true] at stored ⊢
              rcases stored with ⟨other, member, equal⟩
              rw [iequals_iff] at equal here
              exact ⟨other, member, (iequals_iff other next).mpr (equal.trans here.symm)⟩
            unfold copies at none absent ⊢
            rw [List.countP_append, List.countP_cons, none, absent, if_pos here]
          · left
            unfold copies at absent ⊢
            rw [List.countP_cons, absent, if_neg here]
        · exact Or.inr once

theorem copies_erase {existing : List Bytes} {removed : Bytes}
    (stored : hasValue existing removed = true) (value : Bytes) :
    copies value existing =
      copies value (existing.eraseP fun candidate => iequals candidate removed) +
        if iequals removed value then 1 else 0 := by
  rcases List.any_eq_true.mp stored with ⟨found, member, equal⟩
  rcases List.exists_of_eraseP (p := fun candidate => iequals candidate removed) member equal with
    ⟨erased, before, after, _, same, split, kept⟩
  have alike : iequals erased value = iequals removed value := by
    rw [iequals_iff] at same
    rw [iequals, iequals, same]
  rw [kept, split]
  unfold copies
  rw [List.countP_append, List.countP_cons, List.countP_append, alike]
  omega

theorem delete_values_success {existing removed : List Bytes}
    (succeeded : (deleteValues existing removed).1 = true) (value : Bytes) :
    copies value existing =
      copies value (deleteValues existing removed).2 + copies value removed := by
  induction removed generalizing existing with
  | nil => simp [deleteValues, copies]
  | cons next rest ih =>
      unfold deleteValues at succeeded ⊢
      split at succeeded
      · rename_i stored
        rw [if_pos stored, copies_erase stored value, ih succeeded]
        unfold copies
        rw [List.countP_cons]
        omega
      · cases succeeded

/-- What a change that succeeds does to the attributes. -/
inductive Succeeds (attributes : Attributes) (change : AttributeModification) :
    Attributes → Prop where
  | idle (adds : change.op ≠ .add) (deletes : change.op ≠ .delete)
      (replaces : change.op = .replace → change.values = [] ∧
        attributes.findBy toLowerAscii change.type = none) :
      Succeeds attributes change attributes
  | created (absent : attributes.findBy toLowerAscii change.type = none)
      (op : change.op = .add ∨ (change.op = .replace ∧ change.values ≠ [])) :
      Succeeds attributes change (attributes.insert change.type change.values)
  | extended {name : Bytes} {existing : List Bytes}
      (found : attributes.findBy toLowerAscii change.type = some (name, existing))
      (op : change.op = .add)
      (single : ∀ value, copies value change.values = 0 ∨
        copies value (existing ++ change.values) = 1) :
      Succeeds attributes change (attributes.insert name (existing ++ change.values))
  | cleared {name : Bytes} {existing : List Bytes}
      (found : attributes.findBy toLowerAscii change.type = some (name, existing))
      (op : change.op = .delete ∨ change.op = .replace) (whole : change.values = []) :
      Succeeds attributes change (attributes.erase name)
  | reduced {name : Bytes} {existing kept : List Bytes}
      (found : attributes.findBy toLowerAscii change.type = some (name, existing))
      (op : change.op = .delete) (part : change.values ≠ []) (remaining : kept ≠ [])
      (counts : ∀ value, copies value existing = copies value kept + copies value change.values) :
      Succeeds attributes change (attributes.insert name kept)
  | emptied {name : Bytes} {existing : List Bytes}
      (found : attributes.findBy toLowerAscii change.type = some (name, existing))
      (op : change.op = .delete) (part : change.values ≠ [])
      (counts : ∀ value, copies value existing = copies value change.values) :
      Succeeds attributes change (attributes.erase name)
  | replaced {name : Bytes} {existing : List Bytes}
      (found : attributes.findBy toLowerAscii change.type = some (name, existing))
      (op : change.op = .replace) (written : change.values ≠ []) :
      Succeeds attributes change (attributes.insert name change.values)

theorem apply_modification_succeeds {entry : DirectoryEntry} {change : AttributeModification}
    (succeeded : (applyModification entry change).1 = .success) :
    Succeeds entry.attributes change (applyModification entry change).2.attributes := by
  unfold applyModification at succeeded ⊢
  split at succeeded
  · cases succeeded
  rename_i named
  rw [if_neg named]
  split at succeeded
  · rename_i op absent
    exact .created absent (Or.inl op)
  · rename_i name existing op found
    have added : (addValues existing change.values).1 = true := by
      by_contra refused
      simp only [refused] at succeeded
      cases succeeded
    rcases add_values_success added with ⟨same, single⟩
    simp only [same]
    exact .extended found op single
  · cases succeeded
  · rename_i name existing op found
    split at succeeded
    · rename_i whole
      rw [if_pos whole]
      exact .cleared found (Or.inl op) whole
    rename_i part
    simp only [if_neg part]
    simp only at succeeded
    split at succeeded
    · rename_i deleted
      have counts := delete_values_success deleted
      rw [if_pos deleted]
      split
      · rename_i nothing
        refine .emptied found op part ?_
        intro value
        rw [counts value, nothing]
        exact Nat.zero_add _
      · rename_i remaining
        exact .reduced found op part remaining counts
    · cases succeeded
  · rename_i op absent
    split
    · rename_i nothing
      exact .idle (by simp [op]) (by simp [op]) fun _ => ⟨nothing, absent⟩
    · rename_i written
      exact .created absent (Or.inr ⟨op, written⟩)
  · rename_i name existing op found
    split
    · rename_i whole
      exact .cleared found (Or.inr op) whole
    · rename_i written
      exact .replaced found op written
  · rename_i value op
    exact .idle (by simp [op]) (by simp [op]) (by simp [op])

theorem apply_modifications_concat (entry : DirectoryEntry) (changes : List AttributeModification)
    (change : AttributeModification) :
    applyModifications entry (changes ++ [change]) =
      if (applyModifications entry changes).1 = .success then
        applyModification (applyModifications entry changes).2 change
      else applyModifications entry changes := by
  rw [apply_modifications_append, apply_modifications_singleton]

section Heads

variable {attributes : Attributes} {name type : Bytes}

/-- Only the attribute that a scan for its name meets first may have an ill-formed list:
no change can have written to another one. -/
def Tidy (attributes : Attributes) : Prop :=
  ∀ pair ∈ attributes.entries,
    WellFormedValues pair.2 ∨ attributes.findBy toLowerAscii pair.1 = some pair

/-- A write under `name` reaches the attribute that a scan for `name` meets first. -/
def Addressed (attributes : Attributes) (name : Bytes) : Prop :=
  ∀ pair, attributes.findBy toLowerAscii name = some pair → pair.1 = name

theorem addressed_absent (absent : attributes.findBy toLowerAscii type = none) :
    Addressed attributes type := by
  intro pair found
  rw [absent] at found
  cases found

theorem find_as {wanted : Bytes} {result : Option (Bytes × List Bytes)}
    (same : toLowerAscii wanted = toLowerAscii type)
    (found : attributes.findBy toLowerAscii wanted = result) :
    attributes.findBy toLowerAscii type = result := by
  rw [← OrderedMap.findBy_congr toLowerAscii attributes same, found]

theorem found_name {existing : List Bytes}
    (found : attributes.findBy toLowerAscii type = some (name, existing)) :
    toLowerAscii name = toLowerAscii type :=
  (OrderedMap.findBy_some toLowerAscii found).2

theorem found_again {existing : List Bytes}
    (found : attributes.findBy toLowerAscii type = some (name, existing)) :
    attributes.findBy toLowerAscii name = some (name, existing) :=
  find_as (found_name found).symm found

theorem addressed_found {existing : List Bytes}
    (found : attributes.findBy toLowerAscii type = some (name, existing)) :
    Addressed attributes name := by
  intro pair again
  rw [found_again found] at again
  cases again
  rfl

theorem find_written (addressed : Addressed attributes name) (values : List Bytes)
    (other : Bytes) :
    (attributes.insert name values).findBy toLowerAscii other =
      if toLowerAscii name = toLowerAscii other then some (name, values)
      else attributes.findBy toLowerAscii other := by
  apply OrderedMap.findBy_insert_leading
  cases found : attributes.findBy toLowerAscii name with
  | none => exact OrderedMap.leads_fresh toLowerAscii found
  | some pair =>
      rw [← addressed pair found]
      exact OrderedMap.leads_found toLowerAscii found

theorem Tidy.insert (tidy : Tidy attributes) (addressed : Addressed attributes name)
    (values : List Bytes) : Tidy (attributes.insert name values) := by
  intro pair member
  rw [find_written addressed]
  rcases (OrderedMap.mem_insert attributes name values pair).mp member with here | ⟨older, apart⟩
  · right
    rw [here, if_pos rfl]
  · rcases tidy pair older with good | first
    · exact Or.inl good
    · right
      have different : toLowerAscii name ≠ toLowerAscii pair.1 := by
        intro same
        apply apart
        rw [← OrderedMap.findBy_congr toLowerAscii attributes same] at first
        exact addressed pair first
      rw [if_neg different]
      exact first

theorem Tidy.erase (tidy : Tidy attributes) {existing : List Bytes}
    (found : attributes.findBy toLowerAscii type = some (name, existing)) :
    Tidy (attributes.erase name) := by
  intro pair member
  rcases (OrderedMap.mem_erase attributes name pair).mp member with ⟨older, apart⟩
  rcases tidy pair older with good | first
  · exact Or.inl good
  · right
    have different : toLowerAscii name ≠ toLowerAscii pair.1 := by
      intro same
      apply apart
      rw [← OrderedMap.findBy_congr toLowerAscii attributes same] at first
      exact addressed_found found pair first
    rw [OrderedMap.findBy_erase_other toLowerAscii attributes different]
    exact first

/-- Erasing an attribute uncovers at most another spelling, which no change has written to. -/
theorem Tidy.uncovered (tidy : Tidy attributes) {existing : List Bytes}
    (found : attributes.findBy toLowerAscii type = some (name, existing))
    {pair : Bytes × List Bytes}
    (next : (attributes.erase name).findBy toLowerAscii type = some pair) :
    WellFormedValues pair.2 := by
  rcases OrderedMap.findBy_some toLowerAscii next with ⟨member, same⟩
  rcases (OrderedMap.mem_erase attributes name pair).mp member with ⟨older, apart⟩
  rcases tidy pair older with good | first
  · exact good
  · rw [OrderedMap.findBy_congr toLowerAscii attributes same, found] at first
    cases first
    exact absurd rfl apart

theorem Succeeds.tidy {change : AttributeModification} {reached : Attributes}
    (succeeds : Succeeds attributes change reached) (tidy : Tidy attributes) : Tidy reached := by
  cases succeeds with
  | idle => exact tidy
  | created absent => exact tidy.insert (addressed_absent absent) _
  | extended found => exact tidy.insert (addressed_found found) _
  | cleared found => exact tidy.erase found
  | reduced found => exact tidy.insert (addressed_found found) _
  | emptied found => exact tidy.erase found
  | replaced found => exact tidy.insert (addressed_found found) _

/-- The attribute that a scan for `type` meets first has a list of the kind. -/
def FirstHas (attributes : Attributes) (type : Bytes) (Kind : List Bytes → Prop) : Prop :=
  ∃ pair, attributes.findBy toLowerAscii type = some pair ∧ Kind pair.2

variable {Kind : List Bytes → Prop}

theorem first_has_found {pair : Bytes × List Bytes}
    (found : attributes.findBy toLowerAscii type = some pair) :
    FirstHas attributes type Kind ↔ Kind pair.2 := by
  simp [FirstHas, found]

variable (Kind) in
theorem first_has_absent (absent : attributes.findBy toLowerAscii type = none) :
    ¬ FirstHas attributes type Kind := by
  simp [FirstHas, absent]

theorem first_has_written (addressed : Addressed attributes name)
    (same : toLowerAscii name = toLowerAscii type) (values : List Bytes) :
    FirstHas (attributes.insert name values) type Kind ↔ Kind values := by
  have found : (attributes.insert name values).findBy toLowerAscii type = some (name, values) := by
    rw [find_written addressed, if_pos same]
  exact first_has_found found

theorem first_has_rewritten {existing : List Bytes}
    (found : attributes.findBy toLowerAscii type = some (name, existing)) (values : List Bytes) :
    FirstHas (attributes.insert name values) type Kind ↔ Kind values :=
  first_has_written (addressed_found found) (found_name found) values

theorem Tidy.not_first_has (tidy : Tidy attributes) {existing : List Bytes}
    (found : attributes.findBy toLowerAscii type = some (name, existing))
    (ill : ∀ values, Kind values → ¬ WellFormedValues values) :
    ¬ FirstHas (attributes.erase name) type Kind := by
  intro first
  rcases first with ⟨pair, next, kind⟩
  exact ill pair.2 kind (tidy.uncovered found next)

/-- A change leaves the attributes of every other name alone. -/
theorem Succeeds.elsewhere {change : AttributeModification} {reached : Attributes}
    (succeeds : Succeeds attributes change reached)
    (different : toLowerAscii change.type ≠ toLowerAscii type) :
    reached.findBy toLowerAscii type = attributes.findBy toLowerAscii type := by
  have apart {name : Bytes} {existing : List Bytes}
      (found : attributes.findBy toLowerAscii change.type = some (name, existing)) :
      toLowerAscii name ≠ toLowerAscii type := by
    rw [found_name found]
    exact different
  cases succeeds with
  | idle => rfl
  | created absent => rw [find_written (addressed_absent absent), if_neg different]
  | extended found => rw [find_written (addressed_found found), if_neg (apart found)]
  | cleared found => exact OrderedMap.findBy_erase_other toLowerAscii attributes (apart found)
  | reduced found => rw [find_written (addressed_found found), if_neg (apart found)]
  | emptied found => exact OrderedMap.findBy_erase_other toLowerAscii attributes (apart found)
  | replaced found => rw [find_written (addressed_found found), if_neg (apart found)]

end Heads

section Steps

/-- The change concerns the attribute named `type`. -/
def Names (type : Bytes) (change : AttributeModification) : Prop :=
  toLowerAscii change.type = toLowerAscii type

/-- The change discards the values the attribute had, whatever they were. -/
def Resets (type : Bytes) (change : AttributeModification) : Prop :=
  Names type change ∧ (change.op = .replace ∨ (change.op = .delete ∧ change.values = []))

/-- The change writes its values to the attribute. -/
def Writes (type : Bytes) (change : AttributeModification) : Prop :=
  Names type change ∧ (change.op = .add ∨ change.op = .replace)

/-- How many copies of the value the change deletes. -/
def removals (type value : Bytes) (change : AttributeModification) : Nat :=
  if toLowerAscii change.type = toLowerAscii type ∧ change.op = .delete then
    copies value change.values
  else 0

/-- The change leaves the attribute absent or with values. -/
def Fills (type : Bytes) (change : AttributeModification) : Prop :=
  Resets type change ∨ (Names type change ∧ change.op = .add ∧ change.values ≠ [])

variable {attributes reached : Attributes} {change : AttributeModification}

/-- The copies of a value in an attribute are those its last writer left there, less the
ones deleted since. -/
theorem Succeeds.repeated_iff (succeeds : Succeeds attributes change reached)
    (tidy : Tidy attributes) (type value : Bytes) {count : Nat} (several : 2 ≤ count) :
    FirstHas reached type (fun values => count ≤ copies value values) ↔
      (Writes type change ∧ count ≤ copies value change.values) ∨
        (¬ Resets type change ∧ FirstHas attributes type fun values =>
          count + removals type value change ≤ copies value values) := by
  by_cases same : toLowerAscii change.type = toLowerAscii type
  case neg =>
    simp only [FirstHas, succeeds.elsewhere same, Writes, Resets, Names, removals, same,
      false_and, not_false_eq_true, true_and, false_or, if_false, Nat.add_zero]
  have ill (values : List Bytes) (many : count ≤ copies value values) :
      ¬ WellFormedValues values := by
    intro good
    have single := (duplicate_free_iff values).mp good.2 value
    omega
  cases succeeds with
  | idle adds deletes replaces =>
      by_cases op : change.op = .replace
      · have absent := first_has_absent (fun values => count ≤ copies value values)
          (find_as same (replaces op).2)
        have empty : copies value change.values = 0 := by rw [(replaces op).1]; rfl
        simp only [absent, Resets, Names, same, op, true_and, true_or, not_true_eq_false,
          false_and, or_false, false_iff, empty]
        omega
      · simp only [Writes, Resets, removals, adds, deletes, op, or_self, and_false, false_and,
          not_false_eq_true, true_and, false_or, if_false, Nat.add_zero]
  | created absent op =>
      rw [first_has_written (addressed_absent absent) same]
      have before := first_has_absent
        (fun values => count + removals type value change ≤ copies value values)
        (find_as same absent)
      have writes : Writes type change := ⟨same, op.imp_right And.left⟩
      simp only [writes, true_and, before, and_false, or_false]
  | @extended name existing found op single =>
      have here := find_as same found
      rw [first_has_rewritten here, first_has_found here]
      have limit := single value
      simp only [copies, List.countP_append] at limit ⊢
      simp only [Writes, Resets, Names, removals, op, same, reduceCtorEq, true_and, false_and,
        or_self, and_false, not_false_eq_true, if_false, Nat.add_zero, true_or]
      omega
  | cleared found op whole =>
      have after := tidy.not_first_has (find_as same found) ill
      have resets : Resets type change := ⟨same, op.symm.imp_right fun deletes => ⟨deletes, whole⟩⟩
      have empty : copies value change.values = 0 := by rw [whole]; rfl
      simp only [after, resets, not_true_eq_false, false_and, or_false, false_iff, empty]
      omega
  | @reduced name existing kept found op part remaining counts =>
      have here := find_as same found
      rw [first_has_rewritten here, first_has_found here]
      have total := counts value
      simp only [Writes, Resets, Names, removals, op, same, part, reduceCtorEq, true_and,
        false_and, and_false, or_self, not_false_eq_true, if_true, false_or, and_self]
      omega
  | @emptied name existing found op part counts =>
      have after := tidy.not_first_has (find_as same found) ill
      rw [first_has_found (find_as same found)]
      have total := counts value
      simp only [after, Writes, Resets, Names, removals, op, same, part, reduceCtorEq, true_and,
        false_and, and_false, or_self, not_false_eq_true, if_true, false_or, and_self, false_iff]
      omega
  | replaced found op written =>
      rw [first_has_rewritten (find_as same found)]
      have resets : Resets type change := ⟨same, Or.inl op⟩
      have writes : Writes type change := ⟨same, Or.inr op⟩
      simp only [resets, writes, true_and, not_true_eq_false, false_and, or_false]

/-- An attribute is left without values by adding none to an absent attribute, and by
nothing else. -/
theorem Succeeds.vacant_iff (succeeds : Succeeds attributes change reached)
    (tidy : Tidy attributes) (type : Bytes) :
    FirstHas reached type (· = []) ↔
      (Names type change ∧ change.op = .add ∧ change.values = [] ∧
        attributes.findBy toLowerAscii type = none) ∨
      (¬ Fills type change ∧ FirstHas attributes type (· = [])) := by
  by_cases same : toLowerAscii change.type = toLowerAscii type
  case neg =>
    simp only [FirstHas, succeeds.elsewhere same, Fills, Resets, Names, same, false_and, or_self,
      not_false_eq_true, true_and, false_or]
  have ill (values : List Bytes) (none : values = []) : ¬ WellFormedValues values :=
    fun good => good.1 none
  cases succeeds with
  | idle adds deletes replaces =>
      by_cases op : change.op = .replace
      · have absent := first_has_absent (· = []) (find_as same (replaces op).2)
        simp only [absent, adds, false_and, and_false, or_self]
      · simp only [Fills, Resets, adds, deletes, op, or_self, and_false, false_and,
          not_false_eq_true, true_and, false_or]
  | created absent op =>
      rw [first_has_written (addressed_absent absent) same]
      have before := first_has_absent (· = []) (find_as same absent)
      simp only [before, and_false, or_false, find_as same absent, and_true]
      constructor
      · intro empty
        rcases op with add | ⟨_, written⟩
        · exact ⟨same, add, empty⟩
        · exact absurd empty written
      · exact fun written => written.2.2
  | extended found op single =>
      have here := find_as same found
      rw [first_has_rewritten here, first_has_found here, List.append_eq_nil_iff]
      simp only [Fills, Resets, Names, op, same, here, reduceCtorEq, true_and, false_and,
        and_false, or_self, false_or, not_not]
      exact And.comm
  | cleared found op whole =>
      have after := tidy.not_first_has (find_as same found) ill
      have resets : Resets type change := ⟨same, op.symm.imp_right fun deletes => ⟨deletes, whole⟩⟩
      simp only [after, Fills, resets, true_or, not_true_eq_false, false_and, or_false,
        find_as same found, reduceCtorEq, and_false]
  | @reduced name existing kept found op part remaining counts =>
      have here := find_as same found
      rw [first_has_rewritten here, first_has_found here]
      have present : existing ≠ [] := by
        apply present_of_copies part
        intro value
        have total := counts value
        omega
      simp only [remaining, present, op, reduceCtorEq, false_and, and_false, or_self]
  | @emptied name existing found op part counts =>
      have after := tidy.not_first_has (find_as same found) ill
      rw [first_has_found (find_as same found)]
      have present := present_of_copies part fun value => (counts value).ge
      simp only [after, present, op, reduceCtorEq, false_and, and_false, or_self]
  | replaced found op written =>
      rw [first_has_rewritten (find_as same found)]
      have resets : Resets type change := ⟨same, Or.inl op⟩
      simp only [written, Fills, resets, not_true_eq_false, false_and, or_false, op, reduceCtorEq,
        and_false]

end Steps

section Runs

variable {entry : DirectoryEntry} {changes : List AttributeModification}

/-- A change writes the value to the attribute so often that, with no later change
discarding the attribute's values, `count` copies outlast the later deletions. -/
def KeepsCopies (changes : List AttributeModification) (type value : Bytes) (count : Nat) : Prop :=
  ∃ before change after, changes = before ++ change :: after ∧
    Writes type change ∧ (∀ later ∈ after, ¬ Resets type later) ∧
      count + (after.map (removals type value)).sum ≤ copies value change.values

/-- A change adds no values to the attribute when it is absent, and no later change
gives it values or removes it. -/
def KeepsVacant (entry : DirectoryEntry) (changes : List AttributeModification) (type : Bytes) :
    Prop :=
  ∃ before change after, changes = before ++ change :: after ∧
    (Names type change ∧ change.op = .add ∧ change.values = [] ∧
      (applyModifications entry before).2.findAttribute type = none) ∧
    ∀ later ∈ after, ¬ Fills type later

theorem keeps_copies_concat {change : AttributeModification} {type value : Bytes} {count : Nat} :
    KeepsCopies (changes ++ [change]) type value count ↔
      (Writes type change ∧ count ≤ copies value change.values) ∨
        (¬ Resets type change ∧
          KeepsCopies changes type value (count + removals type value change)) := by
  unfold KeepsCopies
  rw [exists_step_concat]
  apply or_congr
  · simp
  · simp only [List.forall_mem_append, List.forall_mem_singleton, List.map_append,
      List.sum_append_nat, List.map_singleton, List.sum_singleton]
    constructor
    · rintro ⟨before, writer, after, split, writes, ⟨kept, keeps⟩, many⟩
      exact ⟨keeps, before, writer, after, split, writes, kept, by omega⟩
    · rintro ⟨keeps, before, writer, after, split, writes, kept, many⟩
      exact ⟨before, writer, after, split, writes, ⟨kept, keeps⟩, by omega⟩

theorem keeps_vacant_concat {change : AttributeModification} {type : Bytes} :
    KeepsVacant entry (changes ++ [change]) type ↔
      (Names type change ∧ change.op = .add ∧ change.values = [] ∧
          (applyModifications entry changes).2.findAttribute type = none) ∨
        (¬ Fills type change ∧ KeepsVacant entry changes type) := by
  unfold KeepsVacant
  rw [exists_step_concat]
  apply or_congr
  · simp
  · simp only [List.forall_mem_append, List.forall_mem_singleton]
    constructor
    · rintro ⟨before, writer, after, split, writes, kept, keeps⟩
      exact ⟨keeps, before, writer, after, split, writes, kept⟩
    · rintro ⟨keeps, before, writer, after, split, writes, kept⟩
      exact ⟨before, writer, after, split, writes, kept, keeps⟩

/-- The lists a run of changes may have spoiled, and how each came about. -/
structure Accounted (entry : DirectoryEntry) (changes : List AttributeModification) : Prop where
  tidy : Tidy (applyModifications entry changes).2.attributes
  repeated : ∀ type value count, 2 ≤ count →
    (FirstHas (applyModifications entry changes).2.attributes type
      (fun values => count ≤ copies value values) ↔ KeepsCopies changes type value count)
  vacant : ∀ type, FirstHas (applyModifications entry changes).2.attributes type (· = []) ↔
    KeepsVacant entry changes type

theorem accounted_start (wellFormed : WellFormed entry) : Accounted entry [] where
  tidy := fun pair member => Or.inl (wellFormed pair member)
  repeated := by
    intro type value count several
    constructor
    · intro first
      rcases first with ⟨pair, found, many⟩
      have good := wellFormed pair (OrderedMap.findBy_some toLowerAscii found).1
      have single := (duplicate_free_iff pair.2).mp good.2 value
      omega
    · intro kept
      rcases kept with ⟨before, change, after, split, _⟩
      simp at split
  vacant := by
    intro type
    constructor
    · intro first
      rcases first with ⟨pair, found, empty⟩
      exact absurd empty (wellFormed pair (OrderedMap.findBy_some toLowerAscii found).1).1
    · intro kept
      rcases kept with ⟨before, change, after, split, _⟩
      simp at split

theorem accounted_step {change : AttributeModification} (accounted : Accounted entry changes)
    (before : (applyModifications entry changes).1 = .success)
    (succeeded : (applyModification (applyModifications entry changes).2 change).1 = .success) :
    Accounted entry (changes ++ [change]) := by
  have succeeds := apply_modification_succeeds succeeded
  have result : applyModifications entry (changes ++ [change]) =
      applyModification (applyModifications entry changes).2 change := by
    rw [apply_modifications_concat, if_pos before]
  constructor
  · rw [result]
    exact succeeds.tidy accounted.tidy
  · intro type value count several
    rw [result, succeeds.repeated_iff accounted.tidy type value several, keeps_copies_concat,
      accounted.repeated type value _ (by omega)]
  · intro type
    rw [result, succeeds.vacant_iff accounted.tidy type, keeps_vacant_concat,
      accounted.vacant type, DirectoryEntry.findAttribute, Option.map_eq_none_iff]

theorem accounted_run (wellFormed : WellFormed entry)
    (succeeded : (applyModifications entry changes).1 = .success) : Accounted entry changes := by
  induction changes using List.reverseRecOn with
  | nil => exact accounted_start wellFormed
  | append_singleton changes change ih =>
      have result := apply_modifications_concat entry changes change
      by_cases before : (applyModifications entry changes).1 = .success
      · rw [if_pos before] at result
        rw [result] at succeeded
        exact accounted_step (ih before) before succeeded
      · rw [if_neg before] at result
        rw [result] at succeeded
        exact absurd succeeded before

theorem well_formed_iff (tidy : Tidy entry.attributes) :
    WellFormed entry ↔
      (∀ type value, ¬ FirstHas entry.attributes type fun values => 2 ≤ copies value values) ∧
        ∀ type, ¬ FirstHas entry.attributes type (· = []) := by
  constructor
  · intro wellFormed
    constructor
    · rintro type value ⟨pair, found, twice⟩
      have good := wellFormed pair (OrderedMap.findBy_some toLowerAscii found).1
      have single := (duplicate_free_iff pair.2).mp good.2 value
      omega
    · rintro type ⟨pair, found, empty⟩
      exact (wellFormed pair (OrderedMap.findBy_some toLowerAscii found).1).1 empty
  · rintro ⟨single, filled⟩ pair member
    rcases tidy pair member with good | first
    · exact good
    · constructor
      · intro empty
        exact filled pair.1 ⟨pair, first, empty⟩
      · rw [duplicate_free_iff]
        intro value
        by_contra many
        exact single pair.1 value ⟨pair, first, by omega⟩

/-- A change list that succeeds on an entry with well-formed value sets keeps them well
formed exactly when no repeated value and no empty list that it writes outlasts it. -/
theorem value_sets_kept_iff (wellFormed : WellFormed entry)
    (succeeded : (applyModifications entry changes).1 = .success) :
    WellFormed (applyModifications entry changes).2 ↔
      (∀ type value, ¬ KeepsCopies changes type value 2) ∧
        ∀ type, ¬ KeepsVacant entry changes type := by
  have accounted := accounted_run wellFormed succeeded
  rw [well_formed_iff accounted.tidy]
  simp only [accounted.repeated _ _ 2 (Nat.le_refl 2), accounted.vacant]

/-- One value in two spellings, added to an attribute the entry does not have. -/
def addBothSpellings : AttributeModification :=
  { op := .add, type := text "mail", values := [text "a@b", text "A@b"] }

def deleteOneSpelling : AttributeModification :=
  { op := .delete, type := text "MAIL", values := [text "A@B"] }

theorem deleted_spelling_repairs :
    (∀ type value, ¬ KeepsCopies [addBothSpellings, deleteOneSpelling] type value 2) ∧
      ∀ type, ¬ KeepsVacant {} [addBothSpellings, deleteOneSpelling] type :=
  (value_sets_kept_iff (by decide +kernel) (by decide +kernel)).mp (by decide +kernel)

theorem both_spellings_stored :
    WellFormed {} ∧ (applyModifications {} [addBothSpellings]).1 = .success ∧
      ¬ WellFormed (applyModifications {} [addBothSpellings]).2 := by
  decide +kernel

end Runs

end Modify

end SimpleLdapd
