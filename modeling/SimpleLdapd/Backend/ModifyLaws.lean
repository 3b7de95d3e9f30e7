import SimpleLdapd.Backend.ValueSets

/-!
# Laws of attribute modification (`backend/modify.cpp`)

A change list is a program over one entry. It reads and writes only the
attributes whose names are spellings of the types it names, whether it ends or
stops in the middle of a change, and it can be cut anywhere. A deletion of the
values just added takes back exactly what the addition did. A list that succeeds
did to each attribute what the numbers of its operations stand for.
-/

namespace SimpleLdapd

namespace Modify

open Dn

/-- Changes under other names leave the attribute as it is, whatever they answer. -/
theorem apply_modifications_elsewhere (entry : DirectoryEntry)
    {changes : List AttributeModification} {name : Bytes}
    (other : ∀ change ∈ changes, ¬ iequals name change.type) :
    (applyModifications entry changes).2.attributes.get? name = entry.attributes.get? name := by
  have step (reached : DirectoryEntry) (change : AttributeModification) (member : change ∈ changes)
      (kept : reached.attributes.get? name = entry.attributes.get? name) :
      (applyModification reached change).2.attributes.get? name = entry.attributes.get? name := by
    have apart := other change member
    rw [iequals_iff] at apart
    rw [apply_modification_elsewhere reached change apart]
    exact kept
  exact apply_modifications_invariant step rfl

theorem modifications_frame_and_sequence :
    (∀ entry changes, (applyModifications entry changes).2.dn = entry.dn ∧
      ∀ name, (∀ change ∈ changes, ¬ iequals name change.type) →
        ∀ values, (name, values) ∈ (applyModifications entry changes).2.attributes.entries ↔
          (name, values) ∈ entry.attributes.entries) ∧
    ∀ entry first second, applyModifications entry (first ++ second) =
      if (applyModifications entry first).1 = .success then
        applyModifications (applyModifications entry first).2 second
      else applyModifications entry first := by
  refine ⟨?_, apply_modifications_append⟩
  intro entry changes
  refine ⟨(apply_modifications_frame entry changes).1, ?_⟩
  intro name other values
  rw [← OrderedMap.get_eq_some_iff, apply_modifications_elsewhere entry other,
    OrderedMap.get_eq_some_iff]

section Inverse

variable {existing added : List Bytes}

theorem added_fresh (succeeded : (addValues existing added).1 = true) {value : Bytes}
    (member : value ∈ added) : hasValue existing value = false := by
  have here : 0 < copies value added :=
    List.countP_pos_iff.mpr ⟨value, member, (iequals_iff value value).mpr rfl⟩
  rw [← copies_eq_zero_iff]
  rcases (add_values_success succeeded).2 value with absent | once
  · omega
  · unfold copies at once here ⊢
    rw [List.countP_append] at once
    omega

/-- Each value meets its own copy first, because none of the older values equals it. -/
theorem delete_added (fresh : ∀ value ∈ added, hasValue existing value = false) :
    deleteValues (existing ++ added) added = (true, existing) := by
  induction added with
  | nil => rw [List.append_nil, deleteValues]
  | cons value rest ih =>
      have self : iequals value value = true := (iequals_iff value value).mpr rfl
      have older : ∀ candidate ∈ existing, ¬ iequals candidate value := by
        have apart := fresh value (by simp)
        rw [hasValue, List.any_eq_false] at apart
        exact apart
      have stored : hasValue (existing ++ value :: rest) value = true := by
        rw [hasValue, List.any_eq_true]
        exact ⟨value, by simp, self⟩
      have shorter : (existing ++ value :: rest).eraseP (fun candidate => iequals candidate value) =
          existing ++ rest := by
        rw [List.eraseP_append_right _ older,
          List.eraseP_cons_of_pos (p := fun candidate => iequals candidate value) self]
      rw [deleteValues, if_pos stored, shorter]
      exact ih fun other member => fresh other (by simp [member])

variable {entry : DirectoryEntry} {type : Bytes}

theorem delete_stored {name : Bytes} {kept : List Bytes} (named : type ≠ [])
    (found : entry.attributes.findBy toLowerAscii type = some (name, existing))
    (listed : added ≠ []) (deleted : deleteValues existing added = (true, kept)) :
    applyModification entry { op := .delete, type := type, values := added } =
      (.success, { entry with attributes :=
        if kept = [] then entry.attributes.erase name else entry.attributes.insert name kept }) := by
  simp only [applyModification, if_neg named, found, if_neg listed, deleted, if_true]
  split <;> rfl

theorem named_of_success {op : ModifyOp}
    (succeeded : (applyModification entry { op := op, type := type, values := added }).1 =
      .success) : type ≠ [] := by
  intro empty
  rw [applyModification, if_pos empty] at succeeded
  cases succeeded

theorem add_delete_step (filled : ∀ pair ∈ entry.attributes.entries, pair.2 ≠ [])
    (listed : added ≠ [])
    (succeeded : (applyModification entry { op := .add, type := type, values := added }).1 =
      .success) :
    applyModification
        (applyModification entry { op := .add, type := type, values := added }).2
        { op := .delete, type := type, values := added } = (.success, entry) := by
  have named := named_of_success succeeded
  unfold applyModification at succeeded
  rw [if_neg named] at succeeded
  cases found : entry.attributes.findBy toLowerAscii type with
  | none =>
      have scan := find_written (addressed_absent found) added type
      rw [if_pos rfl] at scan
      have created : applyModification entry { op := .add, type := type, values := added } =
          (.success, { entry with attributes := entry.attributes.insert type added }) := by
        simp only [applyModification, if_neg named, found]
      have emptied : deleteValues added added = (true, []) := by
        have fresh : ∀ value ∈ added, hasValue [] value = false := fun _ _ => rfl
        exact delete_added fresh
      have absent : ∀ pair ∈ entry.attributes.entries, pair.1 ≠ type := by
        intro pair member same
        exact (OrderedMap.findBy_eq_none_iff toLowerAscii _ _).mp found pair member (by rw [same])
      rw [created, delete_stored named scan listed emptied, if_pos rfl]
      simp only [OrderedMap.erase_insert, OrderedMap.erase_absent absent]
  | some stored =>
      rcases stored with ⟨name, existing⟩
      simp only [found] at succeeded
      have grown : (addValues existing added).1 = true := by
        by_contra refused
        simp only [refused] at succeeded
        cases succeeded
      have same := (add_values_success grown).1
      have extended : applyModification entry { op := .add, type := type, values := added } =
          (.success, { entry with
            attributes := entry.attributes.insert name (existing ++ added) }) := by
        simp only [applyModification, if_neg named, found, grown, same, if_true]
      have member := (OrderedMap.findBy_some toLowerAscii found).1
      have scan := find_written (addressed_found found) (existing ++ added) type
      rw [if_pos (found_name found)] at scan
      have restored := delete_added fun _ member => added_fresh grown member
      rw [extended, delete_stored named scan listed restored, if_neg (filled _ member)]
      simp only [OrderedMap.insert_insert, OrderedMap.insert_again member]

/-- Deleting the values just added restores the entry: an attribute that the addition
created goes with its last value, and one that it extended is left as it was. -/
theorem add_delete_restores (filled : ∀ pair ∈ entry.attributes.entries, pair.2 ≠ [])
    (listed : added ≠ [])
    (succeeded : (applyModifications entry
      [{ op := .add, type := type, values := added }]).1 = .success) :
    applyModifications
        (applyModifications entry [{ op := .add, type := type, values := added }]).2
        [{ op := .delete, type := type, values := added }] =
      (.success, entry) := by
  simp only [apply_modifications_singleton] at succeeded ⊢
  exact add_delete_step filled listed succeeded

/-- An entry whose `mail` is extended under another spelling of the name. -/
def mailbox : DirectoryEntry :=
  { dn := text "cn=a", attributes := OrderedMap.empty.insert (text "mail") [text "a@b"] }

theorem respelled_addition_undone :
    applyModifications
        (applyModifications mailbox
          [{ op := .add, type := text "MAIL", values := [text "c@d", text "e@f"] }]).2
        [{ op := .delete, type := text "MAIL", values := [text "c@d", text "e@f"] }] =
      (.success, mailbox) :=
  add_delete_restores (by decide +kernel) (by decide) (by decide +kernel)

end Inverse

section Effects

/-- The numbers that an operation of a change and the scope of a search can have. -/
def DeclaredCode (code : Int) : Prop := code = 0 ∨ code = 1 ∨ code = 2

instance (code : Int) : Decidable (DeclaredCode code) := inferInstanceAs (Decidable (_ ∨ _))

/-- The name an entry has the attribute under that a change is about, or would get it under. -/
def keyOf (attributes : Attributes) (type : Bytes) : Bytes :=
  ((attributes.findBy toLowerAscii type).map Prod.fst).getD type

/-- What LDAP means by the operation with a number, on the values of the attribute: 0 adds
the listed values and creates the attribute if need be, 1 deletes the listed values, or the
attribute if none or all of its values are listed, 2 puts the listed values in place of the
present ones, or removes the attribute if none is listed. No other number means anything. -/
inductive OperationEffect (listed : List Bytes) :
    Int → Option (List Bytes) → Option (List Bytes) → Prop where
  | added (before : Option (List Bytes)) :
      OperationEffect listed 0 before (some (before.getD [] ++ listed))
  | deleted {existing kept : List Bytes} (part : listed ≠ []) (remaining : kept ≠ [])
      (sublist : kept.Sublist existing)
      (counts : ∀ value, copies value existing = copies value kept + copies value listed) :
      OperationEffect listed 1 (some existing) (some kept)
  | removed {existing : List Bytes}
      (whole : listed = [] ∨ ∀ value, copies value existing = copies value listed) :
      OperationEffect listed 1 (some existing) none
  | replaced (before : Option (List Bytes)) (written : listed ≠ []) :
      OperationEffect listed 2 before (some listed)
  | cleared (before : Option (List Bytes)) (nothing : listed = []) :
      OperationEffect listed 2 before none

/-- The change had the effect of its number on its attribute, and none elsewhere. -/
structure ChangeEffect (code : Int) (change : AttributeModification)
    (before after : DirectoryEntry) : Prop where
  operation : OperationEffect change.values code
    (before.attributes.get? (keyOf before.attributes change.type))
    (after.attributes.get? (keyOf before.attributes change.type))
  elsewhere : ∀ name, name ≠ keyOf before.attributes change.type →
    after.attributes.get? name = before.attributes.get? name
  sameDn : after.dn = before.dn

/-- The changes had their effects one after the other. -/
inductive ChangeEffects :
    List Int → List AttributeModification → DirectoryEntry → DirectoryEntry → Prop where
  | done (entry : DirectoryEntry) : ChangeEffects [] [] entry entry
  | step {code : Int} {codes : List Int} {change : AttributeModification}
      {changes : List AttributeModification} {before middle after : DirectoryEntry}
      (here : ChangeEffect code change before middle)
      (later : ChangeEffects codes changes middle after) :
      ChangeEffects (code :: codes) (change :: changes) before after

theorem OperationEffect.declared {listed : List Bytes} {code : Int}
    {before after : Option (List Bytes)} (effect : OperationEffect listed code before after) :
    DeclaredCode code := by
  cases effect with
  | added | deleted | removed | replaced | cleared => simp [DeclaredCode]

theorem ChangeEffects.declared {codes : List Int} {changes : List AttributeModification}
    {before after : DirectoryEntry} (effects : ChangeEffects codes changes before after) :
    ∀ code ∈ codes, DeclaredCode code := by
  induction effects with
  | done => simp
  | step here later ih =>
      intro code member
      rcases List.mem_cons.mp member with first | rest
      · rw [first]
        exact here.operation.declared
      · exact ih code rest

/-- The operation and the number that stands for it. -/
def Numbered (code : Int) (change : AttributeModification) : Prop :=
  (change.op = .add ∧ code = 0) ∨ (change.op = .delete ∧ code = 1) ∨
    (change.op = .replace ∧ code = 2)

theorem key_of_absent {attributes : Attributes} {type : Bytes}
    (absent : attributes.findBy toLowerAscii type = none) :
    keyOf attributes type = type ∧ attributes.get? type = none := by
  rw [keyOf, absent]
  refine ⟨rfl, ?_⟩
  rw [OrderedMap.get_eq_none_iff]
  intro pair member same
  exact (OrderedMap.findBy_eq_none_iff toLowerAscii _ _).mp absent pair member (by rw [same])

theorem key_of_found {attributes : Attributes} {type name : Bytes} {existing : List Bytes}
    (found : attributes.findBy toLowerAscii type = some (name, existing)) :
    keyOf attributes type = name ∧ attributes.get? name = some existing := by
  rw [keyOf, found]
  refine ⟨rfl, ?_⟩
  rw [OrderedMap.get_eq_some_iff]
  exact (OrderedMap.findBy_some toLowerAscii found).1

theorem delete_values_sublist (existing removed : List Bytes) :
    (deleteValues existing removed).2.Sublist existing := by
  induction removed generalizing existing with
  | nil => exact List.Sublist.refl existing
  | cons value rest ih =>
      unfold deleteValues
      split
      · exact (ih _).trans List.eraseP_sublist
      · exact List.Sublist.refl existing

variable {entry : DirectoryEntry} {change : AttributeModification} {code : Int}

theorem deletion_shrinks {name : Bytes} {existing kept : List Bytes} (op : change.op = .delete)
    (found : entry.attributes.findBy toLowerAscii change.type = some (name, existing))
    (left : (applyModification entry change).2.attributes.get? name = some kept) :
    kept.Sublist existing := by
  have stored := (key_of_found found).2
  have same {values : List Bytes} (written : (entry.attributes.insert name values).get? name =
      some kept) : kept = values := by
    rw [OrderedMap.get_insert, if_pos rfl] at written
    exact (Option.some.inj written).symm
  have gone : (entry.attributes.erase name).get? name ≠ some kept := by
    rw [OrderedMap.get_erase_self]
    exact Option.some_ne_none kept ∘ Eq.symm
  unfold applyModification at left
  simp only [op, found] at left
  split at left
  · rw [stored] at left
    rw [Option.some.inj left]
  split at left
  · exact absurd left gone
  split at left
  · split at left
    · exact absurd left gone
    · rw [same left]
      exact delete_values_sublist existing change.values
  · rw [same left]
    exact delete_values_sublist existing change.values

theorem Succeeds.elsewhere_key {attributes reached : Attributes}
    (succeeds : Succeeds attributes change reached) {name : Bytes}
    (other : name ≠ keyOf attributes change.type) : reached.get? name = attributes.get? name := by
  cases succeeds with
  | idle => rfl
  | created absent =>
      rw [(key_of_absent absent).1] at other
      rw [OrderedMap.get_insert, if_neg other]
  | extended found | reduced found | replaced found =>
      rw [(key_of_found found).1] at other
      rw [OrderedMap.get_insert, if_neg other]
  | cleared found | emptied found =>
      rw [(key_of_found found).1] at other
      exact OrderedMap.get_erase_other _ other

theorem Numbered.code_eq (numbered : Numbered code change) :
    (change.op = .add → code = 0) ∧ (change.op = .delete → code = 1) ∧
      (change.op = .replace → code = 2) := by
  rcases numbered with ⟨op, number⟩ | ⟨op, number⟩ | ⟨op, number⟩
  · simp [op, number]
  · simp [op, number]
  · simp [op, number]

/-- What the values of the attribute come to in each case that a change can end in. -/
theorem Succeeds.operation {attributes reached : Attributes}
    (succeeds : Succeeds attributes change reached) (numbered : Numbered code change)
    (shrinks : ∀ {name existing kept}, change.op = .delete →
      attributes.findBy toLowerAscii change.type = some (name, existing) →
        reached.get? name = some kept → kept.Sublist existing) :
    OperationEffect change.values code (attributes.get? (keyOf attributes change.type))
      (reached.get? (keyOf attributes change.type)) := by
  rcases numbered.code_eq with ⟨adding, deleting, replacing⟩
  cases succeeds with
  | idle adds deletes replaces =>
      have op : change.op = .replace := by
        rcases numbered with ⟨op, _⟩ | ⟨op, _⟩ | ⟨op, _⟩
        · exact absurd op adds
        · exact absurd op deletes
        · exact op
      rcases key_of_absent (replaces op).2 with ⟨key, stored⟩
      rw [key, stored, replacing op]
      exact .cleared none (replaces op).1
  | created absent writes =>
      rcases key_of_absent absent with ⟨key, stored⟩
      rw [key, stored, OrderedMap.get_insert, if_pos rfl]
      rcases writes with op | ⟨op, written⟩
      · rw [adding op]
        exact .added none
      · rw [replacing op]
        exact .replaced none written
  | extended found op =>
      rcases key_of_found found with ⟨key, stored⟩
      rw [key, stored, OrderedMap.get_insert, if_pos rfl, adding op]
      exact .added (some _)
  | cleared found removes whole =>
      rcases key_of_found found with ⟨key, stored⟩
      rw [key, stored, OrderedMap.get_erase_self]
      rcases removes with op | op
      · rw [deleting op]
        exact .removed (Or.inl whole)
      · rw [replacing op]
        exact .cleared _ whole
  | @reduced name existing kept found op part remaining counts =>
      rcases key_of_found found with ⟨key, stored⟩
      have written : (attributes.insert name kept).get? name = some kept := by
        rw [OrderedMap.get_insert, if_pos rfl]
      rw [key, stored, written, deleting op]
      exact .deleted part remaining (shrinks op found written) counts
  | emptied found op part counts =>
      rcases key_of_found found with ⟨key, stored⟩
      rw [key, stored, OrderedMap.get_erase_self, deleting op]
      exact .removed (Or.inr counts)
  | replaced found op written =>
      rcases key_of_found found with ⟨key, stored⟩
      rw [key, stored, OrderedMap.get_insert, if_pos rfl, replacing op]
      exact .replaced _ written

/-- A change that succeeds has the effect of the number of its operation. -/
theorem apply_modification_effect (numbered : Numbered code change)
    (succeeded : (applyModification entry change).1 = .success) :
    ChangeEffect code change entry (applyModification entry change).2 where
  operation := (apply_modification_succeeds succeeded).operation numbered deletion_shrinks
  elsewhere := fun _ other => (apply_modification_succeeds succeeded).elsewhere_key other
  sameDn := (apply_modification_frame entry change).1

/-- And so has each change of a list that succeeds. -/
theorem apply_modifications_effects {codes : List Int} {changes : List AttributeModification}
    (numbered : List.Forall₂ Numbered codes changes)
    (succeeded : (applyModifications entry changes).1 = .success) :
    ChangeEffects codes changes entry (applyModifications entry changes).2 := by
  induction numbered generalizing entry with
  | nil => exact .done entry
  | cons here later ih =>
      unfold applyModifications at succeeded ⊢
      simp only at succeeded ⊢
      split at succeeded
      · rename_i first
        rw [if_pos first]
        exact .step (apply_modification_effect here first) (ih succeeded)
      · rename_i failed
        exact absurd succeeded failed

end Effects

end Modify

end SimpleLdapd
