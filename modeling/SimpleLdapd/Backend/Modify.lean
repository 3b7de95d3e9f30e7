import Mathlib.Data.List.Induction
import SimpleLdapd.Library.OrderedMap
import SimpleLdapd.Protocol.ResultCodes

/-!
# Directory entries and attribute modification (`backend/backend.hpp`, `backend/modify.cpp`)

The attribute map is keyed by the exact bytes of the name, but every reader
scans it for the first name equal up to ASCII case. `applyModifications`
mutates the entry change by change; on an error the entry keeps whatever was
applied before it, so the result pairs the code with the entry as it stands.
-/

namespace SimpleLdapd

open Dn

abbrev Attributes := OrderedMap Bytes (List Bytes)

structure DirectoryEntry where
  dn : Bytes := []
  attributes : Attributes := OrderedMap.empty
  deriving DecidableEq, Inhabited

namespace Attributes

/-- `attributes[name].push_back(value)`. -/
def pushBack (attributes : Attributes) (name value : Bytes) : Attributes :=
  attributes.insert name ((attributes.get? name).getD [] ++ [value])

/-- The names and values in the order of two nested loops over the map. -/
def flatten (attributes : Attributes) : List (Bytes × Bytes) :=
  attributes.entries.flatMap fun pair => pair.2.map fun value => (pair.1, value)

def pushAll (attributes : Attributes) (pairs : List (Bytes × Bytes)) : Attributes :=
  pairs.foldl (fun built pair => pushBack built pair.1 pair.2) attributes

theorem mem_push_back {attributes : Attributes} {name value : Bytes}
    {pair : Bytes × List Bytes} (member : pair ∈ (pushBack attributes name value).entries) :
    pair ∈ attributes.entries ∨
      (pair.1 = name ∧ ∃ earlier, pair.2 = earlier ++ [value] ∧
        (earlier = [] ∨ (name, earlier) ∈ attributes.entries)) := by
  rcases (OrderedMap.mem_insert _ _ _ _).mp member with here | ⟨older, _⟩
  · right
    rw [here]
    refine ⟨rfl, (attributes.get? name).getD [], rfl, ?_⟩
    cases found : attributes.get? name with
    | none => exact Or.inl rfl
    | some earlier => exact Or.inr ((OrderedMap.get_eq_some_iff _ _ _).mp found)
  · exact Or.inl older

theorem mem_flatten {attributes : Attributes} {name value : Bytes} :
    (name, value) ∈ flatten attributes ↔
      ∃ pair ∈ attributes.entries, pair.1 = name ∧ value ∈ pair.2 := by
  simp only [flatten, List.mem_flatMap, List.mem_map, Prod.mk.injEq]
  constructor
  · intro member
    obtain ⟨pair, stored, other, inside, same, equal⟩ := member
    exact ⟨pair, stored, same, equal ▸ inside⟩
  · intro member
    obtain ⟨pair, stored, same, inside⟩ := member
    exact ⟨pair, stored, value, inside, same, rfl⟩

theorem push_all_append (attributes : Attributes) (first second : List (Bytes × Bytes)) :
    pushAll attributes (first ++ second) = pushAll (pushAll attributes first) second :=
  List.foldl_append

theorem get_push_all (attributes : Attributes) (pairs : List (Bytes × Bytes)) (name : Bytes) :
    ((pushAll attributes pairs).get? name).getD [] =
      (attributes.get? name).getD [] ++ (pairs.filter (·.1 = name)).map Prod.snd := by
  induction pairs generalizing attributes with
  | nil => simp [pushAll]
  | cons pair rest ih =>
      have later := ih (pushBack attributes pair.1 pair.2)
      unfold pushAll at later ⊢
      rw [List.foldl_cons, later, pushBack, OrderedMap.get_insert]
      by_cases same : pair.1 = name
      · rw [if_pos same.symm, List.filter_cons_of_pos (by simpa using same), same]
        simp
      · rw [if_neg (Ne.symm same), List.filter_cons_of_neg (by simpa using same)]

/-- Every pair that is pushed can be seen in the map. -/
theorem push_extra {extra own : List (Bytes × Bytes)}
    (same : pushAll OrderedMap.empty (extra ++ own) = pushAll OrderedMap.empty own) :
    extra = [] := by
  apply List.eq_nil_iff_forall_not_mem.mpr
  intro pair member
  have whole := get_push_all OrderedMap.empty (extra ++ own) pair.1
  rw [same, get_push_all, List.append_cancel_left_eq, List.filter_append, List.map_append,
    List.self_eq_append_left, List.map_eq_nil_iff, List.filter_eq_nil_iff] at whole
  exact whole pair member (by simp)

theorem mem_push_all {pairs : List (Bytes × Bytes)} {stored : Bytes × List Bytes}
    (member : stored ∈ (pushAll OrderedMap.empty pairs).entries) :
    stored.2 ≠ [] ∧ ∀ value ∈ stored.2, (stored.1, value) ∈ pairs := by
  induction pairs using List.reverseRecOn generalizing stored with
  | nil => cases member
  | append_singleton pairs pair ih =>
      rw [push_all_append] at member
      rcases mem_push_back member with older | ⟨named, earlier, values, before⟩
      · rcases ih older with ⟨present, inside⟩
        exact ⟨present, fun value valueMember => by simp [inside value valueMember]⟩
      · refine ⟨by simp [values], ?_⟩
        intro value valueMember
        rw [values] at valueMember
        rcases List.mem_append.mp valueMember with old | new
        · rcases before with none | stored
          · simp [none] at old
          · have found := (ih stored).2 value old
            rw [named]
            simp [found]
        · rw [List.mem_singleton.mp new, named]
          simp

/-- Every pushed value can be found under its name. -/
theorem exists_of_push_all {pairs : List (Bytes × Bytes)} {pair : Bytes × Bytes}
    (member : pair ∈ pairs) :
    ∃ values, (pair.1, values) ∈ (pushAll OrderedMap.empty pairs).entries ∧
      pair.2 ∈ values := by
  have pushed := get_push_all OrderedMap.empty pairs pair.1
  have inside : pair.2 ∈ ((pushAll OrderedMap.empty pairs).get? pair.1).getD [] := by
    rw [pushed, List.mem_append]
    exact Or.inr (List.mem_map_of_mem (List.mem_filter.mpr ⟨member, by simp⟩))
  cases found : (pushAll OrderedMap.empty pairs).get? pair.1 with
  | none =>
      rw [found] at inside
      cases inside
  | some values =>
      rw [found] at inside
      exact ⟨values, (OrderedMap.get_eq_some_iff _ _ _).mp found, inside⟩

theorem push_values (attributes : Attributes) (name : Bytes) (values : List Bytes)
    (written : values ≠ []) :
    pushAll attributes (values.map fun value => (name, value)) =
      attributes.insert name ((attributes.get? name).getD [] ++ values) := by
  induction values generalizing attributes with
  | nil => exact absurd rfl written
  | cons value rest ih =>
      rw [List.map_cons, pushAll, List.foldl_cons]
      by_cases last : rest = []
      · rw [last]
        rfl
      · have later := ih (pushBack attributes name value) last
        rw [pushAll] at later
        rw [later, pushBack, OrderedMap.insert_insert, OrderedMap.get_insert, if_pos rfl]
        simp

theorem push_pairs (pairs : List (Bytes × List Bytes))
    (apart : pairs.Pairwise fun left right => left.1 ≠ right.1)
    (present : ∀ pair ∈ pairs, pair.2 ≠ []) (attributes : Attributes)
    (unused : ∀ pair ∈ pairs, attributes.get? pair.1 = none) :
    pushAll attributes (pairs.flatMap fun pair => pair.2.map fun value => (pair.1, value)) =
      pairs.foldl (fun built pair => built.insert pair.1 pair.2) attributes := by
  induction pairs generalizing attributes with
  | nil => rfl
  | cons pair rest ih =>
      obtain ⟨fresh, restApart⟩ := List.pairwise_cons.mp apart
      have here := push_values attributes pair.1 pair.2 (present pair (by simp))
      rw [unused pair (by simp)] at here
      unfold pushAll at here ih ⊢
      rw [List.flatMap_cons, List.foldl_append, here, List.foldl_cons]
      apply ih restApart (fun other member => present other (by simp [member]))
      intro other member
      rw [OrderedMap.get_insert, if_neg (fresh other member).symm]
      exact unused other (by simp [member])

/-- Pushing every pair in order rebuilds a map that has no empty value list. -/
theorem push_flatten (attributes : Attributes)
    (present : ∀ pair ∈ attributes.entries, pair.2 ≠ []) :
    pushAll OrderedMap.empty (flatten attributes) = attributes := by
  have pushed := push_pairs attributes.entries
    attributes.keys_apart present OrderedMap.empty (fun _ _ => rfl)
  rw [OrderedMap.foldl_insert_entries] at pushed
  exact pushed

end Attributes

/-- A scope cast from the wire keeps a number that names no enumerator. -/
inductive SearchScope where
  | base
  | oneLevel
  | subtree
  | undeclared (value : Int32)
  deriving DecidableEq

namespace SearchScope

def toInt : SearchScope → Int32
  | .base => 0
  | .oneLevel => 1
  | .subtree => 2
  | .undeclared value => value

def ofInt (value : Int32) : SearchScope :=
  if value = 0 then .base
  else if value = 1 then .oneLevel
  else if value = 2 then .subtree
  else .undeclared value

def Declared (scope : SearchScope) : Prop := scope = .base ∨ scope = .oneLevel ∨ scope = .subtree

end SearchScope

inductive ModifyOp where
  | add
  | delete
  | replace
  | undeclared (value : Int32)
  deriving DecidableEq

namespace ModifyOp

def toInt : ModifyOp → Int32
  | .add => 0
  | .delete => 1
  | .replace => 2
  | .undeclared value => value

def ofInt (value : Int32) : ModifyOp :=
  if value = 0 then .add
  else if value = 1 then .delete
  else if value = 2 then .replace
  else .undeclared value

def Declared (op : ModifyOp) : Prop := op = .add ∨ op = .delete ∨ op = .replace

end ModifyOp

structure AttributeModification where
  op : ModifyOp := .replace
  type : Bytes := []
  values : List Bytes := []
  deriving DecidableEq

namespace DirectoryEntry

/-- `findAttribute`, `findValues` and `valuesNamed` of the source: the first
attribute, in name order, whose name equals `name` ignoring case. -/
def findAttribute (entry : DirectoryEntry) (name : Bytes) : Option (List Bytes) :=
  (entry.attributes.findBy toLowerAscii name).map Prod.snd

end DirectoryEntry

namespace Modify

def hasValue (values : List Bytes) (wanted : Bytes) : Bool :=
  values.any fun value => iequals value wanted

/-- The value loop of `ModifyOp::Add`; `false` when a value already exists. -/
def addValues (existing : List Bytes) : List Bytes → Bool × List Bytes
  | [] => (true, existing)
  | value :: rest =>
      if hasValue existing value then (false, existing)
      else addValues (existing ++ [value]) rest

/-- The value loop of `ModifyOp::Delete`; `false` when a value is missing. -/
def deleteValues (existing : List Bytes) : List Bytes → Bool × List Bytes
  | [] => (true, existing)
  | value :: rest =>
      if hasValue existing value then
        deleteValues (existing.eraseP fun candidate => iequals candidate value) rest
      else (false, existing)

def applyModification (entry : DirectoryEntry) (change : AttributeModification) :
    ResultCode × DirectoryEntry :=
  if change.type = [] then (.invalidAttributeSyntax, entry)
  else
    match change.op, entry.attributes.findBy toLowerAscii change.type with
    | .add, none =>
        (.success, { entry with attributes := entry.attributes.insert change.type change.values })
    | .add, some (name, existing) =>
        let added := addValues existing change.values
        (if added.1 then .success else .attributeOrValueExists,
          { entry with attributes := entry.attributes.insert name added.2 })
    | .delete, none => (.noSuchAttribute, entry)
    | .delete, some (name, existing) =>
        if change.values = [] then
          (.success, { entry with attributes := entry.attributes.erase name })
        else
          let kept := deleteValues existing change.values
          if kept.1 then
            if kept.2 = [] then
              (.success, { entry with attributes := entry.attributes.erase name })
            else (.success, { entry with attributes := entry.attributes.insert name kept.2 })
          else
            (.noSuchAttribute, { entry with attributes := entry.attributes.insert name kept.2 })
    | .replace, none =>
        if change.values = [] then (.success, entry)
        else
          (.success, { entry with attributes := entry.attributes.insert change.type change.values })
    | .replace, some (name, _) =>
        if change.values = [] then
          (.success, { entry with attributes := entry.attributes.erase name })
        else (.success, { entry with attributes := entry.attributes.insert name change.values })
    | .undeclared _, _ => (.success, entry)

def applyModifications (entry : DirectoryEntry) :
    List AttributeModification → ResultCode × DirectoryEntry
  | [] => (.success, entry)
  | change :: rest =>
      let applied := applyModification entry change
      if applied.1 = .success then applyModifications applied.2 rest else applied

/-- A change touches the attributes only, and reports on them only. -/
theorem apply_modification_frame (entry : DirectoryEntry) (change : AttributeModification) :
    (applyModification entry change).2.dn = entry.dn ∧
      (applyModification entry change).1 ∈ ResultCode.contentCodes := by
  unfold applyModification
  simp only
  repeat' split
  all_goals refine ⟨rfl, ?_⟩
  all_goals dsimp only
  all_goals decide

theorem apply_modifications_frame (entry : DirectoryEntry) (changes : List AttributeModification) :
    (applyModifications entry changes).2.dn = entry.dn ∧
      (applyModifications entry changes).1 ∈ ResultCode.contentCodes := by
  induction changes generalizing entry with
  | nil => exact ⟨rfl, (by decide : ResultCode.success ∈ ResultCode.contentCodes)⟩
  | cons change rest ih =>
      have here := apply_modification_frame entry change
      unfold applyModifications
      simp only
      split
      · have later := ih (applyModification entry change).2
        exact ⟨later.1.trans here.1, later.2⟩
      · exact here

theorem mem_add_values {existing added : List Bytes} {value : Bytes}
    (member : value ∈ (addValues existing added).2) : value ∈ existing ∨ value ∈ added := by
  induction added generalizing existing with
  | nil => exact Or.inl member
  | cons next rest ih =>
      unfold addValues at member
      split at member
      · exact Or.inl member
      · rcases ih member with before | later
        · rcases List.mem_append.mp before with older | here
          · exact Or.inl older
          · exact Or.inr (List.mem_cons.mpr (Or.inl (List.mem_singleton.mp here)))
        · exact Or.inr (List.mem_cons_of_mem next later)

theorem mem_delete_values {existing removed : List Bytes} {value : Bytes}
    (member : value ∈ (deleteValues existing removed).2) : value ∈ existing := by
  induction removed generalizing existing with
  | nil => exact member
  | cons next rest ih =>
      unfold deleteValues at member
      split at member
      · exact List.mem_of_mem_eraseP (ih member)
      · exact member

/-- What one change can do to an entry: nothing, a new attribute under a name that no
attribute has, or another value list, or none, for the first attribute of that name. -/
theorem apply_modification_cases (entry : DirectoryEntry) (change : AttributeModification) :
    (applyModification entry change).2 = entry ∨
      (entry.attributes.findBy toLowerAscii change.type = none ∧ change.op ≠ .delete ∧
        (applyModification entry change).2 =
          { entry with attributes := entry.attributes.insert change.type change.values }) ∨
      ∃ name existing,
        entry.attributes.findBy toLowerAscii change.type = some (name, existing) ∧
          ((applyModification entry change).2 =
              { entry with attributes := entry.attributes.erase name } ∨
            ∃ values, (applyModification entry change).2 =
                { entry with attributes := entry.attributes.insert name values } ∧
              ∀ value ∈ values,
                value ∈ existing ∨ (change.op ≠ .delete ∧ value ∈ change.values)) := by
  unfold applyModification
  split
  · exact Or.inl rfl
  split
  · rename_i op absent
    exact Or.inr (Or.inl ⟨absent, by simp [op], rfl⟩)
  · rename_i name existing op found
    refine Or.inr (Or.inr ⟨name, existing, found, Or.inr ⟨_, rfl, ?_⟩⟩)
    intro value member
    exact (mem_add_values member).imp_right fun new => ⟨by simp [op], new⟩
  · exact Or.inl rfl
  · rename_i name existing op found
    refine Or.inr (Or.inr ⟨name, existing, found, ?_⟩)
    have kept (value : Bytes) (member : value ∈ (deleteValues existing change.values).2) :
        value ∈ existing ∨ (change.op ≠ .delete ∧ value ∈ change.values) :=
      Or.inl (mem_delete_values member)
    split
    · exact Or.inl rfl
    simp only
    split
    · split
      · exact Or.inl rfl
      · exact Or.inr ⟨_, rfl, kept⟩
    · exact Or.inr ⟨_, rfl, kept⟩
  · rename_i op absent
    split
    · exact Or.inl rfl
    · exact Or.inr (Or.inl ⟨absent, by simp [op], rfl⟩)
  · rename_i name existing op found
    refine Or.inr (Or.inr ⟨name, existing, found, ?_⟩)
    split
    · exact Or.inl rfl
    · exact Or.inr ⟨_, rfl, fun value member => Or.inr ⟨by simp [op], member⟩⟩
  · exact Or.inl rfl

theorem apply_modifications_singleton (entry : DirectoryEntry) (change : AttributeModification) :
    applyModifications entry [change] = applyModification entry change := by
  simp only [applyModifications]
  split
  · rename_i succeeded
    rw [← succeeded]
  · rfl

/-- Changes that run after others run on what the others leave, unless these failed. -/
theorem apply_modifications_append (entry : DirectoryEntry)
    (first second : List AttributeModification) :
    applyModifications entry (first ++ second) =
      if (applyModifications entry first).1 = .success then
        applyModifications (applyModifications entry first).2 second
      else applyModifications entry first := by
  induction first generalizing entry with
  | nil => rfl
  | cons change rest ih =>
      simp only [List.cons_append, applyModifications]
      split
      · exact ih _
      · rfl

/-- A property of entries that every change of the list keeps. -/
theorem apply_modifications_invariant {Good : DirectoryEntry → Prop}
    {changes : List AttributeModification}
    (kept : ∀ entry, ∀ change ∈ changes, Good entry → Good (applyModification entry change).2)
    {entry : DirectoryEntry} (good : Good entry) : Good (applyModifications entry changes).2 := by
  induction changes generalizing entry with
  | nil => exact good
  | cons change rest ih =>
      have here := kept entry change (by simp) good
      unfold applyModifications
      simp only
      split
      · exact ih (fun other next member => kept other next (by simp [member])) here
      · exact here

/-- A change leaves every attribute alone whose name is not a spelling of its type. -/
theorem apply_modification_elsewhere (entry : DirectoryEntry) (change : AttributeModification)
    {name : Bytes} (other : toLowerAscii name ≠ toLowerAscii change.type) :
    (applyModification entry change).2.attributes.get? name = entry.attributes.get? name := by
  have apart {found : Bytes} (same : toLowerAscii found = toLowerAscii change.type) :
      name ≠ found := by
    intro equal
    rw [equal] at other
    exact other same
  rcases apply_modification_cases entry change with
    same | ⟨_, _, same⟩ | ⟨found, existing, located, same | ⟨values, same, _⟩⟩
  · rw [same]
  · rw [same, OrderedMap.get_insert, if_neg (apart rfl)]
  · rw [same]
    exact OrderedMap.get_erase_other _ (apart (OrderedMap.findBy_some toLowerAscii located).2)
  · rw [same, OrderedMap.get_insert,
      if_neg (apart (OrderedMap.findBy_some toLowerAscii located).2)]

/-- Replacing an attribute by some values is seen by every reader of the entry. -/
theorem replace_finds (entry : DirectoryEntry) {type : Bytes} (named : type ≠ [])
    {values : List Bytes} (written : values ≠ []) :
    (applyModifications entry [{ op := .replace, type := type, values := values }]).1 = .success ∧
      ∀ name, (applyModifications entry
        [{ op := .replace, type := type, values := values }]).2.findAttribute name =
          if toLowerAscii type = toLowerAscii name then some values
          else entry.findAttribute name := by
  cases found : entry.attributes.findBy toLowerAscii type with
  | none =>
      have leads := OrderedMap.leads_fresh toLowerAscii found
      refine ⟨by simp [applyModifications, applyModification, named, found, written], ?_⟩
      intro name
      have scan := OrderedMap.findBy_insert_leading toLowerAscii leads values name
      simp only [applyModifications, applyModification, if_neg named, found, if_neg written,
        if_true, DirectoryEntry.findAttribute, scan]
      split <;> rfl
  | some stored =>
      have leads := OrderedMap.leads_found toLowerAscii found
      have spelled := (OrderedMap.findBy_some toLowerAscii found).2
      refine ⟨by simp [applyModifications, applyModification, named, found, written], ?_⟩
      intro name
      have scan := OrderedMap.findBy_insert_leading toLowerAscii leads values name
      rw [spelled] at scan
      simp only [applyModifications, applyModification, if_neg named, found, if_neg written,
        if_true, DirectoryEntry.findAttribute, scan]
      split <;> rfl

end Modify

end SimpleLdapd
