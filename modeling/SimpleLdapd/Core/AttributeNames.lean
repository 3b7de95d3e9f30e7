import SimpleLdapd.Core.AddEffect
import SimpleLdapd.Core.TreeIntegrity
import SimpleLdapd.Library.GuardedRun

/-!
# Attribute names ignoring case

The attribute map is keyed by exact bytes while every reader takes the first name
that is equal ignoring case. Change lists look a name up that way before they
write, so they never make a second spelling; an Add request stores its attribute
list as it came.
-/

namespace SimpleLdapd.Session

open Dn MemoryBackend

/-- No stored entry has two attribute names that are equal ignoring case. -/
def NamesUnique (store : MemoryStore) : Prop :=
  ∀ pair ∈ store.entries, ∀ left ∈ pair.2.attributes.entries,
    ∀ right ∈ pair.2.attributes.entries, iequals left.1 right.1 = true → left.1 = right.1

/-- No two attributes of the list have types that differ in case only. -/
def TypesApart (attributes : List PartialAttribute) : Prop :=
  ∀ left ∈ attributes, ∀ right ∈ attributes,
    iequals left.type right.type = true → left.type = right.type

instance (store : MemoryStore) : Decidable (NamesUnique store) :=
  inferInstanceAs (Decidable (∀ pair ∈ store.entries, ∀ left ∈ pair.2.attributes.entries,
    ∀ right ∈ pair.2.attributes.entries, iequals left.1 right.1 = true → left.1 = right.1))

instance (attributes : List PartialAttribute) : Decidable (TypesApart attributes) :=
  inferInstanceAs (Decidable (∀ left ∈ attributes, ∀ right ∈ attributes,
    iequals left.type right.type = true → left.type = right.type))

section Entries

def EntryNamesUnique (entry : DirectoryEntry) : Prop := entry.attributes.DistinctBy toLowerAscii

theorem entry_names_unique_iff (entry : DirectoryEntry) :
    EntryNamesUnique entry ↔ ∀ left ∈ entry.attributes.entries,
      ∀ right ∈ entry.attributes.entries, iequals left.1 right.1 = true → left.1 = right.1 := by
  constructor
  · intro distinct left leftMember right rightMember same
    rw [distinct.entry_eq leftMember rightMember ((iequals_iff left.1 right.1).mp same)]
  · intro unique
    apply entry.attributes.sorted.imp_of_mem
    intro left right leftMember rightMember less same
    exact ne_of_lt less
      (unique left leftMember right rightMember ((iequals_iff left.1 right.1).mpr same))

theorem names_unique_iff (store : MemoryStore) :
    NamesUnique store ↔ AllEntries EntryNamesUnique store := by
  unfold NamesUnique AllEntries
  simp only [entry_names_unique_iff]

/-- A change list never makes a second spelling of a name. -/
theorem apply_modification_unique (change : AttributeModification) {entry : DirectoryEntry}
    (unique : EntryNamesUnique entry) :
    EntryNamesUnique (Modify.applyModification entry change).2 := by
  unfold EntryNamesUnique at unique ⊢
  rcases Modify.apply_modification_cases entry change with
    same | ⟨absent, _, same⟩ | ⟨name, existing, found, same | ⟨values, same, _⟩⟩
  · rw [same]
    exact unique
  · rw [same]
    exact unique.insert (OrderedMap.owns_fresh absent) change.values
  · rw [same]
    exact unique.erase name
  · rw [same]
    have stored := (OrderedMap.findBy_some toLowerAscii found).1
    exact unique.insert (unique.owns_stored stored) values

theorem apply_modifications_unique (changes : List AttributeModification)
    {entry : DirectoryEntry} (unique : EntryNamesUnique entry) :
    EntryNamesUnique (Modify.applyModifications entry changes).2 :=
  Modify.apply_modifications_invariant
    (fun _ change _ kept => apply_modification_unique change kept) unique

/-- The names of the entry that an Add request stores are the types it lists. -/
theorem added_names (server : Server) (context : RequestContext) (request : LdapMessage)
    (name : Bytes) :
    (∃ values, (name, values) ∈ (addedEntry server context request).attributes.entries) ↔
      ∃ item ∈ request.add.attributes, item.type = name := by
  simp only [mem_added, Prod.mk.injEq]
  constructor
  · rintro ⟨values, item, last, same, _⟩
    exact ⟨item, last.mem, same.symm⟩
  · intro listed
    obtain ⟨last, isLast, same⟩ := OrderedMap.exists_last_with listed
    exact ⟨_, last, isLast, same.symm, rfl⟩

theorem added_unique_iff (server : Server) (context : RequestContext) (request : LdapMessage) :
    EntryNamesUnique (addedEntry server context request) ↔ TypesApart request.add.attributes := by
  have names := added_names server context request
  rw [entry_names_unique_iff]
  constructor
  · intro unique left leftMember right rightMember same
    obtain ⟨leftValues, leftStored⟩ := (names left.type).mpr ⟨left, leftMember, rfl⟩
    obtain ⟨rightValues, rightStored⟩ := (names right.type).mpr ⟨right, rightMember, rfl⟩
    exact unique (left.type, leftValues) leftStored (right.type, rightValues) rightStored same
  · intro apart left leftStored right rightStored same
    obtain ⟨first, firstMember, firstType⟩ := (names left.1).mp ⟨left.2, leftStored⟩
    obtain ⟨second, secondMember, secondType⟩ := (names right.1).mp ⟨right.2, rightStored⟩
    rw [← firstType, ← secondType] at same ⊢
    exact apart first firstMember second secondMember same

end Entries

section Runs

variable {server : Server}

/-- An Add request that passes the checks of the handler lists no type twice. -/
def AddsApart (server : Server) (store : MemoryStore) (handling : Handling) : Prop :=
  handling.request.op = .addRequest →
    AddAccepted server handling.context handling.session store handling.request →
    TypesApart handling.request.add.attributes

/-- One handled request. -/
theorem request_keeps_names_iff {store : MemoryStore} (reachable : Reachable store)
    (unique : NamesUnique store) (handling : Handling) :
    NamesUnique (afterRequest server store handling) ↔ AddsApart server store handling := by
  have effect := handle_request_effect server handling.context handling.session
    reachable.invariant handling.request
  rw [names_unique_iff] at unique ⊢
  constructor
  · intro kept isAdd accepted
    rw [← added_unique_iff server handling.context]
    unfold afterRequest at kept
    generalize ((handleRequest server handling.context handling.session handling.request).run
      exec store).2 = after at effect kept
    cases effect with
    | unchanged notAdded => exact absurd accepted (notAdded isAdd)
    | added =>
        have stored := lookup_added accepted.written
          (addedEntry server handling.context handling.request).dn
        rw [if_pos rfl] at stored
        exact kept.lookup stored
    | modified isModify => cases isAdd.symm.trans isModify
    | removed isDelete => cases isAdd.symm.trans isDelete
    | renamed isRename => cases isAdd.symm.trans isRename
    | passwordChanged isPasswordModify => cases isAdd.symm.trans isPasswordModify.1
  · intro apart
    apply effect.keeps (fun _ _ kept => kept) _ _ _ _ unique
    · intro isAdd accepted
      exact (added_unique_iff server handling.context handling.request).mpr (apart isAdd accepted)
    · intro old kept
      exact apply_modifications_unique _ kept
    · intro _ _ old entry kept applied
      exact renamed_entry_invariant
        (fun _ _ _ => apply_modification_unique _) (fun _ _ _ _ => apply_modification_unique _)
        kept applied
    · intro old _ kept
      exact apply_modifications_unique _ kept

/-- From the empty backend on, attribute names stay unique ignoring case exactly as long
as every accepted Add request lists types that differ in more than case. -/
theorem names_stay_unique_iff (server : Server) (handlings : List Handling) :
    (∀ earlier, earlier <+: handlings →
        NamesUnique (afterRequests server OrderedMap.empty earlier)) ↔
      Along (afterRequest server) (AddsApart server) OrderedMap.empty handlings := by
  apply stays_good_iff_along NamesUnique Reachable fun _ => True
  · intro store handling reachable
    exact after_request_reachable reachable handling
  · intro store handling reachable unique _
    exact request_keeps_names_iff reachable unique handling
  · exact Reachable.empty
  · intro pair member
    cases member
  · intro _ _
    trivial

/-- The administrator adds an entry that has a `cn` in two spellings. -/
def addTwoSpellings : Handling :=
  { session := administrator
    request := { op := .addRequest
                 add := { dn := text "cn=a"
                          attributes := [{ type := text "cn", values := [text "a"] },
                            { type := text "CN", values := [text "b"] }] } } }

theorem add_stores_two_spellings :
    ¬ NamesUnique (afterRequests {} OrderedMap.empty [addTwoSpellings]) := by
  decide +kernel

end Runs

end SimpleLdapd.Session
