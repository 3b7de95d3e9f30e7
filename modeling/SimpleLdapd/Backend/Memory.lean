import SimpleLdapd.Library.AtomicProgram
import SimpleLdapd.Protocol.Filter

/-!
# The backend interface and the in-memory backend (`backend/backend.hpp`, `backend/memory.cpp`)

Each backend call runs under the backend's mutex, so a call is one atomic
operation and a request handler is a `Program` over `BackendCall`. The memory
store is the map `entries_`, keyed by the DN an entry was added or renamed
under and scanned ignoring ASCII case.
-/

namespace SimpleLdapd

open Dn

inductive BackendCall where
  | lookup (dn : Bytes)
  | search (baseDn : Bytes) (scope : SearchScope) (filter : SearchFilter)
  | add (entry : DirectoryEntry)
  | modify (entry : DirectoryEntry)
  | remove (dn : Bytes)
  | rename (source target : Bytes)
  | hasChildren (dn : Bytes)
  | persist

namespace BackendCall

abbrev Answer : BackendCall → Type
  | lookup _ => Option DirectoryEntry
  | search _ _ _ => List DirectoryEntry
  | add _ => Bool
  | modify _ => Bool
  | remove _ => Bool
  | rename _ _ => Bool
  | hasChildren _ => Bool
  | persist => Unit

/-- The calls that cannot write. -/
def ReadOnly : BackendCall → Prop
  | lookup _ | search _ _ _ | hasChildren _ | persist => True
  | add _ | modify _ | remove _ | rename _ _ => False

/-- The call asks for entries and does nothing else. -/
def Reads : BackendCall → Prop
  | lookup _ | search _ _ _ | hasChildren _ => True
  | add _ | modify _ | remove _ | rename _ _ | persist => False

theorem Reads.readOnly {call : BackendCall} (reads : call.Reads) : call.ReadOnly := by
  cases call <;> trivial

end BackendCall

abbrev BackendProgram (Value : Type) := Program BackendCall BackendCall.Answer Value

namespace Backend

def lookup (dn : Bytes) : BackendProgram (Option DirectoryEntry) := Program.perform (BackendCall.lookup dn)

def search (baseDn : Bytes) (scope : SearchScope) (filter : SearchFilter) :
    BackendProgram (List DirectoryEntry) :=
  Program.perform (BackendCall.search baseDn scope filter)

def add (entry : DirectoryEntry) : BackendProgram Bool := Program.perform (BackendCall.add entry)

def modify (entry : DirectoryEntry) : BackendProgram Bool := Program.perform (BackendCall.modify entry)

def remove (dn : Bytes) : BackendProgram Bool := Program.perform (BackendCall.remove dn)

def rename (source target : Bytes) : BackendProgram Bool := Program.perform (BackendCall.rename source target)

def hasChildren (dn : Bytes) : BackendProgram Bool := Program.perform (BackendCall.hasChildren dn)

def persist : BackendProgram Unit := Program.perform BackendCall.persist

/-- The `switch` on the scope; a number that names no scope selects nothing. -/
def inScope (scope : SearchScope) (dn baseDn : Bytes) : Bool :=
  match scope with
  | .base => dnEquals dn baseDn
  | .oneLevel => dnIsOneLevelChild dn baseDn
  | .subtree => dnEndsWith dn baseDn
  | .undeclared _ => false

end Backend

abbrev MemoryStore := OrderedMap Bytes DirectoryEntry

namespace MemoryBackend

def lookup (store : MemoryStore) (dn : Bytes) : Option DirectoryEntry :=
  (store.findBy toLowerAscii dn).map Prod.snd

def search (store : MemoryStore) (baseDn : Bytes) (scope : SearchScope) (filter : SearchFilter) :
    List DirectoryEntry :=
  (store.entries.filter fun pair =>
    Backend.inScope scope pair.1 baseDn && filter.matchesEntry pair.2).map Prod.snd

def add (store : MemoryStore) (entry : DirectoryEntry) : Bool × MemoryStore :=
  if entry.dn = [] then (false, store)
  else if store.entries.any fun pair => dnEquals pair.1 entry.dn then (false, store)
  else (true, store.insert entry.dn entry)

def modify (store : MemoryStore) (entry : DirectoryEntry) : Bool × MemoryStore :=
  match store.findBy toLowerAscii entry.dn with
  | none => (false, store)
  | some (key, _) => (true, store.insert key entry)

def remove (store : MemoryStore) (dn : Bytes) : Bool × MemoryStore :=
  match store.findBy toLowerAscii dn with
  | none => (false, store)
  | some (key, _) => (true, store.erase key)

/-- The scan keeps the last key equal to `source` and stops at another key equal to `target`. -/
def rename (store : MemoryStore) (source target : Bytes) : Bool × MemoryStore :=
  if source = [] ∨ target = [] then (false, store)
  else if store.entries.any fun pair => !dnEquals pair.1 source && dnEquals pair.1 target then
    (false, store)
  else
    match (store.entries.filter fun pair => dnEquals pair.1 source).getLast? with
    | none => (false, store)
    | some (key, entry) =>
        if dnEquals source target then (true, store)
        else (true, (store.erase key).insert target { entry with dn := target })

def hasChildren (store : MemoryStore) (dn : Bytes) : Bool :=
  store.entries.any fun pair => dnIsOneLevelChild pair.1 dn

def exec : (call : BackendCall) → MemoryStore → call.Answer × MemoryStore
  | .lookup dn, store => (lookup store dn, store)
  | .search baseDn scope filter, store => (search store baseDn scope filter, store)
  | .add entry, store => add store entry
  | .modify entry, store => modify store entry
  | .remove dn, store => remove store dn
  | .rename source target, store => rename store source target
  | .hasChildren dn, store => (hasChildren store dn, store)
  | .persist, store => ((), store)

/-- The store after a sequence of calls. -/
def afterCalls (store : MemoryStore) (calls : List BackendCall) : MemoryStore :=
  calls.foldl (fun reached call => (exec call reached).2) store

/-- The stores that backend calls build from an empty backend. -/
inductive Reachable : MemoryStore → Prop where
  | empty : Reachable OrderedMap.empty
  | step {store : MemoryStore} (call : BackendCall) (reachable : Reachable store) :
      Reachable (exec call store).2

theorem exec_read_only {call : BackendCall} (readOnly : call.ReadOnly) (store : MemoryStore) :
    (exec call store).2 = store := by
  cases call <;> first | rfl | exact absurd readOnly id

theorem run_read_only {Value : Type} {program : BackendProgram Value}
    (issued : program.Issues BackendCall.Reads) (store : MemoryStore) :
    (program.run exec store).2 = store :=
  Program.run_state_of_issues
    (fun _ reached reads => exec_read_only (BackendCall.Reads.readOnly reads) reached) issued store

/-- A program that only reads leaves its value and the store to what follows. -/
theorem ensures_read {First Value : Type} {program : BackendProgram First}
    {rest : First → BackendProgram Value} {store : MemoryStore}
    {post : Value → MemoryStore → Prop} (issued : program.Issues BackendCall.Reads)
    (next : ∀ value, (program.run exec store).1 = value →
      Program.Ensures exec (rest value) store post) :
    Program.Ensures exec (program >>= rest) store post := by
  apply Program.ensures_bind
  unfold Program.Ensures
  rw [run_read_only issued]
  exact next _ rfl

section Calls

variable {Value : Type} {store : MemoryStore} {post : Value → MemoryStore → Prop}

theorem ensures_lookup {dn : Bytes} {rest : Option DirectoryEntry → BackendProgram Value}
    (next : ∀ found, lookup store dn = found → Program.Ensures exec (rest found) store post) :
    Program.Ensures exec (Backend.lookup dn >>= rest) store post :=
  Program.ensures_perform next

theorem ensures_has_children {dn : Bytes} {rest : Bool → BackendProgram Value}
    (next : ∀ parental, hasChildren store dn = parental →
      Program.Ensures exec (rest parental) store post) :
    Program.Ensures exec (Backend.hasChildren dn >>= rest) store post :=
  Program.ensures_perform next

theorem ensures_persist {rest : Unit → BackendProgram Value}
    (next : Program.Ensures exec (rest ()) store post) :
    Program.Ensures exec (Backend.persist >>= rest) store post :=
  Program.ensures_perform fun _ _ => next

theorem ensures_add {entry : DirectoryEntry} {rest : Bool → BackendProgram Value}
    (written : (add store entry).1 = true)
    (next : Program.Ensures exec (rest true) (add store entry).2 post) :
    Program.Ensures exec (Backend.add entry >>= rest) store post :=
  Program.ensures_answer written next

theorem ensures_modify {entry : DirectoryEntry} {rest : Bool → BackendProgram Value}
    (written : (modify store entry).1 = true)
    (next : Program.Ensures exec (rest true) (modify store entry).2 post) :
    Program.Ensures exec (Backend.modify entry >>= rest) store post :=
  Program.ensures_answer written next

theorem ensures_remove {dn : Bytes} {rest : Bool → BackendProgram Value}
    (written : (remove store dn).1 = true)
    (next : Program.Ensures exec (rest true) (remove store dn).2 post) :
    Program.Ensures exec (Backend.remove dn >>= rest) store post :=
  Program.ensures_answer written next

theorem ensures_rename {source target : Bytes} {rest : Bool → BackendProgram Value}
    (written : (rename store source target).1 = true)
    (next : Program.Ensures exec (rest true) (rename store source target).2 post) :
    Program.Ensures exec (Backend.rename source target >>= rest) store post :=
  Program.ensures_answer written next

end Calls

/-- Keys are distinct ignoring case and non-empty, and an entry's own DN is its
key up to case. -/
structure StoreInvariant (store : MemoryStore) : Prop where
  distinct : store.DistinctBy toLowerAscii
  named : ∀ pair ∈ store.entries, pair.1 ≠ []
  sameDn : ∀ pair ∈ store.entries, toLowerAscii pair.2.dn = toLowerAscii pair.1

theorem any_equal_iff (store : MemoryStore) (dn : Bytes) :
    (store.entries.any fun pair => dnEquals pair.1 dn) = true ↔
      store.findBy toLowerAscii dn ≠ none := by
  rw [ne_eq, OrderedMap.findBy_eq_none_iff]
  simp [dn_equals_iff]

theorem lookup_eq_none_iff (store : MemoryStore) (dn : Bytes) :
    lookup store dn = none ↔ store.findBy toLowerAscii dn = none := by
  simp [lookup]

theorem lookup_congr (store : MemoryStore) {dn other : Bytes}
    (same : toLowerAscii dn = toLowerAscii other) : lookup store dn = lookup store other := by
  rw [lookup, lookup, OrderedMap.findBy_congr toLowerAscii store same]

theorem lookup_eq_some {store : MemoryStore} {dn : Bytes} {entry : DirectoryEntry}
    (found : lookup store dn = some entry) :
    ∃ key, (key, entry) ∈ store.entries ∧ toLowerAscii key = toLowerAscii dn := by
  obtain ⟨pair, located, same⟩ := Option.map_eq_some_iff.mp found
  obtain ⟨member, equal⟩ := OrderedMap.findBy_some toLowerAscii located
  rw [← same]
  exact ⟨pair.1, member, equal⟩

theorem lookup_insert {store : MemoryStore} {key : Bytes}
    (owns : store.Owns toLowerAscii key) (entry : DirectoryEntry) (dn : Bytes) :
    lookup (store.insert key entry) dn =
      if toLowerAscii key = toLowerAscii dn then some entry else lookup store dn := by
  rw [lookup, OrderedMap.findBy_insert_leading toLowerAscii owns.leads entry dn]
  split_ifs with same
  · rfl
  · rfl

namespace StoreInvariant

variable {store : MemoryStore}

theorem lookup_key (invariant : StoreInvariant store) {pair : Bytes × DirectoryEntry}
    (member : pair ∈ store.entries) {dn : Bytes} (same : toLowerAscii pair.1 = toLowerAscii dn) :
    lookup store dn = some pair.2 := by
  have located := (invariant.distinct.findBy_eq_some_iff dn pair).mpr ⟨member, same⟩
  rw [lookup, located]
  rfl

theorem lookup_dn (invariant : StoreInvariant store) {dn : Bytes} {entry : DirectoryEntry}
    (found : lookup store dn = some entry) : toLowerAscii entry.dn = toLowerAscii dn := by
  obtain ⟨key, member, same⟩ := lookup_eq_some found
  exact (invariant.sameDn (key, entry) member).trans same

theorem lookup_nonempty (invariant : StoreInvariant store) {dn : Bytes} {entry : DirectoryEntry}
    (found : lookup store dn = some entry) : dn ≠ [] := by
  obtain ⟨key, member, same⟩ := lookup_eq_some found
  intro empty
  rw [empty] at same
  exact invariant.named (key, entry) member ((to_lower_eq_nil key).mp same)

theorem insert (invariant : StoreInvariant store) {key : Bytes} {entry : DirectoryEntry}
    (owns : store.Owns toLowerAscii key) (named : key ≠ [])
    (sameDn : toLowerAscii entry.dn = toLowerAscii key) :
    StoreInvariant (store.insert key entry) where
  distinct := invariant.distinct.insert owns entry
  named := by
    intro pair member
    rcases (OrderedMap.mem_insert store key entry pair).mp member with here | ⟨older, _⟩
    · rw [here]
      exact named
    · exact invariant.named pair older
  sameDn := by
    intro pair member
    rcases (OrderedMap.mem_insert store key entry pair).mp member with here | ⟨older, _⟩
    · rw [here]
      exact sameDn
    · exact invariant.sameDn pair older

theorem erase (invariant : StoreInvariant store) (key : Bytes) :
    StoreInvariant (store.erase key) where
  distinct := invariant.distinct.erase key
  named := by
    intro pair member
    exact invariant.named pair ((OrderedMap.mem_erase store key pair).mp member).1
  sameDn := by
    intro pair member
    exact invariant.sameDn pair ((OrderedMap.mem_erase store key pair).mp member).1

theorem lookup_erase (invariant : StoreInvariant store) {pair : Bytes × DirectoryEntry}
    (stored : pair ∈ store.entries) (dn : Bytes) :
    lookup (store.erase pair.1) dn =
      if toLowerAscii pair.1 = toLowerAscii dn then none else lookup store dn := by
  rw [lookup, invariant.distinct.findBy_erase stored dn]
  split_ifs with same
  · rfl
  · rfl

end StoreInvariant

theorem add_cases (store : MemoryStore) (entry : DirectoryEntry) :
    (entry.dn ≠ [] ∧ lookup store entry.dn = none ∧
        add store entry = (true, store.insert entry.dn entry)) ∨
      ((entry.dn = [] ∨ lookup store entry.dn ≠ none) ∧ add store entry = (false, store)) := by
  unfold add
  by_cases unnamed : entry.dn = []
  · right
    exact ⟨Or.inl unnamed, if_pos unnamed⟩
  · rw [if_neg unnamed]
    by_cases taken : (store.entries.any fun pair => dnEquals pair.1 entry.dn) = true
    · right
      rw [if_pos taken]
      rw [any_equal_iff, ne_eq, ← lookup_eq_none_iff] at taken
      exact ⟨Or.inr taken, rfl⟩
    · left
      rw [if_neg taken]
      rw [any_equal_iff, ne_eq, ← lookup_eq_none_iff, not_not] at taken
      exact ⟨unnamed, taken, rfl⟩

/-- What a call that names a stored entry found: its key, or that there is none. -/
theorem find_cases (store : MemoryStore) (dn : Bytes) :
    (∃ key entry, (key, entry) ∈ store.entries ∧ toLowerAscii key = toLowerAscii dn ∧
        store.findBy toLowerAscii dn = some (key, entry) ∧ lookup store dn = some entry) ∨
      (store.findBy toLowerAscii dn = none ∧ lookup store dn = none) := by
  cases located : store.findBy toLowerAscii dn with
  | none =>
      right
      exact ⟨rfl, (lookup_eq_none_iff store dn).mpr located⟩
  | some pair =>
      left
      obtain ⟨member, same⟩ := OrderedMap.findBy_some toLowerAscii located
      exact ⟨pair.1, pair.2, member, same, rfl, by rw [lookup, located]; rfl⟩

theorem modify_cases (store : MemoryStore) (entry : DirectoryEntry) :
    (∃ key old, (key, old) ∈ store.entries ∧ toLowerAscii key = toLowerAscii entry.dn ∧
        lookup store entry.dn = some old ∧
        modify store entry = (true, store.insert key entry)) ∨
      (lookup store entry.dn = none ∧ modify store entry = (false, store)) := by
  unfold modify
  rcases find_cases store entry.dn with ⟨key, old, member, same, located, found⟩ | ⟨absent, none⟩
  · left
    rw [located]
    exact ⟨key, old, member, same, found, rfl⟩
  · right
    rw [absent]
    exact ⟨none, rfl⟩

theorem remove_cases (store : MemoryStore) (dn : Bytes) :
    (∃ key old, (key, old) ∈ store.entries ∧ toLowerAscii key = toLowerAscii dn ∧
        lookup store dn = some old ∧ remove store dn = (true, store.erase key)) ∨
      (lookup store dn = none ∧ remove store dn = (false, store)) := by
  unfold remove
  rcases find_cases store dn with ⟨key, old, member, same, located, found⟩ | ⟨absent, none⟩
  · left
    rw [located]
    exact ⟨key, old, member, same, found, rfl⟩
  · right
    rw [absent]
    exact ⟨none, rfl⟩

theorem equal_keys {store : MemoryStore} (invariant : StoreInvariant store) (dn : Bytes) :
    (store.entries.filter fun pair => dnEquals pair.1 dn) =
      (store.findBy toLowerAscii dn).toList := by
  rw [← invariant.distinct.filter_class dn]
  rfl

/-- No two keys are equal ignoring case, so the last one found is the first one. -/
theorem last_equal_key {store : MemoryStore} (invariant : StoreInvariant store) (dn : Bytes) :
    (store.entries.filter fun pair => dnEquals pair.1 dn).getLast? =
      store.findBy toLowerAscii dn := by
  rw [equal_keys invariant]
  cases store.findBy toLowerAscii dn <;> rfl

/-- A search of base scope filters what a lookup finds. -/
theorem search_base {store : MemoryStore} (invariant : StoreInvariant store) (dn : Bytes)
    (filter : SearchFilter) :
    search store dn .base filter = (lookup store dn).toList.filter filter.matchesEntry := by
  have both : (store.entries.filter fun pair =>
      Backend.inScope .base pair.1 dn && filter.matchesEntry pair.2) =
      (store.entries.filter fun pair => dnEquals pair.1 dn).filter fun pair =>
        filter.matchesEntry pair.2 := by
    rw [List.filter_filter]
    apply List.filter_congr
    intro pair _
    exact Bool.and_comm _ _
  unfold search lookup
  rw [both, equal_keys invariant]
  cases store.findBy toLowerAscii dn with
  | none => rfl
  | some pair => cases kept : filter.matchesEntry pair.2 <;> simp [kept]

theorem rename_cases {store : MemoryStore} (invariant : StoreInvariant store)
    (source target : Bytes) :
    (∃ key entry, (key, entry) ∈ store.entries ∧ toLowerAscii key = toLowerAscii source ∧
        lookup store source = some entry ∧ target ≠ [] ∧
        toLowerAscii source ≠ toLowerAscii target ∧ lookup store target = none ∧
        rename store source target =
          (true, (store.erase key).insert target { entry with dn := target })) ∨
      (lookup store source ≠ none ∧ toLowerAscii source = toLowerAscii target ∧
        rename store source target = (true, store)) ∨
      ((source = [] ∨ target = [] ∨ lookup store source = none ∨
          (toLowerAscii source ≠ toLowerAscii target ∧ lookup store target ≠ none)) ∧
        rename store source target = (false, store)) := by
  unfold rename
  by_cases unnamed : source = [] ∨ target = []
  · rw [if_pos unnamed]
    right; right
    rcases unnamed with noSource | noTarget
    · exact ⟨Or.inl noSource, rfl⟩
    · exact ⟨Or.inr (Or.inl noTarget), rfl⟩
  rw [if_neg unnamed]
  push Not at unnamed
  by_cases taken : (store.entries.any fun pair =>
      !dnEquals pair.1 source && dnEquals pair.1 target) = true
  · rw [if_pos taken]
    right; right
    obtain ⟨pair, member, other⟩ := List.any_eq_true.mp taken
    simp only [Bool.and_eq_true, Bool.not_eq_true', ← Bool.not_eq_true, dn_equals_iff] at other
    have different : toLowerAscii source ≠ toLowerAscii target := by
      intro same
      exact other.1 (other.2.trans same.symm)
    have found := invariant.lookup_key member other.2
    exact ⟨Or.inr (Or.inr (Or.inr ⟨different, by simp [found]⟩)), rfl⟩
  rw [if_neg taken, last_equal_key invariant source]
  rcases find_cases store source with ⟨key, entry, member, same, located, found⟩ | ⟨absent, none⟩
  · rw [located]
    by_cases respelled : toLowerAscii source = toLowerAscii target
    · right; left
      have equal : dnEquals source target = true := (dn_equals_iff source target).mpr respelled
      exact ⟨by simp [found], respelled, by simp [equal]⟩
    · left
      have unequal : ¬ dnEquals source target = true := by rwa [dn_equals_iff]
      have free : lookup store target = none := by
        rw [lookup_eq_none_iff, OrderedMap.findBy_eq_none_iff]
        intro pair other equal
        apply taken
        apply List.any_eq_true.mpr
        refine ⟨pair, other, ?_⟩
        simp only [Bool.and_eq_true, Bool.not_eq_true', ← Bool.not_eq_true, dn_equals_iff]
        exact ⟨fun again => respelled (again.symm.trans equal), equal⟩
      exact ⟨key, entry, member, same, found, unnamed.2, respelled, free, by simp [unequal]⟩
  · right; right
    rw [absent]
    exact ⟨Or.inr (Or.inr (Or.inl none)), rfl⟩

theorem add_succeeds {store : MemoryStore} {entry : DirectoryEntry} (named : entry.dn ≠ [])
    (free : lookup store entry.dn = none) : (add store entry).1 = true := by
  rcases add_cases store entry with ⟨_, _, effect⟩ | ⟨unnamed | taken, _⟩
  · rw [effect]
  · exact absurd unnamed named
  · exact absurd free taken

theorem modify_succeeds_iff (store : MemoryStore) (entry : DirectoryEntry) :
    (modify store entry).1 = true ↔ lookup store entry.dn ≠ none := by
  rcases modify_cases store entry with ⟨_, _, _, _, found, effect⟩ | ⟨absent, effect⟩
  · simp [effect, found]
  · simp [effect, absent]

/-- A modification of a found entry succeeds, whatever the spelling it was found under. -/
theorem modify_succeeds {store : MemoryStore} {entry old : DirectoryEntry} {dn : Bytes}
    (same : toLowerAscii entry.dn = toLowerAscii dn) (found : lookup store dn = some old) :
    (modify store entry).1 = true := by
  rw [modify_succeeds_iff, lookup_congr store same, found]
  exact nofun

theorem remove_succeeds_iff (store : MemoryStore) (dn : Bytes) :
    (remove store dn).1 = true ↔ lookup store dn ≠ none := by
  rcases remove_cases store dn with ⟨_, _, _, _, found, effect⟩ | ⟨absent, effect⟩
  · simp [effect, found]
  · simp [effect, absent]

theorem rename_succeeds {store : MemoryStore} (invariant : StoreInvariant store)
    {source target : Bytes} (stored : lookup store source ≠ none) (named : target ≠ [])
    (free : toLowerAscii source = toLowerAscii target ∨ lookup store target = none) :
    (rename store source target).1 = true := by
  rcases rename_cases invariant source target with
    ⟨_, _, _, _, _, _, _, _, effect⟩ | ⟨_, _, effect⟩ |
      ⟨unnamed | noTarget | absent | ⟨different, taken⟩, _⟩
  · rw [effect]
  · rw [effect]
  · obtain ⟨entry, found⟩ := Option.ne_none_iff_exists'.mp stored
    exact absurd unnamed (invariant.lookup_nonempty found)
  · exact absurd noTarget named
  · exact absurd absent stored
  · rcases free with same | free
    · exact absurd same different
    · exact absurd free taken

theorem rename_succeeds_iff {store : MemoryStore} (invariant : StoreInvariant store)
    {source target : Bytes} (named : target ≠ []) :
    (rename store source target).1 = true ↔ lookup store source ≠ none ∧
      (toLowerAscii source = toLowerAscii target ∨ lookup store target = none) := by
  constructor
  · intro moved
    rcases rename_cases invariant source target with
      ⟨_, _, _, _, found, _, _, free, _⟩ | ⟨stored, same, _⟩ | ⟨_, refused⟩
    · exact ⟨by rw [found]; exact nofun, Or.inr free⟩
    · exact ⟨stored, Or.inl same⟩
    · rw [refused] at moved
      cases moved
  · intro fits
    exact rename_succeeds invariant fits.1 named fits.2

theorem rename_refused {store : MemoryStore} (invariant : StoreInvariant store)
    {source target : Bytes} (refused : (rename store source target).1 = false) :
    (rename store source target).2 = store := by
  rcases rename_cases invariant source target with
    ⟨_, _, _, _, _, _, _, _, effect⟩ | ⟨_, _, effect⟩ | ⟨_, effect⟩
  · rw [effect] at refused
    cases refused
  · rw [effect]
  · rw [effect]

theorem modify_refused {store : MemoryStore} {entry : DirectoryEntry}
    (refused : (modify store entry).1 = false) : (modify store entry).2 = store := by
  rcases modify_cases store entry with ⟨_, _, _, _, _, effect⟩ | ⟨_, effect⟩
  · rw [effect] at refused
    cases refused
  · rw [effect]

theorem rename_respelled {store : MemoryStore} (invariant : StoreInvariant store)
    {source target : Bytes} (same : toLowerAscii source = toLowerAscii target) :
    (rename store source target).2 = store := by
  rcases rename_cases invariant source target with
    ⟨_, _, _, _, _, _, different, _⟩ | ⟨_, _, effect⟩ | ⟨_, effect⟩
  · exact absurd same different
  · rw [effect]
  · rw [effect]

/-- Removing the source key leaves the target class empty when it was free before. -/
theorem owns_target {store : MemoryStore} (invariant : StoreInvariant store) (key : Bytes)
    {target : Bytes} (free : lookup store target = none) :
    (store.erase key).Owns toLowerAscii target := by
  intro pair member same
  have stored := ((OrderedMap.mem_erase store key pair).mp member).1
  have found := invariant.lookup_key stored same
  rw [free] at found
  cases found

theorem exec_invariant {store : MemoryStore} (invariant : StoreInvariant store)
    (call : BackendCall) : StoreInvariant (exec call store).2 := by
  cases call with
  | lookup dn => exact invariant
  | search baseDn scope filter => exact invariant
  | hasChildren dn => exact invariant
  | persist => exact invariant
  | add entry =>
      change StoreInvariant (add store entry).2
      rcases add_cases store entry with ⟨named, free, added⟩ | ⟨_, refused⟩
      · rw [added]
        exact invariant.insert
          (OrderedMap.owns_fresh ((lookup_eq_none_iff store entry.dn).mp free)) named rfl
      · rw [refused]
        exact invariant
  | modify entry =>
      change StoreInvariant (modify store entry).2
      rcases modify_cases store entry with ⟨key, old, member, same, _, written⟩ | ⟨_, refused⟩
      · rw [written]
        exact invariant.insert (invariant.distinct.owns_stored member)
          (invariant.named (key, old) member) same.symm
      · rw [refused]
        exact invariant
  | remove dn =>
      change StoreInvariant (remove store dn).2
      rcases remove_cases store dn with ⟨key, old, _, _, _, removed⟩ | ⟨_, refused⟩
      · rw [removed]
        exact invariant.erase key
      · rw [refused]
        exact invariant
  | rename source target =>
      change StoreInvariant (rename store source target).2
      rcases rename_cases invariant source target with
        ⟨key, entry, _, _, _, named, _, free, moved⟩ | ⟨_, _, kept⟩ | ⟨_, refused⟩
      · rw [moved]
        exact (invariant.erase key).insert (owns_target invariant key free) named rfl
      · rw [kept]
        exact invariant
      · rw [refused]
        exact invariant

theorem Reachable.invariant {store : MemoryStore} (reachable : Reachable store) :
    StoreInvariant store := by
  induction reachable with
  | empty =>
      exact ⟨OrderedMap.distinct_empty, by simp, by simp⟩
  | step call reachable ih => exact exec_invariant ih call

theorem Reachable.after_advance {Value : Type} {Thread : Type*} [DecidableEq Thread]
    {pool : Program.Pool Thread BackendCall BackendCall.Answer Value MemoryStore}
    (reachable : Reachable pool.state) (thread : Thread) :
    Reachable (Program.advance exec pool thread).state := by
  rcases Program.advance_cases exec pool thread with ⟨_, same⟩ | ⟨op, _, _, moved⟩
  · rw [same]
    exact reachable
  · rw [moved]
    exact Reachable.step op reachable

theorem Reachable.after_interleave {Value : Type} {Thread : Type*} [DecidableEq Thread]
    {pool : Program.Pool Thread BackendCall BackendCall.Answer Value MemoryStore}
    (reachable : Reachable pool.state) (schedule : List Thread) :
    Reachable (Program.interleave exec pool schedule).state := by
  induction schedule generalizing pool with
  | nil => exact reachable
  | cons thread rest ih => exact ih (reachable.after_advance thread)

theorem Reachable.after_calls {store : MemoryStore} (reachable : Reachable store)
    (calls : List BackendCall) : Reachable (afterCalls store calls) := by
  induction calls generalizing store with
  | nil => exact reachable
  | cons call rest ih => exact ih (Reachable.step call reachable)

theorem Reachable.after_run {Value : Type} {store : MemoryStore} (reachable : Reachable store)
    (program : BackendProgram Value) : Reachable (program.run exec store).2 := by
  induction program generalizing store with
  | done value => exact reachable
  | call op next ih => exact ih _ (Reachable.step op reachable)

theorem lookup_added {store : MemoryStore}
    {entry : DirectoryEntry} (added : (add store entry).1 = true) (dn : Bytes) :
    lookup (add store entry).2 dn =
      if toLowerAscii entry.dn = toLowerAscii dn then some entry else lookup store dn := by
  rcases add_cases store entry with ⟨_, free, effect⟩ | ⟨_, effect⟩
  · rw [effect]
    exact lookup_insert
      (OrderedMap.owns_fresh ((lookup_eq_none_iff store entry.dn).mp free)) entry dn
  · rw [effect] at added
    cases added

theorem lookup_modified {store : MemoryStore} (invariant : StoreInvariant store)
    {entry : DirectoryEntry} (modified : (modify store entry).1 = true) (dn : Bytes) :
    lookup (modify store entry).2 dn =
      if toLowerAscii entry.dn = toLowerAscii dn then some entry else lookup store dn := by
  rcases modify_cases store entry with ⟨key, old, member, same, _, effect⟩ | ⟨_, effect⟩
  · rw [effect, ← same]
    exact lookup_insert (invariant.distinct.owns_stored member) entry dn
  · rw [effect] at modified
    cases modified

theorem lookup_removed {store : MemoryStore} (invariant : StoreInvariant store) {name : Bytes}
    (removed : (remove store name).1 = true) (dn : Bytes) :
    lookup (remove store name).2 dn =
      if toLowerAscii name = toLowerAscii dn then none else lookup store dn := by
  rcases remove_cases store name with ⟨key, old, member, same, _, effect⟩ | ⟨_, effect⟩
  · rw [effect, ← same]
    exact invariant.lookup_erase member dn
  · rw [effect] at removed
    cases removed

/-- A rename to a DN that differs by more than case moves the entry and nothing else. -/
theorem lookup_renamed {store : MemoryStore} (invariant : StoreInvariant store)
    {source target : Bytes} {entry : DirectoryEntry} (found : lookup store source = some entry)
    (different : toLowerAscii source ≠ toLowerAscii target)
    (renamed : (rename store source target).1 = true) (dn : Bytes) :
    lookup (rename store source target).2 dn =
      if toLowerAscii target = toLowerAscii dn then some { entry with dn := target }
      else if toLowerAscii source = toLowerAscii dn then none
      else lookup store dn := by
  rcases rename_cases invariant source target with
    ⟨key, other, member, same, stored, named, _, free, effect⟩ | ⟨_, respelled, _⟩ | ⟨_, effect⟩
  · rw [found] at stored
    cases stored
    rw [effect, lookup_insert (owns_target invariant key free),
      invariant.lookup_erase member, ← same]
  · exact absurd respelled different
  · rw [effect] at renamed
    cases renamed

section Size

variable {store : MemoryStore}

theorem length_modified (store : MemoryStore) (entry : DirectoryEntry) :
    (modify store entry).2.entries.length = store.entries.length := by
  rcases modify_cases store entry with ⟨key, old, member, _, _, effect⟩ | ⟨_, effect⟩
  · rw [effect]
    exact (OrderedMap.length_insert store key entry).trans (OrderedMap.length_erase member)
  · rw [effect]

theorem length_renamed (invariant : StoreInvariant store) (source target : Bytes) :
    (rename store source target).2.entries.length = store.entries.length := by
  rcases rename_cases invariant source target with
    ⟨key, entry, member, _, _, _, _, free, effect⟩ | ⟨_, _, effect⟩ | ⟨_, effect⟩
  · have absent : ∀ pair ∈ (store.erase key).entries, pair.1 ≠ target := by
      intro pair kept same
      have stored := ((OrderedMap.mem_erase store key pair).mp kept).1
      have found := invariant.lookup_key stored (congrArg toLowerAscii same)
      rw [free] at found
      cases found
    rw [effect, OrderedMap.length_insert, OrderedMap.erase_absent absent]
    exact OrderedMap.length_erase member
  · rw [effect]
  · rw [effect]

end Size

section OneEntry

/-- The calls that name `dn` all find nothing, or all act on the entry under the only key
that is `dn` ignoring case. -/
def ActsOnOneEntry (store : MemoryStore) (dn : Bytes) : Prop :=
  (lookup store dn = none ∧ remove store dn = (false, store) ∧
      ∀ entry, toLowerAscii entry.dn = toLowerAscii dn → modify store entry = (false, store)) ∨
    ∃ key stored,
      (∀ pair, pair ∈ store.entries ∧ toLowerAscii pair.1 = toLowerAscii dn ↔
        pair = (key, stored)) ∧
      lookup store dn = some stored ∧ remove store dn = (true, store.erase key) ∧
      ∀ entry, toLowerAscii entry.dn = toLowerAscii dn →
        modify store entry = (true, store.insert key entry)

theorem StoreInvariant.acts_on_one_entry {store : MemoryStore} (invariant : StoreInvariant store)
    (dn : Bytes) : ActsOnOneEntry store dn := by
  rcases find_cases store dn with ⟨key, stored, member, same, located, found⟩ | ⟨absent, none⟩
  · right
    refine ⟨key, stored, ?_, found, ?_, ?_⟩
    · intro pair
      rw [← invariant.distinct.findBy_eq_some_iff, located, Option.some.injEq, eq_comm]
    · rw [remove, located]
    · intro entry equal
      rw [modify, OrderedMap.findBy_congr toLowerAscii store equal, located]
  · left
    refine ⟨none, ?_, ?_⟩
    · rw [remove, absent]
    · intro entry equal
      rw [modify, OrderedMap.findBy_congr toLowerAscii store equal, absent]

/-- Whatever is called, one call after another or by many threads in any order, the keys
stay non-empty and distinct ignoring case, each the DN of its entry ignoring case. -/
theorem calls_keep_one_entry_per_dn :
    (∀ calls : List BackendCall,
      StoreInvariant (afterCalls OrderedMap.empty calls) ∧
        ∀ dn, ActsOnOneEntry (afterCalls OrderedMap.empty calls) dn) ∧
    ∀ (Thread Value : Type) [DecidableEq Thread] (threads : Thread → BackendProgram Value)
      (schedule : List Thread),
      StoreInvariant (Program.interleave exec ⟨threads, OrderedMap.empty⟩ schedule).state ∧
        ∀ dn, ActsOnOneEntry
          (Program.interleave exec ⟨threads, OrderedMap.empty⟩ schedule).state dn := by
  constructor
  · intro calls
    have invariant := (Reachable.empty.after_calls calls).invariant
    exact ⟨invariant, invariant.acts_on_one_entry⟩
  · intro Thread Value _ threads schedule
    have start : Reachable (Program.Pool.mk threads OrderedMap.empty).state := Reachable.empty
    have invariant := (start.after_interleave schedule).invariant
    exact ⟨invariant, invariant.acts_on_one_entry⟩

end OneEntry

section Entries

/-- Every stored entry has the property. -/
def AllEntries (Good : DirectoryEntry → Prop) (store : MemoryStore) : Prop :=
  ∀ pair ∈ store.entries, Good pair.2

variable {Good : DirectoryEntry → Prop} {store : MemoryStore}

theorem all_entries_empty : AllEntries Good OrderedMap.empty := by
  intro pair member
  cases member

theorem AllEntries.lookup (all : AllEntries Good store) {dn : Bytes} {entry : DirectoryEntry}
    (found : lookup store dn = some entry) : Good entry := by
  obtain ⟨key, stored, _⟩ := lookup_eq_some found
  exact all (key, entry) stored

theorem AllEntries.insert (all : AllEntries Good store) (key : Bytes) {entry : DirectoryEntry}
    (good : Good entry) : AllEntries Good (store.insert key entry) := by
  intro pair member
  rcases (OrderedMap.mem_insert store key entry pair).mp member with here | ⟨older, _⟩
  · rw [here]
    exact good
  · exact all pair older

theorem AllEntries.erase (all : AllEntries Good store) (key : Bytes) :
    AllEntries Good (store.erase key) := by
  intro pair member
  exact all pair ((OrderedMap.mem_erase store key pair).mp member).1

theorem AllEntries.add (all : AllEntries Good store) {entry : DirectoryEntry}
    (good : Good entry) : AllEntries Good (add store entry).2 := by
  rcases add_cases store entry with ⟨_, _, added⟩ | ⟨_, refused⟩
  · rw [added]
    exact all.insert entry.dn good
  · rw [refused]
    exact all

theorem AllEntries.modify (all : AllEntries Good store) {entry : DirectoryEntry}
    (good : Good entry) : AllEntries Good (modify store entry).2 := by
  rcases modify_cases store entry with ⟨key, _, _, _, _, written⟩ | ⟨_, refused⟩
  · rw [written]
    exact all.insert key good
  · rw [refused]
    exact all

theorem AllEntries.remove (all : AllEntries Good store) (dn : Bytes) :
    AllEntries Good (remove store dn).2 := by
  rcases remove_cases store dn with ⟨key, _, _, _, _, removed⟩ | ⟨_, refused⟩
  · rw [removed]
    exact all.erase key
  · rw [refused]
    exact all

theorem AllEntries.rename_to (all : AllEntries Good store) {target : Bytes}
    (moves : ∀ entry, Good entry → Good { entry with dn := target }) (source : Bytes) :
    AllEntries Good (rename store source target).2 := by
  unfold MemoryBackend.rename
  split
  · exact all
  split
  · exact all
  split
  · exact all
  · rename_i key entry last
    split
    · exact all
    · apply (all.erase key).insert target
      exact moves entry (all (key, entry) (List.mem_filter.mp (List.mem_of_getLast? last)).1)

theorem AllEntries.rename (all : AllEntries Good store)
    (moves : ∀ entry dn, Good entry → Good { entry with dn := dn }) (source target : Bytes) :
    AllEntries Good (rename store source target).2 :=
  all.rename_to (fun entry => moves entry target) source

end Entries

theorem has_children_iff (store : MemoryStore) {dn : Bytes} (named : dn ≠ []) :
    hasChildren store dn = true ↔
      ∃ pair ∈ store.entries, chr ',' ∈ pair.1 ∧
        toLowerAscii (dnParent pair.1) = toLowerAscii dn := by
  simp only [hasChildren, List.any_eq_true, one_level_child_iff _ named]

end MemoryBackend

end SimpleLdapd
