import SimpleLdapd.Library.Lockstep
import SimpleLdapd.Backend.Sqlite

/-!
# One program over both backends

While every entry carries its key's own spelling, the two backends answer with the
same bytes and not only up to case. The rules below take a program over backend calls
through the memory backend and the SQLite backend side by side.
-/

namespace SimpleLdapd.SqliteBackend

open Dn

variable {db : Database} {store : MemoryStore}

structure Mirrors (db : Database) (store : MemoryStore) : Prop extends Simulates db store where
  spelled : ∀ pair ∈ store.entries, pair.2.dn = pair.1

section Answers

theorem mirrors_empty : Mirrors {} OrderedMap.empty where
  toSimulates := simulates_empty
  spelled := by simp

theorem Mirrors.entry_eq (mirrors : Mirrors db store) {pair : Bytes × DirectoryEntry}
    (stored : pair ∈ store.entries) : { pair.2 with dn := pair.1 } = pair.2 := by
  rw [← mirrors.spelled pair stored]

theorem Mirrors.storable_entry (mirrors : Mirrors db store) {pair : Bytes × DirectoryEntry}
    (stored : pair ∈ store.entries) : Storable pair.2 := by
  have storable := mirrors.storable pair stored
  rwa [mirrors.entry_eq stored] at storable

theorem Mirrors.lookup_same (mirrors : Mirrors db store) (dn : Bytes) :
    MemoryBackend.lookup store dn = lookup db dn := by
  rw [lookup, mirrors.stored_dn]
  rcases MemoryBackend.find_cases store dn with
    ⟨key, entry, stored, _, located, found⟩ | ⟨absent, none⟩
  · rw [located, found, Option.map_some, Option.map_some, mirrors.load_attributes stored,
      mirrors.entry_eq stored]
  · rw [absent, none]
    rfl

theorem Mirrors.all_entries_same (mirrors : Mirrors db store) :
    allEntries db = store.entries.map Prod.snd := by
  rw [mirrors.all_entries]
  apply List.map_congr_left
  intro pair stored
  exact mirrors.entry_eq stored

theorem Mirrors.search_same (mirrors : Mirrors db store) (baseDn : Bytes) (scope : SearchScope)
    (filter : SearchFilter) :
    MemoryBackend.search store baseDn scope filter = search db baseDn scope filter := by
  rw [search, mirrors.all_entries_same, MemoryBackend.search, List.filter_map]
  congr 1
  apply List.filter_congr
  intro pair stored
  rw [Function.comp_apply, mirrors.spelled pair stored]

/-- An entry the backends answer with, as it lies in both. -/
def Held (store : MemoryStore) (entry : DirectoryEntry) : Prop :=
  (entry.dn, entry) ∈ store.entries ∧ Storable entry

theorem Mirrors.held (mirrors : Mirrors db store) {pair : Bytes × DirectoryEntry}
    (stored : pair ∈ store.entries) : Held store pair.2 := by
  constructor
  · rw [mirrors.spelled pair stored]
    exact stored
  · exact mirrors.storable_entry stored

theorem Mirrors.held_lookup (mirrors : Mirrors db store) {dn : Bytes} {entry : DirectoryEntry}
    (found : MemoryBackend.lookup store dn = some entry) : Held store entry := by
  obtain ⟨key, stored, _⟩ := MemoryBackend.lookup_eq_some found
  exact mirrors.held stored

theorem Mirrors.held_search (mirrors : Mirrors db store) {baseDn : Bytes} {scope : SearchScope}
    {filter : SearchFilter} {entry : DirectoryEntry}
    (member : entry ∈ MemoryBackend.search store baseDn scope filter) : Held store entry := by
  obtain ⟨pair, kept, same⟩ := List.mem_map.mp member
  rw [← same]
  exact mirrors.held (List.mem_filter.mp kept).1

end Answers

section Writes

variable {entry : DirectoryEntry}

theorem Mirrors.add_mirrors (mirrors : Mirrors db store) (storable : Storable entry) :
    Mirrors (add db entry).2 (MemoryBackend.add store entry).2 where
  toSimulates := (mirrors.add_step storable).2
  spelled := by
    rcases MemoryBackend.add_cases store entry with ⟨_, _, added⟩ | ⟨_, refused⟩
    · rw [added]
      intro pair member
      rcases (OrderedMap.mem_insert _ _ _ _).mp member with here | ⟨older, _⟩
      · rw [here]
      · exact mirrors.spelled pair older
    · rw [refused]
      exact mirrors.spelled

/-- A modified entry keeps the spelling under which it was read. -/
theorem Mirrors.modify_mirrors (mirrors : Mirrors db store) (storable : Storable entry)
    {old : DirectoryEntry} (read : Held store old) (kept : entry.dn = old.dn) :
    Mirrors (modify db entry).2 (MemoryBackend.modify store entry).2 where
  toSimulates := (mirrors.modify_step storable).2
  spelled := by
    rcases MemoryBackend.modify_cases store entry with
      ⟨key, other, stored, same, _, written⟩ | ⟨_, refused⟩
    · have here : key = entry.dn := by
        rw [kept] at same ⊢
        exact congrArg Prod.fst (mirrors.invariant.distinct.entry_eq stored read.1 same)
      rw [written]
      intro pair member
      rcases (OrderedMap.mem_insert _ _ _ _).mp member with new | ⟨older, _⟩
      · rw [new]
        exact here.symm
      · exact mirrors.spelled pair older
    · rw [refused]
      exact mirrors.spelled

theorem Mirrors.remove_mirrors (mirrors : Mirrors db store) (dn : Bytes) :
    Mirrors (remove db dn).2 (MemoryBackend.remove store dn).2 where
  toSimulates := (mirrors.remove_step dn).2
  spelled := by
    rcases MemoryBackend.remove_cases store dn with ⟨key, _, _, _, _, removed⟩ | ⟨_, refused⟩
    · rw [removed]
      intro pair member
      exact mirrors.spelled pair ((OrderedMap.mem_erase _ _ _).mp member).1
    · rw [refused]
      exact mirrors.spelled

theorem Mirrors.rename_mirrors (mirrors : Mirrors db store) (source : Bytes) {target : Bytes}
    (noNul : 0 ∉ target) :
    Mirrors (rename db source target).2 (MemoryBackend.rename store source target).2 where
  toSimulates := (mirrors.rename_step source noNul).2
  spelled := by
    rcases MemoryBackend.rename_cases mirrors.invariant source target with
      ⟨key, other, _, _, _, _, _, _, moved⟩ | ⟨_, _, unchanged⟩ | ⟨_, refused⟩
    · rw [moved]
      intro pair member
      rcases (OrderedMap.mem_insert _ _ _ _).mp member with here | ⟨older, _⟩
      · rw [here]
      · exact mirrors.spelled pair ((OrderedMap.mem_erase _ _ _).mp older).1
    · rw [unchanged]
      exact mirrors.spelled
    · rw [refused]
      exact mirrors.spelled

end Writes

section Rules

variable {First Value : Type}

/-- The program runs on both backends with the same answers and within what the simulation
covers, and ends as `post` says. -/
abbrev Alike (program : BackendProgram Value) (store : MemoryStore) (db : Database)
    (post : Value → MemoryStore → Database → Prop) : Prop :=
  program.InStep MemoryBackend.exec exec Admissible store db post

/-- The same for a program that leaves both backends as they are. -/
abbrev ReadsAlike (program : BackendProgram Value) (store : MemoryStore) (db : Database)
    (post : Value → Prop) : Prop :=
  Alike program store db fun value reached otherReached =>
    reached = store ∧ otherReached = db ∧ post value

variable {post : Value → MemoryStore → Database → Prop} {seen : Value → Prop}
variable {middle : First → Prop}

theorem reads_pure {value : Value} (holds : seen value) :
    ReadsAlike (pure value) store db seen := ⟨rfl, rfl, holds⟩

theorem alike_after_reading {program : BackendProgram First}
    {rest : First → BackendProgram Value} (before : ReadsAlike program store db middle)
    (after : ∀ value, middle value → Alike (rest value) store db post) :
    Alike (program >>= rest) store db post := by
  apply Program.in_step_bind before
  rintro value reached otherReached ⟨rfl, rfl, holds⟩
  exact after value holds

theorem ReadsAlike.mono {program : BackendProgram Value} {weaker : Value → Prop}
    (reads : ReadsAlike program store db seen) (implies : ∀ value, seen value → weaker value) :
    ReadsAlike program store db weaker :=
  Program.InStep.mono reads fun value _ _ ended => ⟨ended.1, ended.2.1, implies value ended.2.2⟩

theorem reads_lookup (mirrors : Mirrors db store) {dn : Bytes} (clean : 0 ∉ dn) :
    ReadsAlike (Backend.lookup dn) store db fun found =>
      ∀ entry, found = some entry → Held store entry :=
  ⟨clean, mirrors.lookup_same dn, rfl, rfl, fun _ found => mirrors.held_lookup found⟩

theorem reads_search (mirrors : Mirrors db store) {baseDn : Bytes} (clean : 0 ∉ baseDn)
    (scope : SearchScope) (filter : SearchFilter) :
    ReadsAlike (Backend.search baseDn scope filter) store db fun found =>
      ∀ entry ∈ found, Held store entry :=
  ⟨clean, mirrors.search_same baseDn scope filter, rfl, rfl,
    fun _ member => mirrors.held_search member⟩

theorem reads_has_children (mirrors : Mirrors db store) {dn : Bytes} (clean : 0 ∉ dn) :
    ReadsAlike (Backend.hasChildren dn) store db fun _ => True :=
  ⟨clean, mirrors.has_children_agrees dn, rfl, rfl, trivial⟩

theorem alike_add {entry : DirectoryEntry} {rest : Bool → BackendProgram Value}
    (mirrors : Mirrors db store) (storable : Storable entry)
    (next : ∀ added reached otherReached, Mirrors otherReached reached →
      Alike (rest added) reached otherReached post) :
    Alike (Backend.add entry >>= rest) store db post :=
  Program.in_step_perform storable (mirrors.add_step storable).1
    (next _ _ _ (mirrors.add_mirrors storable))

theorem alike_modify {entry old : DirectoryEntry} {rest : Bool → BackendProgram Value}
    (mirrors : Mirrors db store) (storable : Storable entry) (read : Held store old)
    (kept : entry.dn = old.dn)
    (next : ∀ modified reached otherReached, Mirrors otherReached reached →
      Alike (rest modified) reached otherReached post) :
    Alike (Backend.modify entry >>= rest) store db post :=
  Program.in_step_perform storable (mirrors.modify_step storable).1
    (next _ _ _ (mirrors.modify_mirrors storable read kept))

theorem alike_remove {dn : Bytes} {rest : Bool → BackendProgram Value}
    (mirrors : Mirrors db store) (clean : 0 ∉ dn)
    (next : ∀ removed reached otherReached, Mirrors otherReached reached →
      Alike (rest removed) reached otherReached post) :
    Alike (Backend.remove dn >>= rest) store db post :=
  Program.in_step_perform clean (mirrors.remove_step dn).1
    (next _ _ _ (mirrors.remove_mirrors dn))

theorem alike_rename {source target : Bytes} {rest : Bool → BackendProgram Value}
    (mirrors : Mirrors db store) (clean : 0 ∉ source) (noNul : 0 ∉ target)
    (next : ∀ moved reached otherReached, Mirrors otherReached reached →
      Alike (rest moved) reached otherReached post) :
    Alike (Backend.rename source target >>= rest) store db post :=
  Program.in_step_perform ⟨clean, noNul⟩ (mirrors.rename_step source noNul).1
    (next _ _ _ (mirrors.rename_mirrors source noNul))

theorem alike_persist {rest : Unit → BackendProgram Value}
    (next : Alike (rest ()) store db post) : Alike (Backend.persist >>= rest) store db post :=
  Program.in_step_perform trivial rfl next

end Rules

end SimpleLdapd.SqliteBackend
