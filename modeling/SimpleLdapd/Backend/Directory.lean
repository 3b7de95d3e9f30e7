import SimpleLdapd.Backend.Memory
import SimpleLdapd.Library.Footprints

/-!
# The directory behind the backend

What a backend is for: under each name, ignoring ASCII case, at most one entry together
with the DN it was given. `effect` says what a call does to such a directory and `Answers`
which answer it gives; the memory backend refines both. A call depends on the names it
mentions only, which makes the directory a memory of cells.
-/

namespace SimpleLdapd

open Dn

abbrev Directory := Bytes → Option (Bytes × DirectoryEntry)

namespace Directory

def put (directory : Directory) (key : Bytes) (entry : DirectoryEntry) : Directory := fun name =>
  if toLowerAscii key = toLowerAscii name then some (key, entry) else directory name

def drop (directory : Directory) (dn : Bytes) : Directory := fun name =>
  if toLowerAscii dn = toLowerAscii name then none else directory name

def add (directory : Directory) (entry : DirectoryEntry) : Bool × Directory :=
  if entry.dn = [] ∨ (directory entry.dn).isSome then (false, directory)
  else (true, directory.put entry.dn entry)

def modify (directory : Directory) (entry : DirectoryEntry) : Bool × Directory :=
  match directory entry.dn with
  | none => (false, directory)
  | some (key, _) => (true, directory.put key entry)

def remove (directory : Directory) (dn : Bytes) : Bool × Directory :=
  if (directory dn).isSome then (true, directory.drop dn) else (false, directory)

def rename (directory : Directory) (source target : Bytes) : Bool × Directory :=
  if source = [] ∨ target = [] then (false, directory)
  else
    match directory source with
    | none => (false, directory)
    | some (_, entry) =>
        if toLowerAscii source = toLowerAscii target then (true, directory)
        else if (directory target).isSome then (false, directory)
        else (true, (directory.drop source).put target { entry with dn := target })

/-- Whether the call is carried out, and the directory it leaves. -/
def effect (directory : Directory) : BackendCall → Bool × Directory
  | .add entry => directory.add entry
  | .modify entry => directory.modify entry
  | .remove dn => directory.remove dn
  | .rename source target => directory.rename source target
  | .lookup _ | .search _ _ _ | .hasChildren _ | .persist => (true, directory)

/-- The entries a search selects, under the DNs they are kept with, in the order of these. -/
structure Selected (directory : Directory) (baseDn : Bytes) (scope : SearchScope)
    (filter : SearchFilter) (keyed : List (Bytes × DirectoryEntry)) : Prop where
  ordered : keyed.Pairwise fun left right => left.1 < right.1
  members : ∀ pair, pair ∈ keyed ↔
    directory pair.1 = some pair ∧ Backend.inScope scope pair.1 baseDn = true ∧
      filter.matchesEntry pair.2 = true

def Answers (directory : Directory) : (call : BackendCall) → call.Answer → Prop
  | .lookup dn, answer => answer = (directory dn).map Prod.snd
  | .search baseDn scope filter, answer =>
      ∃ keyed, Selected directory baseDn scope filter keyed ∧ answer = keyed.map Prod.snd
  | .add entry, answer => answer = (directory.add entry).1
  | .modify entry, answer => answer = (directory.modify entry).1
  | .remove dn, answer => answer = (directory.remove dn).1
  | .rename source target, answer => answer = (directory.rename source target).1
  | .hasChildren dn, answer =>
      answer = true ↔ ∃ pair, directory pair.1 = some pair ∧ dnIsOneLevelChild pair.1 dn = true
  | .persist, _ => True

section Answers

variable {directory : Directory}

theorem Selected.unique {baseDn : Bytes} {scope : SearchScope} {filter : SearchFilter}
    {left right : List (Bytes × DirectoryEntry)}
    (selected : Selected directory baseDn scope filter left)
    (other : Selected directory baseDn scope filter right) : left = right := by
  have same : OrderedMap.mk left selected.ordered = OrderedMap.mk right other.ordered := by
    apply OrderedMap.ext_mem
    intro pair
    exact (selected.members pair).trans (other.members pair).symm
  exact congrArg OrderedMap.entries same

/-- A directory leaves a call no choice of its answer. -/
theorem answers_unique {call : BackendCall} {answer other : call.Answer}
    (answered : directory.Answers call answer) (again : directory.Answers call other) :
    answer = other := by
  cases call with
  | search baseDn scope filter =>
      obtain ⟨keyed, selected, here⟩ := answered
      obtain ⟨rows, otherSelected, there⟩ := again
      rw [here, there, selected.unique otherSelected]
  | hasChildren dn => exact Bool.eq_iff_iff.mpr (Iff.trans answered again.symm)
  | persist => rfl
  | lookup dn => exact Eq.trans answered again.symm
  | add entry => exact Eq.trans answered again.symm
  | modify entry => exact Eq.trans answered again.symm
  | remove dn => exact Eq.trans answered again.symm
  | rename source target => exact Eq.trans answered again.symm

end Answers

section Footprints

/-- All spellings of a name. -/
def spellings (dn : Bytes) : Set Bytes := {name | toLowerAscii dn = toLowerAscii name}

def footprint : BackendCall → Set Bytes
  | .lookup dn | .remove dn => spellings dn
  | .search baseDn scope _ => {name | Backend.inScope scope name baseDn = true}
  | .add entry | .modify entry => spellings entry.dn
  | .rename source target => spellings source ∪ spellings target
  | .hasChildren dn => {name | dnIsOneLevelChild name dn = true}
  | .persist => ∅

def written : BackendCall → Set Bytes
  | .add entry | .modify entry => spellings entry.dn
  | .remove dn => spellings dn
  | .rename source target => spellings source ∪ spellings target
  | .lookup _ | .search _ _ _ | .hasChildren _ | .persist => ∅

theorem written_within (call : BackendCall) : written call ⊆ footprint call := by
  cases call <;> simp [written, footprint]

/-- Every entry is kept under a spelling of its name. -/
def Spelled (directory : Directory) : Prop :=
  ∀ name pair, directory name = some pair → toLowerAscii pair.1 = toLowerAscii name

variable {directory other : Directory}

theorem effect_frame (spelled : directory.Spelled) {call : BackendCall} {name : Bytes}
    (outside : name ∉ written call) : (directory.effect call).2 name = directory name := by
  cases call with
  | add entry =>
      change (directory.add entry).2 name = directory name
      unfold add
      split
      · rfl
      · exact if_neg outside
  | modify entry =>
      change (directory.modify entry).2 name = directory name
      unfold modify
      split
      · rfl
      · rename_i key old found
        have same := spelled _ _ found
        apply if_neg
        intro equal
        exact outside (same.symm.trans equal)
  | remove dn =>
      change (directory.remove dn).2 name = directory name
      unfold remove
      split
      · exact if_neg outside
      · rfl
  | rename source target =>
      have notSource : toLowerAscii source ≠ toLowerAscii name := fun same => outside (Or.inl same)
      have notTarget : toLowerAscii target ≠ toLowerAscii name := fun same => outside (Or.inr same)
      change (directory.rename source target).2 name = directory name
      unfold rename
      split
      · rfl
      split
      · rfl
      split
      · rfl
      split
      · rfl
      · simp only [put, drop, if_neg notSource, if_neg notTarget]
  | lookup dn => rfl
  | search baseDn scope filter => rfl
  | hasChildren dn => rfl
  | persist => rfl

/-- Two directories that agree on the footprint of a call carry it out alike. -/
theorem effect_local {call : BackendCall}
    (agree : ∀ name ∈ footprint call, directory name = other name) :
    (directory.effect call).1 = (other.effect call).1 ∧
      ∀ name ∈ written call, (directory.effect call).2 name = (other.effect call).2 name := by
  cases call with
  | add entry =>
      have here := agree entry.dn rfl
      change (directory.add entry).1 = (other.add entry).1 ∧
        ∀ name ∈ spellings entry.dn, (directory.add entry).2 name = (other.add entry).2 name
      unfold add
      rw [here]
      split
      · exact ⟨rfl, agree⟩
      · refine ⟨rfl, ?_⟩
        intro name inside
        exact (if_pos inside).trans (if_pos inside).symm
  | modify entry =>
      have here := agree entry.dn rfl
      change (directory.modify entry).1 = (other.modify entry).1 ∧
        ∀ name ∈ spellings entry.dn, (directory.modify entry).2 name = (other.modify entry).2 name
      unfold modify
      rw [here]
      split
      · exact ⟨rfl, agree⟩
      · refine ⟨rfl, ?_⟩
        intro name inside
        simp only [put]
        rw [agree name inside]
  | remove dn =>
      have here := agree dn rfl
      change (directory.remove dn).1 = (other.remove dn).1 ∧
        ∀ name ∈ spellings dn, (directory.remove dn).2 name = (other.remove dn).2 name
      unfold remove
      rw [here]
      split
      · refine ⟨rfl, ?_⟩
        intro name inside
        simp only [drop]
        rw [agree name inside]
      · exact ⟨rfl, agree⟩
  | rename source target =>
      have atSource := agree source (Or.inl rfl)
      have atTarget := agree target (Or.inr rfl)
      change (directory.rename source target).1 = (other.rename source target).1 ∧
        ∀ name ∈ spellings source ∪ spellings target,
          (directory.rename source target).2 name = (other.rename source target).2 name
      unfold rename
      rw [atSource, atTarget]
      split
      · exact ⟨rfl, agree⟩
      split
      · exact ⟨rfl, agree⟩
      split
      · exact ⟨rfl, agree⟩
      split
      · exact ⟨rfl, agree⟩
      · refine ⟨rfl, ?_⟩
        intro name inside
        simp only [put, drop]
        rw [agree name inside]
  | lookup dn => exact ⟨rfl, fun name none => none.elim⟩
  | search baseDn scope filter => exact ⟨rfl, fun name none => none.elim⟩
  | hasChildren dn => exact ⟨rfl, fun name none => none.elim⟩
  | persist => exact ⟨rfl, fun name none => none.elim⟩

/-- And they answer it alike. -/
theorem answers_local {call : BackendCall}
    (agree : ∀ name ∈ footprint call, directory name = other name) {answer : call.Answer}
    (answered : directory.Answers call answer) : other.Answers call answer := by
  cases call with
  | lookup dn =>
      change answer = (other dn).map Prod.snd
      rw [← agree dn rfl]
      exact answered
  | search baseDn scope filter =>
      obtain ⟨keyed, selected, same⟩ := answered
      refine ⟨keyed, ⟨selected.ordered, ?_⟩, same⟩
      intro pair
      rw [selected.members]
      constructor
      · intro chosen
        rw [agree pair.1 chosen.2.1] at chosen
        exact chosen
      · intro chosen
        rw [← agree pair.1 chosen.2.1] at chosen
        exact chosen
  | hasChildren dn =>
      apply Iff.trans answered
      constructor
      · intro ⟨pair, stored, child⟩
        rw [agree pair.1 child] at stored
        exact ⟨pair, stored, child⟩
      · intro ⟨pair, stored, child⟩
        rw [← agree pair.1 child] at stored
        exact ⟨pair, stored, child⟩
  | persist => trivial
  | add entry => exact Eq.trans answered (effect_local agree).1
  | modify entry => exact Eq.trans answered (effect_local agree).1
  | remove dn => exact Eq.trans answered (effect_local agree).1
  | rename source target => exact Eq.trans answered (effect_local agree).1

end Footprints

end Directory

namespace MemoryBackend

variable {store : MemoryStore}

/-- The directory that a store holds. -/
def directoryOf (store : MemoryStore) : Directory := fun name => store.findBy toLowerAscii name

theorem directory_stored (invariant : StoreInvariant store) (pair : Bytes × DirectoryEntry) :
    directoryOf store pair.1 = some pair ↔ pair ∈ store.entries := by
  rw [directoryOf, invariant.distinct.findBy_eq_some_iff]
  exact and_iff_left rfl

theorem directory_spelled (store : MemoryStore) : (directoryOf store).Spelled := by
  intro name pair found
  exact (OrderedMap.findBy_some toLowerAscii found).2

theorem directory_ext {left right : MemoryStore} (invariant : StoreInvariant left)
    (other : StoreInvariant right)
    (same : ∀ name, directoryOf left name = directoryOf right name) : left = right := by
  apply OrderedMap.ext_mem
  intro pair
  rw [← directory_stored invariant, ← directory_stored other, same]

theorem directory_put {key : Bytes} (owns : store.Owns toLowerAscii key) (entry : DirectoryEntry) :
    directoryOf (store.insert key entry) = (directoryOf store).put key entry := by
  funext name
  exact OrderedMap.findBy_insert_leading toLowerAscii owns.leads entry name

theorem directory_drop (invariant : StoreInvariant store) {pair : Bytes × DirectoryEntry}
    (stored : pair ∈ store.entries) :
    directoryOf (store.erase pair.1) = (directoryOf store).drop pair.1 := by
  funext name
  exact invariant.distinct.findBy_erase stored name

theorem drop_congr (directory : Directory) {dn other : Bytes}
    (same : toLowerAscii dn = toLowerAscii other) : directory.drop dn = directory.drop other := by
  funext name
  rw [Directory.drop, Directory.drop, same]

theorem directory_none (store : MemoryStore) (dn : Bytes) :
    directoryOf store dn = none ↔ lookup store dn = none :=
  (lookup_eq_none_iff store dn).symm

theorem add_directory (store : MemoryStore) (entry : DirectoryEntry) :
    (add store entry).1 = ((directoryOf store).add entry).1 ∧
      directoryOf (add store entry).2 = ((directoryOf store).add entry).2 := by
  unfold Directory.add
  rcases add_cases store entry with ⟨named, free, added⟩ | ⟨refusal, refused⟩
  · have absent := (directory_none store entry.dn).mpr free
    rw [added, absent, if_neg (by simp [named])]
    exact ⟨rfl, directory_put (OrderedMap.owns_fresh absent) entry⟩
  · rw [refused, if_pos]
    · exact ⟨rfl, rfl⟩
    · rw [Option.isSome_iff_ne_none, ne_eq, directory_none]
      exact refusal

theorem modify_directory (invariant : StoreInvariant store) (entry : DirectoryEntry) :
    (modify store entry).1 = ((directoryOf store).modify entry).1 ∧
      directoryOf (modify store entry).2 = ((directoryOf store).modify entry).2 := by
  unfold modify Directory.modify
  cases found : store.findBy toLowerAscii entry.dn with
  | none =>
      have here : directoryOf store entry.dn = none := found
      rw [here]
      exact ⟨rfl, rfl⟩
  | some pair =>
      have stored := (OrderedMap.findBy_some toLowerAscii found).1
      have here : directoryOf store entry.dn = some pair := found
      rw [here]
      exact ⟨rfl, directory_put (invariant.distinct.owns_stored stored) entry⟩

theorem remove_directory (invariant : StoreInvariant store) (dn : Bytes) :
    (remove store dn).1 = ((directoryOf store).remove dn).1 ∧
      directoryOf (remove store dn).2 = ((directoryOf store).remove dn).2 := by
  unfold remove Directory.remove
  cases found : store.findBy toLowerAscii dn with
  | none =>
      have here : directoryOf store dn = none := found
      rw [here]
      exact ⟨rfl, rfl⟩
  | some pair =>
      obtain ⟨stored, same⟩ := OrderedMap.findBy_some toLowerAscii found
      have here : directoryOf store dn = some pair := found
      rw [here]
      exact ⟨rfl, (directory_drop invariant stored).trans (drop_congr _ same)⟩

theorem rename_directory (invariant : StoreInvariant store) (source target : Bytes) :
    (rename store source target).1 = ((directoryOf store).rename source target).1 ∧
      directoryOf (rename store source target).2 =
        ((directoryOf store).rename source target).2 := by
  unfold Directory.rename
  rcases rename_cases invariant source target with
    ⟨key, entry, stored, same, found, named, different, free, moved⟩ |
      ⟨found, respelled, unchanged⟩ | ⟨refusal, refused⟩
  · have located : directoryOf store source = some (key, entry) :=
      (invariant.distinct.findBy_eq_some_iff source (key, entry)).mpr ⟨stored, same⟩
    have sourceNamed := invariant.lookup_nonempty found
    have absent := (directory_none store target).mpr free
    rw [moved, if_neg (by simp [sourceNamed, named]), located, absent]
    simp only [if_neg different]
    refine ⟨rfl, ?_⟩
    rw [directory_put (owns_target invariant key free), directory_drop invariant stored,
      drop_congr _ same]
    rfl
  · obtain ⟨entry, isFound⟩ := Option.ne_none_iff_exists'.mp found
    have sourceNamed := invariant.lookup_nonempty isFound
    have targetNamed : target ≠ [] := by
      intro empty
      rw [empty] at respelled
      exact sourceNamed ((to_lower_eq_nil source).mp respelled)
    have here : directoryOf store source ≠ none := fun absent =>
      found ((directory_none store source).mp absent)
    obtain ⟨pair, located⟩ := Option.ne_none_iff_exists'.mp here
    rw [unchanged, if_neg (by simp [sourceNamed, targetNamed]), located]
    simp only [if_pos respelled]
    exact ⟨trivial, trivial⟩
  · rw [refused]
    by_cases unnamed : source = [] ∨ target = []
    · rw [if_pos unnamed]
      exact ⟨rfl, rfl⟩
    · rw [if_neg unnamed]
      split
      · exact ⟨rfl, rfl⟩
      · rename_i pair entry located
        have taken : toLowerAscii source ≠ toLowerAscii target ∧
            lookup store target ≠ none := by
          rcases refusal with noSource | noTarget | missing | taken
          · exact absurd (Or.inl noSource) unnamed
          · exact absurd (Or.inr noTarget) unnamed
          · rw [(directory_none store source).mpr missing] at located
            cases located
          · exact taken
        have present : (directoryOf store target).isSome = true := by
          rw [Option.isSome_iff_ne_none, ne_eq, directory_none]
          exact taken.2
        rw [if_neg taken.1, if_pos present]
        exact ⟨rfl, rfl⟩

theorem search_directory (invariant : StoreInvariant store) (baseDn : Bytes) (scope : SearchScope)
    (filter : SearchFilter) :
    Directory.Selected (directoryOf store) baseDn scope filter
      (store.entries.filter fun pair =>
        Backend.inScope scope pair.1 baseDn && filter.matchesEntry pair.2) where
  ordered := store.sorted.filter _
  members := by
    intro pair
    rw [directory_stored invariant, List.mem_filter, Bool.and_eq_true]

theorem has_children_directory (invariant : StoreInvariant store) (dn : Bytes) :
    hasChildren store dn = true ↔
      ∃ pair, directoryOf store pair.1 = some pair ∧ dnIsOneLevelChild pair.1 dn = true := by
  simp only [hasChildren, List.any_eq_true, directory_stored invariant]

/-- One call refines what the directory says of it. -/
theorem exec_refines (invariant : StoreInvariant store) (call : BackendCall) :
    (directoryOf store).Answers call (exec call store).1 ∧
      directoryOf (exec call store).2 = ((directoryOf store).effect call).2 := by
  cases call with
  | add entry => exact add_directory store entry
  | modify entry => exact modify_directory invariant entry
  | remove dn => exact remove_directory invariant dn
  | rename source target => exact rename_directory invariant source target
  | lookup dn => exact ⟨rfl, rfl⟩
  | search baseDn scope filter => exact ⟨⟨_, search_directory invariant _ _ _, rfl⟩, rfl⟩
  | hasChildren dn => exact ⟨has_children_directory invariant dn, rfl⟩
  | persist => exact ⟨trivial, rfl⟩

/-- The directory after a sequence of calls. -/
def directoryAfter (directory : Directory) (calls : List BackendCall) : Directory :=
  calls.foldl (fun reached call => (reached.effect call).2) directory

theorem after_calls_directory (invariant : StoreInvariant store) (calls : List BackendCall) :
    directoryOf (afterCalls store calls) = directoryAfter (directoryOf store) calls := by
  induction calls generalizing store with
  | nil => rfl
  | cons call rest ih =>
      have later := ih (exec_invariant invariant call)
      rw [(exec_refines invariant call).2] at later
      exact later

/-- Whatever was called before, the store holds the directory those calls build, and a call
gets the answer that this directory gives, the only one it gives. -/
theorem calls_refine_directory (earlier : List BackendCall) :
    directoryOf (afterCalls OrderedMap.empty earlier) =
        directoryAfter (fun _ => none) earlier ∧
      ∀ (call : BackendCall) (answer : call.Answer),
        (directoryAfter (fun _ => none) earlier).Answers call answer ↔
          answer = (exec call (afterCalls OrderedMap.empty earlier)).1 := by
  have reachable := Reachable.empty.after_calls earlier
  have built : directoryOf (afterCalls OrderedMap.empty earlier) =
      directoryAfter (fun _ => none) earlier :=
    after_calls_directory Reachable.empty.invariant earlier
  refine ⟨built, ?_⟩
  intro call answer
  have given := (exec_refines reachable.invariant call).1
  rw [built] at given
  constructor
  · intro answered
    exact Directory.answers_unique answered given
  · intro same
    rw [same]
    exact given

/-- The store as a memory whose cells are names. -/
def cells : Program.CellMemory exec Bytes (Option (Bytes × DirectoryEntry)) where
  Valid := StoreInvariant
  cell := directoryOf
  footprint := Directory.footprint
  written := Directory.written
  within := Directory.written_within
  kept := fun call _ invariant => exec_invariant invariant call
  ext := fun _ _ invariant other same => directory_ext invariant other same
  frame := by
    intro call store name invariant outside
    rw [(exec_refines invariant call).2]
    exact Directory.effect_frame (directory_spelled store) outside
  locality := by
    intro call left right invariant other agree
    have here := exec_refines invariant call
    have there := exec_refines other call
    constructor
    · exact Directory.answers_unique (Directory.answers_local agree here.1) there.1
    · rw [here.2, there.2]
      exact (Directory.effect_local agree).2

end MemoryBackend

end SimpleLdapd
