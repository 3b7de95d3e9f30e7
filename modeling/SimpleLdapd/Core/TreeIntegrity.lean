import SimpleLdapd.Core.WriteOutcome
import SimpleLdapd.Library.ParentClosed

/-!
# Tree integrity

A store has no orphans when its lower-case names are closed under the parent
function. Every write handler keeps that, except that a rename looks at neither
the children of the entry it moves nor the true parent of the DN it composes:
`LeafMove` is what a rename must satisfy for the tree to stay whole.
-/

namespace SimpleLdapd.Session

open Dn MemoryBackend

/-- Every entry whose `dnParent` is non-empty has that parent stored. -/
def NoOrphans (store : MemoryStore) : Prop :=
  ∀ pair ∈ store.entries, dnParent pair.2.dn ≠ [] → lookup store (dnParent pair.2.dn) ≠ none

instance (store : MemoryStore) : Decidable (NoOrphans store) :=
  inferInstanceAs (Decidable (∀ pair ∈ store.entries,
    dnParent pair.2.dn ≠ [] → lookup store (dnParent pair.2.dn) ≠ none))

section Names

/-- The lower-case spellings of the stored DNs. -/
def names (store : MemoryStore) : Set Bytes :=
  {name | toLowerAscii name = name ∧ lookup store name ≠ none}

def parentName (name : Bytes) : Option Bytes :=
  if dnParent name = [] then none else some (dnParent name)

variable {store : MemoryStore}

theorem mem_names (store : MemoryStore) (dn : Bytes) :
    toLowerAscii dn ∈ names store ↔ lookup store dn ≠ none := by
  have same : lookup store (toLowerAscii dn) = lookup store dn :=
    lookup_congr store (to_lower_idempotent dn)
  simp [names, to_lower_idempotent, same]

theorem parent_name_lower (dn : Bytes) :
    parentName (toLowerAscii dn) =
      if dnParent dn = [] then none else some (toLowerAscii (dnParent dn)) := by
  simp [parentName, dn_parent_to_lower]

theorem no_orphans_iff (invariant : StoreInvariant store) :
    NoOrphans store ↔ ParentClosed parentName (names store) := by
  constructor
  · intro whole name inside above isParent
    obtain ⟨entry, found⟩ := Option.ne_none_iff_exists'.mp inside.2
    obtain ⟨key, stored, _⟩ := lookup_eq_some found
    have sameDn : toLowerAscii entry.dn = name := (invariant.lookup_dn found).trans inside.1
    rw [← sameDn, parent_name_lower] at isParent
    split at isParent
    · cases isParent
    · rename_i below
      cases isParent
      exact (mem_names store _).mpr (whole (key, entry) stored below)
  · intro closed pair stored below
    have inside : toLowerAscii pair.2.dn ∈ names store := by
      rw [mem_names, invariant.lookup_key stored (invariant.sameDn pair stored).symm]
      exact nofun
    rw [← mem_names]
    apply closed _ inside
    rw [parent_name_lower, if_neg below]

theorem names_lower (store : MemoryStore) : ∀ name ∈ names store, toLowerAscii name = name :=
  fun _ inside => inside.1

/-- A set of lower-case names is determined by the DNs it holds in some spelling. -/
theorem names_eq {after : MemoryStore} {wanted : Set Bytes}
    (lower : ∀ name ∈ wanted, toLowerAscii name = name)
    (agree : ∀ dn, lookup after dn ≠ none ↔ toLowerAscii dn ∈ wanted) : names after = wanted := by
  ext name
  constructor
  · intro inside
    have member := (agree name).mp inside.2
    rwa [inside.1] at member
  · intro member
    have same := lower name member
    rw [← same] at member
    exact ⟨same, (agree name).mpr member⟩

theorem lower_insert {present : Set Bytes} (lower : ∀ name ∈ present, toLowerAscii name = name)
    (dn : Bytes) : ∀ name ∈ insert (toLowerAscii dn) present, toLowerAscii name = name := by
  intro name inside
  rcases inside with here | older
  · rw [here, to_lower_idempotent]
  · exact lower name older

theorem names_add {entry : DirectoryEntry}
    (written : (add store entry).1 = true) :
    names (add store entry).2 = insert (toLowerAscii entry.dn) (names store) := by
  apply names_eq (lower_insert (names_lower store) entry.dn)
  intro dn
  rw [lookup_added written, Set.mem_insert_iff, mem_names]
  split_ifs with same
  · simp [same]
  · simp [Ne.symm same]

theorem names_modify (invariant : StoreInvariant store) {entry : DirectoryEntry}
    (written : (modify store entry).1 = true) : names (modify store entry).2 = names store := by
  apply names_eq (names_lower store)
  intro dn
  rw [lookup_modified invariant written, mem_names]
  split_ifs with same
  · rw [modify_succeeds_iff, lookup_congr store same] at written
    simp [written]
  · rfl

theorem names_remove (invariant : StoreInvariant store) {name : Bytes}
    (written : (remove store name).1 = true) :
    names (remove store name).2 = names store \ {toLowerAscii name} := by
  apply names_eq (fun other inside => names_lower store other inside.1)
  intro dn
  rw [lookup_removed invariant written, Set.mem_sdiff, mem_names, Set.mem_singleton_iff]
  split_ifs with same
  · simp [same]
  · simp [Ne.symm same]

theorem names_rename (invariant : StoreInvariant store) {source target : Bytes}
    (different : toLowerAscii source ≠ toLowerAscii target)
    (written : (rename store source target).1 = true) :
    names (rename store source target).2 =
      insert (toLowerAscii target) (names store \ {toLowerAscii source}) := by
  have stored : lookup store source ≠ none := by
    rcases rename_cases invariant source target with
      ⟨_, _, _, _, found, _⟩ | ⟨stored, _⟩ | ⟨_, refused⟩
    · rw [found]
      exact nofun
    · exact stored
    · rw [refused] at written
      cases written
  obtain ⟨entry, found⟩ := Option.ne_none_iff_exists'.mp stored
  apply names_eq (lower_insert (fun other inside => names_lower store other inside.1) target)
  intro dn
  rw [lookup_renamed invariant found different written, Set.mem_insert_iff, Set.mem_sdiff,
    mem_names, Set.mem_singleton_iff]
  split_ifs with onTarget onSource
  · simp [onTarget]
  · simp [onSource, Ne.symm onTarget]
  · simp [Ne.symm onTarget, Ne.symm onSource]

/-- An entry without children is a leaf of the forest of names. -/
theorem leaf_of_childless {dn : Bytes} (named : dn ≠ []) (childless : hasChildren store dn = false) :
    ∀ child ∈ names store, parentName child ≠ some (toLowerAscii dn) := by
  intro child inside isParent
  obtain ⟨entry, found⟩ := Option.ne_none_iff_exists'.mp inside.2
  obtain ⟨key, stored, same⟩ := lookup_eq_some found
  rw [inside.1] at same
  rw [← same, parent_name_lower] at isParent
  split at isParent
  · cases isParent
  · rename_i below
    have comma : chr ',' ∈ key := by
      by_contra absent
      exact below (dn_parent_of_no_comma absent)
    have parental := (has_children_iff store named).mpr
      ⟨(key, entry), stored, comma, Option.some.inj isParent⟩
    rw [childless] at parental
    cases parental

theorem placed_of_parent {dn : Bytes}
    (placed : dnParent dn = [] ∨ lookup store (dnParent dn) ≠ none) :
    ∀ above, parentName (toLowerAscii dn) = some above → above ∈ names store := by
  intro above isParent
  rw [parent_name_lower] at isParent
  split at isParent
  · cases isParent
  · rename_i below
    cases isParent
    exact (mem_names store _).mpr (placed.resolve_left below)

end Names

section Handling

/-- A request as some session handles it. -/
structure Handling where
  context : RequestContext := {}
  session : SessionState := {}
  request : LdapMessage

def afterRequest (server : Server) (store : MemoryStore) (handling : Handling) : MemoryStore :=
  ((handleRequest server handling.context handling.session handling.request).run exec store).2

/-- The store after requests handled one after another. -/
def afterRequests (server : Server) (store : MemoryStore) (handlings : List Handling) :
    MemoryStore :=
  handlings.foldl (afterRequest server) store

/-- The rename only respells the DN, or it moves an entry without children below a
stored parent other than the entry itself. -/
def LeafMove (store : MemoryStore) (change : ModifyDnRequestData) : Prop :=
  dnEquals (newDn change) change.dn = true ∨
    (hasChildren store change.dn = false ∧
      (dnParent (newDn change) = [] ∨
        (lookup store (dnParent (newDn change)) ≠ none ∧
          dnEquals (dnParent (newDn change)) change.dn = false)))

/-- A rename that passes the checks of the handler is a leaf move. -/
def RenamesLeaf (server : Server) (store : MemoryStore) (handling : Handling) : Prop :=
  handling.request.op = .modifyDnRequest →
    RenameAccepted server handling.session store handling.request.modifyDn →
    LeafMove store handling.request.modifyDn

/-- Every step of the run renames leaves only. -/
def RenamesLeaves (server : Server) : MemoryStore → List Handling → Prop
  | _, [] => True
  | store, handling :: rest =>
      RenamesLeaf server store handling ∧
        RenamesLeaves server (afterRequest server store handling) rest

variable {server : Server} {store : MemoryStore}

/-- The usual rename is a leaf move: an entry without children takes an RDN of one part
and does not move below itself. -/
theorem plain_rename_moves_leaf {session : SessionState} {change : ModifyDnRequestData}
    (invariant : StoreInvariant store) (accepted : RenameAccepted server session store change)
    (childless : hasChildren store change.dn = false) (plain : chr ',' ∉ change.newRdn)
    (apart : dnEquals change.newSuperior change.dn = false) : LeafMove store change := by
  have above : dnParent (newDn change) = newParent change :=
    dn_parent_compose plain accepted.named (newParent change)
  have other : dnEquals (newParent change) change.dn = false := by
    unfold newParent
    split
    · obtain ⟨old, _, found, _⟩ := accepted.valid
      rw [← Bool.not_eq_true, dn_equals_iff]
      exact dn_parent_ne_self (invariant.lookup_nonempty found)
    · exact apart
  unfold LeafMove
  rw [above]
  exact Or.inr ⟨childless, accepted.placed.imp_right fun stored => ⟨stored, other⟩⟩

theorem renamed_closed (invariant : StoreInvariant store)
    (closed : ParentClosed parentName (names store)) {change : ModifyDnRequestData}
    {entry : DirectoryEntry} (stored : lookup store change.dn ≠ none)
    (written : (modify store entry).1 = true) (leafMove : LeafMove store change)
    (moved : (rename (modify store entry).2 change.dn (newDn change)).1 = true) :
    ParentClosed parentName
      (names (rename (modify store entry).2 change.dn (newDn change)).2) := by
  have kept := exec_invariant invariant (.modify entry)
  by_cases respelled : toLowerAscii change.dn = toLowerAscii (newDn change)
  · have unmoved : (rename (modify store entry).2 change.dn (newDn change)).2 =
        (modify store entry).2 := rename_respelled kept respelled
    rw [unmoved, names_modify invariant written]
    exact closed
  · rcases leafMove with same | ⟨childless, placed⟩
    · exact absurd ((dn_equals_iff _ _).mp same).symm respelled
    obtain ⟨old, found⟩ := Option.ne_none_iff_exists'.mp stored
    have effect := names_rename kept respelled moved
    change names (rename (modify store entry).2 _ _).2 =
      insert _ (names (modify store entry).2 \ _) at effect
    rw [effect, names_modify invariant written]
    apply closed.move (leaf_of_childless (invariant.lookup_nonempty found) childless)
    intro above isParent
    refine ⟨placed_of_parent (placed.imp_right And.left) above isParent, ?_⟩
    intro itself
    rw [parent_name_lower] at isParent
    rcases placed with top | ⟨_, other⟩
    · rw [if_pos top] at isParent
      cases isParent
    · rw [← Bool.not_eq_true, dn_equals_iff] at other
      split at isParent
      · cases isParent
      · exact other ((Option.some.inj isParent).trans itself)

theorem after_request_reachable (reachable : Reachable store) (handling : Handling) :
    Reachable (afterRequest server store handling) :=
  reachable.after_run _

/-- One handled request keeps the tree whole. -/
theorem request_keeps_tree (reachable : Reachable store) (whole : NoOrphans store)
    {handling : Handling} (leaf : RenamesLeaf server store handling) :
    NoOrphans (afterRequest server store handling) := by
  have invariant := reachable.invariant
  have closed := (no_orphans_iff invariant).mp whole
  rw [no_orphans_iff (after_request_reachable reachable handling).invariant]
  unfold afterRequest
  rcases handle_request_outcome server handling.context handling.session invariant
    handling.request with same | outcome
  · rw [same]
    exact closed
  generalize ((handleRequest server handling.context handling.session handling.request).run exec
    store).2 = after at outcome
  cases outcome with
  | refused refusal => exact absurd rfl refusal.1
  | added entry allowed placed written =>
      rw [names_add written]
      exact closed.insert (placed_of_parent placed)
  | modified entry allowed written =>
      rw [names_modify invariant written]
      exact closed
  | removed name allowed childless written =>
      rw [names_remove invariant written]
      rw [remove_succeeds_iff] at written
      obtain ⟨old, found⟩ := Option.ne_none_iff_exists'.mp written
      exact closed.remove (leaf_of_childless (invariant.lookup_nonempty found) childless)
  | renamed old entry isRename found sameDn accepted written moved =>
      exact renamed_closed invariant closed (by rw [found]; exact nofun) written
        (leaf isRename accepted) moved
  | passwordChanged old entry isPasswordModify target found hashed replaced permitted written =>
      rw [names_modify invariant written]
      exact closed

/-- In a run whose accepted renames all move leaves, no store reached has an orphan. -/
theorem runs_keep_tree (reachable : Reachable store) (whole : NoOrphans store)
    {handlings : List Handling} (leaves : RenamesLeaves server store handlings)
    {earlier : List Handling} (reached : earlier <+: handlings) :
    NoOrphans (afterRequests server store earlier) := by
  induction earlier generalizing store handlings with
  | nil => exact whole
  | cons handling rest ih =>
      obtain ⟨later, split⟩ := reached
      rw [← split] at leaves
      exact ih (after_request_reachable reachable handling)
        (request_keeps_tree reachable whole leaves.1) leaves.2 (List.prefix_append rest later)

end Handling

section Examples

/-- The administrator renames a unit. -/
def renameUnit (newRdn : Bytes) : Handling :=
  { session := administrator
    request := { op := .modifyDnRequest
                 modifyDn := { dn := text "ou=people,dc=example,dc=com", newRdn := newRdn } } }

/-- The administrator renames the person below it. -/
def renamePerson : Handling :=
  { session := administrator
    request := { op := .modifyDnRequest
                 modifyDn := { dn := text "cn=a,ou=people,dc=example,dc=com"
                               newRdn := text "cn=b" } } }

theorem renamed_person_keeps_tree :
    NoOrphans (afterRequests {} smallDirectory [renameUnit (text "OU=People"), renamePerson]) := by
  apply runs_keep_tree small_directory_reachable (by decide +kernel) _ (List.prefix_refl _)
  refine ⟨fun _ _ => Or.inl (by decide +kernel), fun _ _ => Or.inr ?_, trivial⟩
  exact ⟨by decide +kernel, Or.inr ⟨by decide +kernel, by decide +kernel⟩⟩

/-- Renaming the unit leaves the person below a DN that is no longer stored. -/
theorem renamed_unit_orphans_person :
    Reachable smallDirectory ∧ NoOrphans smallDirectory ∧
      ¬ NoOrphans (afterRequests {} smallDirectory [renameUnit (text "ou=staff")]) :=
  ⟨small_directory_reachable, by decide +kernel, by decide +kernel⟩

end Examples

end SimpleLdapd.Session
