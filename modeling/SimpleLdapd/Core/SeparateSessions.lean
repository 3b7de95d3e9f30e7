import SimpleLdapd.Backend.Directory
import SimpleLdapd.Core.Authentication
import SimpleLdapd.Core.SchemaInvariant

/-!
# Sessions on separate parts of the directory

Each request looks at some names and writes to some of them. Sessions none of which
writes where another one looks are served, under any interleaving of their backend calls,
as if one after the other.
-/

namespace SimpleLdapd

open Dn MemoryBackend Directory

variable {region : Program.Region Bytes}

/-- The program keeps to the names of a region. -/
abbrev StaysIn {Value : Type} (region : Program.Region Bytes) (program : BackendProgram Value) :
    Prop := cells.Confined region program

section Calls

variable {Value : Type}

theorem stays_pure (value : Value) : StaysIn region (pure value) :=
  Program.respects_pure value

theorem stays_lookup {dn : Bytes} {rest : Option DirectoryEntry → BackendProgram Value}
    (inside : spellings dn ⊆ region.looked)
    (next : ∀ found, (∀ entry, found = some entry → toLowerAscii entry.dn = toLowerAscii dn) →
      StaysIn region (rest found)) : StaysIn region (Backend.lookup dn >>= rest) := by
  apply Program.respects_perform ⟨inside, Set.empty_subset _⟩
  intro store invariant
  exact next _ fun _ found => StoreInvariant.lookup_dn invariant found

theorem stays_search {baseDn : Bytes} {scope : SearchScope} {filter : SearchFilter}
    {rest : List DirectoryEntry → BackendProgram Value}
    (inside : {name | Backend.inScope scope name baseDn = true} ⊆ region.looked)
    (next : ∀ entries, StaysIn region (rest entries)) :
    StaysIn region (Backend.search baseDn scope filter >>= rest) :=
  Program.respects_perform ⟨inside, Set.empty_subset _⟩ fun _ _ => next _

theorem stays_has_children {dn : Bytes} {rest : Bool → BackendProgram Value}
    (inside : {name | dnIsOneLevelChild name dn = true} ⊆ region.looked)
    (next : ∀ parental, StaysIn region (rest parental)) :
    StaysIn region (Backend.hasChildren dn >>= rest) :=
  Program.respects_perform ⟨inside, Set.empty_subset _⟩ fun _ _ => next _

theorem stays_persist {rest : Unit → BackendProgram Value} (next : StaysIn region (rest ())) :
    StaysIn region (Backend.persist >>= rest) :=
  Program.respects_perform ⟨Set.empty_subset _, Set.empty_subset _⟩ fun _ _ => next

/-- A call that writes to the spellings of one name. -/
theorem stays_write {call : BackendCall} {dn : Bytes} {rest : call.Answer → BackendProgram Value}
    (looks : footprint call = spellings dn) (writes : Directory.written call = spellings dn)
    (inside : spellings dn ⊆ region.looked) (changed : spellings dn ⊆ region.changed)
    (next : ∀ answer, StaysIn region (rest answer)) :
    StaysIn region (Program.perform call >>= rest) :=
  Program.respects_perform ⟨looks.trans_subset inside, writes.trans_subset changed⟩
    fun _ _ => next _

theorem stays_rename {source target : Bytes} {rest : Bool → BackendProgram Value}
    (inside : spellings source ∪ spellings target ⊆ region.looked)
    (changed : spellings source ∪ spellings target ⊆ region.changed)
    (next : ∀ moved, StaysIn region (rest moved)) :
    StaysIn region (Backend.rename source target >>= rest) :=
  Program.respects_perform ⟨inside, changed⟩ fun _ _ => next _

/-- A program that only reads stays where everything may be looked at. -/
theorem stays_reading {program : BackendProgram Value} (everywhere : region.looked = Set.univ)
    (issued : program.Issues BackendCall.Reads) : StaysIn region program := by
  apply Program.respects_of_issues _ issued
  intro call reads
  refine ⟨everywhere ▸ Set.subset_univ _, ?_⟩
  cases call with
  | lookup dn => exact Set.empty_subset _
  | search baseDn scope filter => exact Set.empty_subset _
  | hasChildren dn => exact Set.empty_subset _
  | add entry => exact reads.elim
  | modify entry => exact reads.elim
  | remove dn => exact reads.elim
  | rename source target => exact reads.elim
  | persist => exact reads.elim

end Calls

namespace AccessControl

/-- The names that access decisions for a user look at: with a rule for a group, the group
and the user's own entry. For nobody and for the root DN there is nothing to look at. -/
def accessNames (config : LdapConfig) (bindDn : Bytes) : Set Bytes :=
  {name | bindDn ≠ [] ∧ isRoot config bindDn = false ∧ ∃ rule ∈ config.acls, rule.who = .group ∧
    (name ∈ spellings bindDn ∨ name ∈ spellings rule.whoValue)}

variable {config : LdapConfig} {bindDn : Bytes}

theorem any_rule_stays (inside : accessNames config bindDn ⊆ region.looked)
    (notRoot : isRoot config bindDn = false) (write : Bool) (entryDn : Bytes)
    {rules : List AclRule} (known : rules ⊆ config.acls) :
    StaysIn region (anyRule write bindDn entryDn rules) := by
  induction rules with
  | nil => exact stays_pure _
  | cons rule rest ih =>
      have asked : StaysIn region (whoMatches rule bindDn) := by
        unfold whoMatches
        split
        · exact stays_pure _
        · exact stays_pure _
        · exact stays_pure _
        · exact stays_pure _
        · rename_i isGroup
          have listed := known (List.mem_cons_self)
          unfold inGroup
          split
          · exact stays_pure _
          · rename_i named
            have group : spellings rule.whoValue ⊆ region.looked := fun name member =>
              inside ⟨named, notRoot, rule, listed, isGroup, Or.inr member⟩
            have user : spellings bindDn ⊆ region.looked := fun name member =>
              inside ⟨named, notRoot, rule, listed, isGroup, Or.inl member⟩
            apply stays_lookup group
            intro found _
            split
            · exact stays_pure _
            · split
              · exact stays_pure _
              · apply stays_lookup user
                intro own _
                split
                · exact stays_pure _
                · exact stays_pure _
      unfold anyRule
      apply Program.respects_then asked
      intro matched
      split
      · exact stays_pure _
      · exact ih fun other member => known (List.mem_cons_of_mem rule member)

theorem may_search_stays (inside : accessNames config bindDn ⊆ region.looked) (entryDn : Bytes) :
    StaysIn region (maySearch config bindDn entryDn) := by
  unfold maySearch
  split
  · exact stays_pure _
  · rename_i limited
    rw [Bool.not_eq_true, Bool.or_eq_false_iff] at limited
    split
    · exact stays_pure _
    · exact any_rule_stays inside limited.2 false entryDn (List.Subset.refl _)

theorem may_write_stays (inside : accessNames config bindDn ⊆ region.looked) (entryDn : Bytes) :
    StaysIn region (mayWrite config bindDn entryDn) := by
  unfold mayWrite
  split
  · exact stays_pure _
  · rename_i limited
    rw [Bool.not_eq_true] at limited
    split
    · exact stays_pure _
    · exact any_rule_stays inside limited true entryDn (List.Subset.refl _)

end AccessControl

namespace SimpleBindAuthenticator

variable {config : LdapConfig} {openssl : Option OpenSsl} {name : Bytes}

/-- The names that an account search looks through. -/
def accountNames (config : LdapConfig) : Set Bytes :=
  {name | Backend.inScope .subtree name config.baseDn = true}

/-- The names that a name can resolve to, which are also all that is looked at: its own
spellings, and those of the account search behind a lookup that finds nothing. An empty name
and the root DN are resolved without a look. -/
def resolvedNames (config : LdapConfig) (name : Bytes) : Set Bytes :=
  {other | name ≠ [] ∧ ((findByte (chr '=') name).isSome && isRootDn config name) = false ∧
    (other ∈ spellings name ∨ other ∈ accountNames config)}

/-- A DN that a name resolves to. -/
def ResolvesTo (config : LdapConfig) (name dn : Bytes) : Prop :=
  isRootDn config dn = true ∨ dn ∈ resolvedNames config name

theorem account_spellings {dn : Bytes} (account : dn ∈ accountNames config) :
    spellings dn ⊆ accountNames config := by
  intro other same
  exact (dn_ends_with_congr same rfl).symm.trans account

theorem resolved_spellings {dn : Bytes} (resolved : dn ∈ resolvedNames config name) :
    spellings dn ⊆ resolvedNames config name := by
  obtain ⟨named, notRoot, own | account⟩ := resolved
  · exact fun other same => ⟨named, notRoot, Or.inl (Eq.trans own same)⟩
  · exact fun other same => ⟨named, notRoot, Or.inr (account_spellings account same)⟩

/-- Resolving once more looks no further. -/
theorem resolved_again {dn : Bytes} (resolved : dn ∈ resolvedNames config name) :
    resolvedNames config dn ⊆ resolvedNames config name := by
  intro other again
  obtain ⟨_, _, own | account⟩ := again
  · exact resolved_spellings resolved own
  · exact ⟨resolved.1, resolved.2.1, Or.inr account⟩

theorem account_of_search {store : MemoryStore} (invariant : StoreInvariant store)
    {filter : SearchFilter} {entry : DirectoryEntry}
    (found : entry ∈ search store config.baseDn .subtree filter) :
    entry.dn ∈ accountNames config := by
  rcases List.mem_map.mp found with ⟨pair, inside, same⟩
  rcases List.mem_filter.mp inside with ⟨stored, selected⟩
  rw [Bool.and_eq_true] at selected
  have spelled : toLowerAscii pair.1 = toLowerAscii entry.dn := by
    rw [← same]
    exact (invariant.sameDn pair stored).symm
  exact account_spellings selected.1 spelled

theorem find_account_stays (inside : accountNames config ⊆ region.looked) (name : Bytes) :
    StaysIn region (findAccount config name) := by
  unfold findAccount
  split
  · exact stays_pure _
  · apply stays_search inside
    intro entries
    split
    · exact stays_pure _
    · exact stays_pure _

theorem find_account_reaches (name : Bytes) :
    (findAccount config name).Reaches exec StoreInvariant fun found =>
      ∀ dn, found = some dn → dn ∈ accountNames config := by
  unfold findAccount
  split
  · exact nofun
  · apply Program.reaches_perform
    intro store invariant
    split
    · rename_i entry only
      intro dn same
      cases same
      exact account_of_search invariant (only ▸ List.mem_singleton_self entry)
    · exact nofun

theorem resolve_name_stays (inside : resolvedNames config name ⊆ region.looked) :
    StaysIn region (resolveName config name) := by
  unfold resolveName
  split
  · exact stays_pure _
  rename_i named
  split
  · rename_i isDn
    split
    · exact stays_pure _
    · rename_i notRoot
      rw [Bool.not_eq_true] at notRoot
      have looked {other : Bytes} (seen : other ∈ spellings name ∨ other ∈ accountNames config) :
          other ∈ region.looked := inside ⟨named, by rw [isDn, notRoot]; rfl, seen⟩
      apply stays_lookup fun other same => looked (Or.inl same)
      intro found _
      split
      · exact stays_pure _
      · split
        · exact stays_pure _
        · exact find_account_stays (fun other account => looked (Or.inr account)) _
  · rename_i noDn
    rw [Bool.not_eq_true] at noDn
    have search : StaysIn region (findAccount config name) := find_account_stays
      (fun other account => inside ⟨named, by rw [noDn]; rfl, Or.inr account⟩) name
    split
    · split
      · exact stays_pure _
      · exact search
    · exact search

theorem root_dn_is_root (present : config.rootDn ≠ []) : isRootDn config config.rootDn = true := by
  simp [isRootDn, present, dnEquals, iequals_iff]

theorem resolve_name_reaches (config : LdapConfig) (name : Bytes) :
    (resolveName config name).Reaches exec StoreInvariant fun found =>
      ∀ dn, found = some dn → ResolvesTo config name dn := by
  have root (present : config.rootDn ≠ []) :
      ∀ dn, some config.rootDn = some dn → ResolvesTo config name dn := by
    intro dn same
    cases same
    exact Or.inl (root_dn_is_root present)
  unfold resolveName
  split
  · exact nofun
  rename_i named
  split
  · rename_i isDn
    split
    · rename_i isRoot
      apply root
      intro empty
      simp [isRootDn, empty] at isRoot
    · rename_i notRoot
      rw [Bool.not_eq_true] at notRoot
      have own {dn : Bytes} (seen : dn ∈ spellings name ∨ dn ∈ accountNames config) :
          ResolvesTo config name dn := Or.inr ⟨named, by rw [isDn, notRoot]; rfl, seen⟩
      apply Program.reaches_perform
      intro store invariant
      split
      · rename_i entry found
        intro dn same
        cases same
        exact own (Or.inl (invariant.lookup_dn found).symm)
      · split
        · exact nofun
        · rename_i value _
          exact Program.reaches_imp (fun found within dn same => own (Or.inr (within dn same)))
            (find_account_reaches _)
  · rename_i noDn
    rw [Bool.not_eq_true] at noDn
    have search : (findAccount config name).Reaches exec StoreInvariant fun found =>
        ∀ dn, found = some dn → ResolvesTo config name dn :=
      Program.reaches_imp (fun found within dn same =>
        Or.inr ⟨named, by rw [noDn]; rfl, Or.inr (within dn same)⟩) (find_account_reaches name)
    split
    · rename_i parsed
      split
      · apply root
        intro empty
        simp [empty] at parsed
      · exact search
    · exact search

theorem bind_stays (inside : resolvedNames config name ⊆ region.looked) (password : Bytes) :
    StaysIn region (bind config openssl name password) := by
  unfold bind
  split
  · exact stays_pure _
  apply Program.respects_bind (resolve_name_stays inside) (resolve_name_reaches config name)
  intro resolved ends
  split
  · exact stays_pure _
  · rename_i dn
    split
    · split
      · exact stays_pure _
      · exact stays_pure _
    · rename_i notRoot
      have within := (ends dn rfl).resolve_left notRoot
      apply stays_lookup ((resolved_spellings within).trans inside)
      intro found _
      split
      · exact stays_pure _
      · split
        · exact stays_pure _
        · split
          · exact stays_pure _
          · split
            · exact stays_pure _
            · exact stays_pure _

end SimpleBindAuthenticator

namespace Session

open AccessControl (accessNames)
open SimpleBindAuthenticator
open Message (decodePasswordModifyValue)

variable {server : Server} {session : SessionState}

/-- The names that a bind looks at. A SASL bind takes its names from credentials that the
mechanism reads, so it counts as looking everywhere. -/
def bindNames (config : LdapConfig) (bind : BindRequestData) : Set Bytes :=
  {name | bind.simple = true → name ∈ resolvedNames config bind.dn}

/-- The names that a password change of the user looks at and may change. -/
def passwordNames (config : LdapConfig) (user : Bytes) (request : LdapMessage) : Set Bytes :=
  {name | ∃ change, decodePasswordModifyValue request.extendedValue = some change ∧
    name ∈ resolvedNames config (if change.userIdentity = [] then user else change.userIdentity)}

/-- The names whose entries a request of the user can look at, besides those of access
decisions. -/
def lookedAt (config : LdapConfig) (user : Bytes) (request : LdapMessage) : Set Bytes :=
  match request.op with
  | .searchRequest =>
      spellings request.search.baseDn ∪
        {name | Backend.inScope request.search.scope name request.search.baseDn = true}
  | .addRequest => spellings request.add.dn ∪ spellings (dnParent request.add.dn)
  | .modifyRequest => spellings request.modify.dn
  | .delRequest =>
      spellings request.deleteDn ∪ {name | dnIsOneLevelChild name request.deleteDn = true}
  | .modifyDnRequest =>
      spellings request.modifyDn.dn ∪ spellings (newParent request.modifyDn) ∪
        spellings (newDn request.modifyDn)
  | .compareRequest => spellings request.compare.dn
  | .bindRequest => bindNames config request.bind
  | .extendedRequest =>
      if request.extendedOid = Message.kPasswordModifyOid then passwordNames config user request
      else ∅
  | _ => ∅

/-- The names whose entries a request of the user can change. -/
def changedBy (config : LdapConfig) (user : Bytes) (request : LdapMessage) : Set Bytes :=
  match request.op with
  | .addRequest => spellings request.add.dn
  | .modifyRequest => spellings request.modify.dn
  | .delRequest => spellings request.deleteDn
  | .modifyDnRequest => spellings request.modifyDn.dn ∪ spellings (newDn request.modifyDn)
  | .extendedRequest =>
      if request.extendedOid = Message.kPasswordModifyOid then passwordNames config user request
      else ∅
  | _ => ∅

theorem empty_or_stored_stays {dn : Bytes} (inside : spellings dn ⊆ region.looked) :
    StaysIn region (emptyOrStored dn) := by
  unfold emptyOrStored
  split
  · exact stays_pure _
  · apply stays_lookup inside
    intro found _
    exact stays_pure _

theorem may_write_stays (inside : accessNames server.config session.bindDn ⊆ region.looked)
    (dn : Bytes) : StaysIn region (mayWrite server session dn) := by
  unfold mayWrite
  split
  · exact AccessControl.may_write_stays inside dn
  · exact stays_pure _

theorem commit_stays {response refusal : LdapMessage} (written : Bool) :
    StaysIn region (if !written then pure refusal else do
      Backend.persist
      pure response) := by
  split
  · exact stays_pure _
  · exact stays_persist (stays_pure _)

theorem handle_search_stays (context : RequestContext) {request : LdapMessage}
    (inside : accessNames server.config session.bindDn ⊆ region.looked)
    (base : spellings request.search.baseDn ⊆ region.looked)
    (scope : {name | Backend.inScope request.search.scope name request.search.baseDn = true} ⊆
      region.looked) :
    StaysIn region (handleSearch server context session request) := by
  have asked : StaysIn region (Backend.search request.search.baseDn request.search.scope
      request.search.filter) := ⟨⟨scope, Set.empty_subset _⟩, fun _ _ => trivial⟩
  have visible (entries : List DirectoryEntry) :
      StaysIn region (visibleEntries server session entries) := by
    induction entries with
    | nil => exact stays_pure _
    | cons entry rest ih =>
        unfold visibleEntries
        apply Program.respects_then (AccessControl.may_search_stays inside entry.dn)
        intro allowed
        exact Program.respects_then ih fun later => stays_pure _
  unfold handleSearch
  simp only
  split
  · exact stays_pure _
  split
  · exact stays_pure _
  apply Program.respects_then (empty_or_stored_stays base)
  intro found
  split
  · exact stays_pure _
  have allowance : StaysIn region (maySearchBase server session request.search.baseDn) := by
    unfold maySearchBase
    split
    · exact stays_pure _
    · exact AccessControl.may_search_stays inside _
  apply Program.respects_then allowance
  intro allowed
  split
  · exact stays_pure _
  have matched : StaysIn region (searchMatches server request.search) := by
    unfold searchMatches
    split
    · simp only
      split
      · exact stays_pure _
      · exact Program.respects_then asked fun rest => stays_pure _
    · exact asked
  apply Program.respects_then matched
  intro entries
  exact Program.respects_then (visible entries) fun seen => stays_pure _

theorem handle_add_stays (context : RequestContext) {request : LdapMessage}
    (inside : accessNames server.config session.bindDn ⊆ region.looked)
    (own : spellings request.add.dn ⊆ region.looked)
    (parent : spellings (dnParent request.add.dn) ⊆ region.looked)
    (changed : spellings request.add.dn ⊆ region.changed) :
    StaysIn region (handleAdd server context session request) := by
  unfold handleAdd
  simp only
  apply Program.respects_then (may_write_stays inside _)
  intro allowed
  split
  · exact stays_pure _
  split
  · exact stays_pure _
  apply stays_lookup own
  intro existing _
  split
  · exact stays_pure _
  apply Program.respects_then (empty_or_stored_stays parent)
  intro placed
  split
  · exact stays_pure _
  split
  · exact stays_pure _
  exact stays_write rfl rfl own changed commit_stays

/-- The change of an entry that was found under `dn`. -/
theorem modified_stays {dn : Bytes} {entry found : DirectoryEntry}
    (same : toLowerAscii found.dn = toLowerAscii dn) (kept : entry.dn = found.dn)
    (own : spellings dn ⊆ region.looked) (changed : spellings dn ⊆ region.changed)
    {rest : Bool → BackendProgram LdapMessage} (next : ∀ modified, StaysIn region (rest modified))
    {refusal : LdapMessage} {schema : ResultCode × Bytes} :
    StaysIn region (if schema.1 ≠ .success then pure refusal else Backend.modify entry >>= rest) := by
  have named : spellings entry.dn = spellings dn := by
    rw [kept, spellings, spellings, same]
  split
  · exact stays_pure _
  · exact stays_write named named own changed next

theorem handle_modify_stays (context : RequestContext) {request : LdapMessage}
    (inside : accessNames server.config session.bindDn ⊆ region.looked)
    (own : spellings request.modify.dn ⊆ region.looked)
    (changed : spellings request.modify.dn ⊆ region.changed) :
    StaysIn region (handleModify server context session request) := by
  unfold handleModify
  apply Program.respects_then (may_write_stays inside _)
  intro allowed
  split
  · exact stays_pure _
  apply stays_lookup own
  intro found same
  cases found with
  | none => exact stays_pure _
  | some entry =>
      unfold modifyFound
      simp only
      split
      · exact stays_pure _
      exact modified_stays (same entry rfl) (Modify.apply_modifications_frame _ _).1 own changed
        commit_stays

theorem handle_delete_stays {request : LdapMessage}
    (inside : accessNames server.config session.bindDn ⊆ region.looked)
    (own : spellings request.deleteDn ⊆ region.looked)
    (children : {name | dnIsOneLevelChild name request.deleteDn = true} ⊆ region.looked)
    (changed : spellings request.deleteDn ⊆ region.changed) :
    StaysIn region (handleDelete server session request) := by
  unfold handleDelete
  simp only
  apply Program.respects_then (may_write_stays inside _)
  intro allowed
  split
  · exact stays_pure _
  apply stays_lookup own
  intro found _
  split
  · exact stays_pure _
  apply stays_has_children children
  intro parental
  split
  · exact stays_pure _
  exact stays_write rfl rfl own changed commit_stays

theorem handle_modify_dn_stays {request : LdapMessage}
    (inside : accessNames server.config session.bindDn ⊆ region.looked)
    (own : spellings request.modifyDn.dn ⊆ region.looked)
    (parent : spellings (newParent request.modifyDn) ⊆ region.looked)
    (target : spellings (newDn request.modifyDn) ⊆ region.looked)
    (changed : spellings request.modifyDn.dn ∪ spellings (newDn request.modifyDn) ⊆
      region.changed) :
    StaysIn region (handleModifyDn server session request) := by
  have access : StaysIn region (mayWriteBoth server session request.modifyDn.dn
      (newDn request.modifyDn)) := by
    unfold mayWriteBoth
    apply Program.respects_then (may_write_stays inside _)
    intro allowed
    split
    · exact may_write_stays inside _
    · exact stays_pure _
  have free : StaysIn region (targetTaken request.modifyDn) := by
    unfold targetTaken
    split
    · exact stays_pure _
    · apply stays_lookup target
      intro found _
      exact stays_pure _
  unfold handleModifyDn
  simp only
  split
  · exact stays_pure _
  apply Program.respects_then access
  intro allowed
  split
  · exact stays_pure _
  apply stays_lookup own
  intro found same
  split
  · exact stays_pure _
  rename_i entry
  apply Program.respects_then (empty_or_stored_stays parent)
  intro placed
  split
  · exact stays_pure _
  apply Program.respects_then free
  intro taken
  split
  · exact stays_pure _
  split
  · exact stays_pure _
  rename_i renamed applied
  apply modified_stays (same entry rfl) (renamed_entry_frame applied) own
    (Set.subset_union_left.trans changed)
  intro modified
  split
  · exact stays_pure _
  exact stays_rename (Set.union_subset own target) changed commit_stays

theorem handle_compare_stays {request : LdapMessage}
    (inside : accessNames server.config session.bindDn ⊆ region.looked)
    (own : spellings request.compare.dn ⊆ region.looked) :
    StaysIn region (handleCompare server session request) := by
  unfold handleCompare
  simp only
  split
  · exact stays_pure _
  apply Program.respects_then (AccessControl.may_search_stays inside _)
  intro allowed
  split
  · exact stays_pure _
  apply stays_lookup own
  intro found _
  split
  · exact stays_pure _
  · split
    · exact stays_pure _
    · exact stays_pure _

/-- Whom a session can act for behind a bind. -/
def ActsFor (config : LdapConfig) (bind : BindRequestData) (user : Bytes) : Prop :=
  user = [] ∨ isRootDn config user = true ∨ user ∈ bindNames config bind

theorem handle_bind_stays (context : RequestContext) {request : LdapMessage}
    (inside : bindNames server.config request.bind ⊆ region.looked) :
    StaysIn region (handleBind server context session request) := by
  by_cases simple : request.bind.simple = true
  · have names : resolvedNames server.config request.bind.dn ⊆ region.looked :=
      fun name resolved => inside fun _ => resolved
    unfold handleBind
    simp only [simple, Bool.not_true, Bool.false_eq_true, if_false]
    split
    · exact stays_pure _
    split
    · exact stays_pure _
    split
    · exact stays_pure _
    apply Program.respects_then (bind_stays names _)
    intro code
    split
    · split
      · exact stays_pure _
      · exact Program.respects_then (resolve_name_stays names) fun _ => stays_pure _
    · exact stays_pure _
  · have everywhere : region.looked = Set.univ :=
      Set.eq_univ_of_forall fun name => inside fun isSimple => absurd isSimple simple
    exact stays_reading everywhere (handle_bind_read_only server context session request)

theorem handle_bind_reaches (server : Server) (context : RequestContext) (session : SessionState)
    (request : LdapMessage) :
    (handleBind server context session request).Reaches exec StoreInvariant fun outcome =>
      ActsFor server.config request.bind outcome.2.bindDn := by
  by_cases simple : request.bind.simple = true
  · unfold handleBind
    simp only [simple, Bool.not_true, Bool.false_eq_true, if_false]
    split
    · exact Or.inl rfl
    split
    · exact Or.inl rfl
    split
    · exact Or.inl rfl
    apply Program.reaches_bind (Program.reaches_any (fun _ => trivial) _)
    intro code (_ : True)
    split
    · split
      · exact Or.inl rfl
      · rename_i named
        apply Program.reaches_bind (resolve_name_reaches server.config request.bind.dn)
        intro resolved ends
        cases resolved with
        | some dn =>
            exact Or.inr ((ends dn rfl).imp_right fun within _ => within)
        | none =>
            -- the name as it was sent
            change ActsFor server.config request.bind request.bind.dn
            by_cases isRoot : isRootDn server.config request.bind.dn = true
            · exact Or.inr (Or.inl isRoot)
            · rw [Bool.not_eq_true] at isRoot
              exact Or.inr (Or.inr fun _ => ⟨named, by rw [isRoot, Bool.and_false], Or.inl rfl⟩)
    · exact Or.inl rfl
  · apply Program.reaches_any
    exact fun outcome => Or.inr (Or.inr fun isSimple => absurd isSimple simple)

theorem handle_password_modify_stays (context : RequestContext) {request : LdapMessage}
    (inside : accessNames server.config session.bindDn ⊆ region.looked)
    (looked : passwordNames server.config session.bindDn request ⊆ region.looked)
    (changed : passwordNames server.config session.bindDn request ⊆ region.changed) :
    StaysIn region (handlePasswordModify server context session request) := by
  unfold handlePasswordModify
  simp only
  split
  · exact stays_pure _
  split
  · exact stays_pure _
  split
  · exact stays_pure _
  rename_i change decoded
  have names : resolvedNames server.config
      (if change.userIdentity = [] then session.bindDn else change.userIdentity) ⊆
        passwordNames server.config session.bindDn request :=
    fun name resolved => ⟨change, decoded, resolved⟩
  split
  · exact stays_pure _
  · exact stays_pure _
  apply Program.respects_bind (resolve_name_stays (names.trans looked))
    (resolve_name_reaches server.config _)
  intro resolved ends
  split
  · exact stays_pure _
  rename_i target
  split
  · exact stays_pure _
  rename_i notRoot
  have within := (ends target rfl).resolve_left notRoot
  have own := (resolved_spellings within).trans names
  have allowance : StaysIn region (mayChangePassword server session target) := by
    unfold mayChangePassword
    split
    · exact stays_pure _
    · exact may_write_stays inside target
  have check (oldPassword : Option Bytes) :
      StaysIn region (oldPasswordAccepted server target oldPassword) := by
    unfold oldPasswordAccepted
    split
    · exact stays_pure _
    · exact Program.respects_then
        (bind_stays (((resolved_again within).trans names).trans looked) _) fun _ => stays_pure _
  apply Program.respects_then allowance
  intro allowed
  split
  · exact stays_pure _
  apply Program.respects_then (check change.oldPassword)
  intro accepted
  split
  · exact stays_pure _
  apply stays_lookup (own.trans looked)
  intro found same
  split
  · exact stays_pure _
  rename_i entry
  split
  · exact stays_pure _
  exact modified_stays (same entry rfl) (Modify.apply_modifications_frame _ _).1
    (own.trans looked) (own.trans changed) commit_stays

section Requests

/-- A region that a session may serve the request in. -/
structure Serves (server : Server) (session : SessionState) (region : Program.Region Bytes)
    (request : LdapMessage) : Prop where
  access : accessNames server.config session.bindDn ⊆ region.looked
  looked : lookedAt server.config session.bindDn request ⊆ region.looked
  changed : changedBy server.config session.bindDn request ⊆ region.changed

theorem reply_stays {handler : BackendProgram LdapMessage} (stays : StaysIn region handler) :
    StaysIn region (handler >>= fun response => pure (reply session response)) :=
  Program.respects_then stays fun _ => stays_pure _

theorem handle_request_stays {context : RequestContext} {request : LdapMessage}
    (serves : Serves server session region request) :
    StaysIn region (handleRequest server context session request) := by
  obtain ⟨inside, looked, changed⟩ := serves
  unfold lookedAt at looked
  unfold changedBy at changed
  unfold handleRequest
  cases op : request.op with
  | unbindRequest => exact stays_pure _
  | searchRequest =>
      rw [op] at looked
      obtain ⟨base, scope⟩ := Set.union_subset_iff.mp looked
      apply Program.respects_then (handle_search_stays context inside base scope)
      intro sent
      exact stays_pure _
  | bindRequest =>
      rw [op] at looked
      apply Program.respects_then (handle_bind_stays context looked)
      intro outcome
      exact stays_pure _
  | modifyRequest =>
      rw [op] at looked changed
      exact reply_stays (handle_modify_stays context inside looked changed)
  | addRequest =>
      rw [op] at looked changed
      obtain ⟨own, parent⟩ := Set.union_subset_iff.mp looked
      exact reply_stays (handle_add_stays context inside own parent changed)
  | delRequest =>
      rw [op] at looked changed
      obtain ⟨own, children⟩ := Set.union_subset_iff.mp looked
      exact reply_stays (handle_delete_stays inside own children changed)
  | modifyDnRequest =>
      rw [op] at looked changed
      obtain ⟨both, target⟩ := Set.union_subset_iff.mp looked
      obtain ⟨own, parent⟩ := Set.union_subset_iff.mp both
      exact reply_stays (handle_modify_dn_stays inside own parent target changed)
  | compareRequest =>
      rw [op] at looked
      exact reply_stays (handle_compare_stays inside looked)
  | extendedRequest =>
      rw [op] at looked changed
      unfold handleExtended
      simp only
      split
      · split
        · exact stays_pure _
        · exact stays_pure _
      split
      · rename_i isPassword
        rw [if_pos isPassword] at looked changed
        exact reply_stays (handle_password_modify_stays context inside looked changed)
      split
      · exact stays_pure _
      · exact stays_pure _
  | _ => exact stays_pure _

theorem reply_yields (handler : BackendProgram LdapMessage) :
    (handler >>= fun response => pure (reply session response)).Yields (KeepsSession session) :=
  Program.yields_then fun response => keeps_replied session response

/-- Whatever it is answered, a request other than a bind leaves the session as it was. -/
theorem handle_request_yields {context : RequestContext} {request : LdapMessage}
    (notBind : request.op ≠ .bindRequest) :
    (handleRequest server context session request).Yields (KeepsSession session) := by
  have replied (outcome : Option Reply)
      (same : ∀ reply, outcome = some reply → reply.session = session) :
      (pure outcome : BackendProgram (Option Reply)).Yields (KeepsSession session) := same
  unfold handleRequest
  split
  · apply replied
    intro answer given
    cases given
    rfl
  · apply Program.yields_then
    intro sent
    apply replied
    intro answer given
    obtain ⟨messages, _, rfl⟩ := Option.map_eq_some_iff.mp given
    rfl
  · rename_i op
    exact absurd op notBind
  · exact reply_yields _
  · exact reply_yields _
  · exact reply_yields _
  · exact reply_yields _
  · exact reply_yields _
  · unfold handleExtended
    simp only
    split
    · split
      · exact keeps_replied session _
      · apply replied
        intro answer given
        cases given
        rfl
    split
    · exact reply_yields _
    split
    · exact keeps_replied session _
    · exact keeps_replied session _
  · exact keeps_replied session _

/-- Behind a request the session acts for the same user, or for one that the bind allows. -/
theorem handle_request_reaches (context : RequestContext) (request : LdapMessage) :
    (handleRequest server context session request).Reaches exec StoreInvariant fun outcome =>
      ∀ reply, outcome = some reply → reply.session.bindDn = session.bindDn ∨
        (request.op = .bindRequest ∧ ActsFor server.config request.bind reply.session.bindDn) := by
  by_cases isBind : request.op = .bindRequest
  · unfold handleRequest
    rw [isBind]
    apply Program.reaches_bind (handle_bind_reaches server context session request)
    rintro ⟨response, after⟩ acts reply replied
    cases replied
    exact Or.inr ⟨rfl, acts⟩
  · apply Program.reaches_imp _ (Program.reaches_of_yields (handle_request_yields isBind))
    intro outcome keeps reply replied
    exact Or.inl (congrArg SessionState.bindDn (keeps reply replied))

end Requests

section Sessions

/-- Whom a session can act for: the user it starts with, and whoever its binds allow. -/
def users (server : Server) (session : SessionState)
    (requests : List (RequestContext × LdapMessage)) : Set Bytes :=
  {user | user = session.bindDn ∨
    ∃ step ∈ requests, step.2.op = .bindRequest ∧ ActsFor server.config step.2.bind user}

/-- The names that the requests of a session look at and change, whomever it acts for. -/
def regionOf (server : Server) (session : SessionState)
    (requests : List (RequestContext × LdapMessage)) : Program.Region Bytes where
  looked := {name | ∃ user ∈ users server session requests,
    name ∈ accessNames server.config user ∨
      ∃ step ∈ requests, name ∈ lookedAt server.config user step.2}
  changed := {name | ∃ user ∈ users server session requests,
    ∃ step ∈ requests, name ∈ changedBy server.config user step.2}

theorem serve_stays {everyone : Set Bytes} {requests : List (RequestContext × LdapMessage)}
    (known : users server session requests ⊆ everyone)
    (serves : ∀ user ∈ everyone, ∀ step ∈ requests,
      accessNames server.config user ⊆ region.looked ∧
        lookedAt server.config user step.2 ⊆ region.looked ∧
          changedBy server.config user step.2 ⊆ region.changed) :
    StaysIn region (serve server session requests) := by
  induction requests generalizing session with
  | nil => exact stays_pure _
  | cons first rest ih =>
      obtain ⟨context, request⟩ := first
      have own : session.bindDn ∈ everyone := known (Or.inl rfl)
      have here := serves session.bindDn own (context, request) List.mem_cons_self
      unfold serve
      apply Program.respects_bind (handle_request_stays ⟨here.1, here.2.1, here.2.2⟩)
        (handle_request_reaches context request)
      intro outcome acts
      cases outcome with
      | none => exact stays_pure _
      | some reply =>
          have next : reply.session.bindDn ∈ everyone := by
            rcases acts reply rfl with same | ⟨isBind, allowed⟩
            · rw [same]
              exact own
            · exact known (Or.inr ⟨(context, request), List.mem_cons_self, isBind, allowed⟩)
          have later : StaysIn region (serve server reply.session rest) := by
            apply ih
            · rintro user (same | ⟨step, member, isBind, allowed⟩)
              · rw [same]
                exact next
              · exact known (Or.inr ⟨step, List.mem_cons_of_mem _ member, isBind, allowed⟩)
            · exact fun user inside step member =>
                serves user inside step (List.mem_cons_of_mem _ member)
          dsimp only
          split
          · exact Program.respects_then later fun messages => stays_pure _
          · exact stays_pure _

theorem session_stays (server : Server) (session : SessionState)
    (requests : List (RequestContext × LdapMessage)) :
    StaysIn (regionOf server session requests) (serve server session requests) := by
  apply serve_stays (Set.Subset.refl _)
  intro user inside step member
  exact ⟨fun name seen => ⟨user, inside, Or.inl seen⟩,
    fun name seen => ⟨user, inside, Or.inr ⟨step, member, seen⟩⟩,
    fun name written => ⟨user, inside, step, member, written⟩⟩

variable {Thread : Type} [DecidableEq Thread]

def addedDn (first : Bool) : Bytes := if first then text "cn=a" else text "cn=b"

def additionsServer : Server :=
  { config := { rootDn := text "cn=admin", rootPassword := text "x" } }

/-- Two clients that bind as the root DN and add an entry each. -/
def twoAdditions (first : Bool) : SessionState × List (RequestContext × LdapMessage) :=
  ({}, [({}, { op := .bindRequest, bind := { dn := text "cn=admin", password := text "x" } }),
    ({}, { op := .addRequest, add := { dn := addedDn first } })])

/-- A bind as the root DN looks at nothing, nor does the root DN's access. -/
theorem two_additions_region (first : Bool) {name : Bytes} :
    (name ∈ (regionOf additionsServer (twoAdditions first).1 (twoAdditions first).2).looked →
      toLowerAscii (addedDn first) = toLowerAscii name ∨
        toLowerAscii (dnParent (addedDn first)) = toLowerAscii name) ∧
    (name ∈ (regionOf additionsServer (twoAdditions first).1 (twoAdditions first).2).changed →
      toLowerAscii (addedDn first) = toLowerAscii name) := by
  have asRoot : ∀ dn, dn ∉ resolvedNames additionsServer.config (text "cn=admin") :=
    fun dn resolved => absurd resolved.2.1 (by decide)
  constructor
  · intro seen
    rcases seen with ⟨user, _, ⟨_, _, rule, listed, _⟩ | ⟨step, member, looked⟩⟩
    · cases listed
    · rcases List.mem_cons.mp member with bind | later
      · rw [bind] at looked
        exact absurd (looked rfl) (asRoot name)
      · rw [List.mem_singleton.mp later] at looked
        exact looked
  · intro written
    rcases written with ⟨user, _, step, member, changed⟩
    rcases List.mem_cons.mp member with bind | later
    · rw [bind] at changed
      exact changed.elim
    · rw [List.mem_singleton.mp later] at changed
      exact changed

theorem two_additions_apart (thread other : Bool) (different : thread ≠ other) :
    (regionOf additionsServer (twoAdditions thread).1 (twoAdditions thread).2).Apart
      (regionOf additionsServer (twoAdditions other).1 (twoAdditions other).2) := by
  have clash : ∀ first second, first ≠ second →
      toLowerAscii (addedDn first) ≠ toLowerAscii (addedDn second) ∧
        toLowerAscii (addedDn first) ≠ toLowerAscii (dnParent (addedDn second)) := by decide
  have unseen (first second : Bool) (apart : first ≠ second) :
      Disjoint (regionOf additionsServer (twoAdditions first).1 (twoAdditions first).2).changed
        (regionOf additionsServer (twoAdditions second).1 (twoAdditions second).2).looked := by
    apply Set.disjoint_left.mpr
    intro name changed looked
    have here := (two_additions_region first).2 changed
    rcases (two_additions_region second).1 looked with own | parent
    · exact (clash first second apart).1 (here.trans own.symm)
    · exact (clash first second apart).2 (here.trans parent.symm)
  exact ⟨unseen thread other different, unseen other thread different.symm⟩

end Sessions

end Session

end SimpleLdapd
