import SimpleLdapd.Core.WriteOutcome

/-!
# Schema enforcement under concurrency

A handler commits an entry only after `validateEntry` accepted exactly that
entry, whatever other sessions did between its lookup and its commit. So the
calls that sessions issue store valid entries only, and a rename changes the DN,
which validation does not read.
-/

namespace SimpleLdapd.Session

open Dn MemoryBackend

variable (registry : SchemaRegistry)

/-- Every stored entry passes `validateEntry`. -/
def AllValid (store : MemoryStore) : Prop :=
  ∀ pair ∈ store.entries, (registry.validateEntry pair.2).1 = .success

instance (store : MemoryStore) : Decidable (AllValid registry store) :=
  inferInstanceAs (Decidable (∀ pair ∈ store.entries, (registry.validateEntry pair.2).1 = .success))

/-- The call commits no entry that `validateEntry` refuses. -/
def Validated : BackendCall → Prop
  | .add entry | .modify entry => (registry.validateEntry entry).1 = .success
  | .lookup _ | .search _ _ _ | .remove _ | .rename _ _ | .hasChildren _ | .persist => True

theorem reads_validated (call : BackendCall) (reads : call.Reads) :
    Validated registry call := by
  cases call <;> trivial

section Store

variable {registry} {store : MemoryStore}

/-- One backend call that commits only validated entries. -/
theorem exec_all_valid (call : BackendCall) (store : MemoryStore)
    (validated : Validated registry call) (valid : AllValid registry store) :
    AllValid registry (exec call store).2 := by
  have all : AllEntries (fun entry => (registry.validateEntry entry).1 = .success) store := valid
  cases call with
  | lookup dn => exact valid
  | search baseDn scope filter => exact valid
  | hasChildren dn => exact valid
  | persist => exact valid
  | add entry => exact all.add validated
  | modify entry => exact all.modify validated
  | remove dn => exact all.remove dn
  | rename source target =>
      apply all.rename
      intro entry dn accepted
      rw [SchemaRegistry.validate_entry_dn]
      exact accepted

end Store

section Issued

variable {registry} {server : Server} (context : RequestContext) (session : SessionState)

theorem issues_read {Value : Type} {program : BackendProgram Value}
    (readOnly : program.Issues BackendCall.Reads) : program.Issues (Validated registry) :=
  readOnly.mono (reads_validated registry)

theorem checked (installed : server.schema = some registry) {entry : DirectoryEntry}
    (accepted : ¬ (checkSchema server entry).1 ≠ .success) :
    (registry.validateEntry entry).1 = .success := by
  unfold checkSchema at accepted
  rw [installed] at accepted
  exact not_not.mp accepted

theorem issues_modify (installed : server.schema = some registry) {entry : DirectoryEntry}
    (accepted : ¬ (checkSchema server entry).1 ≠ .success) :
    (Backend.modify entry).Issues (Validated registry) :=
  Program.issues_perform (checked installed accepted)

/-- What follows a commit writes nothing more. -/
theorem issues_commit {failure success : LdapMessage} (done : Bool) :
    (if !done then pure failure else do Backend.persist; pure success :
      BackendProgram LdapMessage).Issues (Validated registry) := by
  split
  · trivial
  · exact Program.issues_bind (Program.issues_perform trivial) fun _ => trivial

theorem handle_add_validated (installed : server.schema = some registry) (request : LdapMessage) :
    (handleAdd server context session request).Issues (Validated registry) := by
  unfold handleAdd
  apply Program.issues_bind (issues_read (may_write_read_only server session _))
  intro allowed
  split
  · trivial
  split
  · trivial
  apply Program.issues_bind (Program.issues_perform trivial)
  intro existing
  split
  · trivial
  apply Program.issues_bind (issues_read (empty_or_stored_read_only _))
  intro placed
  split
  · trivial
  simp only
  split
  · trivial
  rename_i accepted
  exact Program.issues_bind (Program.issues_perform (checked installed accepted)) issues_commit

theorem handle_modify_validated (installed : server.schema = some registry)
    (request : LdapMessage) :
    (handleModify server context session request).Issues (Validated registry) := by
  unfold handleModify
  apply Program.issues_bind (issues_read (may_write_read_only server session _))
  intro allowed
  split
  · trivial
  apply Program.issues_bind (Program.issues_perform trivial)
  intro existing
  unfold modifyFound
  split
  · trivial
  simp only
  split
  · trivial
  split
  · trivial
  rename_i accepted
  exact Program.issues_bind (issues_modify installed accepted) issues_commit

theorem handle_delete_validated (request : LdapMessage) :
    (handleDelete server session request).Issues (Validated registry) := by
  unfold handleDelete
  apply Program.issues_bind (issues_read (may_write_read_only server session _))
  intro allowed
  split
  · trivial
  apply Program.issues_bind (Program.issues_perform trivial)
  intro existing
  split
  · trivial
  apply Program.issues_bind (Program.issues_perform trivial)
  intro parental
  split
  · trivial
  exact Program.issues_bind (Program.issues_perform trivial) issues_commit

theorem handle_modify_dn_validated (installed : server.schema = some registry)
    (request : LdapMessage) :
    (handleModifyDn server session request).Issues (Validated registry) := by
  unfold handleModifyDn
  simp only
  split
  · trivial
  apply Program.issues_bind (issues_read (may_write_both_read_only server session _ _))
  intro allowed
  split
  · trivial
  apply Program.issues_bind (Program.issues_perform trivial)
  intro existing
  split
  · trivial
  apply Program.issues_bind (issues_read (empty_or_stored_read_only _))
  intro placed
  split
  · trivial
  apply Program.issues_bind (issues_read (target_taken_read_only _))
  intro taken
  split
  · trivial
  split
  · trivial
  split
  · trivial
  rename_i accepted
  apply Program.issues_bind (issues_modify installed accepted)
  intro modified
  split
  · trivial
  exact Program.issues_bind (Program.issues_perform trivial) issues_commit

theorem handle_password_modify_validated (installed : server.schema = some registry)
    (request : LdapMessage) :
    (handlePasswordModify server context session request).Issues (Validated registry) := by
  unfold handlePasswordModify
  simp only
  split
  · trivial
  split
  · trivial
  split
  · trivial
  split
  · trivial
  · trivial
  apply Program.issues_bind
    (issues_read (SimpleBindAuthenticator.resolve_name_read_only server.config _))
  intro resolved
  split
  · trivial
  split
  · trivial
  apply Program.issues_bind (issues_read (may_change_password_read_only server session _))
  intro allowed
  split
  · trivial
  apply Program.issues_bind (issues_read (old_password_read_only server _ _))
  intro accepted
  split
  · trivial
  apply Program.issues_bind (Program.issues_perform trivial)
  intro existing
  split
  · trivial
  split
  · trivial
  split
  · trivial
  rename_i accepted
  exact Program.issues_bind (issues_modify installed accepted) issues_commit

theorem issues_replied {handler : BackendProgram LdapMessage}
    (issued : handler.Issues (Validated registry)) :
    (do let response ← handler; pure (reply session response) :
      BackendProgram (Option Reply)).Issues (Validated registry) :=
  Program.issues_bind issued fun _ => trivial

theorem handle_request_validated (installed : server.schema = some registry)
    (request : LdapMessage) :
    (handleRequest server context session request).Issues (Validated registry) := by
  by_cases isWrite : IsWrite request
  · unfold handleRequest
    rcases isWrite with op | op | op | op | ⟨op, oid⟩
    · rw [op]
      exact issues_replied session (handle_add_validated context session installed request)
    · rw [op]
      exact issues_replied session (handle_modify_validated context session installed request)
    · rw [op]
      exact issues_replied session (handle_delete_validated session request)
    · rw [op]
      exact issues_replied session (handle_modify_dn_validated session installed request)
    · rw [op]
      simp only
      rw [handle_extended_password_modify server context session oid]
      exact issues_replied session
        (handle_password_modify_validated context session installed request)
  · exact issues_read (handle_other_read_only server context session isWrite)

theorem serve_validated (installed : server.schema = some registry)
    (requests : List (RequestContext × LdapMessage)) :
    (serve server session requests).Issues (Validated registry) := by
  induction requests generalizing session with
  | nil => trivial
  | cons request rest ih =>
      unfold serve
      apply Program.issues_bind
        (handle_request_validated request.1 session installed request.2)
      intro outcome
      split
      · trivial
      · rename_i reply
        split
        · exact Program.issues_bind (ih reply.session) fun _ => trivial
        · trivial

/-- Any number of sessions over one store, each with the requests it will handle. -/
def sessionPool {Thread : Type*} (server : Server) (store : MemoryStore)
    (sessions : Thread → SessionState × List (RequestContext × LdapMessage)) :
    Program.Pool Thread BackendCall BackendCall.Answer (Option (List LdapMessage)) MemoryStore where
  threads thread := serve server (sessions thread).1 (sessions thread).2
  state := store

/-- Every interleaving of the backend calls of any sessions keeps all entries valid. -/
theorem interleaving_keeps_schema {Thread : Type*} [DecidableEq Thread]
    (installed : server.schema = some registry) {store : MemoryStore}
    (valid : AllValid registry store)
    (sessions : Thread → SessionState × List (RequestContext × LdapMessage))
    (schedule : List Thread) :
    AllValid registry
      (Program.interleave exec (sessionPool server store sessions) schedule).state :=
  Program.interleave_invariant (AllValid registry) exec_all_valid
    (fun thread => serve_validated (sessions thread).1 installed (sessions thread).2) valid schedule

end Issued

section Examples

/-- `top`, `person` with a mandatory `cn`, and an optional `userPassword`. -/
def personSchema : SchemaRegistry :=
  { attributes := [{ names := [text "cn"] }, { names := [text "userPassword"] }]
    objectClasses := [{ names := [text "top"], kind := .abstract },
      { names := [text "person"], superiors := [text "top"], must := [text "cn"]
        may := [text "userPassword"] }]
    attributeIndex := (OrderedMap.empty.insert (text "cn") 0).insert (text "userpassword") 1
    objectClassIndex := (OrderedMap.empty.insert (text "top") 0).insert (text "person") 1 }

def personEntry : DirectoryEntry :=
  { dn := text "cn=a"
    attributes := (OrderedMap.empty.insert (text "cn") [text "a"]).insert (text "objectClass")
      [text "person"] }

/-- One session renames the person while another one deletes its `cn`. -/
def renameAndStrip : Bool → SessionState × List (RequestContext × LdapMessage)
  | true => (administrator, [({}, { op := .modifyDnRequest
                                    modifyDn := { dn := text "cn=a", newRdn := text "cn=b" } })])
  | false => (administrator, [({}, { op := .modifyRequest
                                     modify := { dn := text "cn=a"
                                                 changes := [{ op := .delete, type := text "cn" }] } })])

theorem rename_and_strip_keeps_schema :
    AllValid personSchema
      (Program.interleave exec
        (sessionPool { schema := some personSchema }
          (OrderedMap.empty.insert (text "cn=a") personEntry) renameAndStrip)
        [false, true, true, false, true, false]).state :=
  interleaving_keeps_schema rfl (by decide +kernel) renameAndStrip
    [false, true, true, false, true, false]

end Examples

end SimpleLdapd.Session
