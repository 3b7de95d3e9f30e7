import SimpleLdapd.Core.MirroredReads
import SimpleLdapd.Core.WrittenTexts

/-!
# Sessions over SQLite and over memory

Every request handler runs alike on the two backends as long as no text it hands to
them has a NUL byte and no value list it stores is empty. What many connections are
answered, request after request, therefore does not depend on the backend.
-/

namespace SimpleLdapd

open Dn Message SqliteBackend

variable {db : Database} {store : MemoryStore}

section Texts

theorem dn_parent_subset (dn : Bytes) : dnParent dn ⊆ dn := by
  unfold dnParent
  split
  · exact List.nil_subset dn
  · exact List.drop_subset _ _

theorem compose_dn_clean {rdn parent : Bytes} (cleanRdn : 0 ∉ rdn) (cleanParent : 0 ∉ parent) :
    0 ∉ composeDn rdn parent := by
  unfold composeDn
  split
  · exact cleanRdn
  · split
    · exact cleanParent
    · have comma : (0 : Byte) ∉ text "," := by decide
      simp [cleanRdn, cleanParent, comma]

theorem parse_rdn_clean {rdn type value : Bytes} (clean : 0 ∉ rdn)
    (parsed : parseRdn rdn = some (type, value)) : 0 ∉ type ∧ 0 ∉ value := by
  unfold parseRdn at parsed
  split at parsed
  · cases parsed
  split at parsed
  · cases parsed
  cases parsed
  constructor
  · intro member
    exact clean (List.drop_subset _ _ (List.take_subset _ _ member))
  · intro member
    exact clean (List.drop_subset _ _ member)

theorem encode_user_password_clean (openssl : Option OpenSsl) (salt : Option Bytes) {value : Bytes}
    (clean : 0 ∉ value) : 0 ∉ Password.encodeUserPassword openssl salt value := by
  rcases encoded_password_printable openssl salt value with same | printable
  · rwa [same]
  · intro member
    exact absurd (printable 0 member) (by decide)

end Texts

section Entries

/-- The texts without a NUL byte. -/
def nulFree : TextRules where
  dn dn := 0 ∉ dn
  name name := 0 ∉ name
  value value := 0 ∉ value
  password := by decide
  hashed openssl salt _ := encode_user_password_clean openssl salt

theorem storable_iff (entry : DirectoryEntry) : Storable entry ↔ nulFree.Fits entry := by
  constructor
  · intro storable
    exact ⟨storable.dn, fun pair member =>
      ⟨storable.names pair member, storable.present pair member, storable.values pair member⟩⟩
  · intro fits
    exact ⟨fits.dn, fun pair member => (fits.rows pair member).name,
      fun pair member => (fits.rows pair member).values,
      fun pair member => (fits.rows pair member).written⟩

end Entries

namespace Session

variable {server : Server} {context : RequestContext} {session : SessionState}

/-- The program runs alike and leaves the backends mirroring each other. -/
abbrev KeepsMirror {Value : Type} (program : BackendProgram Value) (store : MemoryStore)
    (db : Database) : Prop :=
  Alike program store db fun _ reached otherReached => Mirrors otherReached reached

theorem keeps_pure {Value : Type} {value : Value} (mirrors : Mirrors db store) :
    KeepsMirror (pure value) store db := mirrors

theorem keeps_reading {Value : Type} {program : BackendProgram Value} {seen : Value → Prop}
    (mirrors : Mirrors db store) (reads : ReadsAlike program store db seen) :
    KeepsMirror program store db := by
  apply Program.InStep.mono reads
  intro value reached otherReached ended
  obtain ⟨same, otherSame, _⟩ := ended
  rw [same, otherSame]
  exact mirrors

section Reading

theorem may_write_reads (mirrors : Mirrors db store) (clean : CleanConfig server.config)
    (cleanUser : 0 ∉ session.bindDn) (dn : Bytes) :
    ReadsAlike (mayWrite server session dn) store db fun _ => True := by
  unfold mayWrite
  split
  · exact AccessControl.may_write_reads mirrors clean cleanUser dn
  · exact reads_pure trivial

theorem empty_or_stored_reads (mirrors : Mirrors db store) {dn : Bytes} (clean : 0 ∉ dn) :
    ReadsAlike (emptyOrStored dn) store db fun _ => True := by
  unfold emptyOrStored
  split
  · exact reads_pure trivial
  · apply alike_after_reading (reads_lookup mirrors clean)
    intro found _
    exact reads_pure trivial

theorem handle_bind_reads (mirrors : Mirrors db store) (clean : CleanConfig server.config)
    {request : LdapMessage} (cleanBind : Sasl.CleanBind context.toBindContext request.bind) :
    ReadsAlike (handleBind server context session request) store db
      fun outcome => 0 ∉ outcome.2.bindDn := by
  have unbound : (0 : Byte) ∉ ([] : Bytes) := by simp
  unfold handleBind
  simp only
  split
  · exact reads_pure unbound
  split
  · exact reads_pure unbound
  split
  · rename_i isSasl
    split
    · exact reads_pure unbound
    · rename_i sasl _
      apply alike_after_reading (Sasl.sasl_bind_reads mirrors clean server.openssl sasl _
        (by simpa using isSasl) cleanBind)
      intro outcome cleanOutcome
      simp only
      split
      · exact reads_pure cleanOutcome
      · exact reads_pure unbound
  · split
    · exact reads_pure unbound
    · apply alike_after_reading
        (SimpleBindAuthenticator.bind_reads mirrors clean server.openssl cleanBind.dn _)
      intro result _
      split
      · split
        · exact reads_pure unbound
        · apply alike_after_reading
            (SimpleBindAuthenticator.resolve_name_reads mirrors clean cleanBind.dn)
          intro resolved cleanResolved
          apply reads_pure
          cases resolved with
          | none => exact cleanBind.dn
          | some dn => exact cleanResolved dn rfl
      · exact reads_pure unbound

theorem visible_entries_reads (mirrors : Mirrors db store) (clean : CleanConfig server.config)
    (cleanUser : 0 ∉ session.bindDn) (entries : List DirectoryEntry) :
    ReadsAlike (visibleEntries server session entries) store db fun _ => True := by
  induction entries with
  | nil => exact reads_pure trivial
  | cons entry rest ih =>
      unfold visibleEntries
      apply alike_after_reading
        (AccessControl.may_search_reads mirrors clean cleanUser entry.dn)
      intro allowed _
      apply alike_after_reading ih
      intro later _
      exact reads_pure trivial

theorem search_matches_reads (mirrors : Mirrors db store) {request : SearchRequestData}
    (cleanBase : 0 ∉ request.baseDn) :
    ReadsAlike (searchMatches server request) store db fun _ => True := by
  have asked : ReadsAlike (Backend.search request.baseDn request.scope request.filter) store db
      fun _ => True :=
    (reads_search mirrors cleanBase _ _).mono fun _ _ => trivial
  unfold searchMatches
  split
  · simp only
    split
    · exact reads_pure trivial
    · apply alike_after_reading asked
      intro rest _
      exact reads_pure trivial
  · exact asked

theorem handle_search_reads (mirrors : Mirrors db store) (clean : CleanConfig server.config)
    (cleanUser : 0 ∉ session.bindDn) {request : LdapMessage}
    (cleanBase : 0 ∉ request.search.baseDn) :
    ReadsAlike (handleSearch server context session request) store db fun _ => True := by
  unfold handleSearch
  simp only
  split
  · exact reads_pure trivial
  split
  · exact reads_pure trivial
  apply alike_after_reading (empty_or_stored_reads mirrors cleanBase)
  intro found _
  split
  · exact reads_pure trivial
  have base : ReadsAlike (maySearchBase server session request.search.baseDn) store db
      fun _ => True := by
    unfold maySearchBase
    split
    · exact reads_pure trivial
    · exact AccessControl.may_search_reads mirrors clean cleanUser _
  apply alike_after_reading base
  intro allowed _
  split
  · exact reads_pure trivial
  apply alike_after_reading (search_matches_reads mirrors cleanBase)
  intro matched _
  apply alike_after_reading (visible_entries_reads mirrors clean cleanUser matched)
  intro visible _
  exact reads_pure trivial

theorem handle_compare_reads (mirrors : Mirrors db store) (clean : CleanConfig server.config)
    (cleanUser : 0 ∉ session.bindDn) {request : LdapMessage} (cleanDn : 0 ∉ request.compare.dn) :
    ReadsAlike (handleCompare server session request) store db fun _ => True := by
  unfold handleCompare
  simp only
  split
  · exact reads_pure trivial
  apply alike_after_reading (AccessControl.may_search_reads mirrors clean cleanUser _)
  intro allowed _
  split
  · exact reads_pure trivial
  apply alike_after_reading (reads_lookup mirrors cleanDn)
  intro found _
  split
  · exact reads_pure trivial
  · split
    · exact reads_pure trivial
    · exact reads_pure trivial

end Reading

section Writing

theorem commit_keeps {response refusal : LdapMessage} (mirrors : Mirrors db store)
    (written : Bool) :
    KeepsMirror (if !written then pure refusal else do
      Backend.persist
      pure response) store db := by
  split
  · exact keeps_pure mirrors
  · exact alike_persist (keeps_pure mirrors)

theorem handle_add_keeps (mirrors : Mirrors db store) (clean : CleanConfig server.config)
    (cleanUser : 0 ∉ session.bindDn) {request : LdapMessage} (cleanDn : 0 ∉ request.add.dn)
    (brings : ∀ item ∈ request.add.attributes, nulFree.FitsRow (item.type, item.values)) :
    KeepsMirror (handleAdd server context session request) store db := by
  have cleanParent : 0 ∉ dnParent request.add.dn := fun member => cleanDn (dn_parent_subset _ member)
  unfold handleAdd
  simp only
  apply alike_after_reading (may_write_reads mirrors clean cleanUser _)
  intro allowed _
  split
  · exact keeps_pure mirrors
  split
  · exact keeps_pure mirrors
  apply alike_after_reading (reads_lookup mirrors cleanDn)
  intro existing _
  split
  · exact keeps_pure mirrors
  apply alike_after_reading (empty_or_stored_reads mirrors cleanParent)
  intro placed _
  split
  · exact keeps_pure mirrors
  split
  · exact keeps_pure mirrors
  have fits := TextRules.added_entry_fits server.openssl context.salts cleanDn brings
  apply alike_add mirrors ((storable_iff _).mpr fits)
  intro added reached otherReached after
  exact commit_keeps after added

/-- What the three handlers that change a stored entry do behind the change. -/
theorem modified_keeps (mirrors : Mirrors db store) {old entry : DirectoryEntry}
    (held : Held store old) (kept : entry.dn = old.dn) (fits : nulFree.Fits entry)
    {rest : Bool → BackendProgram LdapMessage}
    (next : ∀ modified reached otherReached, Mirrors otherReached reached →
      KeepsMirror (rest modified) reached otherReached)
    {refusal : LdapMessage} {schema : ResultCode × Bytes} :
    KeepsMirror (if schema.1 ≠ .success then pure refusal else Backend.modify entry >>= rest)
      store db := by
  split
  · exact keeps_pure mirrors
  · exact alike_modify mirrors ((storable_iff _).mpr fits) held kept next

theorem handle_modify_keeps (mirrors : Mirrors db store) (clean : CleanConfig server.config)
    (cleanUser : 0 ∉ session.bindDn) {request : LdapMessage} (cleanDn : 0 ∉ request.modify.dn)
    (brings : ∀ change ∈ request.modify.changes, nulFree.FitsChange change) :
    KeepsMirror (handleModify server context session request) store db := by
  unfold handleModify
  apply alike_after_reading (may_write_reads mirrors clean cleanUser _)
  intro allowed _
  split
  · exact keeps_pure mirrors
  apply alike_after_reading (reads_lookup mirrors cleanDn)
  intro found held
  cases found with
  | none => exact keeps_pure mirrors
  | some entry =>
      have stored := held entry rfl
      unfold modifyFound
      simp only
      split
      · exact keeps_pure mirrors
      rename_i succeeded
      have changed := ((storable_iff entry).mp stored.2).changes
        (TextRules.encoded_changes_fit server.openssl context.salts brings) (not_not.mp succeeded)
      apply modified_keeps mirrors stored (Modify.apply_modifications_frame _ _).1 changed
      intro modified reached otherReached after
      exact commit_keeps after modified

theorem handle_delete_keeps (mirrors : Mirrors db store) (clean : CleanConfig server.config)
    (cleanUser : 0 ∉ session.bindDn) {request : LdapMessage} (cleanDn : 0 ∉ request.deleteDn) :
    KeepsMirror (handleDelete server session request) store db := by
  unfold handleDelete
  simp only
  apply alike_after_reading (may_write_reads mirrors clean cleanUser _)
  intro allowed _
  split
  · exact keeps_pure mirrors
  apply alike_after_reading (reads_lookup mirrors cleanDn)
  intro found _
  split
  · exact keeps_pure mirrors
  apply alike_after_reading (reads_has_children mirrors cleanDn)
  intro parental _
  split
  · exact keeps_pure mirrors
  apply alike_remove mirrors cleanDn
  intro removed reached otherReached after
  exact commit_keeps after removed

/-- The names of a rename. -/
structure CleanRename (change : ModifyDnRequestData) : Prop where
  dn : 0 ∉ change.dn
  newRdn : 0 ∉ change.newRdn
  newSuperior : 0 ∉ change.newSuperior

theorem CleanRename.parent {change : ModifyDnRequestData} (clean : CleanRename change) :
    0 ∉ newParent change := by
  unfold newParent
  split
  · exact fun member => clean.dn (dn_parent_subset _ member)
  · exact clean.newSuperior

theorem CleanRename.target {change : ModifyDnRequestData} (clean : CleanRename change) :
    0 ∉ newDn change := compose_dn_clean clean.newRdn clean.parent

theorem handle_modify_dn_keeps (mirrors : Mirrors db store) (clean : CleanConfig server.config)
    (cleanUser : 0 ∉ session.bindDn) {request : LdapMessage}
    (cleanNames : CleanRename request.modifyDn) :
    KeepsMirror (handleModifyDn server session request) store db := by
  have access : ReadsAlike (mayWriteBoth server session request.modifyDn.dn
      (newDn request.modifyDn)) store db fun _ => True := by
    unfold mayWriteBoth
    apply alike_after_reading (may_write_reads mirrors clean cleanUser _)
    intro allowed _
    split
    · exact may_write_reads mirrors clean cleanUser _
    · exact reads_pure trivial
  have target : ReadsAlike (targetTaken request.modifyDn) store db fun _ => True := by
    unfold targetTaken
    split
    · exact reads_pure trivial
    · apply alike_after_reading (reads_lookup mirrors cleanNames.target)
      intro found _
      exact reads_pure trivial
  unfold handleModifyDn
  simp only
  split
  · exact keeps_pure mirrors
  apply alike_after_reading access
  intro allowed _
  split
  · exact keeps_pure mirrors
  apply alike_after_reading (reads_lookup mirrors cleanNames.dn)
  intro found held
  split
  · exact keeps_pure mirrors
  rename_i entry
  have stored := held entry rfl
  apply alike_after_reading (empty_or_stored_reads mirrors cleanNames.parent)
  intro placed _
  split
  · exact keeps_pure mirrors
  apply alike_after_reading target
  intro taken _
  split
  · exact keeps_pure mirrors
  split
  · exact keeps_pure mirrors
  rename_i renamed applied
  have renamedFits : nulFree.Fits renamed := ((storable_iff entry).mp stored.2).renamed
    (fun _ _ => parse_rdn_clean cleanNames.newRdn) applied
  apply modified_keeps mirrors stored (renamed_entry_frame applied) renamedFits
  intro modified reached otherReached after
  split
  · exact keeps_pure after
  apply alike_rename after cleanNames.dn cleanNames.target
  intro moved movedStore movedDb afterMove
  exact commit_keeps afterMove moved

/-- The names and the new password of a password modify request. -/
def CleanPassword (request : LdapMessage) : Prop :=
  ∀ change, decodePasswordModifyValue request.extendedValue = some change →
    0 ∉ change.userIdentity ∧ ∀ newPassword, change.newPassword = some newPassword → 0 ∉ newPassword

theorem handle_password_modify_keeps (mirrors : Mirrors db store)
    (clean : CleanConfig server.config) (cleanUser : 0 ∉ session.bindDn) {request : LdapMessage}
    (cleanRequest : CleanPassword request) :
    KeepsMirror (handlePasswordModify server context session request) store db := by
  unfold handlePasswordModify
  simp only
  split
  · exact keeps_pure mirrors
  split
  · exact keeps_pure mirrors
  split
  · exact keeps_pure mirrors
  rename_i change decoded
  obtain ⟨cleanIdentity, cleanNew⟩ := cleanRequest change decoded
  split
  · exact keeps_pure mirrors
  · exact keeps_pure mirrors
  rename_i newPassword nonempty given
  have identity : 0 ∉ (if change.userIdentity = [] then session.bindDn else change.userIdentity) := by
    split
    · exact cleanUser
    · exact cleanIdentity
  apply alike_after_reading (SimpleBindAuthenticator.resolve_name_reads mirrors clean identity)
  intro resolved cleanResolved
  split
  · exact keeps_pure mirrors
  rename_i target
  have cleanTarget := cleanResolved target rfl
  split
  · exact keeps_pure mirrors
  have permission : ReadsAlike (mayChangePassword server session target) store db
      fun _ => True := by
    unfold mayChangePassword
    split
    · exact reads_pure trivial
    · exact may_write_reads mirrors clean cleanUser _
  apply alike_after_reading permission
  intro allowed _
  split
  · exact keeps_pure mirrors
  have oldChecked : ReadsAlike (oldPasswordAccepted server target change.oldPassword) store db
      fun _ => True := by
    unfold oldPasswordAccepted
    split
    · exact reads_pure trivial
    · apply alike_after_reading
        (SimpleBindAuthenticator.bind_reads mirrors clean server.openssl cleanTarget _)
      intro code _
      exact reads_pure trivial
  apply alike_after_reading oldChecked
  intro accepted _
  split
  · exact keeps_pure mirrors
  apply alike_after_reading (reads_lookup mirrors cleanTarget)
  intro found held
  split
  · exact keeps_pure mirrors
  rename_i entry
  have stored := held entry rfl
  split
  · exact keeps_pure mirrors
  rename_i succeeded
  have changed := ((storable_iff entry).mp stored.2).changes
    (TextRules.password_change_fits server.openssl _ (cleanNew newPassword given))
    (not_not.mp succeeded)
  apply modified_keeps mirrors stored (Modify.apply_modifications_frame _ _).1 changed
  intro modified reached otherReached after
  exact commit_keeps after modified

end Writing

section Requests

/-- What keeps a request inside what the two backends agree on: no text that it can hand
to them has a NUL byte, and no value list that it stores is empty. -/
structure CleanRequest (context : RequestContext) (request : LdapMessage) : Prop where
  bind : request.op = .bindRequest → Sasl.CleanBind context.toBindContext request.bind
  search : request.op = .searchRequest → 0 ∉ request.search.baseDn
  compare : request.op = .compareRequest → 0 ∉ request.compare.dn
  add : request.op = .addRequest →
    0 ∉ request.add.dn ∧
      ∀ item ∈ request.add.attributes, nulFree.FitsRow (item.type, item.values)
  modify : request.op = .modifyRequest →
    0 ∉ request.modify.dn ∧ ∀ change ∈ request.modify.changes, nulFree.FitsChange change
  delete : request.op = .delRequest → 0 ∉ request.deleteDn
  rename : request.op = .modifyDnRequest → CleanRename request.modifyDn
  password : IsPasswordModify request → CleanPassword request

/-- The backends mirror each other and the session goes on under a DN without NUL bytes. -/
def TurnKeeps (outcome : Option Reply) (reached : MemoryStore) (otherReached : Database) : Prop :=
  Mirrors otherReached reached ∧ ∀ reply, outcome = some reply → 0 ∉ reply.session.bindDn

theorem reply_keeps {program : BackendProgram LdapMessage} (cleanUser : 0 ∉ session.bindDn)
    (keeps : KeepsMirror program store db) :
    Alike (program >>= fun response => pure (reply session response)) store db TurnKeeps := by
  apply Program.in_step_bind keeps
  intro response reached otherReached mirrors
  refine ⟨mirrors, ?_⟩
  intro answer given
  cases given
  exact cleanUser

theorem handle_request_keeps (mirrors : Mirrors db store) (clean : CleanConfig server.config)
    (cleanUser : 0 ∉ session.bindDn) {request : LdapMessage}
    (cleanRequest : CleanRequest context request) :
    Alike (handleRequest server context session request) store db TurnKeeps := by
  have stays (outcome : Option Reply) (same : ∀ reply, outcome = some reply →
      reply.session = session) : Alike (pure outcome) store db TurnKeeps := by
    refine ⟨mirrors, ?_⟩
    intro answer given
    rw [same answer given]
    exact cleanUser
  unfold handleRequest
  split
  · apply stays
    intro answer given
    cases given
    rfl
  · rename_i op
    apply alike_after_reading
      (handle_search_reads mirrors clean cleanUser (cleanRequest.search op))
    intro sent _
    apply stays
    intro answer given
    obtain ⟨messages, _, rfl⟩ := Option.map_eq_some_iff.mp given
    rfl
  · rename_i op
    apply alike_after_reading (handle_bind_reads mirrors clean (cleanRequest.bind op))
    intro outcome cleanAfter
    refine ⟨mirrors, ?_⟩
    intro answer given
    cases given
    exact cleanAfter
  · rename_i op
    obtain ⟨cleanDn, brings⟩ := cleanRequest.modify op
    exact reply_keeps cleanUser (handle_modify_keeps mirrors clean cleanUser cleanDn brings)
  · rename_i op
    obtain ⟨cleanDn, brings⟩ := cleanRequest.add op
    exact reply_keeps cleanUser (handle_add_keeps mirrors clean cleanUser cleanDn brings)
  · rename_i op
    exact reply_keeps cleanUser (handle_delete_keeps mirrors clean cleanUser (cleanRequest.delete op))
  · rename_i op
    exact reply_keeps cleanUser
      (handle_modify_dn_keeps mirrors clean cleanUser (cleanRequest.rename op))
  · rename_i op
    exact reply_keeps cleanUser (keeps_reading mirrors
      (handle_compare_reads mirrors clean cleanUser (cleanRequest.compare op)))
  · rename_i op
    have answered (response : LdapMessage) :
        Alike (pure (reply session response)) store db TurnKeeps := by
      apply stays
      intro answer given
      cases given
      rfl
    unfold handleExtended
    simp only
    split
    · split
      · exact answered _
      · apply stays
        intro answer given
        cases given
        rfl
    · rename_i notStartTls
      split
      · rename_i isPassword
        exact reply_keeps cleanUser (handle_password_modify_keeps mirrors clean cleanUser
          (cleanRequest.password ⟨op, isPassword⟩))
      · split
        · exact answered _
        · exact answered _
  · apply stays
    intro answer given
    cases given
    rfl

variable {Connection : Type} [DecidableEq Connection]

/-- The requests of many connections, each handled to its end before the next one. A
connection without a session is closed. -/
def serveAll (server : Server) :
    (Connection → Option SessionState) → List (Connection × RequestContext × LdapMessage) →
      BackendProgram (Option (List (Connection × List LdapMessage)))
  | _, [] => pure (some [])
  | sessions, (connection, context, request) :: rest =>
      match sessions connection with
      | none => serveAll server sessions rest
      | some session => do
          let outcome ← handleRequest server context session request
          match outcome with
          | none => pure none
          | some reply => do
              let kept := if reply.continues then some reply.session else none
              let later ← serveAll server (Function.update sessions connection kept) rest
              pure (later.map fun answers => (connection, reply.messages) :: answers)

theorem serve_all_keeps (clean : CleanConfig server.config)
    {requests : List (Connection × RequestContext × LdapMessage)}
    (cleanRequests : ∀ request ∈ requests, CleanRequest request.2.1 request.2.2)
    {sessions : Connection → Option SessionState}
    (cleanUsers : ∀ connection session, sessions connection = some session → 0 ∉ session.bindDn)
    (mirrors : Mirrors db store) : KeepsMirror (serveAll server sessions requests) store db := by
  induction requests generalizing sessions store db with
  | nil => exact keeps_pure mirrors
  | cons next rest ih =>
      obtain ⟨connection, context, request⟩ := next
      have cleanRest : ∀ request ∈ rest, CleanRequest request.2.1 request.2.2 :=
        fun other member => cleanRequests other (by simp [member])
      unfold serveAll
      split
      · exact ih cleanRest cleanUsers mirrors
      · rename_i session connected
        have here := cleanRequests (connection, context, request) (by simp)
        apply Program.in_step_bind (handle_request_keeps mirrors clean
          (cleanUsers connection session connected) here)
        intro outcome reached otherReached kept
        cases outcome with
        | none => exact keeps_pure kept.1
        | some reply =>
            have cleanAfter : ∀ other session, Function.update sessions connection
                (if reply.continues then some reply.session else none) other = some session →
                  0 ∉ session.bindDn := by
              intro other session there
              rw [Function.update_apply] at there
              split at there
              · split at there
                · cases there
                  exact kept.2 reply rfl
                · cases there
              · exact cleanUsers other session there
            apply Program.in_step_bind (ih cleanRest cleanAfter kept.1)
            intro later laterStore laterDb after
            exact keeps_pure after

/-- Whatever the connections send, in whatever order their requests come, a server over
SQLite answers it as a server over memory does, and goes on doing so. -/
theorem sqlite_serves_as_memory (clean : CleanConfig server.config)
    {sessions : Connection → Option SessionState}
    (cleanUsers : ∀ connection session, sessions connection = some session → 0 ∉ session.bindDn)
    (mirrors : Mirrors db store)
    {requests : List (Connection × RequestContext × LdapMessage)}
    (cleanRequests : ∀ request ∈ requests, CleanRequest request.2.1 request.2.2) :
    ((serveAll server sessions requests).run exec db).1 =
        ((serveAll server sessions requests).run MemoryBackend.exec store).1 ∧
      Mirrors ((serveAll server sessions requests).run exec db).2
        ((serveAll server sessions requests).run MemoryBackend.exec store).2 :=
  (serve_all_keeps clean cleanRequests cleanUsers mirrors).runs_agree

/-- One connection binds as the root DN and adds an entry, another one reads it. -/
def addThenRead : List (Bool × RequestContext × LdapMessage) :=
  [(true, {}, { op := .bindRequest
                bind := { dn := text "cn=admin,dc=example,dc=com", password := text "secret" } }),
    (true, {}, { op := .addRequest
                 add := { dn := text "cn=A"
                          attributes := [{ type := text "cn", values := [text "a"] }] } }),
    (false, {}, { op := .compareRequest
                  compare := { dn := text "CN=a", attributeName := text "CN"
                               value := text "A" } })]

def rootServer : Server := { config := { rootPassword := text "secret" } }

theorem add_then_read_clean :
    CleanConfig rootServer.config ∧
      ∀ request ∈ addThenRead, CleanRequest request.2.1 request.2.2 := by
  constructor
  · refine ⟨by decide, by decide, ?_⟩
    intro rule member
    cases member
  · intro request member
    simp only [addThenRead, List.mem_cons, List.not_mem_nil, or_false] at member
    rcases member with bound | added | compared
    · rw [bound]
      constructor <;> try simp [IsPasswordModify]
      exact ⟨by decide, by decide, by decide⟩
    · rw [added]
      constructor <;> try simp [IsPasswordModify]
      exact ⟨by decide, show (0 : Byte) ∉ text "cn" by decide, by decide,
        show ∀ value ∈ [text "a"], (0 : Byte) ∉ value by decide⟩
    · rw [compared]
      constructor <;> try simp [IsPasswordModify]
      decide

theorem added_entry_read_over_sqlite :
    ((serveAll rootServer (fun _ => some {}) addThenRead).run exec {}).1 =
        ((serveAll rootServer (fun _ => some {}) addThenRead).run MemoryBackend.exec
          OrderedMap.empty).1 ∧
      Mirrors ((serveAll rootServer (fun _ => some {}) addThenRead).run exec {}).2
        ((serveAll rootServer (fun _ => some {}) addThenRead).run MemoryBackend.exec
          OrderedMap.empty).2 := by
  apply sqlite_serves_as_memory add_then_read_clean.1 _ mirrors_empty add_then_read_clean.2
  intro connection session connected
  cases connected
  simp

end Requests

end Session

end SimpleLdapd
