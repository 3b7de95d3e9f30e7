import SimpleLdapd.Core.Session

/-!
# What one write request can do

Run with no other session writing, a write handler either refuses and leaves the
store alone, or answers success after exactly one of five effects. The results
about access, tree shape and failures read this case distinction and never look
into a handler again.
-/

namespace SimpleLdapd.Session

open Dn MemoryBackend

variable (server : Server) (context : RequestContext) (session : SessionState)

/-- The session is bound and the access control grants it the write. -/
def Allowed (store : MemoryStore) (dn : Bytes) : Prop :=
  session.bound = true ∧
    ((AccessControl.mayWrite server.config session.bindDn dn).run exec store).1 = true

/-- Holder of a password: root, the account itself, or a session with write access. -/
def MayChangePassword (store : MemoryStore) (target : Bytes) : Prop :=
  session.bound = true ∧
    (Allowed server session store target ∨ dnEquals session.bindDn target = true)

/-- The checks that `handleModifyDn` makes before it writes. -/
structure RenameAccepted (store : MemoryStore) (change : ModifyDnRequestData) : Prop where
  named : change.newRdn ≠ []
  source : Allowed server session store change.dn
  target : Allowed server session store (newDn change)
  placed : newParent change = [] ∨ lookup store (newParent change) ≠ none
  free : toLowerAscii change.dn = toLowerAscii (newDn change) ∨ lookup store (newDn change) = none
  valid : ∃ old entry, lookup store change.dn = some old ∧ renamedEntry change old = .ok entry ∧
    (checkSchema server entry).1 = .success

/-- An error code other than the one of a backend call that fails after its checks. -/
def IsRefusal (code : ResultCode) : Prop := code ≠ .success ∧ code ≠ .operationsError

instance (code : ResultCode) : Decidable (IsRefusal code) := inferInstanceAs (Decidable (_ ∧ _))

def IsPasswordModify (request : LdapMessage) : Prop :=
  request.op = .extendedRequest ∧ request.extendedOid = Message.kPasswordModifyOid

/-- The response code of a write request and the store it leaves. -/
inductive WriteOutcome (store : MemoryStore) (request : LdapMessage) :
    ResultCode → MemoryStore → Prop where
  | refused {code : ResultCode} (refusal : IsRefusal code) : WriteOutcome store request code store
  | added (entry : DirectoryEntry) (allowed : Allowed server session store entry.dn)
      (placed : dnParent entry.dn = [] ∨ lookup store (dnParent entry.dn) ≠ none)
      (written : (add store entry).1 = true) :
      WriteOutcome store request .success (add store entry).2
  | modified (entry : DirectoryEntry) (allowed : Allowed server session store entry.dn)
      (written : (modify store entry).1 = true) :
      WriteOutcome store request .success (modify store entry).2
  | removed (dn : Bytes) (allowed : Allowed server session store dn)
      (childless : hasChildren store dn = false) (written : (remove store dn).1 = true) :
      WriteOutcome store request .success (remove store dn).2
  | renamed (old entry : DirectoryEntry) (isRename : request.op = .modifyDnRequest)
      (found : lookup store request.modifyDn.dn = some old) (sameDn : entry.dn = old.dn)
      (accepted : RenameAccepted server session store request.modifyDn)
      (written : (modify store entry).1 = true)
      (moved : (rename (modify store entry).2 request.modifyDn.dn (newDn request.modifyDn)).1 =
        true) :
      WriteOutcome store request .success
        (rename (modify store entry).2 request.modifyDn.dn (newDn request.modifyDn)).2
  | passwordChanged (old entry : DirectoryEntry)
      (isPasswordModify : IsPasswordModify request)
      (target : Bytes) (found : lookup store target = some old) (hashed : Bytes)
      (replaced : entry = (Modify.applyModifications old
        [{ op := .replace, type := text "userPassword", values := [hashed] }]).2)
      (permitted : MayChangePassword server session store target)
      (written : (modify store entry).1 = true) :
      WriteOutcome store request .success (modify store entry).2

/-- The entry that `handleAdd` stores. -/
def addedEntry (request : LdapMessage) : DirectoryEntry :=
  Password.encodeUserPasswords server.openssl context.salts (Message.toDirectoryEntry request.add)

/-- The checks that `handleAdd` makes before it writes. -/
structure AddAccepted (store : MemoryStore) (request : LdapMessage) : Prop where
  named : request.add.dn ≠ []
  allowed : Allowed server session store request.add.dn
  free : lookup store request.add.dn = none
  placed : dnParent request.add.dn = [] ∨ lookup store (dnParent request.add.dn) ≠ none
  valid : (checkSchema server (addedEntry server context request)).1 = .success

/-- A handler answers success after a commit it is entitled to, or refuses and leaves
the store alone; `denied` is what the refusal says about the request. -/
def Settles (granted : MemoryStore → Prop) (denied : Prop) (store : MemoryStore)
    (code : ResultCode) (after : MemoryStore) : Prop :=
  (code = .success ∧ granted after) ∨ (denied ∧ IsRefusal code ∧ after = store)

/-- What one request does to the store, with the entry it writes. A refused Add or
ModifyDN is one whose checks fail. -/
inductive WriteEffect (store : MemoryStore) (request : LdapMessage) : MemoryStore → Prop where
  | unchanged
      (notAdded : request.op = .addRequest → ¬ AddAccepted server context session store request)
      (notRenamed : request.op = .modifyDnRequest →
        ¬ RenameAccepted server session store request.modifyDn) :
      WriteEffect store request store
  | added (isAdd : request.op = .addRequest)
      (accepted : AddAccepted server context session store request) :
      WriteEffect store request (add store (addedEntry server context request)).2
  | modified (isModify : request.op = .modifyRequest) (old entry : DirectoryEntry)
      (found : lookup store request.modify.dn = some old)
      (applied : Modify.applyModifications old (Password.encodeUserPasswordChanges server.openssl
        context.salts request.modify.changes) = (.success, entry)) :
      WriteEffect store request (modify store entry).2
  | removed (isDelete : request.op = .delRequest) :
      WriteEffect store request (remove store request.deleteDn).2
  | renamed (isRename : request.op = .modifyDnRequest)
      (accepted : RenameAccepted server session store request.modifyDn)
      (old entry : DirectoryEntry) (found : lookup store request.modifyDn.dn = some old)
      (applied : renamedEntry request.modifyDn old = .ok entry) :
      WriteEffect store request
        (rename (modify store entry).2 request.modifyDn.dn (newDn request.modifyDn)).2
  | passwordChanged (isPasswordModify : IsPasswordModify request) (target newPassword : Bytes)
      (old : DirectoryEntry) (found : lookup store target = some old) :
      WriteEffect store request (modify store (Modify.applyModifications old
        [{ op := .replace, type := text "userPassword"
           values := [Password.encodeUserPassword server.openssl (context.salts .newPassword)
             newPassword] }]).2).2

variable {store : MemoryStore}

theorem may_write_read_only (dn : Bytes) :
    (mayWrite server session dn).Issues BackendCall.Reads := by
  unfold mayWrite
  split
  · exact AccessControl.may_write_read_only server.config session.bindDn dn
  · trivial

theorem empty_or_stored_read_only (dn : Bytes) :
    (emptyOrStored dn).Issues BackendCall.Reads := by
  unfold emptyOrStored
  split
  · trivial
  · apply Program.issues_bind (Program.issues_perform trivial)
    intro found
    trivial

theorem may_write_iff (store : MemoryStore) (dn : Bytes) :
    ((mayWrite server session dn).run exec store).1 = true ↔ Allowed server session store dn := by
  unfold mayWrite Allowed
  split
  · rename_i bound
    simp [bound]
  · rename_i unbound
    simp [unbound]

/-- A check that only reads continues with what it decided. -/
theorem ensures_decision {Value : Type} {check : BackendProgram Bool} {holds : Prop}
    {rest : Bool → BackendProgram Value} {post : Value → MemoryStore → Prop}
    (readOnly : check.Issues BackendCall.Reads)
    (decides : (check.run exec store).1 = true ↔ holds)
    (denied : ¬ holds → Program.Ensures exec (rest false) store post)
    (granted : holds → Program.Ensures exec (rest true) store post) :
    Program.Ensures exec (check >>= rest) store post := by
  apply ensures_read readOnly
  intro decision decided
  rw [decided] at decides
  cases decision with
  | false => exact denied (by simpa using decides)
  | true => exact granted (decides.mp rfl)

theorem empty_or_stored_iff (store : MemoryStore) (dn : Bytes) :
    ((emptyOrStored dn).run exec store).1 = true ↔ dn = [] ∨ lookup store dn ≠ none := by
  unfold emptyOrStored
  split
  · rename_i empty
    simp [empty]
  · rename_i named
    simp [named, Backend.lookup, exec, Option.isSome_iff_ne_none]

theorem check_schema_codes (entry : DirectoryEntry) :
    (checkSchema server entry).1 ∈ ResultCode.contentCodes := by
  unfold checkSchema
  split
  · exact (by decide : ResultCode.success ∈ ResultCode.contentCodes)
  · exact SchemaRegistry.validate_entry_codes _ entry

/-- A code about the content of an entry is a refusal unless it is success. -/
theorem content_refusal {code : ResultCode} (failed : code ≠ .success)
    (content : code ∈ ResultCode.contentCodes) : IsRefusal code :=
  ⟨failed, ResultCode.content_code_ne content (by decide)⟩

theorem Allowed.congr {server : Server} {session : SessionState} {dn other : Bytes}
    (allowed : Allowed server session store dn) (same : toLowerAscii dn = toLowerAscii other) :
    Allowed server session store other := by
  refine ⟨allowed.1, ?_⟩
  rw [← AccessControl.may_write_congr server.config session.bindDn same]
  exact allowed.2

theorem ensures_refused {granted : MemoryStore → Prop} {denied : Prop} {messageId : Int32}
    {op : ProtocolOp} {code : ResultCode} {diagnostic : Bytes} (holds : denied)
    (refusal : IsRefusal code) :
    Program.Ensures exec (pure (Message.makeLdapResult messageId op code diagnostic)) store
      fun response after => Settles granted denied store response.result after :=
  Program.ensures_pure (Or.inr ⟨holds, refusal, rfl⟩)

/-- The end of every write handler: persist and answer success. -/
theorem ensures_committed {granted : MemoryStore → Prop} {denied : Prop} {messageId : Int32}
    {op : ProtocolOp} {after : MemoryStore} (holds : granted after) :
    Program.Ensures exec
      (do Backend.persist; pure (Message.makeLdapResult messageId op .success [])) after
      fun response reached => Settles granted denied store response.result reached :=
  ensures_persist (Program.ensures_pure (Or.inl ⟨rfl, holds⟩))

theorem Settles.outcome {server : Server} {session : SessionState} {request : LdapMessage}
    {granted : MemoryStore → Prop} {denied : Prop} {code : ResultCode} {after : MemoryStore}
    (settled : Settles granted denied store code after)
    (committed : granted after → WriteOutcome server session store request .success after) :
    WriteOutcome server session store request code after := by
  rcases settled with ⟨success, holds⟩ | ⟨_, refusal, same⟩
  · rw [success]
    exact committed holds
  · rw [same]
    exact WriteOutcome.refused refusal

theorem AddAccepted.written {server : Server} {context : RequestContext} {session : SessionState}
    {request : LdapMessage} (accepted : AddAccepted server context session store request) :
    (add store (addedEntry server context request)).1 = true :=
  add_succeeds accepted.named accepted.free

theorem handle_add_settles (request : LdapMessage) :
    Program.Ensures exec (handleAdd server context session request) store fun response after =>
      Settles
        (fun after => AddAccepted server context session store request ∧
          after = (add store (addedEntry server context request)).2)
        (¬ AddAccepted server context session store request) store response.result after := by
  unfold handleAdd
  apply ensures_decision (may_write_read_only server session _) (may_write_iff server session store _)
  · intro denied
    exact ensures_refused (fun accepted => denied accepted.allowed) (by decide)
  intro allowed
  simp only [Bool.not_true, Bool.false_eq_true, if_false]
  split
  · rename_i unnamed
    exact ensures_refused (fun accepted => accepted.named unnamed) (by decide)
  rename_i named
  apply ensures_lookup
  intro existing found
  split
  · rename_i taken
    refine ensures_refused (fun accepted => ?_) (by decide)
    rw [← found, accepted.free] at taken
    cases taken
  rename_i absent
  have free : lookup store request.add.dn = none := by simpa [found] using absent
  apply ensures_decision (empty_or_stored_read_only _) (empty_or_stored_iff store _)
  · intro missing
    exact ensures_refused (fun accepted => missing accepted.placed) (by decide)
  intro placed
  simp only [Bool.not_true, Bool.false_eq_true, if_false]
  split
  · rename_i invalid
    exact ensures_refused (fun accepted => invalid accepted.valid)
      (content_refusal invalid (check_schema_codes server _))
  rename_i valid
  have accepted : AddAccepted server context session store request :=
    ⟨named, allowed, free, placed, not_not.mp valid⟩
  apply ensures_add accepted.written
  exact ensures_committed ⟨accepted, rfl⟩

theorem handle_add_outcome (request : LdapMessage) :
    Program.Ensures exec (handleAdd server context session request) store fun response after =>
      WriteOutcome server session store request response.result after := by
  apply (handle_add_settles server context session request).mono
  intro response after settled
  apply settled.outcome
  rintro ⟨accepted, same⟩
  rw [same]
  exact WriteOutcome.added _ accepted.allowed accepted.placed accepted.written

theorem handle_modify_settles (invariant : StoreInvariant store) (request : LdapMessage) :
    Program.Ensures exec (handleModify server context session request) store fun response after =>
      Settles
        (fun after => Allowed server session store request.modify.dn ∧ ∃ old entry,
          lookup store request.modify.dn = some old ∧
          Modify.applyModifications old (Password.encodeUserPasswordChanges server.openssl
            context.salts request.modify.changes) = (.success, entry) ∧
          (modify store entry).1 = true ∧ after = (modify store entry).2)
        True store response.result after := by
  unfold handleModify
  apply ensures_decision (may_write_read_only server session _) (may_write_iff server session store _)
  · intro denied
    exact ensures_refused trivial (by decide)
  intro allowed
  simp only [Bool.not_true, Bool.false_eq_true, if_false]
  apply ensures_lookup
  intro existing found
  unfold modifyFound
  split
  · exact ensures_refused trivial (by decide)
  rename_i entry
  have frame := Modify.apply_modifications_frame entry
    (Password.encodeUserPasswordChanges server.openssl context.salts request.modify.changes)
  simp only
  split
  · rename_i failed
    exact ensures_refused trivial (content_refusal failed frame.2)
  rename_i applied
  split
  · rename_i invalid
    exact ensures_refused trivial (content_refusal invalid (check_schema_codes server _))
  have same := invariant.lookup_dn found
  rw [← frame.1] at same
  have written := modify_succeeds same found
  apply ensures_modify written
  exact ensures_committed ⟨allowed, entry, _, found, Prod.ext (not_not.mp applied) rfl, written, rfl⟩

theorem handle_modify_outcome (invariant : StoreInvariant store) (request : LdapMessage) :
    Program.Ensures exec (handleModify server context session request) store fun response after =>
      WriteOutcome server session store request response.result after := by
  apply (handle_modify_settles server context session invariant request).mono
  intro response after settled
  apply settled.outcome
  rintro ⟨allowed, old, entry, found, applied, written, same⟩
  have frame := (Modify.apply_modifications_frame old (Password.encodeUserPasswordChanges
    server.openssl context.salts request.modify.changes)).1
  rw [applied] at frame
  have spelled := invariant.lookup_dn found
  rw [← frame] at spelled
  rw [same]
  exact WriteOutcome.modified entry (allowed.congr spelled.symm) written

theorem handle_delete_settles (request : LdapMessage) :
    Program.Ensures exec (handleDelete server session request) store fun response after =>
      Settles
        (fun after => Allowed server session store request.deleteDn ∧
          hasChildren store request.deleteDn = false ∧
          (remove store request.deleteDn).1 = true ∧ after = (remove store request.deleteDn).2)
        True store response.result after := by
  unfold handleDelete
  apply ensures_decision (may_write_read_only server session _) (may_write_iff server session store _)
  · intro denied
    exact ensures_refused trivial (by decide)
  intro allowed
  simp only [Bool.not_true, Bool.false_eq_true, if_false]
  apply ensures_lookup
  intro existing found
  split
  · exact ensures_refused trivial (by decide)
  rename_i present
  apply ensures_has_children
  intro parental children
  split
  · exact ensures_refused trivial (by decide)
  rename_i childless
  have written : (remove store request.deleteDn).1 = true := by
    rw [remove_succeeds_iff, found]
    simpa using present
  apply ensures_remove written
  exact ensures_committed ⟨allowed, by simpa [children] using childless, written, rfl⟩

theorem handle_delete_outcome (request : LdapMessage) :
    Program.Ensures exec (handleDelete server session request) store fun response after =>
      WriteOutcome server session store request response.result after := by
  apply (handle_delete_settles server session request).mono
  intro response after settled
  apply settled.outcome
  rintro ⟨allowed, childless, written, same⟩
  rw [same]
  exact WriteOutcome.removed _ allowed childless written

/-- A naming value is changed by one modification, which succeeds or is tolerated. -/
theorem change_rdn_ok {entry changed : DirectoryEntry} {op : ModifyOp} {tolerated : ResultCode}
    {rdn : Option (Bytes × Bytes)}
    (applied : changeRdnValue entry op tolerated rdn = .ok changed) :
    (rdn = none ∧ changed = entry) ∨
      ∃ type value, rdn = some (type, value) ∧
        changed = (Modify.applyModification entry { op, type, values := [value] }).2 ∧
        ((Modify.applyModification entry { op, type, values := [value] }).1 = .success ∨
          (Modify.applyModification entry { op, type, values := [value] }).1 = tolerated) := by
  unfold changeRdnValue at applied
  split at applied
  · cases applied
    exact Or.inl ⟨rfl, rfl⟩
  · rename_i type value
    right
    simp only [Modify.apply_modifications_singleton] at applied
    split at applied
    · cases applied
    · rename_i accepted
      cases applied
      exact ⟨type, value, rfl, rfl, by tauto⟩

theorem change_rdn_frame {entry changed : DirectoryEntry} {op : ModifyOp} {tolerated : ResultCode}
    {rdn : Option (Bytes × Bytes)}
    (applied : changeRdnValue entry op tolerated rdn = .ok changed) : changed.dn = entry.dn := by
  rcases change_rdn_ok applied with ⟨_, same⟩ | ⟨type, value, _, same, _⟩
  · rw [same]
  · rw [same]
    exact (Modify.apply_modification_frame entry _).1

theorem change_rdn_codes {entry : DirectoryEntry} {op : ModifyOp} {tolerated code : ResultCode}
    {rdn : Option (Bytes × Bytes)}
    (failed : changeRdnValue entry op tolerated rdn = .error code) :
    code ≠ .success ∧ code ∈ ResultCode.contentCodes := by
  unfold changeRdnValue at failed
  split at failed
  · cases failed
  · simp only at failed
    split at failed
    · rename_i refused
      cases failed
      exact ⟨refused.1, (Modify.apply_modifications_frame entry _).2⟩
    · cases failed

/-- The entry of a rename, past both changes of its naming values. -/
theorem renamed_entry_ok {change : ModifyDnRequestData} {entry renamed : DirectoryEntry}
    (applied : renamedEntry change entry = .ok renamed) :
    ∃ removed,
      changeRdnValue entry .delete .noSuchAttribute
        (if change.deleteOldRdn then parseRdn (dnRdn change.dn) else none) = .ok removed ∧
      changeRdnValue removed .add .attributeOrValueExists (parseRdn change.newRdn) =
        .ok renamed := by
  unfold renamedEntry at applied
  cases first : changeRdnValue entry .delete .noSuchAttribute
      (if change.deleteOldRdn then parseRdn (dnRdn change.dn) else none) with
  | error code =>
      rw [first] at applied
      cases applied
  | ok removed =>
      rw [first] at applied
      exact ⟨removed, rfl, applied⟩

theorem renamed_entry_frame {change : ModifyDnRequestData} {entry renamed : DirectoryEntry}
    (applied : renamedEntry change entry = .ok renamed) : renamed.dn = entry.dn := by
  obtain ⟨removed, first, second⟩ := renamed_entry_ok applied
  exact (change_rdn_frame second).trans (change_rdn_frame first)

theorem renamed_entry_codes {change : ModifyDnRequestData} {entry : DirectoryEntry}
    {code : ResultCode} (failed : renamedEntry change entry = .error code) :
    code ≠ .success ∧ code ∈ ResultCode.contentCodes := by
  unfold renamedEntry at failed
  cases first : changeRdnValue entry .delete .noSuchAttribute
      (if change.deleteOldRdn then parseRdn (dnRdn change.dn) else none) with
  | error other =>
      rw [first] at failed
      cases failed
      exact change_rdn_codes first
  | ok removed =>
      rw [first] at failed
      exact change_rdn_codes failed

theorem change_rdn_invariant {Good : DirectoryEntry → Prop} {entry changed : DirectoryEntry}
    {op : ModifyOp} {tolerated : ResultCode} {rdn : Option (Bytes × Bytes)}
    (kept : ∀ type value, rdn = some (type, value) → ∀ entry, Good entry →
      Good (Modify.applyModification entry { op := op, type := type, values := [value] }).2)
    (good : Good entry) (applied : changeRdnValue entry op tolerated rdn = .ok changed) :
    Good changed := by
  rcases change_rdn_ok applied with ⟨_, same⟩ | ⟨type, value, parsed, same, _⟩
  · rw [same]
    exact good
  · rw [same]
    exact kept type value parsed entry good

/-- A property that survives the removal of the old and the addition of the new naming value. -/
theorem renamed_entry_invariant {Good : DirectoryEntry → Prop} {change : ModifyDnRequestData}
    {entry renamed : DirectoryEntry}
    (removes : ∀ type value entry, Good entry →
      Good (Modify.applyModification entry { op := .delete, type := type, values := [value] }).2)
    (adds : ∀ type value, parseRdn change.newRdn = some (type, value) → ∀ entry, Good entry →
      Good (Modify.applyModification entry { op := .add, type := type, values := [value] }).2)
    (good : Good entry) (applied : renamedEntry change entry = .ok renamed) : Good renamed := by
  obtain ⟨removed, first, second⟩ := renamed_entry_ok applied
  have middle := change_rdn_invariant (fun type value _ => removes type value) good first
  exact change_rdn_invariant adds middle second

theorem compose_dn_nonempty {rdn : Bytes} (named : rdn ≠ []) (parent : Bytes) :
    composeDn rdn parent ≠ [] := by
  unfold composeDn
  split_ifs with noParent
  · exact named
  · simp [named]

theorem may_write_both_read_only (source target : Bytes) :
    (mayWriteBoth server session source target).Issues BackendCall.Reads := by
  unfold mayWriteBoth
  apply Program.issues_bind (may_write_read_only server session source)
  intro allowed
  split
  · exact may_write_read_only server session target
  · trivial

theorem may_write_both_iff (store : MemoryStore) (source target : Bytes) :
    ((mayWriteBoth server session source target).run exec store).1 = true ↔
      Allowed server session store source ∧ Allowed server session store target := by
  unfold mayWriteBoth
  rw [Program.run_bind, run_read_only (may_write_read_only server session source),
    ← may_write_iff, ← may_write_iff]
  split
  · rename_i first
    simp [first]
  · rename_i first
    simp [first]

theorem target_taken_read_only (change : ModifyDnRequestData) :
    (targetTaken change).Issues BackendCall.Reads := by
  unfold targetTaken
  split
  · trivial
  · apply Program.issues_bind (Program.issues_perform trivial)
    intro found
    trivial

theorem target_taken_iff (store : MemoryStore) (change : ModifyDnRequestData) :
    ((targetTaken change).run exec store).1 = true ↔
      ¬ (toLowerAscii change.dn = toLowerAscii (newDn change) ∨
        lookup store (newDn change) = none) := by
  unfold targetTaken
  split
  · rename_i same
    simp [((dn_equals_iff _ _).mp same).symm]
  · rename_i different
    rw [dn_equals_iff] at different
    simp [Backend.lookup, exec, Ne.symm different, Option.isSome_iff_ne_none]

/-- The attribute change moves no entry, so the rename finds what was checked before it. -/
theorem RenameAccepted.moved {server : Server} {session : SessionState}
    {change : ModifyDnRequestData} (accepted : RenameAccepted server session store change)
    (invariant : StoreInvariant store) {old entry : DirectoryEntry}
    (found : lookup store change.dn = some old) (applied : renamedEntry change old = .ok entry) :
    (modify store entry).1 = true ∧
      (rename (modify store entry).2 change.dn (newDn change)).1 = true := by
  have same : toLowerAscii entry.dn = toLowerAscii change.dn := by
    rw [renamed_entry_frame applied]
    exact invariant.lookup_dn found
  have written := modify_succeeds same found
  have still := lookup_modified invariant written
  refine ⟨written, rename_succeeds (exec_invariant invariant (.modify entry)) ?_ ?_ ?_⟩
  · change lookup (modify store entry).2 _ ≠ none
    rw [still, if_pos same]
    exact nofun
  · exact compose_dn_nonempty accepted.named _
  · by_cases respelled : toLowerAscii change.dn = toLowerAscii (newDn change)
    · exact Or.inl respelled
    · right
      change lookup (modify store entry).2 _ = none
      rw [still, if_neg (by rwa [same])]
      exact accepted.free.resolve_left respelled

/-- The renamed entry is stored under its new DN, with the attributes it was given. -/
theorem RenameAccepted.stored {server : Server} {session : SessionState}
    {change : ModifyDnRequestData} (accepted : RenameAccepted server session store change)
    (invariant : StoreInvariant store) {old entry : DirectoryEntry}
    (found : lookup store change.dn = some old) (applied : renamedEntry change old = .ok entry) :
    ∃ stored, lookup (rename (modify store entry).2 change.dn (newDn change)).2 (newDn change) =
        some stored ∧ stored.attributes = entry.attributes := by
  obtain ⟨written, moved⟩ := accepted.moved invariant found applied
  have kept := exec_invariant invariant (.modify entry)
  have still : lookup (modify store entry).2 change.dn = some entry := by
    rw [lookup_modified invariant written, if_pos]
    rw [renamed_entry_frame applied]
    exact invariant.lookup_dn found
  by_cases respelled : toLowerAscii change.dn = toLowerAscii (newDn change)
  · have unmoved := rename_respelled kept respelled
    change (rename (modify store entry).2 _ _).2 = (modify store entry).2 at unmoved
    rw [unmoved, ← lookup_congr _ respelled, still]
    exact ⟨entry, rfl, rfl⟩
  · have located := lookup_renamed kept still respelled moved (newDn change)
    rw [if_pos rfl] at located
    exact ⟨_, located, rfl⟩

theorem handle_modify_dn_settles (invariant : StoreInvariant store) (request : LdapMessage) :
    Program.Ensures exec (handleModifyDn server session request) store fun response after =>
      Settles
        (fun after => RenameAccepted server session store request.modifyDn ∧ ∃ old entry,
          lookup store request.modifyDn.dn = some old ∧
          renamedEntry request.modifyDn old = .ok entry ∧
          after = (rename (modify store entry).2 request.modifyDn.dn (newDn request.modifyDn)).2)
        (¬ RenameAccepted server session store request.modifyDn) store response.result after := by
  unfold handleModifyDn
  simp only
  split
  · rename_i unnamed
    exact ensures_refused (fun accepted => accepted.named unnamed) (by decide)
  rename_i named
  apply ensures_decision (may_write_both_read_only server session _ _)
    (may_write_both_iff server session store _ _)
  · intro denied
    exact ensures_refused (fun accepted => denied ⟨accepted.source, accepted.target⟩) (by decide)
  intro allowed
  simp only [Bool.not_true, Bool.false_eq_true, if_false]
  apply ensures_lookup
  intro existing found
  split
  · refine ensures_refused (fun accepted => ?_) (by decide)
    obtain ⟨old, _, stored, _⟩ := accepted.valid
    rw [found] at stored
    cases stored
  rename_i old
  apply ensures_decision (empty_or_stored_read_only _) (empty_or_stored_iff store _)
  · intro missing
    exact ensures_refused (fun accepted => missing accepted.placed) (by decide)
  intro placed
  simp only [Bool.not_true, Bool.false_eq_true, if_false]
  apply ensures_decision (target_taken_read_only _) (target_taken_iff store _)
  case granted =>
    intro taken
    exact ensures_refused (fun accepted => taken accepted.free) (by decide)
  intro free
  simp only [Bool.false_eq_true, if_false]
  have checked {renamed : Except ResultCode DirectoryEntry}
      (applied : renamedEntry request.modifyDn old = renamed)
      (accepted : RenameAccepted server session store request.modifyDn) :
      ∃ entry, renamed = .ok entry ∧ (checkSchema server entry).1 = .success := by
    obtain ⟨stored, entry, located, produced, valid⟩ := accepted.valid
    rw [found, Option.some.injEq] at located
    rw [← applied, located]
    exact ⟨entry, produced, valid⟩
  split
  · rename_i code failed
    obtain ⟨unsuccessful, content⟩ := renamed_entry_codes failed
    refine ensures_refused (fun accepted => ?_) (content_refusal unsuccessful content)
    obtain ⟨_, produced, _⟩ := checked failed accepted
    cases produced
  rename_i entry applied
  split
  · rename_i invalid
    refine ensures_refused (fun accepted => ?_) (content_refusal invalid (check_schema_codes server _))
    obtain ⟨_, produced, valid⟩ := checked applied accepted
    cases produced
    exact invalid valid
  rename_i valid
  have accepted : RenameAccepted server session store request.modifyDn :=
    ⟨named, allowed.1, allowed.2, placed, not_not.mp free, old, entry, found, applied,
      not_not.mp valid⟩
  have done := accepted.moved invariant found applied
  apply ensures_modify done.1
  simp only [Bool.not_true, Bool.false_eq_true, if_false]
  apply ensures_rename done.2
  exact ensures_committed ⟨accepted, old, entry, found, applied, rfl⟩

theorem handle_modify_dn_outcome (invariant : StoreInvariant store) {request : LdapMessage}
    (isRename : request.op = .modifyDnRequest) :
    Program.Ensures exec (handleModifyDn server session request) store fun response after =>
      WriteOutcome server session store request response.result after := by
  apply (handle_modify_dn_settles server session invariant request).mono
  intro response after settled
  apply settled.outcome
  rintro ⟨accepted, old, entry, found, applied, same⟩
  have done := accepted.moved invariant found applied
  rw [same]
  exact WriteOutcome.renamed old entry isRename found (renamed_entry_frame applied) accepted
    done.1 done.2

theorem may_change_password_read_only (target : Bytes) :
    (mayChangePassword server session target).Issues BackendCall.Reads := by
  unfold mayChangePassword
  split
  · trivial
  · exact may_write_read_only server session target

theorem old_password_read_only (target : Bytes) (oldPassword : Option Bytes) :
    (oldPasswordAccepted server target oldPassword).Issues BackendCall.Reads := by
  unfold oldPasswordAccepted
  split
  · trivial
  · apply Program.issues_bind
      (SimpleBindAuthenticator.bind_read_only server.config server.openssl target _)
    intro code
    trivial

/-- A session bound as the root DN has write access everywhere. -/
theorem root_allowed (bound : session.bound = true) (named : session.bindDn ≠ [])
    (root : SimpleBindAuthenticator.isRootDn server.config session.bindDn = true) (dn : Bytes) :
    Allowed server session store dn := by
  refine ⟨bound, ?_⟩
  have isRoot : AccessControl.isRoot server.config session.bindDn = true := by
    simp only [SimpleBindAuthenticator.isRootDn, Bool.and_eq_true] at root
    simp [AccessControl.isRoot, named, root.2, of_decide_eq_true root.1]
  unfold AccessControl.mayWrite
  rw [if_pos isRoot]
  rfl

theorem may_change_password_permits {target : Bytes} (bound : session.bound = true)
    (named : session.bindDn ≠ [])
    (granted : ((mayChangePassword server session target).run exec store).1 = true) :
    MayChangePassword server session store target := by
  refine ⟨bound, ?_⟩
  unfold mayChangePassword at granted
  split at granted
  · rename_i own
    rcases (Bool.or_eq_true _ _).mp own with root | self
    · exact Or.inl (root_allowed server session bound named root target)
    · exact Or.inr self
  · exact Or.inl ((may_write_iff server session store target).mp granted)

/-- The request names this new password for the entry that its identity resolves to. -/
def PasswordAsked (store : MemoryStore) (request : LdapMessage) (target newPassword : Bytes) :
    Prop :=
  ∃ change, Message.decodePasswordModifyValue request.extendedValue = some change ∧
    change.newPassword = some newPassword ∧ newPassword ≠ [] ∧
    ((SimpleBindAuthenticator.resolveName server.config
      (if change.userIdentity = [] then session.bindDn else change.userIdentity)).run
        exec store).1 = some target ∧
    SimpleBindAuthenticator.isRootDn server.config target = false

theorem handle_password_modify_settles (invariant : StoreInvariant store) (request : LdapMessage) :
    Program.Ensures exec (handlePasswordModify server context session request) store
      fun response after => Settles
        (fun after => ∃ target newPassword old, MayChangePassword server session store target ∧
          PasswordAsked server session store request target newPassword ∧
          lookup store target = some old ∧
          (modify store (Modify.applyModifications old
            [{ op := .replace, type := text "userPassword"
               values := [Password.encodeUserPassword server.openssl
                 (context.salts .newPassword) newPassword] }]).2).1 = true ∧
          after = (modify store (Modify.applyModifications old
            [{ op := .replace, type := text "userPassword"
               values := [Password.encodeUserPassword server.openssl
                 (context.salts .newPassword) newPassword] }]).2).2)
        True store response.result after := by
  unfold handlePasswordModify
  simp only
  split
  · exact ensures_refused trivial (by decide)
  rename_i identified
  simp only [Bool.not_eq_true', not_or, Bool.not_eq_false] at identified
  split
  · exact ensures_refused trivial (by decide)
  split
  · exact ensures_refused trivial (by decide)
  rename_i change decoded
  split
  · exact ensures_refused trivial (by decide)
  · exact ensures_refused trivial (by decide)
  rename_i newPassword nonempty given
  apply ensures_read (SimpleBindAuthenticator.resolve_name_read_only server.config _)
  intro resolved found
  split
  · exact ensures_refused trivial (by decide)
  rename_i target
  split
  · exact ensures_refused trivial (by decide)
  rename_i notRoot
  have asked : PasswordAsked server session store request target newPassword :=
    ⟨change, decoded, given, fun empty => nonempty (empty ▸ rfl), found,
      Bool.eq_false_iff.mpr notRoot⟩
  apply ensures_read (may_change_password_read_only server session target)
  intro decision decided
  split
  · exact ensures_refused trivial (by decide)
  rename_i granted
  have permitted : MayChangePassword server session store target := by
    apply may_change_password_permits server session identified.1 identified.2
    rw [decided]
    simpa using granted
  apply ensures_read (old_password_read_only server target _)
  intro accepted _
  split
  · exact ensures_refused trivial (by decide)
  apply ensures_lookup
  intro existing found
  split
  · exact ensures_refused trivial (by decide)
  rename_i old
  have frame := Modify.apply_modifications_frame old
    [{ op := .replace, type := text "userPassword", values := [Password.encodeUserPassword
      server.openssl (context.salts .newPassword) newPassword] }]
  split
  · rename_i failed
    exact ensures_refused trivial (content_refusal failed frame.2)
  split
  · rename_i invalid
    exact ensures_refused trivial (content_refusal invalid (check_schema_codes server _))
  have same := invariant.lookup_dn found
  rw [← frame.1] at same
  have written := modify_succeeds same found
  apply ensures_modify written
  exact ensures_committed ⟨target, newPassword, old, permitted, asked, found, written, rfl⟩

theorem handle_password_modify_outcome (invariant : StoreInvariant store) {request : LdapMessage}
    (isPasswordModify : IsPasswordModify request) :
    Program.Ensures exec (handlePasswordModify server context session request) store
      fun response after => WriteOutcome server session store request response.result after := by
  apply (handle_password_modify_settles server context session invariant request).mono
  intro response after settled
  apply settled.outcome
  rintro ⟨target, newPassword, old, permitted, _, found, written, same⟩
  rw [same]
  exact WriteOutcome.passwordChanged old _ isPasswordModify target found _ rfl permitted written

section Dispatch

theorem handle_bind_read_only (request : LdapMessage) :
    (handleBind server context session request).Issues BackendCall.Reads := by
  unfold handleBind
  simp only
  split
  · trivial
  split
  · trivial
  split
  · split
    · trivial
    · apply Program.issues_bind (Sasl.sasl_bind_read_only server.config server.openssl _ _ _ _)
      intro outcome
      split <;> trivial
  split
  · trivial
  apply Program.issues_bind (SimpleBindAuthenticator.bind_read_only server.config server.openssl _ _)
  intro result
  split
  · split
    · trivial
    · apply Program.issues_bind (SimpleBindAuthenticator.resolve_name_read_only server.config _)
      intro resolved
      trivial
  · trivial

theorem search_matches_read_only (request : SearchRequestData) :
    (searchMatches server request).Issues BackendCall.Reads := by
  unfold searchMatches
  split
  · simp only
    split
    · trivial
    · apply Program.issues_bind (Program.issues_perform trivial)
      intro rest
      trivial
  · exact Program.issues_perform trivial

theorem visible_entries_read_only (entries : List DirectoryEntry) :
    (visibleEntries server session entries).Issues BackendCall.Reads := by
  induction entries with
  | nil => trivial
  | cons entry rest ih =>
      unfold visibleEntries
      apply Program.issues_bind (AccessControl.may_search_read_only server.config _ _)
      intro allowed
      apply Program.issues_bind ih
      intro later
      trivial

theorem may_search_base_read_only (base : Bytes) :
    (maySearchBase server session base).Issues BackendCall.Reads := by
  unfold maySearchBase
  split
  · trivial
  · exact AccessControl.may_search_read_only server.config _ _

theorem handle_search_read_only (request : LdapMessage) :
    (handleSearch server context session request).Issues BackendCall.Reads := by
  unfold handleSearch
  simp only
  split
  · trivial
  split
  · trivial
  apply Program.issues_bind (empty_or_stored_read_only _)
  intro found
  split
  · trivial
  apply Program.issues_bind (may_search_base_read_only server session _)
  intro allowed
  split
  · trivial
  apply Program.issues_bind (search_matches_read_only server _)
  intro matched
  apply Program.issues_bind (visible_entries_read_only server session _)
  intro visible
  trivial

theorem handle_compare_read_only (request : LdapMessage) :
    (handleCompare server session request).Issues BackendCall.Reads := by
  unfold handleCompare
  simp only
  split
  · trivial
  apply Program.issues_bind (AccessControl.may_search_read_only server.config _ _)
  intro allowed
  split
  · trivial
  apply Program.issues_bind (Program.issues_perform trivial)
  intro found
  split
  · trivial
  split <;> trivial

/-- The requests whose handlers call a backend write. -/
def IsWrite (request : LdapMessage) : Prop :=
  request.op = .addRequest ∨ request.op = .modifyRequest ∨ request.op = .delRequest ∨
    request.op = .modifyDnRequest ∨ IsPasswordModify request

theorem handle_extended_password_modify {request : LdapMessage}
    (oid : request.extendedOid = Message.kPasswordModifyOid) :
    handleExtended server context session request =
      (handlePasswordModify server context session request >>= fun response =>
        pure (reply session response)) := by
  have notStartTls : request.extendedOid ≠ kStartTlsOid := by
    rw [oid]
    decide
  unfold handleExtended
  simp only
  rw [if_neg notStartTls, if_pos oid]

theorem ensures_reply {handler : BackendProgram LdapMessage} {request : LdapMessage}
    (outcome : Program.Ensures exec handler store fun response after =>
      WriteOutcome server session store request response.result after) :
    Program.Ensures exec (do let response ← handler; pure (reply session response)) store
      fun replied after => ∃ response, replied = reply session response ∧
        WriteOutcome server session store request response.result after := by
  apply Program.ensures_bind
  apply outcome.mono
  intro response after written
  exact Program.ensures_pure ⟨response, rfl, written⟩

/-- A write request is answered with one message, and its code and store are an outcome. -/
theorem handle_write_reply (invariant : StoreInvariant store) {request : LdapMessage}
    (isWrite : IsWrite request) :
    Program.Ensures exec (handleRequest server context session request) store
      fun replied after => ∃ response, replied = reply session response ∧
        WriteOutcome server session store request response.result after := by
  unfold handleRequest
  rcases isWrite with op | op | op | op | ⟨op, oid⟩
  · rw [op]
    exact ensures_reply server session (handle_add_outcome server context session request)
  · rw [op]
    exact ensures_reply server session
      (handle_modify_outcome server context session invariant request)
  · rw [op]
    exact ensures_reply server session (handle_delete_outcome server session request)
  · rw [op]
    exact ensures_reply server session (handle_modify_dn_outcome server session invariant op)
  · rw [op]
    simp only
    rw [handle_extended_password_modify server context session oid]
    exact ensures_reply server session
      (handle_password_modify_outcome server context session invariant ⟨op, oid⟩)

/-- Every other request only reads. -/
theorem handle_other_read_only {request : LdapMessage} (isRead : ¬ IsWrite request) :
    (handleRequest server context session request).Issues BackendCall.Reads := by
  unfold IsWrite at isRead
  push Not at isRead
  obtain ⟨notAdd, notModify, notDelete, notRename, notPassword⟩ := isRead
  unfold handleRequest
  split
  · trivial
  · apply Program.issues_bind (handle_search_read_only server context session request)
    intro sent
    trivial
  · apply Program.issues_bind (handle_bind_read_only server context session request)
    intro outcome
    trivial
  · rename_i op
    exact absurd op notModify
  · rename_i op
    exact absurd op notAdd
  · rename_i op
    exact absurd op notDelete
  · rename_i op
    exact absurd op notRename
  · apply Program.issues_bind (handle_compare_read_only server session request)
    intro response
    trivial
  · rename_i op
    unfold handleExtended
    simp only
    split
    · split <;> trivial
    split
    · rename_i oid
      exact absurd ⟨op, oid⟩ notPassword
    split <;> trivial
  · trivial

theorem WriteOutcome.of_failure {server : Server} {session : SessionState} {request : LdapMessage}
    {code : ResultCode} {after : MemoryStore}
    (outcome : WriteOutcome server session store request code after)
    (failed : code ≠ .success) : after = store := by
  cases outcome with
  | refused => rfl
  | added => exact absurd rfl failed
  | modified => exact absurd rfl failed
  | removed => exact absurd rfl failed
  | renamed => exact absurd rfl failed
  | passwordChanged => exact absurd rfl failed

theorem WriteOutcome.expected {server : Server} {session : SessionState} {request : LdapMessage}
    {code : ResultCode} {after : MemoryStore}
    (outcome : WriteOutcome server session store request code after) :
    code ≠ .operationsError := by
  cases outcome with
  | refused refusal => exact refusal.2
  | added => decide
  | modified => decide
  | removed => decide
  | renamed => decide
  | passwordChanged => decide

/-- What handling one request can do to the store. -/
theorem handle_request_outcome (invariant : StoreInvariant store) (request : LdapMessage) :
    ((handleRequest server context session request).run exec store).2 = store ∨
      WriteOutcome server session store request .success
        ((handleRequest server context session request).run exec store).2 := by
  by_cases isWrite : IsWrite request
  · obtain ⟨response, _, outcome⟩ := handle_write_reply server context session invariant isWrite
    by_cases success : response.result = .success
    · right
      rw [success] at outcome
      exact outcome
    · exact Or.inl (outcome.of_failure success)
  · exact Or.inl (run_read_only (handle_other_read_only server context session isWrite) store)

theorem ensures_reply_store {handler : BackendProgram LdapMessage}
    {post : ResultCode → MemoryStore → Prop} {effect : MemoryStore → Prop}
    (settled : Program.Ensures exec handler store fun response after => post response.result after)
    (implies : ∀ code after, post code after → effect after) :
    Program.Ensures exec (do let response ← handler; pure (reply session response)) store
      fun _ after => effect after := by
  apply Program.ensures_bind
  apply settled.mono
  intro response after holds
  exact Program.ensures_pure (implies response.result after holds)

/-- What handling one request does to the store, with the entry it writes. -/
theorem handle_request_effect (invariant : StoreInvariant store) (request : LdapMessage) :
    WriteEffect server context session store request
      ((handleRequest server context session request).run exec store).2 := by
  by_cases isWrite : IsWrite request
  · have elsewhere {op : ProtocolOp} {refused : Prop} (isOp : request.op = op)
        {other : ProtocolOp} (different : op ≠ other) : request.op = other → ¬ refused := by
      intro same
      exact absurd (isOp.symm.trans same) different
    change Program.Ensures exec (handleRequest server context session request) store
      fun _ after => WriteEffect server context session store request after
    unfold handleRequest
    rcases isWrite with op | op | op | op | ⟨op, oid⟩
    · rw [op]
      apply ensures_reply_store session (handle_add_settles server context session request)
      rintro code after (⟨_, accepted, same⟩ | ⟨refused, _, same⟩)
      · rw [same]
        exact WriteEffect.added op accepted
      · rw [same]
        exact WriteEffect.unchanged (fun _ => refused) (elsewhere op (by decide))
    · rw [op]
      apply ensures_reply_store session
        (handle_modify_settles server context session invariant request)
      rintro code after (⟨_, _, old, entry, found, applied, _, same⟩ | ⟨_, _, same⟩)
      · rw [same]
        exact WriteEffect.modified op old entry found applied
      · rw [same]
        exact WriteEffect.unchanged (elsewhere op (by decide)) (elsewhere op (by decide))
    · rw [op]
      apply ensures_reply_store session (handle_delete_settles server session request)
      rintro code after (⟨_, _, _, _, same⟩ | ⟨_, _, same⟩)
      · rw [same]
        exact WriteEffect.removed op
      · rw [same]
        exact WriteEffect.unchanged (elsewhere op (by decide)) (elsewhere op (by decide))
    · rw [op]
      apply ensures_reply_store session
        (handle_modify_dn_settles server session invariant request)
      rintro code after (⟨_, accepted, old, entry, found, applied, same⟩ | ⟨refused, _, same⟩)
      · rw [same]
        exact WriteEffect.renamed op accepted old entry found applied
      · rw [same]
        exact WriteEffect.unchanged (elsewhere op (by decide)) (fun _ => refused)
    · rw [op]
      simp only
      rw [handle_extended_password_modify server context session oid]
      apply ensures_reply_store session
        (handle_password_modify_settles server context session invariant request)
      rintro code after (⟨_, target, newPassword, old, _, _, found, _, same⟩ | ⟨_, _, same⟩)
      · rw [same]
        exact WriteEffect.passwordChanged ⟨op, oid⟩ target newPassword old found
      · rw [same]
        exact WriteEffect.unchanged (elsewhere op (by decide)) (elsewhere op (by decide))
  · rw [run_read_only (handle_other_read_only server context session isWrite)]
    unfold IsWrite at isWrite
    push Not at isWrite
    exact WriteEffect.unchanged (fun op => absurd op isWrite.1)
      (fun op => absurd op isWrite.2.2.2.1)

/-- A property of entries that no request destroys, given what it writes. -/
theorem WriteEffect.keeps {server : Server} {context : RequestContext} {session : SessionState}
    {request : LdapMessage} {after : MemoryStore} {Good : DirectoryEntry → Prop}
    (effect : WriteEffect server context session store request after)
    (moves : ∀ entry dn, Good entry → Good { entry with dn := dn })
    (adds : request.op = .addRequest → AddAccepted server context session store request →
      Good (addedEntry server context request))
    (modifies : ∀ old, Good old → Good (Modify.applyModifications old
      (Password.encodeUserPasswordChanges server.openssl context.salts request.modify.changes)).2)
    (renames : request.op = .modifyDnRequest →
      RenameAccepted server session store request.modifyDn → ∀ old entry, Good old →
      renamedEntry request.modifyDn old = .ok entry → Good entry)
    (replaces : ∀ old newPassword, Good old → Good (Modify.applyModifications old
      [{ op := .replace, type := text "userPassword"
         values := [Password.encodeUserPassword server.openssl (context.salts .newPassword)
           newPassword] }]).2)
    (all : AllEntries Good store) : AllEntries Good after := by
  cases effect with
  | unchanged => exact all
  | added isAdd accepted => exact all.add (adds isAdd accepted)
  | modified isModify old entry found applied =>
      have written := modifies old (all.lookup found)
      rw [applied] at written
      exact all.modify written
  | removed => exact all.remove _
  | renamed isRename accepted old entry found applied =>
      exact (all.modify (renames isRename accepted old entry (all.lookup found) applied)).rename
        moves _ _
  | passwordChanged isPasswordModify target newPassword old found =>
      exact all.modify (replaces old newPassword (all.lookup found))

/-- A write request that is not answered success leaves the store as it was, and no
handler runs into a backend call that fails after its checks. -/
theorem failed_write_changes_nothing (reachable : Reachable store) {request : LdapMessage}
    (isWrite : IsWrite request) :
    ∃ response,
      ((handleRequest server context session request).run exec store).1 = reply session response ∧
        response.result ≠ .operationsError ∧
        (response.result ≠ .success →
          ((handleRequest server context session request).run exec store).2 = store) := by
  obtain ⟨response, replied, outcome⟩ :=
    handle_write_reply server context session reachable.invariant isWrite
  exact ⟨response, replied, outcome.expected, outcome.of_failure⟩

end Dispatch

section Administrator

/-- Two domain components, a unit below them and a person below the unit. -/
def smallDirectory : MemoryStore :=
  afterCalls OrderedMap.empty
    [.add { dn := text "dc=com" }, .add { dn := text "dc=example,dc=com" },
      .add { dn := text "ou=people,dc=example,dc=com" },
      .add { dn := text "cn=a,ou=people,dc=example,dc=com"
             attributes := OrderedMap.empty.insert (text "cn") [text "a"] }]

theorem small_directory_reachable : Reachable smallDirectory := Reachable.empty.after_calls _

def administrator : SessionState :=
  { bound := true, bindDn := text "cn=admin,dc=example,dc=com" }

/-- A rename of `cn=a` whose target DN is taken. -/
def collidingRename : LdapMessage :=
  { messageId := 7, op := .modifyDnRequest
    modifyDn := { dn := text "CN=A,ou=people,dc=example,dc=com", newRdn := text "ou=people"
                  newSuperior := text "dc=example,dc=com" } }

theorem colliding_rename_changes_nothing :
    ((handleRequest {} {} administrator collidingRename).run exec smallDirectory).2 =
      smallDirectory := by
  obtain ⟨response, replied, _, unchanged⟩ :=
    failed_write_changes_nothing {} {} administrator small_directory_reachable
      (Or.inr (Or.inr (Or.inr (Or.inl rfl))) : IsWrite collidingRename)
  apply unchanged
  have refused : ((handleRequest {} {} administrator collidingRename).run exec smallDirectory).1.map
      (fun replied => replied.messages.map (·.result)) = some [.entryAlreadyExists] := by
    decide +kernel
  rw [replied] at refused
  simp only [reply, Option.map_some, List.map_cons, List.map_nil, Option.some.injEq,
    List.cons.injEq, and_true] at refused
  rw [refused]
  decide

end Administrator

end SimpleLdapd.Session
