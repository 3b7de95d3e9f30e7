import SimpleLdapd.Core.StoredPasswords

/-!
# Simple binds with an empty password

`bind` refuses an empty `root_password` before it compares, and a Password Modify
refuses an empty new password. The entry's path has neither check: whether a bind
without a password succeeds is left to the values that were stored, and to what
each scheme makes of the empty string.
-/

namespace SimpleLdapd.Session

open Dn MemoryBackend SimpleBindAuthenticator

/-- A stored value that accepts the empty password. -/
def Blank (openssl : Option OpenSsl) (stored : Bytes) : Prop :=
  Password.verifyUserPassword openssl stored [] = true

/-- No password value of the store accepts the empty password. -/
def PasswordsFilled (openssl : Option OpenSsl) (store : MemoryStore) : Prop :=
  AllEntries (PasswordValues fun value => ¬Blank openssl value) store

/-- None of the password values that a request may write accepts the empty password in the
form it is stored in; a naming value is stored as it is. -/
structure WritesFilled (server : Server) (store : MemoryStore) (handling : Handling) : Prop where
  added : handling.request.op = .addRequest →
    AddAccepted server handling.context handling.session store handling.request →
    ∀ item ∈ (Message.toDirectoryEntry handling.request.add).attributes.entries,
      isUserPassword item.1 = true → ∀ index value, item.2[index]? = some value →
        ¬Blank server.openssl (Password.encodeUserPassword server.openssl
          (handling.context.salts (.added item.1 index)) value)
  changed : handling.request.op = .modifyRequest →
    Allowed server handling.session store handling.request.modify.dn →
    ∀ position change, handling.request.modify.changes[position]? = some change →
      change.op ≠ .delete → isUserPassword change.type = true →
        ∀ index value, change.values[index]? = some value →
          ¬Blank server.openssl (Password.encodeUserPassword server.openssl
            (handling.context.salts (.changed position index)) value)
  named : handling.request.op = .modifyDnRequest →
    RenameAccepted server handling.session store handling.request.modifyDn →
    ∀ type value, parseRdn handling.request.modifyDn.newRdn = some (type, value) →
      isUserPassword type = true → ¬Blank server.openssl value
  replaced : IsPasswordModify handling.request → ∀ target newPassword,
    MayChangePassword server handling.session store target →
    PasswordAsked server handling.session store handling.request target newPassword →
      ¬Blank server.openssl (Password.encodeUserPassword server.openssl
        (handling.context.salts .newPassword) newPassword)

/-- No simple bind under a name and without a password is answered success. -/
def RefusesEmptyPassword (server : Server) (store : MemoryStore) : Prop :=
  ∀ context session request, request.bind.simple = true → request.bind.dn ≠ [] →
    request.bind.password = [] →
      ((handleBind server context session request).run exec store).1.1.result ≠ .success

section Writes

variable (server : Server) {store : MemoryStore} (handling : Handling)

theorem modify_request_effect (invariant : StoreInvariant store)
    (isModify : handling.request.op = .modifyRequest) :
    Program.Ensures exec
      (handleRequest server handling.context handling.session handling.request) store
      fun _ after => after = store ∨
        Allowed server handling.session store handling.request.modify.dn ∧
          ∃ old, lookup store handling.request.modify.dn = some old ∧
            after = (modify store (Modify.applyModifications old
              (Password.encodeUserPasswordChanges server.openssl handling.context.salts
                handling.request.modify.changes)).2).2 := by
  unfold handleRequest
  rw [isModify]
  apply ensures_reply_store handling.session
    (handle_modify_settles server handling.context handling.session invariant handling.request)
  rintro code after (⟨_, allowed, old, entry, found, applied, _, same⟩ | ⟨_, _, same⟩)
  · exact Or.inr ⟨allowed, old, found, by rw [applied, same]⟩
  · exact Or.inl same

theorem password_request_effect (invariant : StoreInvariant store)
    (isPasswordModify : IsPasswordModify handling.request) :
    Program.Ensures exec
      (handleRequest server handling.context handling.session handling.request) store
      fun _ after => after = store ∨
        ∃ target newPassword old, MayChangePassword server handling.session store target ∧
          PasswordAsked server handling.session store handling.request target newPassword ∧
          lookup store target = some old ∧
          after = (modify store (Modify.applyModifications old
            [{ op := .replace, type := text "userPassword"
               values := [Password.encodeUserPassword server.openssl
                 (handling.context.salts .newPassword) newPassword] }]).2).2 := by
  unfold handleRequest
  rw [isPasswordModify.1]
  simp only
  rw [handle_extended_password_modify server handling.context handling.session isPasswordModify.2]
  apply ensures_reply_store handling.session
    (handle_password_modify_settles server handling.context handling.session invariant
      handling.request)
  rintro code after (⟨_, target, newPassword, old, permitted, asked, found, _, same⟩ | ⟨_, _, same⟩)
  · exact Or.inr ⟨target, newPassword, old, permitted, asked, found, same⟩
  · exact Or.inl same

variable {server handling}

/-- One handled request. -/
theorem request_keeps_filled (reachable : Reachable store)
    (kept : PasswordsFilled server.openssl store) (fills : WritesFilled server store handling) :
    PasswordsFilled server.openssl (afterRequest server store handling) := by
  have invariant := reachable.invariant
  unfold PasswordsFilled at kept ⊢
  by_cases isModify : handling.request.op = .modifyRequest
  · unfold afterRequest
    rcases modify_request_effect server handling invariant isModify with
      same | ⟨allowed, old, found, same⟩
    · rw [same]
      exact kept
    · rw [same]
      apply kept.modify
      apply apply_modifications_values _ (kept.lookup found)
      exact encoded_changes_values (fills.changed isModify allowed)
  by_cases isPasswordModify : IsPasswordModify handling.request
  · unfold afterRequest
    rcases password_request_effect server handling invariant isPasswordModify with
      same | ⟨target, newPassword, old, permitted, asked, found, same⟩
    · rw [same]
      exact kept
    · rw [same]
      apply kept.modify
      apply apply_modifications_values _ (kept.lookup found)
      intro change member
      rw [List.mem_singleton.mp member]
      intro _ _ value inside
      rw [List.mem_singleton.mp inside]
      exact fills.replaced isPasswordModify target newPassword permitted asked
  have effect := handle_request_effect server handling.context handling.session invariant
    handling.request
  unfold afterRequest
  generalize ((handleRequest server handling.context handling.session handling.request).run
    exec store).2 = reached at effect ⊢
  cases effect with
  | unchanged => exact kept
  | added isAdd accepted => exact kept.add (added_entry_values (fills.added isAdd accepted))
  | modified isOther => exact absurd isOther isModify
  | removed => exact kept.remove _
  | renamed isRename accepted old entry found applied =>
      have named := renamed_entry_values (fills.named isRename accepted) (kept.lookup found) applied
      exact (kept.modify named).rename (fun _ _ held => held) _ _
  | passwordChanged isOther => exact absurd isOther isPasswordModify

end Writes

section Binds

variable {server : Server} {store : MemoryStore}

theorem found_password_filled {entry : DirectoryEntry} {Good : Bytes → Prop}
    (values : PasswordValues Good entry) {stored : List Bytes}
    (found : entry.findAttribute (text "userPassword") = some stored) :
    ∀ value ∈ stored, Good value := by
  obtain ⟨item, first, same⟩ := Option.map_eq_some_iff.mp found
  obtain ⟨member, spelled⟩ := OrderedMap.findBy_some toLowerAscii first
  rw [← same]
  apply values item member
  rw [is_user_password_congr spelled]
  decide

/-- The authenticator compares with the root password or with stored values only. -/
theorem bind_filled_refused (guarded : ¬Blank server.openssl server.config.rootPassword)
    (filled : PasswordsFilled server.openssl store) {dn : Bytes} (named : dn ≠ []) :
    ((SimpleBindAuthenticator.bind server.config server.openssl dn []).run exec store).1 ≠
      .success := by
  intro success
  obtain ⟨resolved, _, root | account⟩ := bind_success server.openssl named success
  · exact guarded root.2
  · obtain ⟨_, entry, located, _, values, stored, value, inside, verified⟩ := account
    exact found_password_filled (filled.lookup located) stored value inside verified

theorem refuses_of_filled (guarded : ¬Blank server.openssl server.config.rootPassword)
    (filled : PasswordsFilled server.openssl store) : RefusesEmptyPassword server store := by
  intro context session request isSimple named empty
  change Program.Ensures exec (handleBind server context session request) store
    fun outcome _ => outcome.1.result ≠ .success
  have refused := bind_filled_refused guarded filled named
  unfold handleBind
  simp only [isSimple, empty]
  split
  · exact Program.ensures_pure (show ResultCode.protocolError ≠ .success by decide)
  split
  · exact Program.ensures_pure (show ResultCode.busy ≠ .success by decide)
  simp only [Bool.not_true, Bool.false_eq_true, if_false, ne_eq, not_true_eq_false, and_false]
  apply ensures_read (bind_read_only server.config server.openssl _ _)
  intro code answered
  have failed : code ≠ .success := answered ▸ refused
  rw [if_neg failed]
  exact Program.ensures_pure failed

/-- From the empty backend on, no bind without a password succeeds as long as no request
that is granted its write stores a value that accepts the empty password. -/
theorem empty_password_refused_along
    (guarded : Password.verifyUserPassword server.openssl server.config.rootPassword [] = false)
    {handlings : List Handling}
    (along : Along (afterRequest server) (WritesFilled server) OrderedMap.empty handlings)
    {earlier : List Handling} (before : earlier <+: handlings) :
    RefusesEmptyPassword server (afterRequests server OrderedMap.empty earlier) := by
  have step (store : MemoryStore) (handling : Handling)
      (held : Reachable store ∧ PasswordsFilled server.openssl store)
      (fills : WritesFilled server store handling) :
      Reachable (afterRequest server store handling) ∧
        PasswordsFilled server.openssl (afterRequest server store handling) :=
    ⟨after_request_reachable held.1 handling, request_keeps_filled held.1 held.2 fills⟩
  have kept := invariant_along _ step ⟨Reachable.empty, all_entries_empty⟩ along before
  exact refuses_of_filled (by simp [Blank, guarded]) kept.2

/-- The server above with a root password. -/
def rootedServer : Server := { hashingServer with config := { rootPassword := text "admin" } }

theorem added_secret_filled : WritesFilled rootedServer OrderedMap.empty addPerson := by
  have only : ∀ item ∈ (Message.toDirectoryEntry addPerson.request.add).attributes.entries,
      isUserPassword item.1 = true → item = (text "userPassword", [text "secret"]) := by
    decide +kernel
  have hashed : Password.verifyUserPassword rootedServer.openssl (Password.encodeUserPassword
      rootedServer.openssl (some drawnSalt) (text "secret")) [] = false := by
    decide +kernel
  constructor
  · intro _ _ item member secret index value inside
    rw [only item member secret] at inside
    have same : value = text "secret" := by
      simpa using List.mem_of_getElem? inside
    rw [same]
    simp [Blank, addPerson, hashed]
  · intro isModify
    cases isModify
  · intro isRename
    cases isRename
  · intro isPasswordModify
    cases isPasswordModify.1

theorem added_person_needs_password :
    RefusesEmptyPassword rootedServer (afterRequests rootedServer OrderedMap.empty [addPerson]) := by
  have along : Along (afterRequest rootedServer) (WritesFilled rootedServer) OrderedMap.empty
      [addPerson] := ⟨added_secret_filled, trivial⟩
  exact empty_password_refused_along (by decide +kernel) along (List.prefix_refl _)

/-- The administrator adds a person with an empty password. -/
def addBlankPerson : Handling :=
  { session := administrator
    request := { op := .addRequest
                 add := { dn := text "cn=a"
                          attributes := [{ type := text "userPassword", values := [[]] }] } } }

theorem blank_person_binds :
    Password.verifyUserPassword rootedServer.openssl rootedServer.config.rootPassword [] =
        false ∧
      ¬RefusesEmptyPassword rootedServer
        (afterRequests rootedServer OrderedMap.empty [addBlankPerson]) := by
  refine ⟨by decide +kernel, ?_⟩
  intro refuses
  apply refuses {} {} { op := .bindRequest, bind := { dn := text "cn=a" } }
  · decide +kernel
  · decide +kernel
  · decide +kernel
  · decide +kernel

end Binds

end SimpleLdapd.Session
