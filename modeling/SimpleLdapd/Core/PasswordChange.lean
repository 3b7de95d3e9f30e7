import SimpleLdapd.Auth.AccountLookup
import SimpleLdapd.Auth.PasswordRoundTrip
import SimpleLdapd.Core.StoredPasswords

/-!
# Binding with a changed password

A Password Modify replaces the values of one attribute of one entry. No name
resolves differently afterwards, since neither DNs nor account names change, and
the entry holds one password value: the encoded new password.
-/

namespace SimpleLdapd.Session

open Dn MemoryBackend SimpleBindAuthenticator

/-- The entry under `key` is written again with another password. -/
structure Rewrites (store after : MemoryStore) (key : Bytes) (old new : DirectoryEntry) :
    Prop where
  stored : (key, old) ∈ store.entries
  written : after = store.insert key new
  sameDn : new.dn = old.dn
  elsewhere : ∀ name, toLowerAscii (text "userPassword") ≠ toLowerAscii name →
    new.findAttribute name = old.findAttribute name

section Resolution

variable {config : LdapConfig} {store after : MemoryStore} {key : Bytes} {old new : DirectoryEntry}

theorem Rewrites.entries (rewrites : Rewrites store after key old new) :
    after.entries = store.entries.map fun pair =>
      (pair.1, if pair.1 = key then new else pair.2) := by
  rw [rewrites.written, OrderedMap.insert_stored rewrites.stored, OrderedMap.mapValues]
  apply List.map_congr_left
  intro pair _
  by_cases here : pair.1 = key <;> simp [here]

theorem Rewrites.old_at_key (rewrites : Rewrites store after key old new)
    {pair : Bytes × DirectoryEntry} (member : pair ∈ store.entries) (here : pair.1 = key) :
    pair.2 = old := by
  have same := OrderedMap.entry_unique store member rewrites.stored here
  rw [same]

theorem Rewrites.rewritten_dn (rewrites : Rewrites store after key old new)
    {pair : Bytes × DirectoryEntry} (member : pair ∈ store.entries) :
    (if pair.1 = key then new else pair.2).dn = pair.2.dn := by
  by_cases here : pair.1 = key
  · rw [if_pos here, rewrites.sameDn, rewrites.old_at_key member here]
  · rw [if_neg here]

theorem Rewrites.lookup_dn (rewrites : Rewrites store after key old new) (dn : Bytes) :
    (lookup after dn).map (·.dn) = (lookup store dn).map (·.dn) := by
  unfold lookup OrderedMap.findBy
  rw [rewrites.entries, List.find?_map]
  change ((Option.map _ (store.entries.find? fun pair =>
    decide (toLowerAscii pair.1 = toLowerAscii dn))).map Prod.snd).map _ = _
  cases found : store.entries.find? fun pair =>
      decide (toLowerAscii pair.1 = toLowerAscii dn) with
  | none => rfl
  | some pair =>
      have same := rewrites.rewritten_dn (List.mem_of_find?_eq_some found)
      simp only [Option.map_some, same]

theorem Rewrites.account_matches (rewrites : Rewrites store after key old new) {name : Bytes}
    (plain : Filter.PlainValue name) {pair : Bytes × DirectoryEntry}
    (member : pair ∈ store.entries) :
    (accountFilter name).matchesEntry (if pair.1 = key then new else pair.2) =
      (accountFilter name).matchesEntry pair.2 := by
  by_cases here : pair.1 = key
  · have uid := rewrites.elsewhere (text "uid") (by decide)
    have account := rewrites.elsewhere (text "sAMAccountName") (by decide)
    rw [if_pos here, rewrites.old_at_key member here, Bool.eq_iff_iff,
      account_filter_matches plain, account_filter_matches plain]
    unfold Filter.HasValue
    rw [uid, account]
  · rw [if_neg here]

theorem Rewrites.search_dns (rewrites : Rewrites store after key old new) {name : Bytes}
    (plain : Filter.PlainValue name) :
    (search after config.baseDn .subtree (accountFilter name)).map (·.dn) =
      (search store config.baseDn .subtree (accountFilter name)).map (·.dn) := by
  unfold search
  rw [rewrites.entries, List.filter_map, List.map_map, List.map_map, List.map_map]
  have kept : store.entries.filter ((fun pair : Bytes × DirectoryEntry =>
        Backend.inScope .subtree pair.1 config.baseDn && (accountFilter name).matchesEntry pair.2) ∘
        fun pair => (pair.1, if pair.1 = key then new else pair.2)) =
      store.entries.filter fun pair =>
        Backend.inScope .subtree pair.1 config.baseDn &&
          (accountFilter name).matchesEntry pair.2 := by
    apply List.filter_congr
    intro pair member
    simp only [Function.comp_apply, rewrites.account_matches plain member]
  rw [kept]
  apply List.map_congr_left
  intro pair member
  exact rewrites.rewritten_dn (List.mem_filter.mp member).1

/-- What `findAccount` returns depends on the DNs it finds only. -/
theorem find_account_congr {left right : MemoryStore} {name : Bytes}
    (same : Filter.PlainValue name →
      (search left config.baseDn .subtree (accountFilter name)).map (·.dn) =
        (search right config.baseDn .subtree (accountFilter name)).map (·.dn)) :
    ((findAccount config name).run exec left).1 = ((findAccount config name).run exec right).1 := by
  by_cases spliced : name ≠ [] ∧ Filter.PlainValue name
  · obtain ⟨named, plain⟩ := spliced
    have found (store : MemoryStore) (dn : Bytes) :
        ((findAccount config name).run exec store).1 = some dn ↔
          (search store config.baseDn .subtree (accountFilter name)).map (·.dn) = [dn] := by
      rw [run_find_account config named plain, List.map_eq_singleton_iff]
    apply Option.ext
    intro dn
    rw [found, found, same plain]
  · rw [find_account_refused config spliced, Program.run_pure, Program.run_pure]

theorem Rewrites.resolves (rewrites : Rewrites store after key old new) (name : Bytes) :
    ((resolveName config name).run exec after).1 = ((resolveName config name).run exec store).1 := by
  have accounts (value : Bytes) : ((findAccount config value).run exec after).1 =
      ((findAccount config value).run exec store).1 :=
    find_account_congr fun plain => rewrites.search_dns plain
  by_cases named : name = []
  · rw [resolveName, if_pos named, Program.run_pure, Program.run_pure]
  by_cases isDn : (findByte (chr '=') name).isSome = true
  · rw [resolveName, if_neg named, if_pos isDn]
    split
    · rfl
    · have same := rewrites.lookup_dn name
      simp only [Program.run_bind, Backend.lookup, Program.run_perform, exec]
      cases here : lookup store name with
      | none =>
          rw [here, Option.map_none, Option.map_eq_none_iff] at same
          rw [same]
          simp only
          split
          · rfl
          · exact accounts _
      | some entry =>
          rw [here, Option.map_some, Option.map_eq_some_iff] at same
          obtain ⟨written, located, sameDn⟩ := same
          rw [located]
          simp only [Program.run_pure, sameDn]
  · rw [resolveName, if_neg named, if_neg isDn]
    split
    · split
      · rfl
      · exact accounts name
    · exact accounts name

end Resolution

section Binding

variable {server : Server} {context : RequestContext} {session : SessionState}
  {store : MemoryStore}

/-- The entry that a Password Modify writes. -/
def withPassword (server : Server) (context : RequestContext) (newPassword : Bytes)
    (old : DirectoryEntry) : DirectoryEntry :=
  (Modify.applyModifications old
    [{ op := .replace, type := text "userPassword"
       values := [Password.encodeUserPassword server.openssl (context.salts .newPassword)
         newPassword] }]).2

theorem with_password_finds (newPassword : Bytes) (old : DirectoryEntry) (name : Bytes) :
    (withPassword server context newPassword old).findAttribute name =
      if toLowerAscii (text "userPassword") = toLowerAscii name then
        some [Password.encodeUserPassword server.openssl (context.salts .newPassword) newPassword]
      else old.findAttribute name :=
  (Modify.replace_finds old (by decide) (by simp)).2 name

theorem with_password_rewrites (server : Server) (context : RequestContext)
    (invariant : StoreInvariant store) {target : Bytes} {old : DirectoryEntry}
    (found : lookup store target = some old) (newPassword : Bytes) :
    ∃ key, Rewrites store (modify store (withPassword server context newPassword old)).2 key old
      (withPassword server context newPassword old) := by
  have sameDn : (withPassword server context newPassword old).dn = old.dn :=
    (Modify.apply_modifications_frame old _).1
  have again : lookup store old.dn = some old := by
    rw [lookup_congr store (invariant.lookup_dn found), found]
  rcases modify_cases store (withPassword server context newPassword old) with
    ⟨key, stored, member, _, located, effect⟩ | ⟨absent, _⟩
  · rw [sameDn, again] at located
    cases located
    refine ⟨key, member, by rw [effect], sameDn, ?_⟩
    intro name other
    rw [with_password_finds, if_neg other]
  · rw [sameDn, again] at absent
    cases absent

theorem with_password_enabled {old : DirectoryEntry} (newPassword : Bytes) :
    Password.accountDisabled (withPassword server context newPassword old) =
      Password.accountDisabled old := by
  unfold Password.accountDisabled
  rw [with_password_finds, if_neg (by decide)]

/-- A new password without a scheme is accepted from every name of its account. -/
theorem bind_with_new_password (invariant : StoreInvariant store)
    (salted : context.salts .newPassword ≠ some []) {target newPassword : Bytes}
    {old : DirectoryEntry} (notRoot : isRootDn server.config target = false)
    (found : lookup store target = some old) (enabled : Password.accountDisabled old = false)
    (plain : Password.schemePrefix newPassword = none) {name : Bytes}
    (resolved : ((resolveName server.config name).run exec store).1 = some target) :
    ((bind server.config server.openssl name newPassword).run exec
      (modify store (withPassword server context newPassword old)).2).1 = .success := by
  have named : name ≠ [] := by
    rintro rfl
    cases resolved
  have sameDn : (withPassword server context newPassword old).dn = old.dn :=
    (Modify.apply_modifications_frame old _).1
  have spelled := invariant.lookup_dn found
  rw [← sameDn] at spelled
  obtain ⟨key, rewrites⟩ := with_password_rewrites server context invariant found newPassword
  have located := lookup_modified invariant (modify_succeeds spelled found) target
  rw [if_pos spelled] at located
  rw [← rewrites.resolves name] at resolved
  have values : (withPassword server context newPassword old).findAttribute
      (text "userPassword") = some [Password.encodeUserPassword server.openssl
        (context.salts .newPassword) newPassword] := by
    rw [with_password_finds, if_pos rfl]
  rw [bind_resolved_iff server.openssl named resolved]
  constructor
  · right
    refine ⟨notRoot, _, located, ?_, _, values, _, List.mem_singleton_self _, ?_⟩
    · rw [with_password_enabled, enabled]
    · exact Password.verify_encoded salted plain
  · intro root
    rw [notRoot] at root
    cases root

/-- A password without a scheme is accepted by what is stored for it, and after a Password
Modify with one the account binds with it under every name it had before. -/
theorem plain_password_round_trip :
    (∀ (openssl : Option OpenSsl) (salt : Option Bytes) (password : Bytes), password ≠ [] →
      salt ≠ some [] → Password.schemePrefix password = none →
      Password.verifyUserPassword openssl (Password.encodeUserPassword openssl salt password)
        password = true) ∧
    ∀ (server : Server) (context : RequestContext) (session : SessionState) (store : MemoryStore)
      (request : LdapMessage), Reachable store → context.salts .newPassword ≠ some [] →
      ((handlePasswordModify server context session request).run exec store).1.result = .success →
      ∃ target newPassword old, PasswordAsked server session store request target newPassword ∧
        lookup store target = some old ∧
        (Password.accountDisabled old = false → Password.schemePrefix newPassword = none →
          ∀ name, ((resolveName server.config name).run exec store).1 = some target →
            ((bind server.config server.openssl name newPassword).run exec
              ((handlePasswordModify server context session request).run exec store).2).1 =
                .success) := by
  constructor
  · intro openssl salt password _ salted plain
    exact Password.verify_encoded salted plain
  · intro server context session store request reachable salted success
    have settled := handle_password_modify_settles server context session reachable.invariant request
    rcases settled with ⟨_, target, newPassword, old, _, asked, found, _, same⟩ | ⟨_, refused, _⟩
    · refine ⟨target, newPassword, old, asked, found, ?_⟩
      intro enabled plain name resolved
      obtain ⟨_, _, _, _, _, notRoot⟩ := asked
      rw [same]
      exact bind_with_new_password reachable.invariant salted notRoot found enabled plain resolved
    · rw [success] at refused
      exact absurd refused (by decide)

/-- The administrator changes the password of `cn=a`. -/
def changePassword (newPassword : Bytes) : LdapMessage :=
  { op := .extendedRequest
    extendedOid := Message.kPasswordModifyOid
    extendedValue := Ber.writeConstructed Ber.kBerSequence
      (Ber.writeOctetStringAs Ber.kBerSimpleAuth (text "cn=a,ou=people,dc=example,dc=com") ++
        Ber.writeOctetStringAs Ber.kBerContext2 newPassword) }

/-- The store after that request on the small directory. -/
def afterChange (newPassword : Bytes) : MemoryStore :=
  ((handlePasswordModify hashingServer { salts := fun _ => some drawnSalt } administrator
    (changePassword newPassword)).run exec smallDirectory).2

theorem changed_password_binds :
    ((bind hashingServer.config hashingServer.openssl (text "cn=a,ou=people,dc=example,dc=com")
      (text "secret")).run exec (afterChange (text "secret"))).1 = .success := by
  obtain ⟨target, newPassword, old, asked, found, binds⟩ := plain_password_round_trip.2
    hashingServer { salts := fun _ => some drawnSalt } administrator smallDirectory
    (changePassword (text "secret")) small_directory_reachable (by decide) (by decide +kernel)
  obtain ⟨change, decoded, given, _, resolved, _⟩ := asked
  have known : Message.decodePasswordModifyValue (changePassword (text "secret")).extendedValue =
      some { userIdentity := text "cn=a,ou=people,dc=example,dc=com"
             newPassword := some (text "secret") } := by
    decide +kernel
  rw [known] at decoded
  cases decoded
  cases given
  have account : ((resolveName hashingServer.config
      (text "cn=a,ou=people,dc=example,dc=com")).run exec smallDirectory).1 =
      some (text "cn=a,ou=people,dc=example,dc=com") := by
    decide +kernel
  have enabled : (lookup smallDirectory (text "cn=a,ou=people,dc=example,dc=com")).map
      Password.accountDisabled = some false := by
    decide +kernel
  change ((resolveName hashingServer.config (text "cn=a,ou=people,dc=example,dc=com")).run exec
    smallDirectory).1 = some target at resolved
  have same := Option.some.inj (account.symm.trans resolved)
  subst same
  rw [found] at enabled
  exact binds (Option.some.inj enabled) (by decide +kernel) _ account

/-- A new password that looks like a stored value is kept as one: the account does not bind
with it. -/
theorem schemed_password_locks_out :
    Password.verifyUserPassword hashingServer.openssl (Password.encodeUserPassword
        hashingServer.openssl (some drawnSalt) (text "{CLEARTEXT}x")) (text "{CLEARTEXT}x") =
        false ∧
      ((handlePasswordModify hashingServer { salts := fun _ => some drawnSalt } administrator
        (changePassword (text "{CLEARTEXT}x"))).run exec smallDirectory).1.result = .success ∧
      ((bind hashingServer.config hashingServer.openssl
        (text "cn=a,ou=people,dc=example,dc=com") (text "{CLEARTEXT}x")).run exec
          (afterChange (text "{CLEARTEXT}x"))).1 = .invalidCredentials := by
  decide +kernel

end Binding

end SimpleLdapd.Session
