import SimpleLdapd.Auth.Password
import SimpleLdapd.Backend.Memory
import SimpleLdapd.Config.Config

/-!
# Simple bind and name resolution (`auth/bind.cpp`)

Every method of `SimpleBindAuthenticator` is a program over the backend. The
results of the second half are about a directory nobody else writes to: a name
resolves to the root DN or to the DN of a stored entry, and that DN resolves to
itself.
-/

namespace SimpleLdapd.SimpleBindAuthenticator

open Dn Password

variable (config : LdapConfig) (openssl : Option OpenSsl)

/-- `!config_.root_dn.empty() && dnEquals(dn, config_.root_dn)`. -/
def isRootDn (dn : Bytes) : Bool := config.rootDn ≠ [] && dnEquals dn config.rootDn

def accountFilter (name : Bytes) : SearchFilter :=
  Filter.parse (text "(|(uid=" ++ name ++ text ")(sAMAccountName=" ++ name ++ text "))")

def findAccount (name : Bytes) : BackendProgram (Option Bytes) :=
  if name = [] || name.any fun byte => byte ∈ text "()*\\" then pure none
  else do
    let found ← Backend.search config.baseDn .subtree (accountFilter name)
    match found with
    | [entry] => pure (some entry.dn)
    | _ => pure none

def resolveName (name : Bytes) : BackendProgram (Option Bytes) :=
  if name = [] then pure none
  else if (findByte (chr '=') name).isSome then
    if isRootDn config name then pure (some config.rootDn)
    else do
      let found ← Backend.lookup name
      match found with
      | some entry => pure (some entry.dn)
      | none =>
          match parseRdn (dnRdn name) with
          | none => pure none
          | some (_, value) => findAccount config value
  else
    match (if config.rootDn ≠ [] then parseRdn (dnRdn config.rootDn) else none) with
    | some (_, value) =>
        if iequals value name then pure (some config.rootDn) else findAccount config name
    | none => findAccount config name

def bind (dn password : Bytes) : BackendProgram ResultCode :=
  if dn = [] then pure (if password = [] then .success else .invalidCredentials)
  else do
    let resolved ← resolveName config dn
    match resolved with
    | none => pure .invalidCredentials
    | some resolved =>
        if isRootDn config resolved then
          if config.rootPassword = [] || !verifyUserPassword openssl config.rootPassword password
          then pure .invalidCredentials
          else pure .success
        else do
          let found ← Backend.lookup resolved
          match found with
          | none => pure .invalidCredentials
          | some entry =>
              if accountDisabled entry then pure .invalidCredentials
              else
                match entry.findAttribute (text "userPassword") with
                | none => pure .invalidCredentials
                | some values =>
                    if values.any fun value => verifyUserPassword openssl value password then
                      pure .success
                    else pure .invalidCredentials

def passwordFor (dn : Bytes) : BackendProgram (Option Bytes) :=
  if isRootDn config dn then
    pure (if config.rootPassword = [] then none else some config.rootPassword)
  else do
    let found ← Backend.lookup dn
    match found with
    | none => pure none
    | some entry =>
        match entry.findAttribute (text "userPassword") with
        | none => pure none
        | some [] => pure none
        | some (value :: _) => pure (recoverablePassword value)

def isAccountDisabled (dn : Bytes) : BackendProgram Bool :=
  if isRootDn config dn then pure false
  else do
    let found ← Backend.lookup dn
    match found with
    | none => pure false
    | some entry => pure (accountDisabled entry)

section ReadOnly

theorem find_account_read_only (name : Bytes) :
    (findAccount config name).Issues BackendCall.Reads := by
  unfold findAccount
  split
  · trivial
  · apply Program.issues_bind (Program.issues_perform trivial)
    intro found
    split <;> trivial

theorem resolve_name_read_only (name : Bytes) :
    (resolveName config name).Issues BackendCall.Reads := by
  unfold resolveName
  split
  · trivial
  · split
    · split
      · trivial
      · apply Program.issues_bind (Program.issues_perform trivial)
        intro found
        split
        · trivial
        · split
          · trivial
          · exact find_account_read_only config _
    · split
      · split
        · trivial
        · exact find_account_read_only config _
      · exact find_account_read_only config _

theorem bind_read_only (dn password : Bytes) :
    (bind config openssl dn password).Issues BackendCall.Reads := by
  unfold bind
  split
  · trivial
  · apply Program.issues_bind (resolve_name_read_only config dn)
    intro resolved
    split
    · trivial
    · split
      · split <;> trivial
      · apply Program.issues_bind (Program.issues_perform trivial)
        intro found
        split
        · trivial
        · split
          · trivial
          · split
            · trivial
            · split <;> trivial

theorem is_account_disabled_read_only (dn : Bytes) :
    (isAccountDisabled config dn).Issues BackendCall.Reads := by
  unfold isAccountDisabled
  split
  · trivial
  · apply Program.issues_bind (Program.issues_perform trivial)
    intro found
    split <;> trivial

theorem password_for_read_only (dn : Bytes) :
    (passwordFor config dn).Issues BackendCall.Reads := by
  unfold passwordFor
  split
  · trivial
  · apply Program.issues_bind (Program.issues_perform trivial)
    intro found
    split
    · trivial
    · split <;> trivial

end ReadOnly

section Resolution

variable {config} {store : MemoryStore}

/-- What name resolution ends in: the root DN, or the own spelling of a stored entry's DN. -/
structure Resolved (config : LdapConfig) (store : MemoryStore) (dn : Bytes) : Prop where
  isDn : chr '=' ∈ dn
  known : isRootDn config dn = true ∨
    ∃ entry, MemoryBackend.lookup store dn = some entry ∧ entry.dn = dn

theorem Resolved.nonempty {dn : Bytes} (resolved : Resolved config store dn) : dn ≠ [] := by
  intro empty
  have member := resolved.isDn
  rw [empty] at member
  simp at member

theorem equals_sign_congr {left right : Bytes} (same : toLowerAscii left = toLowerAscii right)
    (member : chr '=' ∈ right) : chr '=' ∈ left := by
  rw [← equals_sign_mem_to_lower, same, equals_sign_mem_to_lower]
  exact member

theorem resolved_entry (invariant : MemoryBackend.StoreInvariant store) {key : Bytes}
    {entry : DirectoryEntry} (stored : (key, entry) ∈ store.entries) (isDn : chr '=' ∈ key) :
    Resolved config store entry.dn := by
  have same := invariant.sameDn (key, entry) stored
  exact ⟨equals_sign_congr same isDn,
    Or.inr ⟨entry, invariant.lookup_key stored same.symm, rfl⟩⟩

theorem find_account_resolved (invariant : MemoryBackend.StoreInvariant store)
    (baseIsDn : chr '=' ∈ config.baseDn) {name dn : Bytes}
    (found : ((findAccount config name).run MemoryBackend.exec store).1 = some dn) :
    Resolved config store dn := by
  have named : config.baseDn ≠ [] := by
    intro empty
    rw [empty] at baseIsDn
    simp at baseIsDn
  unfold findAccount at found
  split at found
  · cases found
  · simp only [Program.run_bind, Backend.search, Program.run_perform, MemoryBackend.exec] at found
    split at found
    · rename_i entry only
      cases found
      have member : entry ∈ MemoryBackend.search store config.baseDn .subtree
          (accountFilter name) := by simp [only]
      obtain ⟨pair, kept, same⟩ := List.mem_map.mp member
      obtain ⟨stored, chosen⟩ := List.mem_filter.mp kept
      have inside : dnEndsWith pair.1 config.baseDn = true := (Bool.and_eq_true _ _ ▸ chosen).1
      have isDn : chr '=' ∈ pair.1 := by
        rw [← equals_sign_mem_to_lower]
        rcases (dn_ends_with_iff pair.1 named).mp inside with equal | ⟨front, split⟩
        · rw [equal, equals_sign_mem_to_lower]
          exact baseIsDn
        · rw [split]
          simp [equals_sign_mem_to_lower, baseIsDn]
      rw [← same]
      exact resolved_entry invariant stored isDn
    · cases found

theorem resolve_name_resolved (invariant : MemoryBackend.StoreInvariant store)
    (baseIsDn : chr '=' ∈ config.baseDn) {name dn : Bytes}
    (found : ((resolveName config name).run MemoryBackend.exec store).1 = some dn) :
    Resolved config store dn := by
  unfold resolveName at found
  split at found
  · cases found
  · split at found
    · rename_i isDn
      have nameIsDn : chr '=' ∈ name := by
        by_contra absent
        rw [(find_byte_none _ _).mpr absent] at isDn
        cases isDn
      split at found
      · rename_i root
        cases found
        simp only [isRootDn, Bool.and_eq_true, decide_eq_true_eq] at root
        have same := (dn_equals_iff name config.rootDn).mp root.2
        refine ⟨equals_sign_congr same.symm nameIsDn, Or.inl ?_⟩
        simp [isRootDn, root.1, dn_equals_iff]
      · simp only [Program.run_bind, Backend.lookup, Program.run_perform,
          MemoryBackend.exec] at found
        split at found
        · rename_i entry located
          cases found
          obtain ⟨key, stored, same⟩ := MemoryBackend.lookup_eq_some located
          exact resolved_entry invariant stored (equals_sign_congr same nameIsDn)
        · split at found
          · cases found
          · exact find_account_resolved invariant baseIsDn found
    · split at found
      · rename_i rdnType rdnValue parsed
        split at found
        · cases found
          split at parsed
          · rename_i rootNamed
            exact ⟨equals_sign_of_parse parsed, Or.inl (by simp [isRootDn, rootNamed, dn_equals_iff])⟩
          · cases parsed
        · exact find_account_resolved invariant baseIsDn found
      · exact find_account_resolved invariant baseIsDn found

theorem Resolved.entry_of_not_root {dn : Bytes} (resolved : Resolved config store dn)
    (notRoot : ¬ isRootDn config dn = true) :
    ∃ entry, MemoryBackend.lookup store dn = some entry ∧ entry.dn = dn := by
  rcases resolved.known with root | stored
  · exact absurd root notRoot
  · exact stored

/-- Resolving a resolved DN again changes nothing but the spelling of the root DN. -/
theorem Resolved.stable {dn : Bytes} (resolved : Resolved config store dn) :
    ((resolveName config dn).run MemoryBackend.exec store).1 =
      some (if isRootDn config dn then config.rootDn else dn) := by
  have isDn : (findByte (chr '=') dn).isSome = true := by
    rw [Option.isSome_iff_ne_none, ne_eq, find_byte_none, not_not]
    exact resolved.isDn
  unfold resolveName
  rw [if_neg resolved.nonempty, if_pos isDn]
  by_cases root : isRootDn config dn = true
  · rw [if_pos root, if_pos root]
    rfl
  · obtain ⟨entry, located, same⟩ := resolved.entry_of_not_root root
    rw [if_neg root, if_neg root]
    simp only [Program.run_bind, Backend.lookup, Program.run_perform, MemoryBackend.exec, located]
    rw [Program.run_pure, same]

/-- The password was checked: against the configured one for the root DN, else against
a `userPassword` value of the entry, which is not disabled. -/
def Authenticated (config : LdapConfig) (openssl : Option OpenSsl) (store : MemoryStore)
    (dn password : Bytes) : Prop :=
  (isRootDn config dn = true ∧ verifyUserPassword openssl config.rootPassword password = true) ∨
    (isRootDn config dn = false ∧
      ∃ entry, MemoryBackend.lookup store dn = some entry ∧ accountDisabled entry = false ∧
        ∃ values, entry.findAttribute (text "userPassword") = some values ∧
          ∃ value ∈ values, verifyUserPassword openssl value password = true)

/-- A bind under a name that resolves accepts exactly what authenticates it. -/
theorem bind_resolved_iff {dn password resolved : Bytes} (named : dn ≠ [])
    (found : ((resolveName config dn).run MemoryBackend.exec store).1 = some resolved) :
    ((bind config openssl dn password).run MemoryBackend.exec store).1 = .success ↔
      Authenticated config openssl store resolved password ∧
        (isRootDn config resolved = true → config.rootPassword ≠ []) := by
  have failure : ResultCode.invalidCredentials ≠ .success := by decide
  have unchanged : ((resolveName config dn).run MemoryBackend.exec store).2 = store :=
    MemoryBackend.run_read_only (resolve_name_read_only config dn) store
  unfold bind Authenticated
  rw [if_neg named, Program.run_bind, unchanged, found]
  simp only
  cases root : isRootDn config resolved with
  | true =>
      by_cases absent : config.rootPassword = []
      · simp [absent, failure]
      · cases verifyUserPassword openssl config.rootPassword password <;> simp [absent, failure]
  | false =>
      simp only [Bool.false_eq_true, if_false, Program.run_bind, Backend.lookup,
        Program.run_perform, MemoryBackend.exec, false_and, true_and, false_or, false_implies,
        and_true]
      cases located : MemoryBackend.lookup store resolved with
      | none => simp [failure]
      | some entry =>
          cases disabled : Password.accountDisabled entry with
          | true => simp [disabled, failure]
          | false =>
              cases stored : entry.findAttribute (text "userPassword") with
              | none => simp [disabled, stored, failure]
              | some values =>
                  simp only [disabled, stored, Bool.false_eq_true, if_false,
                    Option.some.injEq, exists_eq_left', true_and]
                  rw [← List.any_eq_true]
                  cases values.any fun value => verifyUserPassword openssl value password <;>
                    simp [failure]

theorem bind_success {dn password : Bytes} (named : dn ≠ [])
    (success : ((bind config openssl dn password).run MemoryBackend.exec store).1 = .success) :
    ∃ resolved, ((resolveName config dn).run MemoryBackend.exec store).1 = some resolved ∧
      Authenticated config openssl store resolved password := by
  cases found : ((resolveName config dn).run MemoryBackend.exec store).1 with
  | none =>
      unfold bind at success
      rw [if_neg named, Program.run_bind, found] at success
      cases success
  | some resolved => exact ⟨resolved, rfl, ((bind_resolved_iff openssl named found).mp success).1⟩

end Resolution

end SimpleLdapd.SimpleBindAuthenticator
