import SimpleLdapd.Core.WriteOutcome
import SimpleLdapd.Library.Interference

/-!
# A simple bind among concurrent sessions

A simple bind resolves its name, verifies the password of what it found, and
then resolves the name again to set the identity of the session. The programs
below are the source's with one more result: whose password was verified. When
the name resolves alike in every store that the bind looks at, the session is
bound as that entry.
-/

namespace SimpleLdapd

open Dn MemoryBackend Password

namespace SimpleBindAuthenticator

variable (config : LdapConfig) (openssl : Option OpenSsl)

/-- `bind`, with the DN of the entry, or the root DN, whose password it verified. -/
def bindVerifying (dn password : Bytes) : BackendProgram (ResultCode × Option Bytes) :=
  if dn = [] then pure (if password = [] then .success else .invalidCredentials, none)
  else do
    let resolved ← resolveName config dn
    match resolved with
    | none => pure (.invalidCredentials, none)
    | some resolved =>
        if isRootDn config resolved then
          if config.rootPassword = [] ||
              !verifyUserPassword openssl config.rootPassword password
          then pure (.invalidCredentials, none)
          else pure (.success, some config.rootDn)
        else do
          let found ← Backend.lookup resolved
          match found with
          | none => pure (.invalidCredentials, none)
          | some entry =>
              if accountDisabled entry then pure (.invalidCredentials, none)
              else
                match entry.findAttribute (text "userPassword") with
                | none => pure (.invalidCredentials, none)
                | some values =>
                    if values.any fun value => verifyUserPassword openssl value password
                    then pure (.success, some entry.dn)
                    else pure (.invalidCredentials, none)

theorem bind_verifying_code (dn password : Bytes) :
    (bindVerifying config openssl dn password >>= fun outcome => pure outcome.1) =
      bind config openssl dn password := by
  unfold bindVerifying bind
  split
  · rfl
  rw [Program.bind_bind]
  congr
  funext resolved
  cases resolved with
  | none => rfl
  | some resolved =>
      simp only
      split
      · split <;> rfl
      rw [Program.bind_bind]
      congr
      funext found
      cases found with
      | none => rfl
      | some entry =>
          simp only
          split
          · rfl
          cases entry.findAttribute (text "userPassword") with
          | none => rfl
          | some values =>
              simp only
              split <;> rfl

/-- The DN that the name resolves to, up to its spelling. -/
def resolvesTo (store : MemoryStore) (name : Bytes) : Option Bytes :=
  ((resolveName config name).run exec store).1.map toLowerAscii

/-- What a bind relies on in each store that it makes a call on. -/
def ResolvesAs (name : Bytes) (resolved : Option Bytes) (store : MemoryStore) : Prop :=
  StoreInvariant store ∧ resolvesTo config store name = resolved

section Resolution

variable {config} {name : Bytes} {store : MemoryStore}

theorem withstands_lookup {Value : Type} {Fits : MemoryStore → Prop} {post : Value → Prop}
    {dn : Bytes} {rest : Option DirectoryEntry → BackendProgram Value}
    (next : ∀ reached, Fits reached → (rest (lookup reached dn)).Withstands exec Fits post) :
    (Backend.lookup dn >>= rest).Withstands exec Fits post :=
  Program.withstands_perform next

theorem find_account_withstands {Fits : MemoryStore → Prop} {post : Option Bytes → Prop}
    (fits : Fits store)
    (holds : ∀ reached, Fits reached → post ((findAccount config name).run exec reached).1) :
    (findAccount config name).Withstands exec Fits post := by
  unfold findAccount at holds ⊢
  split
  · rename_i malformed
    have ended := holds store fits
    rw [if_pos malformed] at ended
    exact ended
  · rename_i wellFormed
    apply Program.withstands_perform
    intro reached fitting
    have ended := holds reached fitting
    rw [if_neg wellFormed] at ended
    simp only [Program.run_bind, Backend.search, Program.run_perform] at ended
    split
    · rename_i entry only
      rw [only] at ended
      exact ended
    · rename_i others
      split at ended
      · rename_i entry only
        exact absurd only (others entry)
      · exact ended

/-- An account found by its value is another entry than the one of that name. -/
theorem found_account_stored (invariant : StoreInvariant store) {dn : Bytes}
    (found : ((findAccount config name).run exec store).1 = some dn) : lookup store dn ≠ none := by
  unfold findAccount at found
  split at found
  · cases found
  · simp only [Program.run_bind, Backend.search, Program.run_perform, exec] at found
    split at found
    · rename_i entry only
      cases found
      have member : entry ∈ search store config.baseDn .subtree (accountFilter name) := by
        simp [only]
      obtain ⟨pair, kept, same⟩ := List.mem_map.mp member
      have stored := (List.mem_filter.mp kept).1
      rw [← same, invariant.lookup_key stored (invariant.sameDn pair stored).symm]
      exact Option.some_ne_none _
    · cases found

/-- What a DN other than the root DN resolves to. -/
theorem resolves_to_dn (isDn : (findByte (chr '=') name).isSome = true)
    (notRoot : ¬ isRootDn config name = true) (store : MemoryStore) :
    resolvesTo config store name =
      match lookup store name, parseRdn (dnRdn name) with
      | some entry, _ => some (toLowerAscii entry.dn)
      | none, none => none
      | none, some (_, value) =>
          ((findAccount config value).run exec store).1.map toLowerAscii := by
  have named : name ≠ [] := by
    intro empty
    rw [empty] at isDn
    cases isDn
  rw [resolvesTo, resolveName, if_neg named, if_pos isDn, if_neg notRoot]
  simp only [Program.run_bind, Backend.lookup, Program.run_perform, exec]
  cases lookup store name with
  | some entry => rfl
  | none => cases parseRdn (dnRdn name) <;> rfl

/-- A name that is no DN is the value of the root DN or that of an account. -/
theorem resolve_account_name (config : LdapConfig) (named : name ≠ [])
    (isNotDn : ¬ (findByte (chr '=') name).isSome = true) :
    resolveName config name =
      match (if config.rootDn ≠ [] then parseRdn (dnRdn config.rootDn) else none) with
      | some (_, value) =>
          if iequals value name then pure (some config.rootDn) else findAccount config name
      | none => findAccount config name := by
  rw [resolveName, if_neg named]
  exact if_neg isNotDn

/-- The search for an account is reached only where no entry has the name, so it cannot
agree with a store in which one has. -/
theorem account_is_other_entry (isDn : (findByte (chr '=') name).isSome = true)
    (notRoot : ¬ isRootDn config name = true) {first second : MemoryStore}
    (firstInvariant : StoreInvariant first) (secondInvariant : StoreInvariant second)
    (absent : lookup first name = none)
    (same : resolvesTo config first name = resolvesTo config second name) :
    lookup second name = none := by
  by_contra stored
  obtain ⟨entry, found⟩ := Option.ne_none_iff_exists'.mp stored
  rw [resolves_to_dn isDn notRoot, resolves_to_dn isDn notRoot, absent, found] at same
  split at same
  · rename_i impossible
    cases impossible
  · cases same
  · obtain ⟨dn, account, spelled⟩ := Option.map_eq_some_iff.mp same
    rw [secondInvariant.lookup_dn found] at spelled
    exact found_account_stored firstInvariant account ((lookup_congr first spelled).trans absent)

/-- A name that resolves alike in every store it is looked up in resolves to that, even
when its lookup and its search see different stores. -/
theorem resolve_name_withstands {resolved : Option Bytes}
    (fits : ResolvesAs config name resolved store) :
    (resolveName config name).Withstands exec (ResolvesAs config name resolved)
      (fun found => found.map toLowerAscii = resolved) := by
  have here := fits.2
  unfold resolveName
  split
  · rename_i unnamed
    rw [← here, resolvesTo, resolveName, if_pos unnamed]
    rfl
  rename_i named
  split
  · rename_i isDn
    split
    · rename_i root
      rw [← here, resolvesTo, resolveName, if_neg named, if_pos isDn, if_pos root]
      rfl
    rename_i notRoot
    apply withstands_lookup
    rintro first ⟨firstInvariant, firstSame⟩
    cases found : lookup first name with
    | some entry =>
        rw [resolves_to_dn isDn notRoot, found] at firstSame
        exact firstSame
    | none =>
        cases parsed : parseRdn (dnRdn name) with
        | none =>
            rw [resolves_to_dn isDn notRoot, found, parsed] at firstSame
            exact firstSame
        | some rdn =>
            apply find_account_withstands fits
            rintro second ⟨secondInvariant, secondSame⟩
            have absent := account_is_other_entry isDn notRoot firstInvariant secondInvariant found
              (firstSame.trans secondSame.symm)
            rw [resolves_to_dn isDn notRoot, absent, parsed] at secondSame
            exact secondSame
  · rename_i isNotDn
    have single := resolve_account_name config named isNotDn
    split
    · rename_i value parsed
      split
      · rename_i root
        rw [← here, resolvesTo, single, parsed]
        simp only [if_pos root]
        rfl
      · rename_i notRoot
        apply find_account_withstands fits
        rintro reached ⟨_, same⟩
        rw [resolvesTo, single, parsed] at same
        simp only [if_neg notRoot] at same
        exact same
    · rename_i parsed
      apply find_account_withstands fits
      rintro reached ⟨_, same⟩
      rw [resolvesTo, single, parsed] at same
      exact same

/-- A verified password is that of what the name resolves to. -/
theorem bind_verifying_withstands {resolved : Option Bytes}
    (fits : ResolvesAs config name resolved store) (named : name ≠ []) (password : Bytes) :
    (bindVerifying config openssl name password).Withstands exec (ResolvesAs config name resolved)
      (fun outcome => outcome.1 = .success →
        ∃ dn, outcome.2 = some dn ∧ resolved = some (toLowerAscii dn)) := by
  unfold bindVerifying
  rw [if_neg named]
  apply Program.withstands_bind
  apply (resolve_name_withstands fits).mono
  intro found same
  cases found with
  | none => exact nofun
  | some account =>
      simp only
      split
      · rename_i root
        split
        · exact nofun
        · intro _
          simp only [isRootDn, Bool.and_eq_true, dn_equals_iff] at root
          refine ⟨config.rootDn, rfl, ?_⟩
          rw [← root.2, ← same]
          rfl
      apply withstands_lookup
      rintro reached ⟨reachedInvariant, _⟩
      cases located : lookup reached account with
      | none => exact nofun
      | some entry =>
          simp only
          split
          · exact nofun
          split
          · exact nofun
          split
          · intro _
            refine ⟨entry.dn, rfl, ?_⟩
            rw [reachedInvariant.lookup_dn located, ← same]
            rfl
          · exact nofun

end Resolution

end SimpleBindAuthenticator

namespace Session

open SimpleBindAuthenticator

variable (server : Server) (context : RequestContext) (session : SessionState)

/-- The part of a simple bind behind the password check. -/
def afterPasswordCheck (request : LdapMessage) (result : ResultCode) :
    BackendProgram (LdapMessage × SessionState) :=
  let answer (code : ResultCode) (diagnostic : Bytes) : LdapMessage :=
    Message.makeBindResponse request.messageId code diagnostic []
  if result = .success then
    if request.bind.dn = [] then pure (answer .success [], { bound := true })
    else do
      let resolved ← resolveName server.config request.bind.dn
      pure (answer .success [], { bound := true, bindDn := resolved.getD request.bind.dn })
  else pure (answer result (text "invalid credentials"), {})

/-- A bind that ends before the password is looked at. -/
def EndsEarly (request : LdapMessage) : Prop :=
  request.bind.version ≠ 3 ∨ context.rateAllowed = false ∨ request.bind.simple = false ∨
    (server.config.requireConfidentiality = true ∧ context.tls = false ∧
      request.bind.password ≠ [])

instance (request : LdapMessage) : Decidable (EndsEarly server context request) :=
  inferInstanceAs (Decidable (_ ∨ _))

/-- `handleBind`, with the DN whose password a simple bind verified. -/
def handleBindVerifying (request : LdapMessage) :
    BackendProgram ((LdapMessage × SessionState) × Option Bytes) :=
  if EndsEarly server context request then do
    let outcome ← handleBind server context session request
    pure (outcome, none)
  else do
    let checked ← bindVerifying server.config server.openssl request.bind.dn request.bind.password
    let outcome ← afterPasswordCheck server request checked.1
    pure (outcome, checked.2)

theorem handle_bind_verifying_erased (request : LdapMessage) :
    (handleBindVerifying server context session request >>= fun outcome => pure outcome.1) =
      handleBind server context session request := by
  unfold handleBindVerifying
  split
  · rw [Program.bind_bind]
    exact Program.bind_return _
  · rename_i late
    simp only [EndsEarly, not_or, not_and, not_not, Bool.not_eq_false, ne_eq] at late
    obtain ⟨version, allowed, simple, confidential⟩ := late
    have sealed : ¬ (server.config.requireConfidentiality = true ∧ (!context.tls) = true ∧
        request.bind.password ≠ []) := by
      rintro ⟨required, plain, password⟩
      exact password (confidential required (by simpa using plain))
    unfold handleBind
    simp only [version, allowed, simple, ne_eq, not_true_eq_false, if_false, Bool.not_true,
      Bool.false_eq_true]
    rw [if_neg sealed, ← bind_verifying_code]
    simp only [Program.bind_bind]
    congr
    funext checked
    simp only [afterPasswordCheck, Program.pure_eq_done, Program.bind_done]
    split
    · split
      · rfl
      · exact Program.bind_return _
    · rfl

section Interleavings

variable {server context session} {request : LdapMessage}

theorem after_password_check_withstands {store : MemoryStore} {resolved : Option Bytes}
    (fits : ResolvesAs server.config request.bind.dn resolved store)
    (named : request.bind.dn ≠ []) {result : ResultCode} (accepted : result = .success)
    {dn : Bytes} (verified : resolved = some (toLowerAscii dn)) :
    (afterPasswordCheck server request result).Withstands exec
      (ResolvesAs server.config request.bind.dn resolved)
      (fun outcome => dnEquals outcome.2.bindDn dn = true) := by
  unfold afterPasswordCheck
  simp only
  rw [if_pos accepted, if_neg named]
  apply Program.withstands_bind
  apply (resolve_name_withstands fits).mono
  intro found same
  rw [verified] at same
  obtain ⟨identity, spelled, equal⟩ := Option.map_eq_some_iff.mp same
  rw [spelled]
  exact (dn_equals_iff identity dn).mpr equal

/-- Only a password check that accepts is answered with success. -/
theorem after_password_check_refused {Fits : MemoryStore → Prop} {result : ResultCode}
    (refused : result ≠ .success) :
    (afterPasswordCheck server request result).Withstands exec Fits
      (fun outcome => outcome.1.result ≠ .success) := by
  unfold afterPasswordCheck
  simp only
  rw [if_neg refused]
  exact refused

/-- A successful bind leaves the session bound as the one whose password was verified. -/
def BoundAsVerified (outcome : (LdapMessage × SessionState) × Option Bytes) : Prop :=
  outcome.1.1.result = .success →
    ∃ dn, outcome.2 = some dn ∧ dnEquals outcome.1.2.bindDn dn = true

theorem handle_bind_withstands {store : MemoryStore} {resolved : Option Bytes}
    (fits : ResolvesAs server.config request.bind.dn resolved store)
    (named : request.bind.dn ≠ []) (simple : request.bind.simple = true) :
    (handleBindVerifying server context session request).Withstands exec
      (ResolvesAs server.config request.bind.dn resolved) BoundAsVerified := by
  unfold handleBindVerifying
  split
  · rename_i early
    unfold handleBind
    simp only
    split
    · exact nofun
    split
    · exact nofun
    rw [simple]
    simp only [Bool.not_true, Bool.false_eq_true, if_false]
    split
    · exact nofun
    · rename_i version allowed confidential
      simp_all [EndsEarly]
  · apply Program.withstands_bind
    apply (bind_verifying_withstands server.openssl fits named
      request.bind.password).mono
    intro checked verified
    apply Program.withstands_bind
    by_cases accepted : checked.1 = .success
    · obtain ⟨dn, owner, spelled⟩ := verified accepted
      apply (after_password_check_withstands fits named accepted spelled).mono
      intro outcome same _
      exact ⟨dn, owner, same⟩
    · apply (after_password_check_refused accepted).mono
      intro outcome refused success
      exact absurd success refused

variable {Thread : Type*} [DecidableEq Thread]

/-- Sessions over one store; the one that binds also records whose password it verified. -/
abbrev BindPool (Thread : Type*) :=
  Program.Pool Thread BackendCall BackendCall.Answer ((LdapMessage × SessionState) × Option Bytes)
    MemoryStore

/-- When the bind name resolves alike in all stores that the bind makes a call on, a
session that is bound is bound as the entry whose password was verified. -/
theorem bound_identity_is_verified {pool : BindPool Thread} (reachable : Reachable pool.state)
    {me : Thread} (handles : pool.threads me = handleBindVerifying server context session request)
    (named : request.bind.dn ≠ []) (simple : request.bind.simple = true) {schedule : List Thread}
    (steady : ∀ first second, first ++ [me] <+: schedule → second ++ [me] <+: schedule →
      resolvesTo server.config (Program.interleave exec pool first).state request.bind.dn =
        resolvesTo server.config (Program.interleave exec pool second).state request.bind.dn)
    {response : LdapMessage} {after : SessionState}
    (answered : (Program.interleave exec (pool.mapValues Prod.fst) schedule).threads me =
      .done (response, after))
    (success : response.result = .success) :
    ∃ dn, (Program.interleave exec pool schedule).threads me = .done ((response, after), some dn) ∧
      dnEquals after.bindDn dn = true := by
  -- A store to compare with: any that the bind makes a call on, else the first one.
  have anchor : ∃ store, StoreInvariant store ∧ ∀ earlier, earlier ++ [me] <+: schedule →
      resolvesTo server.config (Program.interleave exec pool earlier).state request.bind.dn =
        resolvesTo server.config store request.bind.dn := by
    by_cases steps : ∃ first, first ++ [me] <+: schedule
    · obtain ⟨first, reached⟩ := steps
      exact ⟨_, (reachable.after_interleave first).invariant, fun earlier before =>
        steady earlier first before reached⟩
    · exact ⟨pool.state, reachable.invariant, fun earlier before =>
        absurd ⟨earlier, before⟩ steps⟩
  obtain ⟨store, invariant, alike⟩ := anchor
  have start : (pool.threads me).Withstands exec (ResolvesAs server.config request.bind.dn
      (resolvesTo server.config store request.bind.dn)) BoundAsVerified := by
    rw [handles]
    exact handle_bind_withstands ⟨invariant, rfl⟩ named simple
  have final : ((Program.interleave exec pool schedule).threads me).Withstands exec
      (ResolvesAs server.config request.bind.dn
        (resolvesTo server.config store request.bind.dn)) BoundAsVerified := by
    apply Program.withstands_interleave start
    apply along_of_prefixes
    intro earlier thread before mine
    subst mine
    exact ⟨(reachable.after_interleave earlier).invariant, alike earlier before⟩
  rw [Program.interleave_map_values] at answered
  cases ended : (Program.interleave exec pool schedule).threads me with
  | call op next =>
      simp only [Program.Pool.mapValues, ended] at answered
      cases answered
  | done outcome =>
      simp only [Program.Pool.mapValues, ended] at answered
      have same : outcome.1 = (response, after) := Program.done.inj answered
      rw [ended] at final
      obtain ⟨dn, owner, equal⟩ := final (by rw [same]; exact success)
      rw [same] at equal
      exact ⟨dn, congrArg Program.done (Prod.ext same owner), equal⟩

end Interleavings

section Examples

def aliceDn : Bytes := text "uid=alice,ou=people,dc=example,dc=com"

/-- The small directory with a person who can bind. -/
def directoryWithAlice : MemoryStore :=
  (exec (.add { dn := aliceDn
                attributes := (OrderedMap.empty.insert (text "uid") [text "alice"]).insert
                  (text "userPassword") [text "secret"] }) smallDirectory).2

theorem directory_with_alice_reachable : Reachable directoryWithAlice :=
  Reachable.step _ small_directory_reachable

def aliceBinds : LdapMessage :=
  { op := .bindRequest, bind := { version := 3, dn := text "alice", password := text "secret" } }

/-- Alice binds by her account name while the administrator deletes an entry. -/
def bindBesideDelete (deleted : Bytes) : BindPool Bool where
  threads
    | true => handleBindVerifying {} {} {} aliceBinds
    | false => do
        let response ← handleDelete {} administrator { op := .delRequest, deleteDn := deleted }
        pure ((response, administrator), none)
  state := directoryWithAlice

/-- The Delete runs between the password check and the second resolution. -/
def deleteInsideBind : List Bool := [true, true, false, false, false, true]

theorem alice_bound_beside_delete :
    ∃ dn, (Program.interleave exec
        (bindBesideDelete (text "cn=a,ou=people,dc=example,dc=com")) deleteInsideBind).threads
          true =
        .done ((Message.makeBindResponse 0 .success [] [], { bound := true, bindDn := aliceDn }),
          some dn) ∧
      dnEquals aliceDn dn = true := by
  apply bound_identity_is_verified directory_with_alice_reachable
    (rfl : _ = handleBindVerifying {} {} {} aliceBinds) (by decide +kernel) rfl _
    (Program.ended_eq_some (by decide +kernel)) rfl
  have alike : ∀ earlier ∈ deleteInsideBind.inits,
      resolvesTo {} (Program.interleave exec
        (bindBesideDelete (text "cn=a,ou=people,dc=example,dc=com")) earlier).state
        aliceBinds.bind.dn = some aliceDn := by
    decide +kernel
  intro first second firstReached secondReached
  have before {earlier : List Bool} (reached : earlier ++ [true] <+: deleteInsideBind) :
      earlier ∈ deleteInsideBind.inits :=
    (List.mem_inits _ _).mpr ((List.prefix_append _ _).trans reached)
  exact (alike first (before firstReached)).trans (alike second (before secondReached)).symm

/-- The entry whose password was verified is deleted before the session takes its DN: the
session is bound as the raw name. -/
theorem bound_as_raw_name :
    Reachable (bindBesideDelete aliceDn).state ∧
      (Program.interleave exec (bindBesideDelete aliceDn) deleteInsideBind).threads true =
        .done ((Message.makeBindResponse 0 .success [] [],
          { bound := true, bindDn := text "alice" }), some aliceDn) ∧
      dnEquals (text "alice") aliceDn = false :=
  ⟨directory_with_alice_reachable, Program.ended_eq_some (by decide +kernel), by decide +kernel⟩

end Examples

end Session

end SimpleLdapd
