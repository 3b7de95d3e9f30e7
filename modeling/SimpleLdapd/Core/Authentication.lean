import SimpleLdapd.Auth.DigestStrength
import SimpleLdapd.Core.WriteOutcome

/-!
# Authentication soundness over whole sessions

A run of one session keeps a record of its last bind: the store it was decided
in, the request and the answer. The identity of the session is always the one
that this bind justified, because every bind drops the old identity first and
the name resolver is stable on the names it returns.
-/

namespace SimpleLdapd.Session

open Dn MemoryBackend Password SimpleBindAuthenticator Sasl

/-- The root DN, or a stored entry that is not disabled. -/
def KnownIdentity (config : LdapConfig) (store : MemoryStore) (dn : Bytes) : Prop :=
  isRootDn config dn = true ∨
    ∃ entry, lookup store dn = some entry ∧ accountDisabled entry = false

/-- What a SASL bind with this mechanism proved about the identity. -/
def SaslEvidence (server : Server) (store : MemoryStore) (context : BindContext)
    (request : BindRequestData) (dn : Bytes) : Option SaslMechanism → Prop
  | some .plain => ∃ authzid authcid password,
      parsePlain request.saslCredentials = some (authzid, authcid, password) ∧
        Authenticated server.config server.openssl store dn password
  | some .external => context.tls = true ∧ context.peerVerified = true ∧
      ((resolveName server.config context.peerIdentity).run exec store).1 = some dn
  | _ => True

/-- The identity `dn` follows from this bind request in this store. -/
structure Justified (server : Server) (store : MemoryStore) (context : BindContext)
    (request : BindRequestData) (dn : Bytes) : Prop where
  known : KnownIdentity server.config store dn
  simple : request.simple = true →
    Authenticated server.config server.openssl store dn request.password
  sasl : request.simple = false →
    SaslEvidence server store context request dn (parseSaslMechanism request.saslMechanism)

section Evidence

variable {config : LdapConfig} {openssl : Option OpenSsl} {store : MemoryStore}

theorem known_of_authenticated {dn password : Bytes}
    (authenticated : Authenticated config openssl store dn password) :
    KnownIdentity config store dn := by
  rcases authenticated with ⟨root, _⟩ | ⟨_, entry, found, enabled, _⟩
  · exact Or.inl root
  · exact Or.inr ⟨entry, found, enabled⟩

/-- A resolved name whose account is not disabled is a known identity. -/
theorem known_of_enabled {dn : Bytes} (resolved : Resolved config store dn)
    (enabled : ((isAccountDisabled config dn).run exec store).1 = false) :
    KnownIdentity config store dn := by
  by_cases root : isRootDn config dn = true
  · exact Or.inl root
  · obtain ⟨entry, found, _⟩ := resolved.entry_of_not_root root
    unfold isAccountDisabled at enabled
    rw [if_neg root] at enabled
    simp only [Program.run_bind, Backend.lookup, Program.run_perform, exec, found] at enabled
    exact Or.inr ⟨entry, found, enabled⟩

theorem root_dn_is_root {dn : Bytes} (root : isRootDn config dn = true) :
    isRootDn config config.rootDn = true := by
  simp only [isRootDn, Bool.and_eq_true, decide_eq_true_eq] at root
  simp [isRootDn, root.1, dn_equals_iff]

/-- A password accepted for a resolved name was checked against that very identity. -/
theorem authenticated_of_resolved {dn password : Bytes} (resolved : Resolved config store dn)
    (success : ((SimpleBindAuthenticator.bind config openssl dn password).run exec store).1 =
      .success) :
    Authenticated config openssl store dn password := by
  obtain ⟨again, found, authenticated⟩ := bind_success openssl resolved.nonempty success
  rw [resolved.stable] at found
  cases found
  by_cases root : isRootDn config dn = true
  · rw [if_pos root] at authenticated
    rcases authenticated with ⟨_, verified⟩ | ⟨notRoot, _⟩
    · exact Or.inl ⟨root, verified⟩
    · rw [root_dn_is_root root] at notRoot
      cases notRoot
  · rw [if_neg root] at authenticated
    exact authenticated

end Evidence

section SaslBinds

variable {config : LdapConfig} {openssl : Option OpenSsl} {store : MemoryStore}

/-- A success is for an identity that satisfies `evidence`. -/
def SaslSound (evidence : Bytes → Prop) (outcome : SaslBindResult) : Prop :=
  outcome.result = .success → evidence outcome.bindDn

theorem ensures_failed {evidence : Bytes → Prop} {outcome : SaslBindResult}
    (failed : outcome.result ≠ .success) :
    Program.Ensures exec (pure outcome : BackendProgram SaslBindResult) store
      fun outcome _ => SaslSound evidence outcome :=
  Program.ensures_pure fun success => absurd success failed

/-- The common end of three mechanisms: resolve the name and refuse a disabled account. -/
theorem ensures_enabled (invariant : StoreInvariant store) (baseIsDn : chr '=' ∈ config.baseDn)
    {name dn : Bytes}
    (resolved : ((resolveName config name).run exec store).1 = some dn)
    {rest : Bool → BackendProgram SaslBindResult} {post : SaslBindResult → MemoryStore → Prop}
    (disabled : Program.Ensures exec (rest true) store post)
    (enabled : KnownIdentity config store dn → Program.Ensures exec (rest false) store post) :
    Program.Ensures exec (isAccountDisabled config dn >>= rest) store post := by
  apply ensures_read (is_account_disabled_read_only config dn)
  intro decision decided
  cases decision with
  | true => exact disabled
  | false =>
      exact enabled (known_of_enabled (resolve_name_resolved invariant baseIsDn resolved) decided)

theorem bind_plain_sound (invariant : StoreInvariant store) (baseIsDn : chr '=' ∈ config.baseDn)
    (context : BindContext) (request : BindRequestData) :
    Program.Ensures exec (bindPlain config openssl context request) store fun outcome _ =>
      SaslSound (fun dn => ∃ authzid authcid password,
        parsePlain request.saslCredentials = some (authzid, authcid, password) ∧
          Authenticated config openssl store dn password) outcome := by
  unfold bindPlain
  split
  · exact ensures_failed (by decide)
  split
  · exact ensures_failed (by decide)
  rename_i authzid authcid password parsed
  apply ensures_read (resolve_name_read_only config authcid)
  intro answer resolved
  split
  · exact ensures_failed (by decide)
  rename_i dn
  split
  · exact ensures_failed (by decide)
  apply ensures_read (bind_read_only config openssl dn password)
  intro code accepted
  split
  · exact ensures_failed (by decide)
  rename_i success
  apply Program.ensures_pure
  intro _
  rw [not_not.mp success] at accepted
  exact ⟨authzid, authcid, password, parsed,
    authenticated_of_resolved (resolve_name_resolved invariant baseIsDn resolved) accepted⟩

theorem bind_external_sound (invariant : StoreInvariant store)
    (baseIsDn : chr '=' ∈ config.baseDn) (context : BindContext) (request : BindRequestData) :
    Program.Ensures exec (bindExternal config context request) store fun outcome _ =>
      SaslSound (fun dn => KnownIdentity config store dn ∧ context.tls = true ∧
        context.peerVerified = true ∧
        ((resolveName config context.peerIdentity).run exec store).1 = some dn) outcome := by
  unfold bindExternal
  split
  · exact ensures_failed (by decide)
  rename_i secured
  split
  · exact ensures_failed (by decide)
  rename_i verified
  simp only [Bool.or_eq_true, Bool.not_eq_true', not_or, Bool.not_eq_false] at secured verified
  apply ensures_read (resolve_name_read_only config context.peerIdentity)
  intro answer resolved
  split
  · exact ensures_failed (by decide)
  rename_i certDn
  apply ensures_read (identity_agrees_read_only config _ certDn)
  intro agreed _
  split
  · exact ensures_failed (by decide)
  apply ensures_enabled invariant baseIsDn resolved
  · exact ensures_failed (by decide)
  intro known
  exact Program.ensures_pure fun _ => ⟨known, secured, verified.1, resolved⟩

theorem bind_gssapi_sound (invariant : StoreInvariant store)
    (baseIsDn : chr '=' ∈ config.baseDn) (context : BindContext) (request : BindRequestData) :
    Program.Ensures exec (bindGssapi config openssl context request) store fun outcome _ =>
      SaslSound (KnownIdentity config store) outcome := by
  unfold bindGssapi
  split
  · exact ensures_failed (by decide)
  split
  · exact ensures_failed (show ResultCode.operationsError ≠ .success by decide)
  simp only
  split
  · exact ensures_failed (show ResultCode.saslBindInProgress ≠ .success by decide)
  split
  · exact ensures_failed (by decide)
  apply ensures_read (resolve_name_read_only config _)
  intro answer resolved
  split
  · exact ensures_failed (by decide)
  apply ensures_enabled invariant baseIsDn resolved
  · exact ensures_failed (by decide)
  intro known
  exact Program.ensures_pure fun _ => known

/-- Acceptance looks at the account of the name that was resolved, and that it is enabled. -/
theorem bind_digest_sound (invariant : StoreInvariant store)
    (baseIsDn : chr '=' ∈ config.baseDn) (context : BindContext) (digestNonce : Bytes)
    (request : BindRequestData) :
    Program.Ensures exec (bindDigest config openssl context digestNonce request) store
      fun outcome _ => SaslSound (KnownIdentity config store) outcome.1 := by
  apply (bind_digest_accepted openssl context digestNonce request).mono
  intro outcome after accepted success
  obtain ⟨ssl, _, password, account, _⟩ := accepted success
  have resolved := resolve_name_resolved invariant baseIsDn account.resolved
  exact known_of_enabled resolved account.enabled

/-- A successful SASL bind names a known identity, with the evidence of its mechanism. -/
theorem sasl_bind_sound {server : Server} (invariant : StoreInvariant store)
    (baseIsDn : chr '=' ∈ server.config.baseDn) (sasl : SaslAuthenticator)
    (context : BindContext) (digestNonce : Bytes) (request : BindRequestData) :
    Program.Ensures exec
      (Sasl.bind server.config server.openssl sasl context digestNonce request) store
      fun outcome _ => SaslSound (fun dn => KnownIdentity server.config store dn ∧
        SaslEvidence server store context request dn
          (parseSaslMechanism request.saslMechanism)) outcome.1 := by
  have unsupported : ResultCode.authMethodNotSupported ≠ .success := by decide
  unfold Sasl.bind
  simp only
  split
  · exact Program.ensures_pure fun success => absurd success unsupported
  rename_i mechanism parsed
  rw [parsed]
  split
  · exact Program.ensures_pure fun success => absurd success unsupported
  split
  · apply Program.ensures_bind
    apply (bind_plain_sound invariant baseIsDn context request).mono
    intro outcome after sound
    apply Program.ensures_pure
    intro success
    obtain ⟨authzid, authcid, password, parts, authenticated⟩ := sound success
    exact ⟨known_of_authenticated authenticated, authzid, authcid, password, parts, authenticated⟩
  · apply (bind_digest_sound invariant baseIsDn context digestNonce request).mono
    intro outcome after sound success
    exact ⟨sound success, trivial⟩
  · apply Program.ensures_bind
    apply (bind_external_sound invariant baseIsDn context request).mono
    intro outcome after sound
    exact Program.ensures_pure sound
  · apply Program.ensures_bind
    apply (bind_gssapi_sound invariant baseIsDn context request).mono
    intro outcome after sound
    apply Program.ensures_pure
    intro success
    exact ⟨sound success, trivial⟩
  · exact Program.ensures_pure fun success => absurd success unsupported

end SaslBinds

section Binds

variable {server : Server} {store : MemoryStore}

/-- A bind answered with `code` leaves the session anonymous, or bound to a justified
identity after a success. -/
def BindOutcome (server : Server) (store : MemoryStore) (context : BindContext)
    (request : BindRequestData) (code : ResultCode) (after : SessionState) : Prop :=
  (code ≠ .success ∧ after.bound = false ∧ after.bindDn = []) ∨
    (code = .success ∧ after.bound = true ∧
      (after.bindDn = [] ∨ Justified server store context request after.bindDn))

theorem handle_bind_outcome (invariant : StoreInvariant store)
    (baseIsDn : chr '=' ∈ server.config.baseDn) (context : RequestContext)
    (session : SessionState) (request : LdapMessage) :
    Program.Ensures exec (handleBind server context session request) store
      fun outcome _ => BindOutcome server store context.toBindContext request.bind
        outcome.1.result outcome.2 := by
  have refused {response : LdapMessage} {after : SessionState}
      (failed : response.result ≠ .success) (anonymous : after.bound = false ∧ after.bindDn = []) :
      Program.Ensures exec (pure (response, after) : BackendProgram (LdapMessage × SessionState))
        store fun outcome _ => BindOutcome server store context.toBindContext request.bind
          outcome.1.result outcome.2 :=
    Program.ensures_pure (Or.inl ⟨failed, anonymous⟩)
  unfold handleBind
  simp only
  split
  · exact refused (show ResultCode.protocolError ≠ .success by decide) ⟨rfl, rfl⟩
  split
  · exact refused (show ResultCode.busy ≠ .success by decide) ⟨rfl, rfl⟩
  split
  · rename_i isSasl
    split
    · exact refused (show ResultCode.authMethodNotSupported ≠ .success by decide) ⟨rfl, rfl⟩
    · rename_i sasl _
      apply Program.ensures_bind
      apply (sasl_bind_sound invariant baseIsDn sasl context.toBindContext
        session.saslDigestNonce request.bind).mono
      intro outcome after sound
      split
      · rename_i success
        have notSimple : request.bind.simple = false := by simpa using isSasl
        obtain ⟨known, evidence⟩ := sound success
        refine Program.ensures_pure (Or.inr ⟨success, rfl, Or.inr ⟨known, ?_, fun _ => evidence⟩⟩)
        intro simple
        rw [notSimple] at simple
        cases simple
      · rename_i failed
        exact Program.ensures_pure (Or.inl ⟨failed, rfl, rfl⟩)
  rename_i isSimple
  split
  · exact refused (show ResultCode.confidentialityRequired ≠ .success by decide) ⟨rfl, rfl⟩
  apply ensures_read (bind_read_only server.config server.openssl _ _)
  intro code accepted
  split
  · rename_i success
    split
    · exact Program.ensures_pure (Or.inr ⟨rfl, rfl, Or.inl rfl⟩)
    · rename_i named
      rw [success] at accepted
      obtain ⟨dn, found, authenticated⟩ := bind_success server.openssl named accepted
      apply ensures_read (resolve_name_read_only server.config _)
      intro resolved again
      rw [found] at again
      subst again
      refine Program.ensures_pure (Or.inr ⟨rfl, rfl, Or.inr ?_⟩)
      refine ⟨known_of_authenticated authenticated, fun _ => authenticated, ?_⟩
      intro notSimple
      simp [notSimple] at isSimple
  · rename_i failed
    exact refused failed ⟨rfl, rfl⟩

end Binds

section Runs

/-- A BindRequest as it was handled: the store before it, what it read and its answer. -/
structure BindRecord where
  store : MemoryStore
  context : RequestContext
  request : LdapMessage
  answer : List LdapMessage

def BindRecord.AnsweredSuccess (record : BindRecord) : Prop :=
  record.answer.map (·.result) = [.success]

/-- One session on a directory that nobody else writes to. -/
structure SessionRun where
  store : MemoryStore
  session : SessionState := {}
  lastBind : Option BindRecord := none

/-- The session handles its next request; a request that reads out of bounds leaves
no state to speak of, and the run stays where it was. -/
def SessionRun.step (server : Server) (run : SessionRun) (next : RequestContext × LdapMessage) :
    SessionRun :=
  let outcome := (handleRequest server next.1 run.session next.2).run exec run.store
  match outcome.1 with
  | none => run
  | some reply =>
      { store := outcome.2
        session := reply.session
        lastBind :=
          if next.2.op = .bindRequest then
            some { store := run.store, context := next.1, request := next.2
                   answer := reply.messages }
          else run.lastBind }

def SessionRun.steps (server : Server) (run : SessionRun)
    (requests : List (RequestContext × LdapMessage)) : SessionRun :=
  requests.foldl (SessionRun.step server) run

/-- The identity of the session is the one its last bind justified, and a session whose
last bind was not answered success is anonymous. -/
structure SoundIdentity (server : Server) (run : SessionRun) : Prop where
  identified : run.session.bindDn ≠ [] →
    ∃ record, run.lastBind = some record ∧ record.AnsweredSuccess ∧ run.session.bound = true ∧
      Justified server record.store record.context.toBindContext record.request.bind
        run.session.bindDn
  anonymous : ∀ record, run.lastBind = some record → ¬ record.AnsweredSuccess →
    run.session.bound = false ∧ run.session.bindDn = []

variable {server : Server}

/-- The reply leaves the session state as it was. -/
def KeepsSession (session : SessionState) (outcome : Option Reply) : Prop :=
  ∀ reply, outcome = some reply → reply.session = session

theorem keeps_replied (session : SessionState) (response : LdapMessage) :
    KeepsSession session (reply session response) := by
  intro replied same
  cases same
  rfl

theorem ensures_keeps_session (session : SessionState) (handler : BackendProgram LdapMessage)
    (store : MemoryStore) :
    Program.Ensures exec (do let response ← handler; pure (reply session response)) store
      fun outcome _ => KeepsSession session outcome := by
  apply Program.ensures_bind
  exact keeps_replied session _

theorem handle_extended_keeps_session (context : RequestContext) (session : SessionState)
    (request : LdapMessage) (store : MemoryStore) :
    Program.Ensures exec (handleExtended server context session request) store
      fun outcome _ => KeepsSession session outcome := by
  unfold handleExtended
  simp only
  split
  · split
    · exact Program.ensures_pure (keeps_replied session _)
    · apply Program.ensures_pure
      intro replied same
      cases same
      rfl
  split
  · exact ensures_keeps_session session _ store
  split
  · exact Program.ensures_pure (keeps_replied session _)
  · exact Program.ensures_pure (keeps_replied session _)

/-- Only a bind changes the session state. -/
theorem other_requests_keep_session (server : Server) (context : RequestContext) (session : SessionState)
    {request : LdapMessage} (notBind : request.op ≠ .bindRequest) (store : MemoryStore) :
    Program.Ensures exec (handleRequest server context session request) store
      fun outcome _ => KeepsSession session outcome := by
  unfold handleRequest
  split
  · apply Program.ensures_pure
    intro replied same
    cases same
    rfl
  · apply Program.ensures_bind
    intro replied same
    obtain ⟨messages, _, equal⟩ := Option.map_eq_some_iff.mp same
    rw [← equal]
  · rename_i op
    exact absurd op notBind
  · exact ensures_keeps_session session _ store
  · exact ensures_keeps_session session _ store
  · exact ensures_keeps_session session _ store
  · exact ensures_keeps_session session _ store
  · exact ensures_keeps_session session _ store
  · exact handle_extended_keeps_session context session request store
  · exact Program.ensures_pure (keeps_replied session _)

/-- What one bind leaves in the run. -/
theorem bind_step_sound {run : SessionRun} (invariant : StoreInvariant run.store)
    (baseIsDn : chr '=' ∈ server.config.baseDn) {next : RequestContext × LdapMessage}
    (isBind : next.2.op = .bindRequest) : SoundIdentity server (run.step server next) := by
  have outcome := handle_bind_outcome invariant baseIsDn next.1 run.session next.2
  unfold Program.Ensures at outcome
  have handled : ((handleRequest server next.1 run.session next.2).run exec run.store).1 =
      reply ((handleBind server next.1 run.session next.2).run exec run.store).1.2
        ((handleBind server next.1 run.session next.2).run exec run.store).1.1 := by
    unfold handleRequest
    rw [isBind]
    simp only [Program.run_bind]
    rfl
  unfold SessionRun.step
  simp only [handled, reply, isBind, if_true]
  generalize ((handleBind server next.1 run.session next.2).run exec run.store).1 = answer at outcome
  constructor
  · intro named
    refine ⟨_, rfl, ?_⟩
    rcases outcome with ⟨_, _, unnamed⟩ | ⟨success, bound, unnamed | justified⟩
    · exact absurd unnamed named
    · exact absurd unnamed named
    · exact ⟨by simp [BindRecord.AnsweredSuccess, success], bound, justified⟩
  · intro record same failed
    cases same
    rcases outcome with ⟨_, anonymous⟩ | ⟨success, _⟩
    · exact anonymous
    · exact absurd (by simp [BindRecord.AnsweredSuccess, success]) failed

theorem step_sound {run : SessionRun} (reachable : Reachable run.store)
    (baseIsDn : chr '=' ∈ server.config.baseDn) (sound : SoundIdentity server run)
    (next : RequestContext × LdapMessage) :
    Reachable (run.step server next).store ∧ SoundIdentity server (run.step server next) := by
  constructor
  · unfold SessionRun.step
    simp only
    split
    · exact reachable
    · exact reachable.after_run _
  by_cases isBind : next.2.op = .bindRequest
  · exact bind_step_sound reachable.invariant baseIsDn isBind
  · have kept := other_requests_keep_session server next.1 run.session isBind run.store
    unfold SessionRun.step
    simp only [isBind, if_false]
    split
    · exact sound
    · rename_i replied handled
      have same : replied.session = run.session := kept replied handled
      exact ⟨by simpa only [same] using sound.identified,
        by simpa only [same] using sound.anonymous⟩

/-- In every state that a session reaches, its identity was justified by its last bind. -/
theorem sessions_are_authenticated {store : MemoryStore} (reachable : Reachable store)
    (baseIsDn : chr '=' ∈ server.config.baseDn)
    (requests : List (RequestContext × LdapMessage)) :
    SoundIdentity server (SessionRun.steps server { store := store } requests) := by
  have fresh : SoundIdentity server { store := store } := by
    constructor
    · intro named
      exact absurd rfl named
    · intro record none
      cases none
  have along {run : SessionRun} (reached : Reachable run.store)
      (sound : SoundIdentity server run) :
      SoundIdentity server (SessionRun.steps server run requests) := by
    induction requests generalizing run with
    | nil => exact sound
    | cons next rest ih =>
        obtain ⟨later, kept⟩ := step_sound reached baseIsDn sound next
        exact ih later kept
  exact along reachable fresh

/-- A server whose root DN has the password `secret`. -/
def guardedServer : Server := { config := { rootPassword := text "secret" } }

/-- A bind with the short name of the administrator, then a refused bind. -/
def bindTwice : List (RequestContext × LdapMessage) :=
  [({}, { op := .bindRequest, bind := { dn := text "admin", password := text "secret" } }),
    ({}, { op := .bindRequest, bind := { dn := text "admin", password := text "wrong" } })]

theorem administrator_is_authenticated :
    (SessionRun.steps guardedServer { store := smallDirectory } (bindTwice.take 1)).session.bindDn =
        text "cn=admin,dc=example,dc=com" ∧
      SoundIdentity guardedServer
        (SessionRun.steps guardedServer { store := smallDirectory } (bindTwice.take 1)) ∧
      (SessionRun.steps guardedServer { store := smallDirectory } bindTwice).session.bindDn = [] ∧
      SoundIdentity guardedServer
        (SessionRun.steps guardedServer { store := smallDirectory } bindTwice) :=
  ⟨by decide +kernel,
    sessions_are_authenticated small_directory_reachable (by decide +kernel) (bindTwice.take 1),
    by decide +kernel,
    sessions_are_authenticated small_directory_reachable (by decide +kernel) bindTwice⟩

end Runs

end SimpleLdapd.Session
