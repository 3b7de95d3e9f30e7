import SimpleLdapd.Auth.Bind
import SimpleLdapd.Auth.Gssapi
import SimpleLdapd.Protocol.Message

/-!
# SASL binds (`auth/sasl.cpp`)

`SaslAuthenticator::bind` returns its outcome together with the digest nonce it
leaves in the session. Everything outside the directory that it reads is an
input of the bind: the state of the connection, the nonce drawn, the keytab
content and the clock.
-/

namespace SimpleLdapd

open Dn

inductive SaslMechanism where
  | anonymous
  | plain
  | digestMd5
  | gssapi
  | external
  deriving DecidableEq

structure SaslBindResult where
  result : ResultCode := .authMethodNotSupported
  bindDn : Bytes := []
  serverCreds : Bytes := []
  diagnostic : Bytes := []
  deriving DecidableEq

/-- What the bind sees of its connection and of the machine. -/
structure BindContext where
  tls : Bool := false
  peerVerified : Bool := false
  peerIdentity : Bytes := []
  nonce : Option Bytes := none
  keytab : Option Bytes := none
  now : Int := 0

namespace Sasl

open SimpleBindAuthenticator Text

def mechanismName : SaslMechanism → Bytes
  | .anonymous => text "ANONYMOUS"
  | .plain => text "PLAIN"
  | .digestMd5 => text "DIGEST-MD5"
  | .gssapi => text "GSSAPI"
  | .external => text "EXTERNAL"

def parseSaslMechanism (name : Bytes) : Option SaslMechanism :=
  [.plain, .digestMd5, .external, .gssapi, .anonymous].find? fun mechanism =>
    iequals name (mechanismName mechanism)

/-- `enabled_` in the order the mechanisms were enabled. -/
abbrev SaslAuthenticator := List SaslMechanism

def advertised (sasl : SaslAuthenticator) : List Bytes := sasl.map mechanismName

def realmFromBase (baseDn : Bytes) : Bytes :=
  if Gssapi.realmOf baseDn = [] then text "simple-ldapd" else Gssapi.realmOf baseDn

/-- The three NUL separated parts; the second one must not be empty. -/
def parsePlain (credentials : Bytes) : Option (Bytes × Bytes × Bytes) :=
  match findByte 0 credentials with
  | none => none
  | some first =>
      let rest := credentials.drop (first + 1)
      match findByte 0 rest with
      | none => none
      | some second =>
          if rest.take second = [] then none
          else some (credentials.take first, rest.take second, rest.drop (second + 1))

def fail (code : ResultCode) (diagnostic : Bytes) : SaslBindResult :=
  { result := code, diagnostic := diagnostic }

def succeed (dn : Bytes) (serverCreds : Bytes) : SaslBindResult :=
  { result := .success, bindDn := dn, serverCreds := serverCreds }

def invalidCredentials : SaslBindResult := fail .invalidCredentials (text "invalid credentials")

variable (config : LdapConfig) (openssl : Option OpenSsl)

def bindPlain (context : BindContext) (request : BindRequestData) :
    BackendProgram SaslBindResult :=
  if config.requireConfidentiality && !context.tls then
    pure (fail .confidentialityRequired (text "confidentiality required"))
  else
    match parsePlain request.saslCredentials with
    | none => pure (fail .invalidCredentials (text "invalid PLAIN credentials"))
    | some (authzid, authcid, password) => do
        let resolved ← resolveName config authcid
        match resolved with
        | none => pure invalidCredentials
        | some dn =>
            if authzid ≠ [] && !iequals authzid authcid && !dnEquals authzid dn then
              pure (fail .insufficientAccessRights (text "proxy authorization is not allowed"))
            else do
              let code ← bind config openssl dn password
              if code ≠ .success then pure invalidCredentials else pure (succeed dn [])

def md5Hex (ssl : OpenSsl) (data : Bytes) : Bytes := toHex (ssl.md5 data)

def colon : Bytes := text ":"

/-- The fields of a digest response that the server reads. -/
structure DigestFields where
  username : Bytes
  realm : Bytes
  nonce : Bytes
  cnonce : Bytes
  nc : Bytes
  qop : Bytes
  uri : Bytes
  response : Bytes

def digestFields (credentials : Bytes) : DigestFields :=
  let pairs := parsePairs toLowerAscii credentials
  { username := unquote (pairValue pairs (text "username") [])
    realm := unquote (pairValue pairs (text "realm") [])
    nonce := unquote (pairValue pairs (text "nonce") [])
    cnonce := unquote (pairValue pairs (text "cnonce") [])
    nc := pairValue pairs (text "nc") []
    qop := unquote (pairValue pairs (text "qop") (text "auth"))
    uri := unquote (pairValue pairs (text "digest-uri") [])
    response := unquote (pairValue pairs (text "response") []) }

def digestHa1 (ssl : OpenSsl) (fields : DigestFields) (password : Bytes) : Bytes :=
  md5Hex ssl (ssl.md5 (fields.username ++ colon ++ fields.realm ++ colon ++ password) ++ colon ++
    fields.nonce ++ colon ++ fields.cnonce)

def digestOf (ssl : OpenSsl) (fields : DigestFields) (ha1 method : Bytes) : Bytes :=
  md5Hex ssl (ha1 ++ colon ++ fields.nonce ++ colon ++ fields.nc ++ colon ++ fields.cnonce ++
    colon ++ fields.qop ++ colon ++ md5Hex ssl (method ++ colon ++ fields.uri))

def digestChallenge (nonce : Bytes) : Bytes :=
  text "realm=\"" ++ realmFromBase config.baseDn ++ text "\",nonce=\"" ++ nonce ++
    text "\",qop=\"auth\",algorithm=md5-sess,charset=utf-8"

/-- The second half of the exchange; every branch clears the nonce. -/
def answerDigest (ssl : OpenSsl) (nonce : Bytes) (request : BindRequestData) :
    BackendProgram SaslBindResult :=
  let fields := digestFields request.saslCredentials
  if fields.username = [] ∨ fields.nonce ≠ nonce ∨ fields.cnonce = [] ∨ fields.response = [] then
    pure (fail .invalidCredentials (text "invalid DIGEST-MD5 response"))
  else do
    let resolved ← resolveName config fields.username
    match resolved with
    | none => pure invalidCredentials
    | some dn => do
        let disabled ← isAccountDisabled config dn
        if disabled then pure invalidCredentials
        else do
          let stored ← passwordFor config dn
          match stored with
          | none => pure invalidCredentials
          | some password =>
              let ha1 := digestHa1 ssl fields password
              if !iequals (digestOf ssl fields ha1 (text "AUTHENTICATE")) fields.response then
                pure invalidCredentials
              else pure (succeed dn (text "rspauth=" ++ digestOf ssl fields ha1 []))

def bindDigest (context : BindContext) (digestNonce : Bytes) (request : BindRequestData) :
    BackendProgram (SaslBindResult × Bytes) :=
  match openssl with
  | none =>
      pure (fail .authMethodNotSupported (text "DIGEST-MD5 requires OpenSSL"), digestNonce)
  | some ssl =>
      if digestNonce = [] ∨ request.saslCredentials = [] then
        match context.nonce with
        | none => pure (fail .operationsError (text "DIGEST-MD5 nonce failed"), [])
        | some raw =>
            let nonce := toHex raw
            if nonce = [] then
              pure (fail .operationsError (text "DIGEST-MD5 nonce failed"), nonce)
            else
              pure ({ result := .saslBindInProgress
                      serverCreds := digestChallenge config nonce }, nonce)
      else do
        let outcome ← answerDigest config ssl digestNonce request
        pure (outcome, [])

/-- The identity the client asks for, if any, is the one of its certificate. -/
def identityAgrees (requested certDn : Bytes) : BackendProgram Bool :=
  if requested = [] then pure true
  else do
    let requestedDn ← resolveName config requested
    match requestedDn with
    | none => pure false
    | some dn => pure (dnEquals dn certDn)

def bindExternal (context : BindContext) (request : BindRequestData) :
    BackendProgram SaslBindResult :=
  if !context.tls then pure (fail .confidentialityRequired (text "EXTERNAL requires TLS"))
  else if !context.peerVerified || context.peerIdentity = [] then
    pure (fail .invalidCredentials (text "EXTERNAL requires a verified client certificate"))
  else do
    let resolved ← resolveName config context.peerIdentity
    match resolved with
    | none => pure (fail .invalidCredentials (text "EXTERNAL identity is unknown"))
    | some certDn => do
        let requested :=
          if request.saslCredentials ≠ [] then request.saslCredentials else request.dn
        let agreed ← identityAgrees config requested certDn
        if !agreed then
          pure (fail .invalidCredentials (text "EXTERNAL identity does not match certificate"))
        else do
          let disabled ← isAccountDisabled config certDn
          if disabled then pure invalidCredentials else pure (succeed certDn [])

def bindGssapi (context : BindContext) (request : BindRequestData) :
    BackendProgram SaslBindResult :=
  if config.gssapiKeytab = [] then
    pure (fail .authMethodNotSupported (text "GSSAPI requires gssapi_keytab (see v0.7.0)"))
  else
    match Gssapi.loadGssapiKeytab context.keytab with
    | .error ticketError => pure (fail .operationsError ticketError)
    | .ok loaded => do
        let keytab : GssapiKeytab :=
          { loaded with
            realm :=
              if loaded.realm = [] then
                if config.krbRealm ≠ [] then config.krbRealm
                else Gssapi.kerberosRealmFromBase config.baseDn
              else loaded.realm
            service :=
              if loaded.service = [] then
                if config.gssapiService ≠ [] then config.gssapiService else text "ldap/localhost"
              else loaded.service }
        if request.saslCredentials = [] then
          pure { result := .saslBindInProgress
                 serverCreds := text "realm=\"" ++ keytab.realm ++ text "\",service=\"" ++
                   keytab.service ++ text "\"" }
        else
          match Gssapi.verifyGssapiTicket openssl context.now keytab request.saslCredentials with
          | .error _ => pure invalidCredentials
          | .ok principal => do
              let resolved ← resolveName config principal
              match resolved with
              | none => pure invalidCredentials
              | some dn => do
                  let disabled ← isAccountDisabled config dn
                  if disabled then pure invalidCredentials else pure (succeed dn [])

/-- `SaslAuthenticator::bind` and the nonce it leaves behind. -/
def bind (sasl : SaslAuthenticator) (context : BindContext) (digestNonce : Bytes)
    (request : BindRequestData) : BackendProgram (SaslBindResult × Bytes) :=
  let unsupported := fail .authMethodNotSupported (text "unsupported SASL mechanism")
  match parseSaslMechanism request.saslMechanism with
  | none => pure (unsupported, digestNonce)
  | some mechanism =>
      if mechanism ∉ sasl then pure (unsupported, digestNonce)
      else
        match mechanism with
        | .plain => do
            let outcome ← bindPlain config openssl context request
            pure (outcome, digestNonce)
        | .digestMd5 => bindDigest config openssl context digestNonce request
        | .external => do
            let outcome ← bindExternal config context request
            pure (outcome, digestNonce)
        | .gssapi => do
            let outcome ← bindGssapi config openssl context request
            pure (outcome, digestNonce)
        | .anonymous => pure (unsupported, digestNonce)

section ReadOnly

theorem bind_plain_read_only (context : BindContext) (request : BindRequestData) :
    (bindPlain config openssl context request).Issues BackendCall.Reads := by
  unfold bindPlain
  split
  · trivial
  · split
    · trivial
    · apply Program.issues_bind (resolve_name_read_only config _)
      intro resolved
      split
      · trivial
      · split
        · trivial
        · apply Program.issues_bind (bind_read_only config openssl _ _)
          intro code
          split <;> trivial

theorem answer_digest_read_only (ssl : OpenSsl) (nonce : Bytes) (request : BindRequestData) :
    (answerDigest config ssl nonce request).Issues BackendCall.Reads := by
  unfold answerDigest
  simp only
  split
  · trivial
  · apply Program.issues_bind (resolve_name_read_only config _)
    intro resolved
    split
    · trivial
    · apply Program.issues_bind (is_account_disabled_read_only config _)
      intro disabled
      split
      · trivial
      · apply Program.issues_bind (password_for_read_only config _)
        intro stored
        split
        · trivial
        · split <;> trivial

theorem bind_digest_read_only (context : BindContext) (digestNonce : Bytes)
    (request : BindRequestData) :
    (bindDigest config openssl context digestNonce request).Issues BackendCall.Reads := by
  unfold bindDigest
  split
  · trivial
  · split
    · split
      · trivial
      · simp only
        split <;> trivial
    · apply Program.issues_bind (answer_digest_read_only config _ _ _)
      intro outcome
      trivial

theorem identity_agrees_read_only (requested certDn : Bytes) :
    (identityAgrees config requested certDn).Issues BackendCall.Reads := by
  unfold identityAgrees
  split
  · trivial
  · apply Program.issues_bind (resolve_name_read_only config _)
    intro resolved
    split <;> trivial

theorem bind_external_read_only (context : BindContext) (request : BindRequestData) :
    (bindExternal config context request).Issues BackendCall.Reads := by
  unfold bindExternal
  split
  · trivial
  · split
    · trivial
    · apply Program.issues_bind (resolve_name_read_only config _)
      intro resolved
      split
      · trivial
      · apply Program.issues_bind (identity_agrees_read_only config _ _)
        intro agreed
        split
        · trivial
        · apply Program.issues_bind (is_account_disabled_read_only config _)
          intro disabled
          split <;> trivial

theorem bind_gssapi_read_only (context : BindContext) (request : BindRequestData) :
    (bindGssapi config openssl context request).Issues BackendCall.Reads := by
  unfold bindGssapi
  split
  · trivial
  · split
    · trivial
    · simp only
      split
      · trivial
      · split
        · trivial
        · apply Program.issues_bind (resolve_name_read_only config _)
          intro resolved
          split
          · trivial
          · apply Program.issues_bind (is_account_disabled_read_only config _)
            intro disabled
            split <;> trivial

theorem sasl_bind_read_only (sasl : SaslAuthenticator) (context : BindContext)
    (digestNonce : Bytes) (request : BindRequestData) :
    (bind config openssl sasl context digestNonce request).Issues BackendCall.Reads := by
  unfold bind
  simp only
  split
  · trivial
  · split
    · trivial
    · split
      · apply Program.issues_bind (bind_plain_read_only config openssl _ _)
        intro outcome
        trivial
      · exact bind_digest_read_only config openssl _ _ _
      · apply Program.issues_bind (bind_external_read_only config _ _)
        intro outcome
        trivial
      · apply Program.issues_bind (bind_gssapi_read_only config openssl _ _)
        intro outcome
        trivial
      · trivial

end ReadOnly

end Sasl

end SimpleLdapd
