import SimpleLdapd.Auth.Sasl
import SimpleLdapd.Schema.Registry
import SimpleLdapd.Security.Acl

/-!
# Sessions (`core/session.cpp`)

A handler is a program over the backend that ends in the messages it sends and
the session state it leaves. What a request reads from outside the directory
(the connection, the rate limiter, random salts, the clock) is its
`RequestContext`. Sends succeed: a session whose send fails ends there.
-/

namespace SimpleLdapd

open Dn Message

structure SessionState where
  bound : Bool := false
  bindDn : Bytes := []
  saslDigestNonce : Bytes := []
  deriving DecidableEq

/-- What a session is constructed with. -/
structure Server where
  config : LdapConfig := {}
  openssl : Option OpenSsl := none
  schema : Option SchemaRegistry := none
  sasl : Option Sasl.SaslAuthenticator := none
  tlsEnabled : Bool := false

/-- `expired sent` is the clock comparison made before the entry number `sent` of a
search, and `handshake` the outcome of a TLS handshake. -/
structure RequestContext extends BindContext where
  rateAllowed : Bool := true
  salts : Salts := fun _ => none
  expired : Nat → Bool := fun _ => false
  handshake : Bool := true

namespace Session

def kStartTlsOid : Bytes := text "1.3.6.1.4.1.1466.20037"
def kVersion : Bytes := text "1.0.0"

def isUserPassword (name : Bytes) : Bool := iequals name (text "userPassword")

def wantsAllAttributes (names : List Bytes) : Bool := names = [] || names.any (· = text "*")

def wantsNoAttributes (names : List Bytes) : Bool := names = [text "1.1"]

def attributeRequested (names : List Bytes) (wanted : Bytes) : Bool :=
  names.any fun name => iequals name wanted

variable (server : Server) (context : RequestContext) (session : SessionState)

def maySearch (entryDn : Bytes) : BackendProgram Bool :=
  AccessControl.maySearch server.config session.bindDn entryDn

def mayWrite (entryDn : Bytes) : BackendProgram Bool :=
  if session.bound then AccessControl.mayWrite server.config session.bindDn entryDn
  else pure false

/-- `dn.empty() || backend_.lookup(dn)`. -/
def emptyOrStored (dn : Bytes) : BackendProgram Bool :=
  if dn = [] then pure true
  else do
    let found ← Backend.lookup dn
    pure found.isSome

/-- The code and the diagnostic. -/
def checkSchema (entry : DirectoryEntry) : ResultCode × Bytes :=
  match server.schema with
  | none => (.success, [])
  | some registry => registry.validateEntry entry

def handleBind (request : LdapMessage) : BackendProgram (LdapMessage × SessionState) :=
  let answer (code : ResultCode) (diagnostic : Bytes) (serverCreds : Bytes) : LdapMessage :=
    makeBindResponse request.messageId code diagnostic serverCreds
  let dropped := { session with bound := false, bindDn := [] }
  if request.bind.version ≠ 3 then
    pure (answer .protocolError (text "only LDAPv3 is supported") [], dropped)
  else if !context.rateAllowed then
    pure (answer .busy (text "bind rate limit exceeded") [], dropped)
  else if !request.bind.simple then
    match server.sasl with
    | none =>
        pure (answer .authMethodNotSupported (text "SASL bind is not implemented") [], dropped)
    | some sasl => do
        let (outcome, nonce) ← Sasl.bind server.config server.openssl sasl context.toBindContext
          session.saslDigestNonce request.bind
        let response := answer outcome.result outcome.diagnostic outcome.serverCreds
        if outcome.result = .success then
          pure (response, { bound := true, bindDn := outcome.bindDn, saslDigestNonce := nonce })
        else pure (response, { dropped with saslDigestNonce := nonce })
  else
    let cleared := { dropped with saslDigestNonce := [] }
    if server.config.requireConfidentiality ∧ !context.tls ∧ request.bind.password ≠ [] then
      pure (answer .confidentialityRequired (text "confidentiality required") [], cleared)
    else do
      let result ← SimpleBindAuthenticator.bind server.config server.openssl request.bind.dn
        request.bind.password
      if result = .success then
        if request.bind.dn = [] then
          pure (answer .success [] [], { cleared with bound := true })
        else do
          let resolved ← SimpleBindAuthenticator.resolveName server.config request.bind.dn
          pure (answer .success [] [],
            { cleared with bound := true, bindDn := resolved.getD request.bind.dn })
      else pure (answer result (text "invalid credentials") [], cleared)

section Search

/-- The loop over the controls: the page size, `-1` without the control, and the
cookie, or the code and diagnostic of the refusal. -/
def pagingOf (pageSize : Int32) (cookie : Bytes) :
    List LdapControl → Except (ResultCode × Bytes) (Int32 × Bytes)
  | [] => .ok (pageSize, cookie)
  | control :: rest =>
      if iequals control.oid kPagedResultsOid then
        match decodePagedResultsValue control.value with
        | some (size, next) => pagingOf size next rest
        | none =>
            .error (if control.critical then .unavailableCriticalExtension else .protocolError,
              text "invalid paged results control")
      else if control.critical then
        .error (.unavailableCriticalExtension, text "unsupported critical control")
      else pagingOf pageSize cookie rest

def rootDse : DirectoryEntry :=
  let written : List (Bytes × Bytes) :=
    [(text "objectClass", text "top"), (text "namingContexts", server.config.baseDn),
      (text "supportedLDAPVersion", text "3"), (text "vendorName", text "SimpleDaemons"),
      (text "vendorVersion", kVersion), (text "supportedExtension", kPasswordModifyOid),
      (text "supportedExtension", kWhoAmIOid), (text "supportedControl", kPagedResultsOid)] ++
    if server.config.enableStarttls then [(text "supportedExtension", kStartTlsOid)] else []
  let attributes := Attributes.pushAll OrderedMap.empty written
  { attributes :=
      match server.sasl with
      | none => attributes
      | some sasl => attributes.insert (text "supportedSASLMechanisms") (Sasl.advertised sasl) }

def searchMatches (request : SearchRequestData) : BackendProgram (List DirectoryEntry) :=
  if request.baseDn = [] ∧ request.scope ≠ .oneLevel then
    let dse := if request.filter.matchesEntry (rootDse server) then [rootDse server] else []
    if request.scope = .base then pure dse
    else do
      let rest ← Backend.search request.baseDn request.scope request.filter
      pure (dse ++ rest)
  else Backend.search request.baseDn request.scope request.filter

/-- The loop that fills `visible`. -/
def visibleEntries : List DirectoryEntry → BackendProgram (List DirectoryEntry)
  | [] => pure []
  | entry :: rest => do
      let allowed ← maySearch server session entry.dn
      let later ← visibleEntries rest
      pure (if allowed then entry :: later else later)

def revealPassword : Bool :=
  session.bound && session.bindDn ≠ [] && dnEquals session.bindDn server.config.rootDn

def toSearchEntry (request : SearchRequestData) (entry : DirectoryEntry) : SearchEntryData :=
  if wantsNoAttributes request.attributes then { dn := entry.dn }
  else
    { dn := entry.dn
      attributes := entry.attributes.entries.filterMap fun pair =>
        if !wantsAllAttributes request.attributes &&
            !attributeRequested request.attributes pair.1 then none
        else if isUserPassword pair.1 && !revealPassword server session then none
        else some { type := pair.1, values := if request.typesOnly then [] else pair.2 } }

def renderMessage (request : LdapMessage) (entry : DirectoryEntry) : LdapMessage :=
  makeSearchEntry request.messageId (toSearchEntry server session request.search entry)

/-- `visible[static_cast<size_t>(i)]`; `none` where the index is out of bounds. -/
def readVisible {Item : Type} (visible : List Item) (index : Int) : Option Item :=
  if index < 0 then none else visible[index.toNat]?

/-- The send loop with the turns it may still take: the entries sent and the code it
ends with, `none` once it reads out of bounds. -/
def sendLoop {Item : Type} (request : SearchRequestData) (pageSize : Int32)
    (visible : List Item) : Nat → Int → Nat → Option (List Item × ResultCode)
  | 0, _, _ => some ([], .success)
  | turns + 1, index, sent =>
      if 0 < request.timeLimit.toInt ∧ context.expired sent then some ([], .timeLimitExceeded)
      else if 0 < request.sizeLimit.toInt ∧ request.sizeLimit.toInt ≤ sent then
        some ([], .sizeLimitExceeded)
      else if 0 < pageSize.toInt ∧ pageSize.toInt ≤ sent then some ([], .success)
      else
        match readVisible visible index with
        | none => none
        | some entry =>
            (sendLoop request pageSize visible turns (index + 1) (sent + 1)).map fun rest =>
              (entry :: rest.1, rest.2)

/-- The part of `handleSearch` behind the last backend call. -/
def sendPage (request : LdapMessage) (pageSize : Int32) (cookie : Bytes)
    (visible : List DirectoryEntry) : Option (List LdapMessage) :=
  let parsed := if cookie = [] then some 0 else Text.wholeNumber cookie
  match parsed with
  | none =>
      some [makeSearchDone request.messageId .protocolError (text "invalid paged results cookie")]
  | some parsed =>
      let offset := (Int32.ofInt parsed).toInt
      let size := (Int32.ofNat visible.length).toInt
      if pageSize = 0 then
        let done := makeSearchDone request.messageId .success []
        some [{ done with controls := [makePagedResultsControl 0 [] false] }]
      else
        match sendLoop context request.search pageSize visible (size - offset).toNat offset 0 with
        | none => none
        | some (sent, result) =>
            let done := makeSearchDone request.messageId result []
            let next := offset + sent.length
            let nextCookie :=
              if next < size ∧ result ≠ .sizeLimitExceeded then Text.decimal next else []
            let remaining := Int32.ofInt (max 0 (size - next))
            let controls :=
              if 0 < pageSize.toInt then [makePagedResultsControl remaining nextCookie false]
              else []
            some ((sent.map fun entry =>
                makeSearchEntry request.messageId (toSearchEntry server session request.search entry)) ++
              [{ done with controls := controls }])

/-- `base.empty() || maySearch(base)`. -/
def maySearchBase (base : Bytes) : BackendProgram Bool :=
  if base = [] then pure true else maySearch server session base

/-- The messages sent, or `none` where the source reads out of bounds. -/
def handleSearch (request : LdapMessage) : BackendProgram (Option (List LdapMessage)) :=
  let done (code : ResultCode) (diagnostic : Bytes) : Option (List LdapMessage) :=
    some [makeSearchDone request.messageId code diagnostic]
  if !request.search.filter.valid then pure (done .protocolError (text "invalid search filter"))
  else
    match pagingOf (-1) [] request.controls with
    | .error (code, diagnostic) => pure (done code diagnostic)
    | .ok (pageSize, cookie) => do
        let found ← emptyOrStored request.search.baseDn
        if !found then pure (done .noSuchObject (text "no such object"))
        else do
          let allowed ← maySearchBase server session request.search.baseDn
          if !allowed then pure (done .insufficientAccessRights (text "insufficient access"))
          else do
            let matched ← searchMatches server request.search
            let visible ← visibleEntries server session matched
            pure (sendPage server context session request pageSize cookie visible)

end Search

section Writes

def handleAdd (request : LdapMessage) : BackendProgram LdapMessage := do
  let answer (code : ResultCode) (diagnostic : Bytes) : LdapMessage :=
    makeLdapResult request.messageId .addResponse code diagnostic
  let allowed ← mayWrite server session request.add.dn
  if !allowed then pure (answer .insufficientAccessRights (text "insufficient access"))
  else if request.add.dn = [] then pure (answer .invalidDnSyntax (text "empty DN"))
  else do
    let existing ← Backend.lookup request.add.dn
    if existing.isSome then pure (answer .entryAlreadyExists (text "entry already exists"))
    else do
      let placed ← emptyOrStored (dnParent request.add.dn)
      if !placed then pure (answer .namingViolation (text "parent does not exist"))
      else
        let entry :=
          Password.encodeUserPasswords server.openssl context.salts (toDirectoryEntry request.add)
        let schema := checkSchema server entry
        if schema.1 ≠ .success then pure (answer schema.1 schema.2)
        else do
          let added ← Backend.add entry
          if !added then pure (answer .operationsError (text "add failed"))
          else do
            Backend.persist
            pure (answer .success [])

/-- The part of `handleModify` behind the lookup. -/
def modifyFound (request : LdapMessage) : Option DirectoryEntry → BackendProgram LdapMessage
  | none =>
      pure (makeLdapResult request.messageId .modifyResponse .noSuchObject (text "no such object"))
  | some entry =>
      let answer (code : ResultCode) (diagnostic : Bytes) : LdapMessage :=
        makeLdapResult request.messageId .modifyResponse code diagnostic
      let applied := Modify.applyModifications entry
        (Password.encodeUserPasswordChanges server.openssl context.salts request.modify.changes)
      if applied.1 ≠ .success then pure (answer applied.1 applied.1.toString)
      else
        let schema := checkSchema server applied.2
        if schema.1 ≠ .success then pure (answer schema.1 schema.2)
        else do
          let modified ← Backend.modify applied.2
          if !modified then pure (answer .operationsError (text "modify failed"))
          else do
            Backend.persist
            pure (answer .success [])

def handleModify (request : LdapMessage) : BackendProgram LdapMessage := do
  let allowed ← mayWrite server session request.modify.dn
  if !allowed then
    pure (makeLdapResult request.messageId .modifyResponse .insufficientAccessRights
      (text "insufficient access"))
  else do
    let found ← Backend.lookup request.modify.dn
    modifyFound server context request found

def handleDelete (request : LdapMessage) : BackendProgram LdapMessage := do
  let answer (code : ResultCode) (diagnostic : Bytes) : LdapMessage :=
    makeLdapResult request.messageId .delResponse code diagnostic
  let allowed ← mayWrite server session request.deleteDn
  if !allowed then pure (answer .insufficientAccessRights (text "insufficient access"))
  else do
    let found ← Backend.lookup request.deleteDn
    if found.isNone then pure (answer .noSuchObject (text "no such object"))
    else do
      let parental ← Backend.hasChildren request.deleteDn
      if parental then pure (answer .notAllowedOnNonLeaf (text "entry has children"))
      else do
        let removed ← Backend.remove request.deleteDn
        if !removed then pure (answer .operationsError (text "delete failed"))
        else do
          Backend.persist
          pure (answer .success [])

/-- One change to the attributes of an entry being renamed; `tolerated` is the error
that does not stop the rename, and keeps what was applied before it. -/
def changeRdnValue (entry : DirectoryEntry) (op : ModifyOp) (tolerated : ResultCode) :
    Option (Bytes × Bytes) → Except ResultCode DirectoryEntry
  | none => .ok entry
  | some (type, value) =>
      let applied := Modify.applyModifications entry [{ op := op, type := type, values := [value] }]
      if applied.1 ≠ .success ∧ applied.1 ≠ tolerated then .error applied.1 else .ok applied.2

def renamedEntry (request : ModifyDnRequestData) (entry : DirectoryEntry) :
    Except ResultCode DirectoryEntry := do
  let removed ← changeRdnValue entry .delete .noSuchAttribute
    (if request.deleteOldRdn then parseRdn (dnRdn request.dn) else none)
  changeRdnValue removed .add .attributeOrValueExists (parseRdn request.newRdn)

def newParent (request : ModifyDnRequestData) : Bytes :=
  if request.newSuperior = [] then dnParent request.dn else request.newSuperior

def newDn (request : ModifyDnRequestData) : Bytes := composeDn request.newRdn (newParent request)

/-- `mayWrite(source) && mayWrite(target)`. -/
def mayWriteBoth (source target : Bytes) : BackendProgram Bool := do
  let allowed ← mayWrite server session source
  if allowed then mayWrite server session target else pure false

/-- `!dnEquals(new_dn, dn) && backend_.lookup(new_dn)`. -/
def targetTaken (request : ModifyDnRequestData) : BackendProgram Bool :=
  if dnEquals (newDn request) request.dn then pure false
  else do
    let found ← Backend.lookup (newDn request)
    pure found.isSome

def handleModifyDn (request : LdapMessage) : BackendProgram LdapMessage := do
  let answer (code : ResultCode) (diagnostic : Bytes) : LdapMessage :=
    makeLdapResult request.messageId .modifyDnResponse code diagnostic
  let change := request.modifyDn
  if change.newRdn = [] then pure (answer .invalidDnSyntax (text "empty new RDN"))
  else do
    let allowed ← mayWriteBoth server session change.dn (newDn change)
    if !allowed then pure (answer .insufficientAccessRights (text "insufficient access"))
    else do
      let found ← Backend.lookup change.dn
      match found with
      | none => pure (answer .noSuchObject (text "no such object"))
      | some entry => do
          let placed ← emptyOrStored (newParent change)
          if !placed then pure (answer .namingViolation (text "new parent does not exist"))
          else do
            let taken ← targetTaken change
            if taken then pure (answer .entryAlreadyExists (text "target DN exists"))
            else
              match renamedEntry change entry with
              | .error code => pure (answer code code.toString)
              | .ok renamed =>
                  let schema := checkSchema server renamed
                  if schema.1 ≠ .success then pure (answer schema.1 schema.2)
                  else do
                    let modified ← Backend.modify renamed
                    if !modified then
                      pure (answer .operationsError (text "modify DN attributes failed"))
                    else do
                      let moved ← Backend.rename change.dn (newDn change)
                      if !moved then pure (answer .operationsError (text "rename failed"))
                      else do
                        Backend.persist
                        pure (answer .success [])

def handleCompare (request : LdapMessage) : BackendProgram LdapMessage := do
  let answer (code : ResultCode) (diagnostic : Bytes) : LdapMessage :=
    makeLdapResult request.messageId .compareResponse code diagnostic
  let wanted := request.compare
  if wanted.dn = [] ∨ wanted.attributeName = [] then
    pure (answer .protocolError (text "invalid compare request"))
  else do
    let allowed ← maySearch server session wanted.dn
    if !allowed then pure (answer .insufficientAccessRights (text "insufficient access"))
    else do
      let found ← Backend.lookup wanted.dn
      match found with
      | none => pure (answer .noSuchObject (text "no such object"))
      | some entry =>
          match entry.findAttribute wanted.attributeName with
          | none => pure (answer .noSuchAttribute (text "no such attribute"))
          | some values =>
              let matched := values.any fun value =>
                if isUserPassword wanted.attributeName then
                  Password.verifyUserPassword server.openssl value wanted.value
                else iequals value wanted.value
              pure (answer (if matched then .compareTrue else .compareFalse) [])

def handleWhoAmI (request : LdapMessage) : LdapMessage :=
  { makeLdapResult request.messageId .extendedResponse .success [] with
    extendedOid := kWhoAmIOid
    extendedValue := if session.bindDn ≠ [] then text "dn:" ++ session.bindDn else [] }

/-- The check of the old password, when the request carries one. -/
def oldPasswordAccepted (target : Bytes) : Option Bytes → BackendProgram Bool
  | none => pure true
  | some oldPassword => do
      let code ← SimpleBindAuthenticator.bind server.config server.openssl target oldPassword
      pure (code = .success)

/-- `as_root`, `as_self` or the write access of the session. -/
def mayChangePassword (target : Bytes) : BackendProgram Bool :=
  if SimpleBindAuthenticator.isRootDn server.config session.bindDn ||
      dnEquals session.bindDn target then pure true
  else mayWrite server session target

def handlePasswordModify (request : LdapMessage) : BackendProgram LdapMessage := do
  let answer (code : ResultCode) (diagnostic : Bytes) : LdapMessage :=
    makeLdapResult request.messageId .extendedResponse code diagnostic
  if !session.bound ∨ session.bindDn = [] then
    pure (answer .insufficientAccessRights (text "bind required"))
  else if server.config.requireConfidentiality ∧ !context.tls then
    pure (answer .confidentialityRequired (text "confidentiality required"))
  else
    match decodePasswordModifyValue request.extendedValue with
    | none => pure (answer .protocolError (text "invalid password modify request"))
    | some change =>
        match change.newPassword with
        | none | some [] => pure (answer .unwillingToPerform (text "new password is required"))
        | some newPassword => do
            let identity :=
              if change.userIdentity = [] then session.bindDn else change.userIdentity
            let resolved ← SimpleBindAuthenticator.resolveName server.config identity
            match resolved with
            | none => pure (answer .noSuchObject (text "no such object"))
            | some target =>
                if SimpleBindAuthenticator.isRootDn server.config target then
                  pure (answer .unwillingToPerform
                    (text "root_password is configured, not an entry"))
                else do
                  let allowed ← mayChangePassword server session target
                  if !allowed then
                    pure (answer .insufficientAccessRights (text "cannot change another password"))
                  else do
                    let accepted ← oldPasswordAccepted server target change.oldPassword
                    if !accepted then
                      pure (answer .invalidCredentials (text "invalid credentials"))
                    else do
                      let found ← Backend.lookup target
                      match found with
                      | none => pure (answer .noSuchObject (text "no such object"))
                      | some entry =>
                          let hashed := Password.encodeUserPassword server.openssl
                            (context.salts .newPassword) newPassword
                          let applied := Modify.applyModifications entry
                            [{ op := .replace, type := text "userPassword", values := [hashed] }]
                          if applied.1 ≠ .success then
                            pure (answer applied.1 applied.1.toString)
                          else
                            let schema := checkSchema server applied.2
                            if schema.1 ≠ .success then pure (answer schema.1 schema.2)
                            else do
                              let modified ← Backend.modify applied.2
                              if !modified then
                                pure (answer .operationsError (text "password modify failed"))
                              else do
                                Backend.persist
                                pure (answer .success [])

end Writes

/-- What one turn of the request loop leaves: the messages sent, the session state
and whether the loop goes on. -/
structure Reply where
  messages : List LdapMessage
  session : SessionState
  continues : Bool := true

section Dispatch

/-- An answer that leaves the session state alone. -/
def reply (response : LdapMessage) : Option Reply :=
  some { messages := [response], session := session }

def handleExtended (request : LdapMessage) : BackendProgram (Option Reply) :=
  let answer (code : ResultCode) (diagnostic : Bytes) : LdapMessage :=
    makeLdapResult request.messageId .extendedResponse code diagnostic
  if request.extendedOid = kStartTlsOid then
    if !server.config.enableStarttls ∨ !server.tlsEnabled ∨ context.tls then
      pure (reply session (answer .unwillingToPerform
        (if context.tls then text "TLS already active" else text "StartTLS is not available")))
    else
      pure (some { messages := [answer .success []], session := session
                   continues := context.handshake })
  else if request.extendedOid = kPasswordModifyOid then do
    let response ← handlePasswordModify server context session request
    pure (reply session response)
  else if request.extendedOid = kWhoAmIOid then pure (reply session (handleWhoAmI session request))
  else
    pure (reply session (answer .unwillingToPerform (text "extended operations not implemented")))

/-- The body of the loop of `serve` behind the decoder; `none` where the source
reads out of bounds. -/
def handleRequest (request : LdapMessage) : BackendProgram (Option Reply) :=
  match request.op with
  | .unbindRequest => pure (some { messages := [], session := session, continues := false })
  | .searchRequest => do
      let sent ← handleSearch server context session request
      pure (sent.map fun messages => { messages := messages, session := session })
  | .bindRequest => do
      let (response, after) ← handleBind server context session request
      pure (reply after response)
  | .modifyRequest => do
      let response ← handleModify server context session request
      pure (reply session response)
  | .addRequest => do
      let response ← handleAdd server context session request
      pure (reply session response)
  | .delRequest => do
      let response ← handleDelete server session request
      pure (reply session response)
  | .modifyDnRequest => do
      let response ← handleModifyDn server session request
      pure (reply session response)
  | .compareRequest => do
      let response ← handleCompare server session request
      pure (reply session response)
  | .extendedRequest => handleExtended server context session request
  | _ =>
      pure (reply session (makeLdapResult request.messageId .searchResultDone .protocolError
        (text "unsupported operation")))

/-- The loop of `serve` over the requests that the connection delivers. -/
def serve (server : Server) :
    SessionState → List (RequestContext × LdapMessage) → BackendProgram (Option (List LdapMessage))
  | _, [] => pure (some [])
  | session, (context, request) :: rest => do
      let outcome ← handleRequest server context session request
      match outcome with
      | none => pure none
      | some reply =>
          if reply.continues then do
            let later ← serve server reply.session rest
            pure (later.map fun messages => reply.messages ++ messages)
          else pure (some reply.messages)

end Dispatch

end Session

end SimpleLdapd
