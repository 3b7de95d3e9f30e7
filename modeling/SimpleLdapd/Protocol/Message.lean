import SimpleLdapd.Protocol.Filter

/-!
# LDAPv3 messages and their codec (`protocol/message.hpp`, `protocol/message.cpp`)

Every message carries the data of every operation; the fields that its `op`
does not use stay at their defaults. The encoders return the bytes they write,
and the decoders are reads on the `BerReader` of the enclosing block.
-/

namespace SimpleLdapd

open Dn Ber

inductive ProtocolOp where
  | bindRequest
  | bindResponse
  | unbindRequest
  | searchRequest
  | searchResultEntry
  | searchResultDone
  | modifyRequest
  | modifyResponse
  | addRequest
  | addResponse
  | delRequest
  | delResponse
  | modifyDnRequest
  | modifyDnResponse
  | compareRequest
  | compareResponse
  | extendedRequest
  | extendedResponse
  | unknown
  deriving DecidableEq

structure BindRequestData where
  version : Int32 := 3
  dn : Bytes := []
  password : Bytes := []
  simple : Bool := true
  saslMechanism : Bytes := []
  saslCredentials : Bytes := []
  deriving DecidableEq

structure SearchRequestData where
  baseDn : Bytes := []
  scope : SearchScope := .subtree
  sizeLimit : Int32 := 0
  timeLimit : Int32 := 0
  typesOnly : Bool := false
  filter : SearchFilter := Filter.present (text "objectClass")
  attributes : List Bytes := []
  deriving DecidableEq

structure PartialAttribute where
  type : Bytes := []
  values : List Bytes := []
  deriving DecidableEq

structure SearchEntryData where
  dn : Bytes := []
  attributes : List PartialAttribute := []
  deriving DecidableEq

structure AddRequestData where
  dn : Bytes := []
  attributes : List PartialAttribute := []
  deriving DecidableEq

structure ModifyRequestData where
  dn : Bytes := []
  changes : List AttributeModification := []
  deriving DecidableEq

structure ModifyDnRequestData where
  dn : Bytes := []
  newRdn : Bytes := []
  deleteOldRdn : Bool := true
  newSuperior : Bytes := []
  deriving DecidableEq

structure CompareRequestData where
  dn : Bytes := []
  attributeName : Bytes := []
  value : Bytes := []
  deriving DecidableEq

structure LdapControl where
  oid : Bytes := []
  critical : Bool := false
  value : Bytes := []
  deriving DecidableEq

structure LdapMessage where
  messageId : Int32 := 0
  op : ProtocolOp := .unknown
  result : ResultCode := .success
  matchedDn : Bytes := []
  diagnostic : Bytes := []
  bind : BindRequestData := {}
  search : SearchRequestData := {}
  entry : SearchEntryData := {}
  add : AddRequestData := {}
  modify : ModifyRequestData := {}
  deleteDn : Bytes := []
  modifyDn : ModifyDnRequestData := {}
  extendedOid : Bytes := []
  extendedValue : Bytes := []
  serverSaslCreds : Bytes := []
  compare : CompareRequestData := {}
  controls : List LdapControl := []
  deriving DecidableEq

structure PasswordModifyRequest where
  userIdentity : Bytes := []
  oldPassword : Option Bytes := none
  newPassword : Option Bytes := none
  deriving DecidableEq

namespace Message

def kPasswordModifyOid : Bytes := text "1.3.6.1.4.1.4203.1.11.1"
def kWhoAmIOid : Bytes := text "1.3.6.1.4.1.4203.1.11.3"
def kPagedResultsOid : Bytes := text "1.2.840.113556.1.4.319"

/-- An optional trailing field: absent from the wire when it is empty. -/
def writeUnlessEmpty (tag : Byte) (value : Bytes) : Bytes :=
  if value ≠ [] then writeOctetStringAs tag value else []

def encodeResult (result : ResultCode) (matchedDn diagnostic : Bytes) : Bytes :=
  writeEnumerated result.toInt ++ (writeOctetString matchedDn ++ writeOctetString diagnostic)

/-- One turn of the loop of `decodeResult`. -/
inductive ResultField where
  | serverSaslCreds (value : Bytes)
  | extendedOid (value : Bytes)
  | extendedValue (value : Bytes)
  | skipped

def readResultField : Read ResultField := do
  let tag ← Read.peekTag
  if tag = kBerServerSaslCreds then do
    let value ← readOctetStringAs kBerServerSaslCreds
    pure (.serverSaslCreds value)
  else if tag = kBerContext10 then do
    let value ← readOctetStringAs kBerContext10
    pure (.extendedOid value)
  else if tag = kBerContext11 then do
    let value ← readOctetStringAs kBerContext11
    pure (.extendedValue value)
  else do
    skip
    pure .skipped

def assignResultField (message : LdapMessage) : ResultField → LdapMessage
  | .serverSaslCreds value => { message with serverSaslCreds := value }
  | .extendedOid value => { message with extendedOid := value }
  | .extendedValue value => { message with extendedValue := value }
  | .skipped => message

def decodeResult (message : LdapMessage) : Read LdapMessage := do
  let code ← readEnumerated
  let matchedDn ← readOctetString
  let diagnostic ← readOctetString
  let fields ← Read.whileMore readResultField
  Read.requireOk
  pure (fields.foldl assignResultField
    { message with result := .ofInt code, matchedDn := matchedDn, diagnostic := diagnostic })

def encodeSasl (bind : BindRequestData) : Bytes :=
  writeOctetString bind.saslMechanism ++ writeUnlessEmpty kBerOctetString bind.saslCredentials

def encodeBindRequest (bind : BindRequestData) : Bytes :=
  writeConstructed kBerBindRequest
    (writeInteger bind.version.toInt64 ++ (writeOctetString bind.dn ++
      if bind.simple then writeOctetStringAs kBerSimpleAuth bind.password
      else writeConstructed kBerSaslAuth (encodeSasl bind)))

def decodeSasl (bind : BindRequestData) : Read BindRequestData := do
  let mechanism ← readOctetString
  if ← Read.atEnd then do
    Read.requireOk
    pure { bind with saslMechanism := mechanism }
  else do
    let credentials ← readOctetString
    Read.requireOk
    pure { bind with saslMechanism := mechanism, saslCredentials := credentials }

def decodeBindRequest : Read BindRequestData := do
  let version ← readInteger
  let dn ← readOctetString
  let tag ← Read.peekTag
  let bind : BindRequestData :=
    { version := version.toInt32, dn := dn, simple := tag = kBerSimpleAuth }
  if tag = kBerSimpleAuth then do
    let password ← readOctetStringAs kBerSimpleAuth
    pure { bind with password := password }
  else if tag ≠ kBerSaslAuth then do
    skip
    pure bind
  else readBlock kBerSaslAuth (decodeSasl bind)

def encodeBindResponse (message : LdapMessage) : Bytes :=
  writeConstructed kBerBindResponse
    (encodeResult message.result message.matchedDn message.diagnostic ++
      writeUnlessEmpty kBerServerSaslCreds message.serverSaslCreds)

/-- The second enumerated is `neverDerefAliases`. -/
def encodeSearchRequest (search : SearchRequestData) : Bytes :=
  writeConstructed kBerSearchRequest
    (writeOctetString search.baseDn ++ (writeEnumerated search.scope.toInt ++
      (writeEnumerated 0 ++ (writeInteger search.sizeLimit.toInt64 ++
      (writeInteger search.timeLimit.toInt64 ++ (writeBoolean search.typesOnly ++
      (search.filter.encodeBer ++
        writeConstructed kBerSequence (search.attributes.flatMap writeOctetString))))))))

def decodeSearchRequest : Read SearchRequestData := do
  let baseDn ← readOctetString
  let scope ← readEnumerated
  let _ ← readEnumerated
  let sizeLimit ← readInteger
  let timeLimit ← readInteger
  let typesOnly ← readBoolean
  let filter ← SearchFilter.decodeBer
  let attributes ← readBlock kBerSequence do
    let names ← Read.whileMore readOctetString
    Read.requireOk
    pure names
  pure { baseDn := baseDn, scope := .ofInt scope, sizeLimit := sizeLimit.toInt32
         timeLimit := timeLimit.toInt32, typesOnly := typesOnly, filter := filter
         attributes := attributes }

def encodeAttribute (type : Bytes) (values : List Bytes) : Bytes :=
  writeConstructed kBerSequence
    (writeOctetString type ++ writeConstructed kBerSet (values.flatMap writeOctetString))

def decodeAttribute : Read (Bytes × List Bytes) :=
  readBlock kBerSequence do
    let type ← readOctetString
    let values ← readBlock kBerSet (Read.whileMore readOctetString)
    pure (type, values)

def encodeAttributes (attributes : List PartialAttribute) : Bytes :=
  attributes.flatMap fun partialAttribute =>
    encodeAttribute partialAttribute.type partialAttribute.values

def decodeAttributes : Read (List PartialAttribute) := do
  let attributes ← Read.whileMore do
    let (type, values) ← decodeAttribute
    pure ({ type := type, values := values } : PartialAttribute)
  Read.requireOk
  pure attributes

def encodeSearchEntry (entry : SearchEntryData) : Bytes :=
  writeConstructed kBerSearchResultEntry
    (writeOctetString entry.dn ++
      writeConstructed kBerSequence (encodeAttributes entry.attributes))

def decodeSearchEntry : Read SearchEntryData := do
  let dn ← readOctetString
  let attributes ← readBlock kBerSequence decodeAttributes
  pure { dn := dn, attributes := attributes }

def encodeAddRequest (add : AddRequestData) : Bytes :=
  writeConstructed kBerAddRequest
    (writeOctetString add.dn ++ writeConstructed kBerSequence (encodeAttributes add.attributes))

def decodeAddRequest : Read AddRequestData := do
  let dn ← readOctetString
  let attributes ← readBlock kBerSequence decodeAttributes
  pure { dn := dn, attributes := attributes }

def encodeChange (change : AttributeModification) : Bytes :=
  writeConstructed kBerSequence
    (writeEnumerated change.op.toInt ++ encodeAttribute change.type change.values)

def decodeChange : Read AttributeModification :=
  readBlock kBerSequence do
    let op ← readEnumerated
    let (type, values) ← decodeAttribute
    pure { op := .ofInt op, type := type, values := values }

def encodeModifyRequest (modify : ModifyRequestData) : Bytes :=
  writeConstructed kBerModifyRequest
    (writeOctetString modify.dn ++
      writeConstructed kBerSequence (modify.changes.flatMap encodeChange))

def decodeModifyRequest : Read ModifyRequestData := do
  let dn ← readOctetString
  let changes ← readBlock kBerSequence do
    let changes ← Read.whileMore decodeChange
    Read.requireOk
    pure changes
  pure { dn := dn, changes := changes }

def encodeModifyDnRequest (modifyDn : ModifyDnRequestData) : Bytes :=
  writeConstructed kBerModifyDNRequest
    (writeOctetString modifyDn.dn ++ (writeOctetString modifyDn.newRdn ++
      (writeBoolean modifyDn.deleteOldRdn ++
        writeUnlessEmpty kBerSimpleAuth modifyDn.newSuperior)))

def decodeModifyDnRequest : Read ModifyDnRequestData := do
  let dn ← readOctetString
  let newRdn ← readOctetString
  let deleteOldRdn ← readBoolean
  if ← Read.nextIs kBerSimpleAuth then do
    let newSuperior ← readOctetStringAs kBerSimpleAuth
    pure { dn := dn, newRdn := newRdn, deleteOldRdn := deleteOldRdn, newSuperior := newSuperior }
  else do
    Read.requireOk
    pure { dn := dn, newRdn := newRdn, deleteOldRdn := deleteOldRdn }

def encodeCompareRequest (compare : CompareRequestData) : Bytes :=
  writeConstructed kBerCompareRequest
    (writeOctetString compare.dn ++
      writeConstructed kBerSequence
        (writeOctetString compare.attributeName ++ writeOctetString compare.value))

def decodeCompareRequest : Read CompareRequestData := do
  let dn ← readOctetString
  let (name, value) ← readBlock kBerSequence do
    let name ← readOctetString
    let value ← readOctetString
    pure (name, value)
  Read.requireOk
  pure { dn := dn, attributeName := name, value := value }

def encodeControl (control : LdapControl) : Bytes :=
  writeConstructed kBerSequence
    (writeOctetString control.oid ++ ((if control.critical then writeBoolean true else []) ++
      writeUnlessEmpty kBerOctetString control.value))

def encodeControls (controls : List LdapControl) : Bytes :=
  writeConstructed kBerControls (controls.flatMap encodeControl)

def decodeCriticality : Read Bool := do
  if ← Read.nextIs kBerBoolean then readBoolean else pure false

def decodeControlValue : Read Bytes := do
  if ← Read.atEnd then pure [] else readOctetString

def decodeControl : Read LdapControl :=
  readBlock kBerSequence do
    let oid ← readOctetString
    let critical ← decodeCriticality
    let value ← decodeControlValue
    pure { oid := oid, critical := critical, value := value }

def decodeControls : Read (List LdapControl) := do
  let controls ← Read.whileMore decodeControl
  Read.requireOk
  pure controls

def encodeExtendedRequest (oid value : Bytes) : Bytes :=
  writeConstructed kBerExtendedRequest
    (writeOctetStringAs kBerSimpleAuth oid ++ writeUnlessEmpty kBerContext1 value)

def decodeExtendedRequest : Read (Bytes × Bytes) := do
  let oid ← readOctetStringAs kBerSimpleAuth
  if ← Read.nextIs kBerContext1 then do
    let value ← readOctetStringAs kBerContext1
    pure (oid, value)
  else do
    Read.requireOk
    pure (oid, [])

/-- The cases of the `switch` on the operation's tag. -/
def operations : List (Byte × ProtocolOp) :=
  [(kBerBindRequest, .bindRequest), (kBerBindResponse, .bindResponse),
    (kBerUnbindRequest, .unbindRequest), (kBerSearchRequest, .searchRequest),
    (kBerSearchResultEntry, .searchResultEntry), (kBerSearchResultDone, .searchResultDone),
    (kBerModifyRequest, .modifyRequest), (kBerModifyResponse, .modifyResponse),
    (kBerAddRequest, .addRequest), (kBerAddResponse, .addResponse),
    (kBerDelRequest, .delRequest), (kBerDelResponse, .delResponse),
    (kBerModifyDNRequest, .modifyDnRequest), (kBerModifyDNResponse, .modifyDnResponse),
    (kBerCompareRequest, .compareRequest), (kBerCompareResponse, .compareResponse),
    (kBerExtendedRequest, .extendedRequest), (kBerExtendedResponse, .extendedResponse)]

def operationOf (tag : Byte) : ProtocolOp := (operations.lookup tag).getD .unknown

/-- The body of each case; `message` holds the identifier read before it. -/
def decodeOperation (message : LdapMessage) (tag : Byte) : Read LdapMessage :=
  let message := { message with op := operationOf tag }
  match operationOf tag with
  | .bindRequest => do
      let bind ← readBlock tag decodeBindRequest
      pure { message with bind := bind }
  | .searchRequest => do
      let search ← readBlock tag decodeSearchRequest
      pure { message with search := search }
  | .searchResultEntry => do
      let entry ← readBlock tag decodeSearchEntry
      pure { message with entry := entry }
  | .modifyRequest => do
      let modify ← readBlock tag decodeModifyRequest
      pure { message with modify := modify }
  | .addRequest => do
      let add ← readBlock tag decodeAddRequest
      pure { message with add := add }
  | .delRequest => do
      let deleteDn ← readOctetStringAs kBerDelRequest
      pure { message with deleteDn := deleteDn }
  | .modifyDnRequest => do
      let modifyDn ← readBlock tag decodeModifyDnRequest
      pure { message with modifyDn := modifyDn }
  | .compareRequest => do
      let compare ← readBlock tag decodeCompareRequest
      pure { message with compare := compare }
  | .extendedRequest => do
      let (oid, value) ← readBlock tag decodeExtendedRequest
      pure { message with extendedOid := oid, extendedValue := value }
  | .bindResponse | .searchResultDone | .modifyResponse | .addResponse | .delResponse
  | .modifyDnResponse | .compareResponse | .extendedResponse =>
      readBlock tag (decodeResult message)
  | .unbindRequest | .unknown => do
      skip
      pure message

def decodeBody : Read LdapMessage := do
  let messageId ← readInteger
  let tag ← Read.peekTag
  let message ← decodeOperation { messageId := messageId.toInt32 } tag
  if ← Read.nextIs kBerControls then do
    let controls ← readBlock kBerControls decodeControls
    pure { message with controls := controls }
  else pure message

def decodeLdapMessage (wire : Bytes) : Option LdapMessage :=
  ((readBlock kBerSequence decodeBody).run { data := wire }).1

/-- The two fields that `resultOp` appends for an extended response. -/
def encodeExtendedFields (oid value : Bytes) : Bytes :=
  if oid ≠ [] ∨ value ≠ [] then
    writeUnlessEmpty kBerContext10 oid ++ writeOctetStringAs kBerContext11 value
  else []

def resultOp (message : LdapMessage) (tag : Byte) : Bytes :=
  writeConstructed tag
    (encodeResult message.result message.matchedDn message.diagnostic ++
      if tag = kBerExtendedResponse then
        encodeExtendedFields message.extendedOid message.extendedValue
      else [])

def encodeOperation (message : LdapMessage) : Bytes :=
  match message.op with
  | .bindRequest => encodeBindRequest message.bind
  | .bindResponse => encodeBindResponse message
  | .unbindRequest => writeNull kBerUnbindRequest
  | .searchRequest => encodeSearchRequest message.search
  | .searchResultEntry => encodeSearchEntry message.entry
  | .searchResultDone => resultOp message kBerSearchResultDone
  | .modifyRequest => encodeModifyRequest message.modify
  | .modifyResponse => resultOp message kBerModifyResponse
  | .addRequest => encodeAddRequest message.add
  | .addResponse => resultOp message kBerAddResponse
  | .delRequest => writeOctetStringAs kBerDelRequest message.deleteDn
  | .delResponse => resultOp message kBerDelResponse
  | .modifyDnRequest => encodeModifyDnRequest message.modifyDn
  | .modifyDnResponse => resultOp message kBerModifyDNResponse
  | .compareRequest => encodeCompareRequest message.compare
  | .compareResponse => resultOp message kBerCompareResponse
  | .extendedRequest => encodeExtendedRequest message.extendedOid message.extendedValue
  | .extendedResponse => resultOp message kBerExtendedResponse
  | .unknown => resultOp message kBerSearchResultDone

def encodeLdapMessage (message : LdapMessage) : Bytes :=
  writeConstructed kBerSequence
    (writeInteger message.messageId.toInt64 ++ (encodeOperation message ++
      if message.controls ≠ [] then encodeControls message.controls else []))

def makeBindResponse (messageId : Int32) (result : ResultCode) (diagnostic : Bytes)
    (serverSaslCreds : Bytes) : LdapMessage :=
  { messageId := messageId, op := .bindResponse, result := result, diagnostic := diagnostic
    serverSaslCreds := serverSaslCreds }

def makeSearchEntry (messageId : Int32) (entry : SearchEntryData) : LdapMessage :=
  { messageId := messageId, op := .searchResultEntry, entry := entry }

def makeSearchDone (messageId : Int32) (result : ResultCode) (diagnostic : Bytes) : LdapMessage :=
  { messageId := messageId, op := .searchResultDone, result := result, diagnostic := diagnostic }

def makeLdapResult (messageId : Int32) (op : ProtocolOp) (result : ResultCode)
    (diagnostic : Bytes) : LdapMessage :=
  { messageId := messageId, op := op, result := result, diagnostic := diagnostic }

def encodePagedResultsValue (size : Int32) (cookie : Bytes) : Bytes :=
  writeConstructed kBerSequence (writeInteger size.toInt64 ++ writeOctetString cookie)

def decodePagedResultsValue (value : Bytes) : Option (Int32 × Bytes) :=
  ((do
    let (size, cookie) ← readBlock kBerSequence do
      let size ← readInteger
      let cookie ← readOctetString
      pure (size, cookie)
    Read.requireOk
    pure (size.toInt32, cookie)) : Read (Int32 × Bytes)).run { data := value } |>.1

def makePagedResultsControl (size : Int32) (cookie : Bytes) (critical : Bool) : LdapControl :=
  { oid := kPagedResultsOid, critical := critical, value := encodePagedResultsValue size cookie }

/-- A field of its own tag: absent from the wire only when there is none. -/
def writeOptional (tag : Byte) : Option Bytes → Bytes
  | none => []
  | some value => writeOctetStringAs tag value

def encodePasswordModifyValue (request : PasswordModifyRequest) : Bytes :=
  writeConstructed kBerSequence
    (writeUnlessEmpty kBerSimpleAuth request.userIdentity ++
      (writeOptional kBerContext1 request.oldPassword ++
        writeOptional kBerContext2 request.newPassword))

def makeExtendedRequest (messageId : Int32) (oid value : Bytes) : LdapMessage :=
  { messageId := messageId, op := .extendedRequest, extendedOid := oid, extendedValue := value }

def makePasswordModifyRequest (messageId : Int32) (request : PasswordModifyRequest) : LdapMessage :=
  makeExtendedRequest messageId kPasswordModifyOid (encodePasswordModifyValue request)

/-- One turn of the loop of `decodePasswordModifyValue`. -/
def readPasswordField : Read (PasswordModifyRequest → PasswordModifyRequest) := do
  let tag ← Read.peekTag
  if tag = kBerSimpleAuth then do
    let field ← readOctetStringAs kBerSimpleAuth
    pure fun request => { request with userIdentity := field }
  else if tag = kBerContext1 then do
    let field ← readOctetStringAs kBerContext1
    pure fun request => { request with oldPassword := some field }
  else if tag = kBerContext2 then do
    let field ← readOctetStringAs kBerContext2
    pure fun request => { request with newPassword := some field }
  else do
    skip
    pure id

def decodePasswordModifyValue (value : Bytes) : Option PasswordModifyRequest :=
  if value = [] then some {}
  else
    ((readBlock kBerSequence do
      let assigns ← Read.whileMore readPasswordField
      Read.requireOk
      pure (assigns.foldl (fun request assign => assign request) {})).run { data := value }).1

def toDirectoryEntry (add : AddRequestData) : DirectoryEntry where
  dn := add.dn
  attributes := add.attributes.foldl
    (fun attributes item => attributes.insert item.type item.values) OrderedMap.empty

end Message

end SimpleLdapd
