import SimpleLdapd.Library.RemoteCalls
import SimpleLdapd.Protocol.LdifRoundTrip
import SimpleLdapd.Protocol.MessageRoundTrip

/-!
# The client library and the tools over it (`cli/client.cpp`, `main/ldap*.cpp`)

A call of `LdapClient` is one exchange of messages on its connection. A client is a program
over exchanges that carries the message identifier it uses next; what stands on the
connection while it waits is not its concern.
-/

namespace SimpleLdapd

open Dn Message

section Requests

def makeBindRequest (messageId : Int32) (dn password : Bytes) : LdapMessage :=
  { messageId := messageId, op := .bindRequest, bind := { dn := dn, password := password } }

def makeSaslBindRequest (messageId : Int32) (dn mechanism credentials : Bytes) : LdapMessage :=
  { messageId := messageId, op := .bindRequest
    bind := { dn := dn, simple := false, saslMechanism := mechanism
              saslCredentials := credentials } }

def makeAddRequest (messageId : Int32) (add : AddRequestData) : LdapMessage :=
  { messageId := messageId, op := .addRequest, add := add }

def makeModifyRequest (messageId : Int32) (modify : ModifyRequestData) : LdapMessage :=
  { messageId := messageId, op := .modifyRequest, modify := modify }

def makeDelRequest (messageId : Int32) (dn : Bytes) : LdapMessage :=
  { messageId := messageId, op := .delRequest, deleteDn := dn }

def makeModifyDnRequest (messageId : Int32) (modifyDn : ModifyDnRequestData) : LdapMessage :=
  { messageId := messageId, op := .modifyDnRequest, modifyDn := modifyDn }

def makeCompareRequest (messageId : Int32) (compare : CompareRequestData) : LdapMessage :=
  { messageId := messageId, op := .compareRequest, compare := compare }

def toAddRequest (entry : DirectoryEntry) : AddRequestData :=
  { dn := entry.dn
    attributes := entry.attributes.entries.map fun pair =>
      { type := pair.1, values := pair.2 } }

end Requests

/-- What an `LdapClient` does; the state is `next_id_`. -/
abbrev LdapClient := StateT Int32 (Program LdapMessage fun _ => Option LdapMessage)

namespace LdapClient

def exchange (request : LdapMessage) : LdapClient (Option LdapMessage) :=
  StateT.lift (Program.perform request)

/-- The shape of every call: one exchange under the next identifier, whose answer counts
if it is of the operation expected. -/
def call (expected : ProtocolOp) (request : Int32 → LdapMessage) :
    LdapClient (Option LdapMessage) := do
  let id ← modifyGet fun id => (id, id + 1)
  let response ← exchange (request id)
  pure (response.filter fun response => response.op = expected)

def codeOf (response : Option LdapMessage) : ResultCode :=
  match response with
  | none => .unavailable
  | some response => response.result

def simpleBind (dn password : Bytes) : LdapClient ResultCode :=
  codeOf <$> call .bindResponse fun id => makeBindRequest id dn password

def saslBind (mechanism dn credentials : Bytes) : LdapClient ResultCode :=
  codeOf <$> call .bindResponse fun id => makeSaslBindRequest id dn mechanism credentials

def add (entry : DirectoryEntry) : LdapClient ResultCode :=
  codeOf <$> call .addResponse fun id => makeAddRequest id (toAddRequest entry)

def modify (dn : Bytes) (changes : List AttributeModification) : LdapClient ResultCode :=
  codeOf <$> call .modifyResponse fun id => makeModifyRequest id { dn := dn, changes := changes }

def del (dn : Bytes) : LdapClient ResultCode :=
  codeOf <$> call .delResponse fun id => makeDelRequest id dn

def modifyDn (request : ModifyDnRequestData) : LdapClient ResultCode :=
  codeOf <$> call .modifyDnResponse fun id => makeModifyDnRequest id request

def passwordModify (request : PasswordModifyRequest) : LdapClient ResultCode :=
  codeOf <$> call .extendedResponse fun id => makePasswordModifyRequest id request

def compare (request : CompareRequestData) : LdapClient ResultCode :=
  codeOf <$> call .compareResponse fun id => makeCompareRequest id request

/-- The code and the authorization identity. -/
def whoAmI : LdapClient (ResultCode × Bytes) := do
  let response ← call .extendedResponse fun id => makeExtendedRequest id kWhoAmIOid []
  pure (codeOf response,
    match response with
    | some response => if response.result = .success then response.extendedValue else []
    | none => [])

end LdapClient

end SimpleLdapd
