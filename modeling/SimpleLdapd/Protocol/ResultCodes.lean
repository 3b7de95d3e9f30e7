import SimpleLdapd.Utils.Dn

/-!
# LDAPv3 result codes (`protocol/result_codes.hpp`)

The underlying type of `ResultCode` is fixed to `uint8_t`, so a code that came
off the wire may be any byte, named or not. `Int32` and `Int64` stand for the
source's `int` and `int64_t`.
-/

namespace SimpleLdapd

structure ResultCode where
  code : Byte
  deriving DecidableEq

namespace ResultCode

def success : ResultCode := ⟨0⟩
def operationsError : ResultCode := ⟨1⟩
def protocolError : ResultCode := ⟨2⟩
def timeLimitExceeded : ResultCode := ⟨3⟩
def sizeLimitExceeded : ResultCode := ⟨4⟩
def compareFalse : ResultCode := ⟨5⟩
def compareTrue : ResultCode := ⟨6⟩
def authMethodNotSupported : ResultCode := ⟨7⟩
def unavailableCriticalExtension : ResultCode := ⟨12⟩
def confidentialityRequired : ResultCode := ⟨13⟩
def saslBindInProgress : ResultCode := ⟨14⟩
def noSuchAttribute : ResultCode := ⟨16⟩
def undefinedAttributeType : ResultCode := ⟨17⟩
def constraintViolation : ResultCode := ⟨19⟩
def attributeOrValueExists : ResultCode := ⟨20⟩
def invalidAttributeSyntax : ResultCode := ⟨21⟩
def noSuchObject : ResultCode := ⟨32⟩
def invalidDnSyntax : ResultCode := ⟨34⟩
def invalidCredentials : ResultCode := ⟨49⟩
def insufficientAccessRights : ResultCode := ⟨50⟩
def busy : ResultCode := ⟨51⟩
def unavailable : ResultCode := ⟨52⟩
def unwillingToPerform : ResultCode := ⟨53⟩
def namingViolation : ResultCode := ⟨64⟩
def objectClassViolation : ResultCode := ⟨65⟩
def notAllowedOnNonLeaf : ResultCode := ⟨66⟩
def entryAlreadyExists : ResultCode := ⟨68⟩

/-- The codes that say something about the content of an entry or of a change. -/
def contentCodes : List ResultCode :=
  [success, noSuchAttribute, undefinedAttributeType, constraintViolation, attributeOrValueExists,
    invalidAttributeSyntax, objectClassViolation]

theorem content_code_ne {code other : ResultCode} (content : code ∈ contentCodes)
    (foreign : other ∉ contentCodes) : code ≠ other := by
  intro same
  rw [same] at content
  exact foreign content

/-- `static_cast<int>(result)`. -/
def toInt (result : ResultCode) : Int32 := Int32.ofNat result.code.val

/-- `static_cast<ResultCode>(code)` keeps the low byte. -/
def ofInt (code : Int32) : ResultCode := ⟨Fin.ofNat 256 code.toBitVec.toNat⟩

theorem of_int_to_int : ∀ result : ResultCode, ofInt result.toInt = result := by
  have bytes : ∀ code : Byte, ofInt (toInt ⟨code⟩) = ⟨code⟩ := by decide +kernel
  intro result
  exact bytes result.code

/-- The cases of `toString(ResultCode)`; every other code prints as `other`. -/
def names : List (ResultCode × String) :=
  [(success, "success"), (operationsError, "operationsError"),
    (protocolError, "protocolError"), (timeLimitExceeded, "timeLimitExceeded"),
    (sizeLimitExceeded, "sizeLimitExceeded"), (compareFalse, "compareFalse"),
    (compareTrue, "compareTrue"),
    (unavailableCriticalExtension, "unavailableCriticalExtension"), (busy, "busy"),
    (unavailable, "unavailable"), (unwillingToPerform, "unwillingToPerform"),
    (invalidCredentials, "invalidCredentials"), (noSuchObject, "noSuchObject"),
    (authMethodNotSupported, "authMethodNotSupported"),
    (saslBindInProgress, "saslBindInProgress"), (noSuchAttribute, "noSuchAttribute"),
    (invalidDnSyntax, "invalidDNSyntax"),
    (insufficientAccessRights, "insufficientAccessRights"),
    (entryAlreadyExists, "entryAlreadyExists"), (namingViolation, "namingViolation"),
    (notAllowedOnNonLeaf, "notAllowedOnNonLeaf"),
    (attributeOrValueExists, "attributeOrValueExists"),
    (confidentialityRequired, "confidentialityRequired"),
    (undefinedAttributeType, "undefinedAttributeType"),
    (constraintViolation, "constraintViolation"),
    (invalidAttributeSyntax, "invalidAttributeSyntax"),
    (objectClassViolation, "objectClassViolation")]

def toString (result : ResultCode) : Bytes :=
  match names.find? (·.1 = result) with
  | some entry => text entry.2
  | none => text "other"

end ResultCode

end SimpleLdapd
