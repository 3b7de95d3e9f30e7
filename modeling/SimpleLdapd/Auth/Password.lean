import SimpleLdapd.Backend.Modify
import SimpleLdapd.Utils.Text

/-!
# Stored passwords (`auth/password.cpp`)

OpenSSL is a parameter: its digests as functions, or `none` for a build without
`SIMPLE_LDAPD_SSL`. The random salt of each hashed value is an input, named by
the place of the value in the request; `none` stands for a failing `RAND_bytes`.
-/

namespace SimpleLdapd

open Dn

/-- The digests the server takes from OpenSSL. `sha1` fails when `EVP_Digest` does. -/
structure OpenSsl where
  sha1 : Bytes → Option Bytes
  md5 : Bytes → Bytes
  hmacSha256 : Bytes → Bytes → Bytes

/-- Which value of a request a salt is drawn for. -/
inductive Draw where
  | added (name : Bytes) (index : Nat)
  | changed (position index : Nat)
  | newPassword
  deriving DecidableEq

abbrev Salts := Draw → Option Bytes

namespace Password

def kSha1Length : Nat := 20
def kAccountDisableBit : Nat := 0x0002

/-- The same accumulating comparison as `constantTimeEqual` of `gssapi.cpp`. -/
def passwordsEqual (left right : Bytes) : Bool := Text.constantTimeEqual left right

/-- The scheme and the rest of a value of the form `{scheme}rest`. -/
def schemePrefix (value : Bytes) : Option (Bytes × Bytes) :=
  if value.length < 3 ∨ value.head? ≠ some (chr '{') then none
  else
    match findByte (chr '}') value with
    | none => none
    | some close =>
        if close < 2 then none
        else some (substr value 1 (close - 1), value.drop (close + 1))

def base64Table : Bytes :=
  text "ABCDEFGHIJKLMNOPQRSTUVWXYZabcdefghijklmnopqrstuvwxyz0123456789+/"

def base64Encode : Bytes → Bytes
  | [] => []
  | [first] =>
      let bits := first.val <<< 16
      [base64Table.getD (bits >>> 18 &&& 63) 0, base64Table.getD (bits >>> 12 &&& 63) 0,
        chr '=', chr '=']
  | [first, second] =>
      let bits := first.val <<< 16 ||| second.val <<< 8
      [base64Table.getD (bits >>> 18 &&& 63) 0, base64Table.getD (bits >>> 12 &&& 63) 0,
        base64Table.getD (bits >>> 6 &&& 63) 0, chr '=']
  | first :: second :: third :: rest =>
      let bits := first.val <<< 16 ||| second.val <<< 8 ||| third.val
      base64Table.getD (bits >>> 18 &&& 63) 0 :: base64Table.getD (bits >>> 12 &&& 63) 0 ::
        base64Table.getD (bits >>> 6 &&& 63) 0 :: base64Table.getD (bits &&& 63) 0 ::
        base64Encode rest

def base64Value (byte : Byte) : Option Nat :=
  if 65 ≤ byte.val ∧ byte.val ≤ 90 then some (byte.val - 65)
  else if 97 ≤ byte.val ∧ byte.val ≤ 122 then some (byte.val - 97 + 26)
  else if 48 ≤ byte.val ∧ byte.val ≤ 57 then some (byte.val - 48 + 52)
  else if byte = chr '+' then some 62
  else if byte = chr '/' then some 63
  else none

/-- The loop of `base64Decode` with its accumulator, an `int` that wraps around, and
its bit counter; an invalid character throws the output away. -/
def base64DecodeFrom (value : Int32) (bits : Int) (out : Bytes) : Bytes → Bytes
  | [] => out
  | byte :: rest =>
      if byte = chr '=' ∨ byte = chr '\n' ∨ byte = chr '\r' ∨ byte = chr ' ' then
        base64DecodeFrom value bits out rest
      else
        match base64Value byte with
        | none => []
        | some digit =>
            let value := (value <<< 6) + Int32.ofNat digit
            let bits := bits + 6
            if 0 ≤ bits then
              let shifted := value >>> Int32.ofInt bits
              base64DecodeFrom value (bits - 8)
                (out ++ [Fin.ofNat 256 shifted.toBitVec.toNat]) rest
            else base64DecodeFrom value bits out rest

def base64Decode (source : Bytes) : Bytes := base64DecodeFrom 0 (-8) [] source

section Digests

variable (openssl : Option OpenSsl)

def sha1 (data : Bytes) : Option Bytes :=
  match openssl with
  | none => none
  | some ssl => (ssl.sha1 data).filter fun digest => digest.length = kSha1Length

/-- The empty string stands for a failure. -/
def hashSsha (salt : Option Bytes) (password : Bytes) : Bytes :=
  match salt with
  | none => []
  | some salt =>
      match sha1 openssl (password ++ salt) with
      | none => []
      | some digest => text "{SSHA}" ++ base64Encode (digest ++ salt)

def verifySha (payload password : Bytes) : Bool :=
  let decoded := base64Decode payload
  if decoded.length ≠ kSha1Length then false
  else
    match sha1 openssl password with
    | none => false
    | some digest => decoded = digest

def verifySsha (payload password : Bytes) : Bool :=
  let decoded := base64Decode payload
  if decoded.length ≤ kSha1Length then false
  else
    match sha1 openssl (password ++ decoded.drop kSha1Length) with
    | none => false
    | some digest => decoded.take kSha1Length = digest

def verifyUserPassword (stored provided : Bytes) : Bool :=
  match schemePrefix stored with
  | none => passwordsEqual provided stored
  | some (scheme, rest) =>
      if iequals scheme (text "CLEARTEXT") then passwordsEqual provided rest
      else if iequals scheme (text "SSHA") then verifySsha openssl rest provided
      else if iequals scheme (text "SHA") then verifySha openssl rest provided
      else false

def encodeUserPassword (salt : Option Bytes) (value : Bytes) : Bytes :=
  if (schemePrefix value).isSome then value
  else if value = [] then value
  else
    let hashed := hashSsha openssl salt value
    if hashed = [] then value else hashed

/-- Hashes the values of every attribute that is named `userPassword` ignoring case. -/
def encodeUserPasswords (salts : Salts) (entry : DirectoryEntry) : DirectoryEntry :=
  { entry with attributes := entry.attributes.mapValues fun name values =>
      if iequals name (text "userPassword") then
        values.mapIdx fun index value =>
          encodeUserPassword openssl (salts (.added name index)) value
      else values }

def encodeUserPasswordChanges (salts : Salts) (changes : List AttributeModification) :
    List AttributeModification :=
  changes.mapIdx fun position change =>
    if change.op = .delete ∨ !iequals change.type (text "userPassword") then change
    else
      { change with values := change.values.mapIdx fun index value =>
          encodeUserPassword openssl (salts (.changed position index)) value }

end Digests

def recoverablePassword (stored : Bytes) : Option Bytes :=
  match schemePrefix stored with
  | none => some stored
  | some (scheme, rest) => if iequals scheme (text "CLEARTEXT") then some rest else none

def accountDisabled (entry : DirectoryEntry) : Bool :=
  match entry.findAttribute (text "userAccountControl") with
  | none => false
  | some values => values.any fun value =>
      match Text.wholeNumber value with
      | none => false
      | some parsed => parsed.toNat &&& kAccountDisableBit ≠ 0

end Password

end SimpleLdapd
