import SimpleLdapd.Auth.Password

/-!
# Lab GSSAPI tickets (`auth/gssapi.cpp`)

The keytab file is its content, `none` when it cannot be opened, and the clock is
an input. Only the server side is modelled: reading the keytab and verifying a ticket.
-/

namespace SimpleLdapd

structure GssapiKeytab where
  realm : Bytes := []
  service : Bytes := []
  key : Bytes := []
  deriving DecidableEq

namespace Gssapi

open Dn Text

def kClockSkewSeconds : Int := 60

def canonicalTicket (realm principal service : Bytes) (issued expiry : Int) : Bytes :=
  text "v=1|realm|" ++ realm ++ text "|principal|" ++ principal ++ text "|service|" ++ service ++
    text "|issued|" ++ decimal issued ++ text "|expiry|" ++ decimal expiry

/-- The `dc` components of a DN joined by dots, as both realm functions of the source do. -/
def dcComponents : Nat → Bytes → List Bytes
  | 0, _ => []
  | fuel + 1, rest =>
      if rest = [] then []
      else
        let here :=
          match parseRdn (dnRdn rest) with
          | some (type, value) => if iequals type (text "dc") then [value] else []
          | none => []
        match findByte (chr ',') rest with
        | none => here
        | some position => here ++ dcComponents fuel (rest.drop (position + 1))

def joinDots : List Bytes → Bytes
  | [] => []
  | [value] => value
  | value :: rest => value ++ text "." ++ joinDots rest

def realmOf (baseDn : Bytes) : Bytes := joinDots (dcComponents (baseDn.length + 1) baseDn)

def kerberosRealmFromBase (baseDn : Bytes) : Bytes :=
  if realmOf baseDn = [] then text "SIMPLE-LDAPD" else toUpperAscii (realmOf baseDn)

/-- The lines of a file as `std::getline` yields them. -/
def fileLines (line : Bytes) : Bytes → List Bytes
  | [] => if line = [] then [] else [line]
  | byte :: rest =>
      if byte = chr '\n' then line :: fileLines [] rest else fileLines (line ++ [byte]) rest

def keytabLine (keytab : GssapiKeytab) (raw : Bytes) : GssapiKeytab :=
  let line := trim (raw.takeWhile (· ≠ chr '#'))
  match findByte (chr '=') line with
  | none => keytab
  | some position =>
      let key := toLowerAscii (trim (line.take position))
      let value := trim (line.drop (position + 1))
      if key = text "realm" then { keytab with realm := toUpperAscii value }
      else if key = text "service" then { keytab with service := value }
      else if key = text "key" then { keytab with key := value }
      else keytab

/-- The keytab, or the error text. -/
def loadGssapiKeytab (content : Option Bytes) : Except Bytes GssapiKeytab :=
  match content with
  | none => .error (text "cannot read GSSAPI keytab")
  | some content =>
      let keytab := (fileLines [] content).foldl keytabLine {}
      if keytab.key = [] then .error (text "GSSAPI keytab is missing key")
      else
        .ok { keytab with service :=
                if keytab.service = [] then text "ldap/localhost" else keytab.service }

def hmacSha256Hex (ssl : OpenSsl) (key data : Bytes) : Bytes := toHex (ssl.hmacSha256 key data)

/-- The principal of an accepted ticket, or the error text. -/
def verifyGssapiTicket (openssl : Option OpenSsl) (now : Int) (keytab : GssapiKeytab)
    (credentials : Bytes) : Except Bytes Bytes :=
  match openssl with
  | none => .error (text "GSSAPI requires OpenSSL")
  | some ssl =>
      if keytab.key = [] ∨ keytab.realm = [] ∨ keytab.service = [] then
        .error (text "GSSAPI keytab is incomplete")
      else
        let pairs := parsePairs (fun key => toLowerAscii (trim key)) credentials
        let field (key : String) : Bytes := unquote (pairValue pairs (text key) [])
        if field "v" ≠ text "1" ∨ field "principal" = [] ∨ field "issued" = [] ∨
            field "expiry" = [] ∨ field "mac" = [] then
          .error (text "invalid GSSAPI ticket")
        else if !iequals (field "realm") keytab.realm || !iequals (field "service") keytab.service
        then .error (text "GSSAPI ticket realm or service mismatch")
        else
          match stoll (field "issued"), stoll (field "expiry") with
          | some issued, some expiry =>
              if expiry < now - kClockSkewSeconds ∨ now + kClockSkewSeconds < issued ∨
                  expiry ≤ issued then
                .error (text "GSSAPI ticket expired")
              else
                let expected := hmacSha256Hex ssl keytab.key
                  (canonicalTicket keytab.realm (field "principal") keytab.service issued expiry)
                if !constantTimeEqual (toLowerAscii (field "mac")) expected then
                  .error (text "invalid GSSAPI ticket")
                else .ok (field "principal")
          | _, _ => .error (text "invalid GSSAPI ticket timestamps")

end Gssapi

end SimpleLdapd
