import SimpleLdapd.Utils.Dn

/-!
# Configuration (`config/config.hpp`, `security/acl.hpp`)

The fields that the request path reads, with the defaults of the source. The
listener, logging, TLS file and backend selection fields are not part of the model.
-/

namespace SimpleLdapd

inductive AclWhoKind where
  | anyone
  | anonymous
  | users
  | dn
  | group
  deriving DecidableEq

inductive AclPermission where
  | search
  | write
  deriving DecidableEq

structure AclRule where
  who : AclWhoKind := .anonymous
  whoValue : Bytes := []
  permission : AclPermission := .search
  target : Bytes := []
  deriving DecidableEq

structure LdapConfig where
  baseDn : Bytes := text "dc=example,dc=com"
  rootDn : Bytes := text "cn=admin,dc=example,dc=com"
  rootPassword : Bytes := []
  enableStarttls : Bool := false
  requireConfidentiality : Bool := false
  krbRealm : Bytes := []
  gssapiKeytab : Bytes := []
  gssapiService : Bytes := []
  acls : List AclRule := []
  deriving DecidableEq

end SimpleLdapd
