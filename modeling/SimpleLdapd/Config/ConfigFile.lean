import SimpleLdapd.Auth.Gssapi
import SimpleLdapd.Backend.Ldif
import SimpleLdapd.Library.AddressedParts
import SimpleLdapd.Security.AclText

/-!
# The configuration file (`config/config.cpp`)

`LdapConfig` with all its fields, the lines that set them, and the checks of
`validateDetailed`. Of the lines that set one field the last one counts, and they must all
be readable; `acl` lines add up, as a rule or as an error that fails the check. Lines for
different keys do not touch each other.
-/

namespace SimpleLdapd

open Dn Text

/-- `std::stoi`; `none` where it throws. -/
def stoi (value : Bytes) : Option Int :=
  match parseDecimal (cString value) with
  | none => none
  | some (number, _) => if number < -2 ^ 31 ∨ 2 ^ 31 ≤ number then none else some number

/-- `std::stoul`; `none` where it throws. A minus sign negates modulo `2 ^ 64`. -/
def stoul (value : Bytes) : Option Nat :=
  match parseDecimal (cString value) with
  | none => none
  | some (number, _) =>
      if 2 ^ 64 ≤ number.natAbs then none else some (number % 2 ^ 64).toNat

def parseBool (value : Bytes) : Bool :=
  let lower := toLowerAscii value
  lower = text "1" || lower = text "true" || lower = text "yes" || lower = text "on"

/-- `static_cast<port_t>(std::stoi(value))`. -/
def parsePort (value : Bytes) : Option Nat := (stoi value).map fun port => (port % 2 ^ 16).toNat

/-- `static_cast<std::uint32_t>(std::stoul(value))`. -/
def parseCount (value : Bytes) : Option Nat := (stoul value).map (· % 2 ^ 32)

inductive LogLevel where
  | debug
  | info
  | warning
  | error
  | fatal
  deriving DecidableEq

def parseLogLevel (name : Bytes) : Option LogLevel :=
  let lower := toLowerAscii name
  if lower = text "debug" then some .debug
  else if lower = text "info" then some .info
  else if lower = text "warning" ∨ lower = text "warn" then some .warning
  else if lower = text "error" then some .error
  else if lower = text "fatal" then some .fatal
  else none

/-- The configuration with the fields that sessions do not read. -/
@[ext]
structure DaemonConfig extends LdapConfig where
  listenAddress : Bytes := text "0.0.0.0"
  ldapPort : Nat := 389
  ldapsPort : Nat := 636
  enableLdaps : Bool := false
  tlsCertFile : Bytes := []
  tlsKeyFile : Bytes := []
  tlsCaFile : Bytes := []
  tlsVerifyClient : Bool := false
  backend : Bytes := text "memory"
  ldifFile : Bytes := []
  sqliteFile : Bytes := []
  schemaDir : Bytes := text "schemas"
  logFile : Bytes := []
  logLevel : Bytes := text "info"
  bindRateLimit : Nat := 0
  maxPduSize : Nat := 1024 * 1024
  maxSessions : Nat := 0
  idleTimeout : Nat := 0
  foreground : Bool := true
  aclErrors : List Bytes := []
  deriving DecidableEq

inductive ConfigKey where
  | listenAddress
  | ldapPort
  | ldapsPort
  | enableLdaps
  | enableStarttls
  | tlsCertFile
  | tlsKeyFile
  | tlsCaFile
  | tlsVerifyClient
  | backend
  | ldifFile
  | sqliteFile
  | schemaDir
  | baseDn
  | rootDn
  | rootPassword
  | logFile
  | logLevel
  | bindRateLimit
  | maxPduSize
  | maxSessions
  | idleTimeout
  | foreground
  | requireConfidentiality
  | krbRealm
  | gssapiKeytab
  | gssapiService
  | acl
  deriving DecidableEq

namespace ConfigKey

/-- The key that a word of the file is compared with, in the order of the source. -/
def names : List (Bytes × ConfigKey) :=
  [(text "listen_address", listenAddress), (text "ldap_port", ldapPort),
    (text "ldaps_port", ldapsPort), (text "enable_ldaps", enableLdaps),
    (text "enable_starttls", enableStarttls), (text "tls_cert_file", tlsCertFile),
    (text "tls_key_file", tlsKeyFile), (text "tls_ca_file", tlsCaFile),
    (text "tls_verify_client", tlsVerifyClient), (text "backend", backend),
    (text "ldif_file", ldifFile), (text "sqlite_file", sqliteFile),
    (text "schema_dir", schemaDir), (text "base_dn", baseDn), (text "root_dn", rootDn),
    (text "root_password", rootPassword), (text "log_file", logFile),
    (text "log_level", logLevel), (text "bind_rate_limit", bindRateLimit),
    (text "max_pdu_size", maxPduSize), (text "max_sessions", maxSessions),
    (text "idle_timeout", idleTimeout), (text "foreground", foreground),
    (text "require_confidentiality", requireConfidentiality), (text "krb_realm", krbRealm),
    (text "gssapi_keytab", gssapiKeytab), (text "gssapi_service", gssapiService),
    (text "acl", acl)]

def named (word : Bytes) : Option ConfigKey := (names.find? (·.1 = word)).map Prod.snd

end ConfigKey

namespace DaemonConfig

/-- The branch of `loadFromFile` for the key; `none` where a number throws. -/
def assign (config : DaemonConfig) (key : ConfigKey) (value : Bytes) : Option DaemonConfig :=
  match key with
  | .listenAddress => some { config with listenAddress := value }
  | .ldapPort => (parsePort value).map fun port => { config with ldapPort := port }
  | .ldapsPort => (parsePort value).map fun port => { config with ldapsPort := port }
  | .enableLdaps => some { config with enableLdaps := parseBool value }
  | .enableStarttls => some { config with enableStarttls := parseBool value }
  | .tlsCertFile => some { config with tlsCertFile := value }
  | .tlsKeyFile => some { config with tlsKeyFile := value }
  | .tlsCaFile => some { config with tlsCaFile := value }
  | .tlsVerifyClient => some { config with tlsVerifyClient := parseBool value }
  | .backend => some { config with backend := value }
  | .ldifFile => some { config with ldifFile := value }
  | .sqliteFile => some { config with sqliteFile := value }
  | .schemaDir => some { config with schemaDir := value }
  | .baseDn => some { config with baseDn := value }
  | .rootDn => some { config with rootDn := value }
  | .rootPassword => some { config with rootPassword := value }
  | .logFile => some { config with logFile := value }
  | .logLevel => some { config with logLevel := value }
  | .bindRateLimit => (parseCount value).map fun count => { config with bindRateLimit := count }
  | .maxPduSize => (parseCount value).map fun count => { config with maxPduSize := count }
  | .maxSessions => (parseCount value).map fun count => { config with maxSessions := count }
  | .idleTimeout => (parseCount value).map fun count => { config with idleTimeout := count }
  | .foreground => some { config with foreground := parseBool value }
  | .requireConfidentiality => some { config with requireConfidentiality := parseBool value }
  | .krbRealm => some { config with krbRealm := value }
  | .gssapiKeytab => some { config with gssapiKeytab := value }
  | .gssapiService => some { config with gssapiService := value }
  | .acl =>
      match parseAclLine value with
      | .error error =>
          some { config with aclErrors :=
                  config.aclErrors ++ [if error = [] then text "invalid acl" else error] }
      | .ok rule => some { config with acls := config.acls ++ [rule] }

/-- The key and the value of a line, once its comment is cut off. -/
def lineParts (raw : Bytes) : Option (Bytes × Bytes) :=
  let line := trim (raw.takeWhile (· ≠ chr '#'))
  if line = [] then none
  else
    (findByte (chr '=') line).map fun position =>
      (trim (line.take position), trim (line.drop (position + 1)))

def loadLine (config : DaemonConfig) (raw : Bytes) : Option DaemonConfig :=
  match lineParts raw with
  | none => some config
  | some (word, value) =>
      match ConfigKey.named word with
      | none => some config
      | some key => config.assign key value

/-- `loadFromFile` on what the file holds, if it can be opened: what it returns and leaves
behind; `none` where it throws. -/
def loadFromFile (config : DaemonConfig) (file : Option Bytes) : Option (Bool × DaemonConfig) :=
  match file with
  | none => some (false, config)
  | some content =>
      ((Gssapi.fileLines [] content).foldlM loadLine config).map fun loaded => (true, loaded)

/-- What a key stands for in the configuration. -/
abbrev Part : ConfigKey → Type
  | .listenAddress | .tlsCertFile | .tlsKeyFile | .tlsCaFile | .backend | .ldifFile
  | .sqliteFile | .schemaDir | .baseDn | .rootDn | .rootPassword | .logFile | .logLevel
  | .krbRealm | .gssapiKeytab | .gssapiService => Bytes
  | .ldapPort | .ldapsPort | .bindRateLimit | .maxPduSize | .maxSessions | .idleTimeout => Nat
  | .enableLdaps | .enableStarttls | .tlsVerifyClient | .foreground
  | .requireConfidentiality => Bool
  | .acl => List AclRule × List Bytes

def part : (key : ConfigKey) → DaemonConfig → Part key
  | .listenAddress, config => config.listenAddress
  | .ldapPort, config => config.ldapPort
  | .ldapsPort, config => config.ldapsPort
  | .enableLdaps, config => config.enableLdaps
  | .enableStarttls, config => config.enableStarttls
  | .tlsCertFile, config => config.tlsCertFile
  | .tlsKeyFile, config => config.tlsKeyFile
  | .tlsCaFile, config => config.tlsCaFile
  | .tlsVerifyClient, config => config.tlsVerifyClient
  | .backend, config => config.backend
  | .ldifFile, config => config.ldifFile
  | .sqliteFile, config => config.sqliteFile
  | .schemaDir, config => config.schemaDir
  | .baseDn, config => config.baseDn
  | .rootDn, config => config.rootDn
  | .rootPassword, config => config.rootPassword
  | .logFile, config => config.logFile
  | .logLevel, config => config.logLevel
  | .bindRateLimit, config => config.bindRateLimit
  | .maxPduSize, config => config.maxPduSize
  | .maxSessions, config => config.maxSessions
  | .idleTimeout, config => config.idleTimeout
  | .foreground, config => config.foreground
  | .requireConfidentiality, config => config.requireConfidentiality
  | .krbRealm, config => config.krbRealm
  | .gssapiKeytab, config => config.gssapiKeytab
  | .gssapiService, config => config.gssapiService
  | .acl, config => (config.acls, config.aclErrors)

def put : (key : ConfigKey) → Part key → DaemonConfig → DaemonConfig
  | .listenAddress, value, config => { config with listenAddress := value }
  | .ldapPort, port, config => { config with ldapPort := port }
  | .ldapsPort, port, config => { config with ldapsPort := port }
  | .enableLdaps, flag, config => { config with enableLdaps := flag }
  | .enableStarttls, flag, config => { config with enableStarttls := flag }
  | .tlsCertFile, value, config => { config with tlsCertFile := value }
  | .tlsKeyFile, value, config => { config with tlsKeyFile := value }
  | .tlsCaFile, value, config => { config with tlsCaFile := value }
  | .tlsVerifyClient, flag, config => { config with tlsVerifyClient := flag }
  | .backend, value, config => { config with backend := value }
  | .ldifFile, value, config => { config with ldifFile := value }
  | .sqliteFile, value, config => { config with sqliteFile := value }
  | .schemaDir, value, config => { config with schemaDir := value }
  | .baseDn, value, config => { config with baseDn := value }
  | .rootDn, value, config => { config with rootDn := value }
  | .rootPassword, value, config => { config with rootPassword := value }
  | .logFile, value, config => { config with logFile := value }
  | .logLevel, value, config => { config with logLevel := value }
  | .bindRateLimit, count, config => { config with bindRateLimit := count }
  | .maxPduSize, count, config => { config with maxPduSize := count }
  | .maxSessions, count, config => { config with maxSessions := count }
  | .idleTimeout, count, config => { config with idleTimeout := count }
  | .foreground, flag, config => { config with foreground := flag }
  | .requireConfidentiality, flag, config => { config with requireConfidentiality := flag }
  | .krbRealm, value, config => { config with krbRealm := value }
  | .gssapiKeytab, value, config => { config with gssapiKeytab := value }
  | .gssapiService, value, config => { config with gssapiService := value }
  | .acl, (rules, errors), config => { config with acls := rules, aclErrors := errors }

/-- An `acl` value gives a rule or an error. -/
def aclRead (value : Bytes) : List AclRule × List Bytes :=
  match parseAclLine value with
  | .ok rule => ([rule], [])
  | .error error => ([], [if error = [] then text "invalid acl" else error])

/-- How one value is read. -/
def read : (key : ConfigKey) → Bytes → Option (Part key)
  | .listenAddress | .tlsCertFile | .tlsKeyFile | .tlsCaFile | .backend | .ldifFile
  | .sqliteFile | .schemaDir | .baseDn | .rootDn | .rootPassword | .logFile | .logLevel
  | .krbRealm | .gssapiKeytab | .gssapiService => some
  | .ldapPort | .ldapsPort => parsePort
  | .bindRateLimit | .maxPduSize | .maxSessions | .idleTimeout => parseCount
  | .enableLdaps | .enableStarttls | .tlsVerifyClient | .foreground
  | .requireConfidentiality => fun value => some (parseBool value)
  | .acl => fun value => some (aclRead value)

/-- What a value that is read makes of what was there before. -/
def join : (key : ConfigKey) → Part key → Part key → Part key
  | .acl, before, added => (before.1 ++ added.1, before.2 ++ added.2)
  | _, _, content => content

/-- What the values read for a key leave: the last of them, but every rule and error of
`acl` lines. -/
def settle : (key : ConfigKey) → Part key → List (Part key) → Part key
  | .acl, start, contents =>
      (start.1 ++ contents.flatMap Prod.fst, start.2 ++ contents.flatMap Prod.snd)
  | _, start, contents => contents.getLastD start

/-- The key and the value that a line assigns, if it does. -/
def lineAssignment (raw : Bytes) : Option (ConfigKey × Bytes) :=
  (lineParts raw).bind fun parts => (ConfigKey.named parts.1).map fun key => (key, parts.2)

def assignments (content : Bytes) : List (ConfigKey × Bytes) :=
  (Gssapi.fileLines [] content).filterMap lineAssignment

/-- The values that the lines of a file give to a key, in their order. -/
def valuesOf (key : ConfigKey) (content : Bytes) : List Bytes := Parts.own key (assignments content)

section Meaning

theorem part_put (key : ConfigKey) (content : Part key) (config : DaemonConfig) :
    part key (put key content config) = content := by
  cases key <;> rfl

theorem part_put_other (key other : ConfigKey) (content : Part key) (config : DaemonConfig)
    (different : other ≠ key) : part other (put key content config) = part other config := by
  cases key <;> cases other <;> first | rfl | exact absurd rfl different

theorem part_ext (left right : DaemonConfig) (same : ∀ key, part key left = part key right) :
    left = right := by
  have acl := Prod.mk.inj (same .acl)
  exact DaemonConfig.ext (same .baseDn) (same .rootDn) (same .rootPassword)
    (same .enableStarttls) (same .requireConfidentiality) (same .krbRealm)
    (same .gssapiKeytab) (same .gssapiService) acl.1 (same .listenAddress) (same .ldapPort)
    (same .ldapsPort) (same .enableLdaps) (same .tlsCertFile) (same .tlsKeyFile)
    (same .tlsCaFile) (same .tlsVerifyClient) (same .backend) (same .ldifFile)
    (same .sqliteFile) (same .schemaDir) (same .logFile) (same .logLevel)
    (same .bindRateLimit) (same .maxPduSize) (same .maxSessions) (same .idleTimeout)
    (same .foreground) acl.2

/-- A configuration as the contents of its keys. -/
def parts : Parts DaemonConfig Part where
  part := part
  put := put
  part_put := part_put
  part_put_other := part_put_other
  ext := part_ext

/-- What `assign` does to the content of its key. -/
def take (key : ConfigKey) (before : Part key) (value : Bytes) : Option (Part key) :=
  (read key value).map (join key before)

theorem assign_eq (config : DaemonConfig) (key : ConfigKey) (value : Bytes) :
    config.assign key value = parts.assign take config (key, value) := by
  have split : parts.assign take config (key, value) =
      (read key value).map fun content => put key (join key (part key config) content) config := by
    simp only [Parts.assign, take, Option.map_map]
    rfl
  rw [split]
  cases key with
  | acl =>
      simp only [assign, read, aclRead]
      cases parseAclLine value with
      | error error => simp [put, join, part]
      | ok rule => simp [put, join, part]
  | _ => rfl

theorem load_line_eq (config : DaemonConfig) (raw : Bytes) :
    config.loadLine raw =
      match lineAssignment raw with
      | some assignment => parts.assign take config assignment
      | none => some config := by
  unfold loadLine lineAssignment
  cases lineParts raw with
  | none => rfl
  | some found =>
      rcases found with ⟨word, value⟩
      cases named : ConfigKey.named word with
      | none => simp [named]
      | some key => simp [named, assign_eq]

theorem load_eq (config : DaemonConfig) (content : Bytes) :
    loadFromFile config (some content) =
      ((assignments content).foldlM (parts.assign take) config).map
        fun loaded => (true, loaded) := by
  rw [loadFromFile, assignments, List.foldlM_filterMap]
  congr 2
  funext config raw
  rw [load_line_eq]
  cases lineAssignment raw <;> rfl

theorem join_all (key : ConfigKey) (start : Part key) (contents : List (Part key)) :
    contents.foldl (join key) start = settle key start contents := by
  cases key with
  | acl =>
      induction contents generalizing start with
      | nil => simp [settle]
      | cons content rest ih => simp [ih, join, settle]
  | _ => exact joined_overwriting start contents

theorem read_values (key : ConfigKey) (start : Part key) (values : List Bytes) :
    values.foldlM (take key) start = (values.mapM (read key)).map (settle key start) := by
  rw [← funext (join_all key start)]
  exact joined_part (read key) (join key) start values

theorem load_iff (config loaded : DaemonConfig) (content : Bytes) :
    loadFromFile config (some content) = some (true, loaded) ↔
      ∀ key, ((valuesOf key content).mapM (read key)).map (settle key (part key config)) =
        some (part key loaded) := by
  have run := parts.run_iff take (assignments content) config loaded
  change _ ↔ ∀ key, (valuesOf key content).foldlM (take key) (part key config) =
    some (part key loaded) at run
  simp only [← read_values, ← run]
  simp [load_eq]

theorem load_congr (config : DaemonConfig) {content other : Bytes}
    (same : ∀ key, valuesOf key other = valuesOf key content) :
    loadFromFile config (some other) = loadFromFile config (some content) := by
  rw [load_eq, load_eq, parts.run_congr take same config]

theorem file_lines_eq (line content : Bytes) :
    Gssapi.fileLines line content = LdifBackend.getLines line content := by
  induction content generalizing line with
  | nil => rfl
  | cons byte rest ih =>
      rw [Gssapi.fileLines, LdifBackend.getLines, ih, ih]
      rfl

theorem assignments_append (content more : Bytes) :
    assignments (content ++ chr '\n' :: more) = assignments content ++ assignments more := by
  obtain ⟨gap, blank, split⟩ := LdifBackend.get_lines_append [] content more
  have silent : gap.filterMap lineAssignment = [] := by
    rw [List.filterMap_eq_nil_iff]
    intro raw member
    rw [blank raw member]
    rfl
  have kept := congrArg (List.filterMap lineAssignment) split
  rw [List.filterMap_append, List.filterMap_append, silent, List.append_nil] at kept
  simp only [assignments, file_lines_eq]
  exact kept

theorem load_append (config : DaemonConfig) (content more : Bytes) :
    loadFromFile config (some (content ++ chr '\n' :: more)) =
      (loadFromFile config (some content)).bind fun loaded =>
        loadFromFile loaded.2 (some more) := by
  simp only [load_eq, assignments_append, List.foldlM_append]
  cases (assignments content).foldlM (parts.assign take) config with
  | none => rfl
  | some loaded => rfl

end Meaning

/-- A file loads if every value in it can be read, and then each field is what its own
lines make of it. Files that give each key the same values load alike, and one file after
the other loads as the two of them in one. -/
theorem file_loads_by_keys (config : DaemonConfig) (content : Bytes) :
    (∀ loaded, loadFromFile config (some content) = some (true, loaded) ↔
        ∀ key, ((valuesOf key content).mapM (read key)).map (settle key (part key config)) =
          some (part key loaded)) ∧
      (∀ other, (∀ key, valuesOf key other = valuesOf key content) →
        loadFromFile config (some other) = loadFromFile config (some content)) ∧
      ∀ more, loadFromFile config (some (content ++ chr '\n' :: more)) =
        (loadFromFile config (some content)).bind fun loaded =>
          loadFromFile loaded.2 (some more) :=
  ⟨fun loaded => load_iff config loaded content, fun _ same => load_congr config same,
    load_append config content⟩

/-- The errors of `validateDetailed`, in its order. -/
def validateDetailed (sqliteBuilt : Bool) (readable : Bytes → Bool) (config : DaemonConfig) :
    List Bytes :=
  (if (config.enableLdaps || config.enableStarttls) &&
      (config.tlsCertFile = [] || config.tlsKeyFile = []) then
    [text "tls_cert_file and tls_key_file are required when TLS is enabled"] else []) ++
  (if config.tlsVerifyClient && config.tlsCaFile = [] then
    [text "tls_ca_file is required when tls_verify_client is true"] else []) ++
  (if parseLogLevel config.logLevel = none then
    [text "log_level must be debug, info, warning, error, or fatal"] else []) ++
  (if config.maxPduSize = 0 then [text "max_pdu_size must be greater than 0"] else []) ++
  (if config.backend ≠ text "memory" ∧ config.backend ≠ text "ldif" ∧
      config.backend ≠ text "sqlite" then
    [text "backend must be memory, ldif, or sqlite"] else []) ++
  (if config.backend = text "sqlite" then
    if sqliteBuilt then
      if config.sqliteFile = [] then
        [text "sqlite_file is required when backend is sqlite"] else []
    else [text "sqlite backend was not built (SQLite3 not found)"]
  else []) ++
  (if config.baseDn = [] then [text "base_dn is required"] else []) ++
  (if config.gssapiKeytab ≠ [] ∧ !readable config.gssapiKeytab then
    [text "gssapi_keytab is not readable"] else []) ++
  config.aclErrors

section AclLines

variable {sqliteBuilt : Bool} {readable : Bytes → Bool} {config loaded : DaemonConfig}

theorem no_acl_errors (valid : validateDetailed sqliteBuilt readable config = []) :
    config.aclErrors = [] :=
  (List.append_eq_nil_iff.mp valid).2

theorem acl_values_read (start : List AclRule × List Bytes) (values : List Bytes) :
    (values.mapM (read .acl)).map (settle .acl start) =
      some (start.1 ++ values.flatMap fun line => (aclRead line).1,
        start.2 ++ values.flatMap fun line => (aclRead line).2) := by
  have total : values.mapM (read .acl) = some (values.map aclRead) := by
    induction values with
    | nil => rfl
    | cons value rest ih =>
        rw [List.mapM_cons, ih]
        rfl
  simp [total, settle, List.flatMap_map]

theorem acl_read_ok (line : Bytes) :
    (aclRead line).2 = [] ↔ ∃ rule, parseAclLine line = .ok rule := by
  unfold aclRead
  cases parseAclLine line with
  | ok rule => simp
  | error error => simp

theorem mem_acl_read {line : Bytes} {rule : AclRule} :
    rule ∈ (aclRead line).1 ↔ parseAclLine line = .ok rule := by
  unfold aclRead
  cases parseAclLine line with
  | ok parsed => simp [eq_comm]
  | error error => simp

/-- What the `acl` lines of a file add. -/
theorem acl_lines_loaded {content : Bytes}
    (loads : loadFromFile config (some content) = some (true, loaded)) :
    loaded.acls = config.acls ++ (valuesOf .acl content).flatMap (fun line => (aclRead line).1) ∧
      loaded.aclErrors =
        config.aclErrors ++ (valuesOf .acl content).flatMap fun line => (aclRead line).2 := by
  have settled := (load_iff config loaded content).mp loads .acl
  rw [acl_values_read] at settled
  exact ⟨(Prod.mk.inj (Option.some.inj settled)).1.symm,
    (Prod.mk.inj (Option.some.inj settled)).2.symm⟩

end AclLines

end DaemonConfig

end SimpleLdapd
