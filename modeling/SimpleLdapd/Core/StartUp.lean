import SimpleLdapd.Config.ConfigFile
import SimpleLdapd.Core.Daemon
import SimpleLdapd.Schema.Loading
import SimpleLdapd.Security.AccessOrder

/-!
# Starting the daemon (`main/simple-ldapd.cpp`, `initialize` and `start` in `core/daemon.cpp`)

The command line names configuration files, which are loaded one on top of the other. The
daemon serves only under a configuration that passes its checks, so that what its sessions
allow is what the `acl` lines of these files state, every one of them.
-/

namespace SimpleLdapd

open Dn

/-- The backend that `initialize` makes. -/
inductive BackendChoice where
  | memory
  | ldif (path : Bytes)
  | sqlite (path seed : Bytes)
  deriving DecidableEq

/-- What the program meets outside of itself: files, the build, OpenSSL and the network. -/
structure Host where
  files : Bytes → Option Bytes := fun _ => none
  schemaFiles : Bytes → List (Option Bytes) := fun _ => []
  sqliteBuilt : Bool := true
  openssl : Option OpenSsl := none
  initializes : BackendChoice → Bool := fun _ => true
  loadsCertificate : Bytes → Bytes → Bool := fun _ _ => true
  requiresClientCertificate : Bool := true
  listens : Bytes → Nat → Bool := fun _ _ => true
  listensForLdaps : Bytes → Nat → Bool := fun _ _ => true

/-- A daemon that is ready to take connections. -/
structure ReadyDaemon where
  settings : DaemonSettings := {}
  backend : BackendChoice := .memory
  bindRateLimit : Nat := 0

inductive MainOutcome where
  | exited (code : Nat)
  | thrown
  | serving (daemon : ReadyDaemon)

namespace LdapDaemon

variable (host : Host)

def errors (config : DaemonConfig) : List Bytes :=
  config.validateDetailed host.sqliteBuilt fun path => (host.files path).isSome

def testConfig (config : DaemonConfig) : Bool := errors host config = []

def backendChoice (config : DaemonConfig) : BackendChoice :=
  if config.backend = text "sqlite" then .sqlite config.sqliteFile config.ldifFile
  else if config.ldifFile ≠ [] ∨ config.backend = text "ldif" then .ldif config.ldifFile
  else .memory

/-- `none` where it returns false. A backend other than SQLite that fails is only logged,
and so is a CA file that cannot be loaded. -/
def initializeDaemon (config : DaemonConfig) : Option ReadyDaemon :=
  if errors host config ≠ [] then none
  else if !host.initializes (backendChoice config) && config.backend = text "sqlite" then none
  else if (config.enableLdaps || config.enableStarttls) &&
      (!host.loadsCertificate config.tlsCertFile config.tlsKeyFile ||
        config.tlsVerifyClient && !host.requiresClientCertificate) then none
  else
    some {
      settings := {
        server := {
          config := config.toLdapConfig
          openssl := host.openssl
          schema := some (SchemaRegistry.loadDirectory {} (host.schemaFiles config.schemaDir)).2
          sasl := some [.plain, .digestMd5, .gssapi, .external]
          tlsEnabled := config.enableLdaps || config.enableStarttls }
        maxPduSize := config.maxPduSize
        idleTimeout := config.idleTimeout
        maxSessions := config.maxSessions
        enableLdaps := config.enableLdaps }
      backend := backendChoice config
      bindRateLimit := config.bindRateLimit }

def start (config : DaemonConfig) : Option ReadyDaemon :=
  match initializeDaemon host config with
  | none => none
  | some daemon =>
      if !host.listens config.listenAddress config.ldapPort then none
      else if config.enableLdaps && !host.listensForLdaps config.listenAddress config.ldapsPort
      then none
      else some daemon

end LdapDaemon

/-- What the loop over the arguments has collected. -/
structure MainArguments where
  config : DaemonConfig := {}
  command : Bytes := text "start"
  testConfig : Bool := false

variable (host : Host)

/-- The loop over the arguments. The error is the code it returns, and `none` where a file
makes it throw. -/
def readArguments (state : MainArguments) : List Bytes → Except (Option Nat) MainArguments
  | [] => .ok state
  | argument :: rest =>
      if argument = text "--help" ∨ argument = text "-h" then .error (some 0)
      else if argument = text "--version" ∨ argument = text "-v" then .error (some 0)
      else if argument = text "--config" ∨ argument = text "-c" then
        match rest with
        | [] => .error (some 1)
        | path :: rest =>
            match state.config.loadFromFile (host.files path) with
            | none => .error none
            | some (false, _) => .error (some 1)
            | some (true, config) => readArguments { state with config := config } rest
      else if argument = text "--foreground" ∨ argument = text "-f" then
        readArguments { state with config.foreground := true } rest
      else if argument = text "--daemon" ∨ argument = text "-d" then
        readArguments { state with config.foreground := false } rest
      else if argument = text "--test-config" then
        readArguments { state with testConfig := true } rest
      else if argument ≠ [] ∧ argument.head? ≠ some (chr '-') then
        readArguments { state with command := argument } rest
      else readArguments state rest

/-- `main` up to the point where the daemon serves. -/
def main (arguments : List Bytes) : MainOutcome :=
  match readArguments host {} arguments with
  | .error (some code) => .exited code
  | .error none => .thrown
  | .ok state =>
      if state.testConfig ∨ state.command = text "test" then
        .exited (if LdapDaemon.testConfig host state.config then 0 else 1)
      else if state.command = text "stop" ∨ state.command = text "reload" ∨
          state.command = text "status" then .exited 2
      else
        match LdapDaemon.start host state.config with
        | none => .exited 1
        | some daemon => .serving daemon

/-- The files that the arguments name. -/
def configPaths : List Bytes → List Bytes
  | [] => []
  | [_] => []
  | argument :: path :: rest =>
      if argument = text "--config" ∨ argument = text "-c" then path :: configPaths rest
      else configPaths (path :: rest)

/-- The `acl` lines of the files that the arguments name. -/
def statedAcls (arguments : List Bytes) : List Bytes :=
  (configPaths arguments).flatMap fun path =>
    ((host.files path).map (DaemonConfig.valuesOf .acl)).getD []

section StatedRules

open DaemonConfig

variable {host} {arguments : List Bytes}

theorem stated_other {argument : Bytes}
    (other : ¬ (argument = text "--config" ∨ argument = text "-c")) (rest : List Bytes) :
    statedAcls host (argument :: rest) = statedAcls host rest := by
  cases rest with
  | nil => rfl
  | cons next rest => rw [statedAcls, configPaths, if_neg other, statedAcls]

theorem stated_config {argument path content : Bytes}
    (named : argument = text "--config" ∨ argument = text "-c")
    (stored : host.files path = some content) (rest : List Bytes) :
    statedAcls host (argument :: path :: rest) =
      valuesOf .acl content ++ statedAcls host rest := by
  simp [statedAcls, configPaths, named, stored]

/-- The rules and the errors that the arguments leave are those of the stated lines. -/
theorem read_arguments_acls {state final : MainArguments}
    (read : readArguments host state arguments = .ok final) :
    final.config.acls =
        state.config.acls ++ (statedAcls host arguments).flatMap (fun line => (aclRead line).1) ∧
      final.config.aclErrors =
        state.config.aclErrors ++
          (statedAcls host arguments).flatMap fun line => (aclRead line).2 := by
  fun_induction readArguments host state arguments with
  | case1 state =>
      cases read
      simp [statedAcls, configPaths]
  | case7 state argument _ _ named path rest config loads ih =>
      cases stored : host.files path with
      | none =>
          rw [stored] at loads
          cases loads
      | some content =>
          rw [stored] at loads
          have added := acl_lines_loaded loads
          have later := ih read
          rw [stated_config named stored, List.flatMap_append, List.flatMap_append, later.1,
            later.2, added.1, added.2, List.append_assoc, List.append_assoc]
          exact ⟨rfl, rfl⟩
  | case8 _ _ _ _ _ other _ ih | case9 _ _ _ _ _ other _ _ ih | case10 _ _ _ _ other _ _ ih
  | case11 _ _ _ _ _ other _ _ _ _ ih | case12 _ _ _ _ _ other _ _ _ _ ih =>
      rw [stated_other other]
      exact ih read
  | _ => cases read

theorem initialized {config : DaemonConfig} {daemon : ReadyDaemon}
    (ready : LdapDaemon.initializeDaemon host config = some daemon) :
    LdapDaemon.errors host config = [] ∧
      daemon.settings.server.config = config.toLdapConfig := by
  unfold LdapDaemon.initializeDaemon at ready
  split at ready
  · cases ready
  rename_i valid
  split at ready
  · cases ready
  split at ready
  · cases ready
  · cases ready
    exact ⟨not_not.mp valid, rfl⟩

theorem started {config : DaemonConfig} {daemon : ReadyDaemon}
    (ready : LdapDaemon.start host config = some daemon) :
    LdapDaemon.initializeDaemon host config = some daemon := by
  unfold LdapDaemon.start at ready
  cases made : LdapDaemon.initializeDaemon host config with
  | none =>
      rw [made] at ready
      cases ready
  | some built =>
      simp only [made] at ready
      split at ready
      · cases ready
      split at ready
      · cases ready
      · exact ready

theorem serving_configured {daemon : ReadyDaemon} (serves : main host arguments = .serving daemon) :
    ∃ state, readArguments host {} arguments = .ok state ∧
      LdapDaemon.start host state.config = some daemon := by
  unfold main at serves
  split at serves
  · cases serves
  · cases serves
  · rename_i state read
    split at serves
    · cases serves
    split at serves
    · cases serves
    split at serves
    · cases serves
    · rename_i built ready
      cases serves
      exact ⟨state, read, ready⟩

/-- The lines that are stated are the rules of a daemon that serves. -/
theorem serving_rules {daemon : ReadyDaemon} (serves : main host arguments = .serving daemon) :
    (∀ line ∈ statedAcls host arguments, ∃ rule, parseAclLine line = .ok rule) ∧
      daemon.settings.server.config.acls =
        (statedAcls host arguments).flatMap fun line => (aclRead line).1 := by
  obtain ⟨state, read, ready⟩ := serving_configured serves
  have checked := initialized (started ready)
  have stated := read_arguments_acls read
  have clean := no_acl_errors checked.1
  rw [stated.2, List.append_eq_nil_iff, List.flatMap_eq_nil_iff] at clean
  constructor
  · intro line member
    exact (acl_read_ok line).mp (clean.2 line member)
  · rw [checked.2, stated.1]
    rfl

end StatedRules

section Access

open AccessControl DaemonConfig

variable {host} {arguments : List Bytes} {daemon : ReadyDaemon}
variable {State : Type} {exec : (call : BackendCall) → State → call.Answer × State} {store : State}

theorem stated_rule_iff (serves : main host arguments = .serving daemon)
    (Property : AclRule → Prop) :
    (∃ rule ∈ daemon.settings.server.config.acls, Property rule) ↔
      ∃ line ∈ statedAcls host arguments, ∃ rule, parseAclLine line = .ok rule ∧ Property rule := by
  rw [(serving_rules serves).2]
  constructor
  · intro ⟨rule, listed, holds⟩
    obtain ⟨line, stated, given⟩ := List.mem_flatMap.mp listed
    exact ⟨line, stated, rule, mem_acl_read.mp given, holds⟩
  · intro ⟨line, stated, rule, parsed, holds⟩
    exact ⟨rule, List.mem_flatMap.mpr ⟨line, stated, mem_acl_read.mpr parsed⟩, holds⟩

theorem no_rules_iff (serves : main host arguments = .serving daemon) :
    daemon.settings.server.config.acls = [] ↔ statedAcls host arguments = [] := by
  constructor
  · intro none
    apply List.eq_nil_iff_forall_not_mem.mpr
    intro line stated
    obtain ⟨rule, parsed⟩ := (serving_rules serves).1 line stated
    obtain ⟨_, listed, _⟩ := (stated_rule_iff serves fun _ => True).mpr
      ⟨line, stated, rule, parsed, trivial⟩
    simp [none] at listed
  · intro none
    rw [(serving_rules serves).2, none]
    rfl

def ruledHost : Host where
  files path := if path = text "a" then some (text "acl=users write ou=b") else none

end Access

end SimpleLdapd
