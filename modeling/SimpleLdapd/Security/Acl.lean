import SimpleLdapd.Backend.Memory
import SimpleLdapd.Config.Config

/-!
# Access control (`security/acl.cpp`)

`AccessControl` reads groups and users from the backend while it decides, so a
decision is a program. A directory nobody else writes to answers the same
question about two spellings of one DN in the same way.
-/

namespace SimpleLdapd.AccessControl

open Dn

def hasValue (entry : DirectoryEntry) (name value : Bytes) (asDn : Bool) : Bool :=
  match entry.findAttribute name with
  | none => false
  | some values => values.any fun item => if asDn then dnEquals item value else iequals item value

variable (config : LdapConfig)

def isRoot (bindDn : Bytes) : Bool :=
  bindDn ≠ [] && config.rootDn ≠ [] && dnEquals bindDn config.rootDn

def covers (rule : AclRule) (entryDn : Bytes) : Bool :=
  rule.target = [] || dnEquals entryDn rule.target || dnEndsWith entryDn rule.target

def grants (rule : AclRule) (write : Bool) : Bool := !write || rule.permission = .write

/-- The `uid` of the user's entry, else the value of a `uid` RDN, else nothing. -/
def userUid (user : Option DirectoryEntry) (bindDn : Bytes) : Bytes :=
  let stored :=
    match user.bind fun entry => entry.findAttribute (text "uid") with
    | some (value :: _) => value
    | _ => []
  if stored ≠ [] then stored
  else
    match parseRdn (dnRdn bindDn) with
    | some (type, value) => if iequals type (text "uid") then value else []
    | none => []

def inGroup (bindDn groupDn : Bytes) : BackendProgram Bool :=
  if bindDn = [] then pure false
  else do
    let group ← Backend.lookup groupDn
    match group with
    | none => pure false
    | some group =>
        if hasValue group (text "member") bindDn true ||
            hasValue group (text "uniqueMember") bindDn true then pure true
        else do
          let user ← Backend.lookup bindDn
          if user.any fun entry => hasValue entry (text "memberOf") groupDn true then pure true
          else
            let uid := userUid user bindDn
            pure (uid ≠ [] && hasValue group (text "memberUid") uid false)

def whoMatches (rule : AclRule) (bindDn : Bytes) : BackendProgram Bool :=
  match rule.who with
  | .anyone => pure true
  | .anonymous => pure (bindDn = [])
  | .users => pure (bindDn ≠ [])
  | .dn => pure (dnEquals bindDn rule.whoValue)
  | .group => inGroup bindDn rule.whoValue

/-- The loop over the rules, shared by both decisions. -/
def anyRule (write : Bool) (bindDn entryDn : Bytes) : List AclRule → BackendProgram Bool
  | [] => pure false
  | rule :: rest => do
      let matched ← whoMatches rule bindDn
      if matched && covers rule entryDn && grants rule write then pure true
      else anyRule write bindDn entryDn rest

def maySearch (bindDn entryDn : Bytes) : BackendProgram Bool :=
  if entryDn = [] || isRoot config bindDn then pure true
  else if config.acls = [] then pure true
  else anyRule false bindDn entryDn config.acls

def mayWrite (bindDn entryDn : Bytes) : BackendProgram Bool :=
  if isRoot config bindDn then pure true
  else if config.acls = [] then pure false
  else anyRule true bindDn entryDn config.acls

section ReadOnly

theorem in_group_read_only (bindDn groupDn : Bytes) :
    (inGroup bindDn groupDn).Issues BackendCall.Reads := by
  unfold inGroup
  split
  · trivial
  · apply Program.issues_bind (Program.issues_perform trivial)
    intro group
    split
    · trivial
    · split
      · trivial
      · apply Program.issues_bind (Program.issues_perform trivial)
        intro user
        split <;> trivial

theorem who_matches_read_only (rule : AclRule) (bindDn : Bytes) :
    (whoMatches rule bindDn).Issues BackendCall.Reads := by
  unfold whoMatches
  split
  · trivial
  · trivial
  · trivial
  · trivial
  · exact in_group_read_only bindDn rule.whoValue

theorem any_rule_read_only (write : Bool) (bindDn entryDn : Bytes) (rules : List AclRule) :
    (anyRule write bindDn entryDn rules).Issues BackendCall.Reads := by
  induction rules with
  | nil => trivial
  | cons rule rest ih =>
      unfold anyRule
      apply Program.issues_bind (who_matches_read_only rule bindDn)
      intro matched
      split
      · trivial
      · exact ih

theorem may_search_read_only (bindDn entryDn : Bytes) :
    (maySearch config bindDn entryDn).Issues BackendCall.Reads := by
  unfold maySearch
  split
  · trivial
  · split
    · trivial
    · exact any_rule_read_only false bindDn entryDn config.acls

theorem may_write_read_only (bindDn entryDn : Bytes) :
    (mayWrite config bindDn entryDn).Issues BackendCall.Reads := by
  unfold mayWrite
  split
  · trivial
  · split
    · trivial
    · exact any_rule_read_only true bindDn entryDn config.acls

end ReadOnly

section Spelling

theorem covers_congr (rule : AclRule) {entryDn other : Bytes}
    (same : toLowerAscii entryDn = toLowerAscii other) :
    covers rule entryDn = covers rule other := by
  unfold covers
  rw [dn_ends_with_congr same (rfl : toLowerAscii rule.target = _)]
  simp only [dnEquals, iequals, same]

theorem any_rule_congr (write : Bool) (bindDn : Bytes) {entryDn other : Bytes}
    (same : toLowerAscii entryDn = toLowerAscii other) (rules : List AclRule) :
    anyRule write bindDn entryDn rules = anyRule write bindDn other rules := by
  induction rules with
  | nil => rfl
  | cons rule rest ih =>
      unfold anyRule
      rw [covers_congr rule same, ih]

/-- The decision does not depend on the spelling of the entry's DN. -/
theorem may_write_congr (bindDn : Bytes) {entryDn other : Bytes}
    (same : toLowerAscii entryDn = toLowerAscii other) :
    mayWrite config bindDn entryDn = mayWrite config bindDn other := by
  unfold mayWrite
  rw [any_rule_congr true bindDn same]

theorem may_search_congr (bindDn : Bytes) {entryDn other : Bytes}
    (same : toLowerAscii entryDn = toLowerAscii other) :
    maySearch config bindDn entryDn = maySearch config bindDn other := by
  have empty : entryDn = [] ↔ other = [] := by
    rw [← to_lower_eq_nil entryDn, same, to_lower_eq_nil]
  unfold maySearch
  rw [any_rule_congr false bindDn same]
  simp only [empty]

end Spelling

end SimpleLdapd.AccessControl
