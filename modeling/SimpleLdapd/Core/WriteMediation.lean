import SimpleLdapd.Core.WriteOutcome

/-!
# Complete mediation of writes

Whatever request a session handles, a DN whose lookup changes is one the session
may write, or its own DN under a password change that touches nothing else.
-/

namespace SimpleLdapd.Session

open Dn MemoryBackend

/-- Both entries exist and differ only in attributes named `userPassword`. -/
def DifferOnlyInPassword (before after : Option DirectoryEntry) : Prop :=
  ∃ old new, before = some old ∧ after = some new ∧ new.dn = old.dn ∧
    ∀ name, iequals name (text "userPassword") = false →
      new.attributes.get? name = old.attributes.get? name

section Frames

variable {store : MemoryStore} {dn : Bytes}

theorem add_changes {entry : DirectoryEntry}
    (written : (add store entry).1 = true)
    (changed : lookup (add store entry).2 dn ≠ lookup store dn) :
    toLowerAscii entry.dn = toLowerAscii dn := by
  by_contra different
  rw [lookup_added written, if_neg different] at changed
  exact changed rfl

theorem modify_changes (invariant : StoreInvariant store) {entry : DirectoryEntry}
    (written : (modify store entry).1 = true)
    (changed : lookup (modify store entry).2 dn ≠ lookup store dn) :
    toLowerAscii entry.dn = toLowerAscii dn := by
  by_contra different
  rw [lookup_modified invariant written, if_neg different] at changed
  exact changed rfl

theorem remove_changes (invariant : StoreInvariant store) {name : Bytes}
    (written : (remove store name).1 = true)
    (changed : lookup (remove store name).2 dn ≠ lookup store dn) :
    toLowerAscii name = toLowerAscii dn := by
  by_contra different
  rw [lookup_removed invariant written, if_neg different] at changed
  exact changed rfl

theorem rename_changes (invariant : StoreInvariant store) {source target : Bytes}
    (written : (rename store source target).1 = true)
    (changed : lookup (rename store source target).2 dn ≠ lookup store dn) :
    toLowerAscii source = toLowerAscii dn ∨ toLowerAscii target = toLowerAscii dn := by
  rcases rename_cases invariant source target with
    ⟨key, entry, _, _, found, _, different, _, _⟩ | ⟨_, _, effect⟩ | ⟨_, effect⟩
  · by_contra neither
    push Not at neither
    rw [lookup_renamed invariant found different written, if_neg neither.2,
      if_neg neither.1] at changed
    exact changed rfl
  · rw [effect] at changed
    exact absurd rfl changed
  · rw [effect] at changed
    exact absurd rfl changed

theorem replace_password_frame (old : DirectoryEntry) (hashed name : Bytes)
    (other : iequals name (text "userPassword") = false) :
    (Modify.applyModifications old
      [{ op := .replace, type := text "userPassword", values := [hashed] }]).2.attributes.get? name =
        old.attributes.get? name := by
  have named : text "userPassword" ≠ [] := by decide
  have kept {key : Bytes} (same : toLowerAscii key = toLowerAscii (text "userPassword")) :
      (old.attributes.insert key [hashed]).get? name = old.attributes.get? name := by
    have apart : key ≠ name := by
      intro equal
      rw [← equal, ← Bool.not_eq_true, iequals_iff] at other
      exact other same
    rw [OrderedMap.get_insert, if_neg apart.symm]
  simp only [Modify.applyModifications, Modify.applyModification, if_neg named]
  cases located : old.attributes.findBy toLowerAscii (text "userPassword") with
  | none => simpa using kept rfl
  | some pair => simpa using kept (OrderedMap.findBy_some toLowerAscii located).2

end Frames

variable (server : Server) (context : RequestContext) (session : SessionState)
variable {store : MemoryStore}

theorem outcome_is_mediated (invariant : StoreInvariant store) {request : LdapMessage}
    {code : ResultCode} {after : MemoryStore}
    (outcome : WriteOutcome server session store request code after) {dn : Bytes}
    (changed : lookup after dn ≠ lookup store dn) :
    Allowed server session store dn ∨
      (session.bound = true ∧ IsPasswordModify request ∧ dnEquals dn session.bindDn = true ∧
        DifferOnlyInPassword (lookup store dn) (lookup after dn)) := by
  cases outcome with
  | refused => exact absurd rfl changed
  | added entry allowed placed written =>
      exact Or.inl (allowed.congr (add_changes written changed))
  | modified entry allowed written =>
      exact Or.inl (allowed.congr (modify_changes invariant written changed))
  | removed name allowed childless written =>
      exact Or.inl (allowed.congr (remove_changes invariant written changed))
  | renamed old entry isRename found sameDn accepted written moved =>
      left
      by_cases early : lookup (modify store entry).2 dn = lookup store dn
      · rw [← early] at changed
        rcases rename_changes (exec_invariant invariant (.modify entry)) moved changed with
          source | target
        · exact accepted.source.congr source
        · exact accepted.target.congr target
      · have same := modify_changes invariant written early
        have ownDn := invariant.lookup_dn found
        rw [← sameDn, same] at ownDn
        exact accepted.source.congr ownDn.symm
  | passwordChanged old entry isPasswordModify target found hashed replaced permitted written =>
      have same := modify_changes invariant written changed
      have ownDn := invariant.lookup_dn found
      have sameDn : entry.dn = old.dn := by
        rw [replaced]
        exact (Modify.apply_modifications_frame old _).1
      rw [← sameDn, same] at ownDn
      rcases permitted.2 with allowed | self
      · exact Or.inl (allowed.congr ownDn.symm)
      · refine Or.inr ⟨permitted.1, isPasswordModify, ?_, old, entry, ?_, ?_, sameDn, ?_⟩
        · rw [dn_equals_iff] at self ⊢
          rw [ownDn, self]
        · rw [lookup_congr store ownDn, found]
        · rw [lookup_modified invariant written, if_pos same]
        · intro name other
          rw [replaced]
          exact replace_password_frame old hashed name other

/-- No request changes the lookup of a DN that its session may not write, except that a
session may change its own password. -/
theorem writes_are_mediated (reachable : Reachable store) (request : LdapMessage) (dn : Bytes)
    (changed : lookup store dn ≠
      lookup ((handleRequest server context session request).run exec store).2 dn) :
    session.bound = true ∧
      (((AccessControl.mayWrite server.config session.bindDn dn).run exec store).1 = true ∨
        (IsPasswordModify request ∧ dnEquals dn session.bindDn = true ∧
          DifferOnlyInPassword (lookup store dn)
            (lookup ((handleRequest server context session request).run exec store).2 dn))) := by
  rcases handle_request_outcome server context session reachable.invariant request with
    same | outcome
  · rw [same] at changed
    exact absurd rfl changed
  · rcases outcome_is_mediated server session reachable.invariant outcome changed.symm with
      ⟨bound, allowed⟩ | ⟨bound, own⟩
    · exact ⟨bound, Or.inl allowed⟩
    · exact ⟨bound, Or.inr own⟩

def person : SessionState :=
  { bound := true, bindDn := text "cn=a,ou=people,dc=example,dc=com" }

/-- A Password Modify request for the session's own entry. -/
def ownPasswordChange : LdapMessage :=
  { op := .extendedRequest, extendedOid := Message.kPasswordModifyOid
    extendedValue := Ber.writeConstructed Ber.kBerSequence
      (Ber.writeOctetStringAs Ber.kBerContext2 (text "secret")) }

theorem own_password_change_is_mediated :
    person.bound = true ∧
      (((AccessControl.mayWrite {} person.bindDn (text "cn=a,ou=people,dc=example,dc=com")).run exec
          smallDirectory).1 = true ∨
        (IsPasswordModify ownPasswordChange ∧
          dnEquals (text "cn=a,ou=people,dc=example,dc=com") person.bindDn = true ∧
          DifferOnlyInPassword (lookup smallDirectory (text "cn=a,ou=people,dc=example,dc=com"))
            (lookup ((handleRequest {} {} person ownPasswordChange).run exec smallDirectory).2
              (text "cn=a,ou=people,dc=example,dc=com")))) :=
  writes_are_mediated {} {} person small_directory_reachable ownPasswordChange
    (text "cn=a,ou=people,dc=example,dc=com") (by decide +kernel)

end SimpleLdapd.Session
