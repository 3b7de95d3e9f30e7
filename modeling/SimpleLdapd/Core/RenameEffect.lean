import SimpleLdapd.Backend.ValueSets
import SimpleLdapd.Core.AttributeNames

/-!
# What a ModifyDN request does

The old naming value goes, the new one comes, the entry is written back and then
moved. Either change of the naming values may be refused without stopping the
rename: the old value may be missing already and the new one may be there.
-/

namespace SimpleLdapd.Session

open Dn MemoryBackend

/-- No attribute of that type has the value, ignoring case. -/
def Lacks (entry : DirectoryEntry) (type value : Bytes) : Prop :=
  ∀ pair ∈ entry.attributes.entries, iequals pair.1 type = true →
    Modify.hasValue pair.2 value = false

/-- The name is not a spelling of the type of the RDN. -/
def NotNaming (rdn name : Bytes) : Prop :=
  ∀ type value, parseRdn rdn = some (type, value) → iequals name type = false

/-- The attributes of the moved entry, against those it had. -/
structure NamingMoved (change : ModifyDnRequestData) (old entry : DirectoryEntry) : Prop where
  gained : ∀ type value, parseRdn change.newRdn = some (type, value) →
    ∃ values, entry.findAttribute type = some values ∧ Modify.hasValue values value = true
  lost : change.deleteOldRdn = true → iequals (dnRdn change.dn) change.newRdn = false →
    ∀ type value, parseRdn (dnRdn change.dn) = some (type, value) → Lacks entry type value
  kept : ∀ name, NotNaming (dnRdn change.dn) name → NotNaming change.newRdn name →
    entry.attributes.get? name = old.attributes.get? name

/-- The store after a rename, against the one before. -/
structure EntryMoved (change : ModifyDnRequestData) (old : DirectoryEntry)
    (store after : MemoryStore) : Prop where
  arrived : ∃ entry, lookup after (newDn change) = some entry ∧ NamingMoved change old entry
  vacated : dnEquals change.dn (newDn change) = false → lookup after change.dn = none
  elsewhere : ∀ dn, dnEquals dn change.dn = false → dnEquals dn (newDn change) = false →
    lookup after dn = lookup store dn
  counted : after.entries.length = store.entries.length

section Values

variable {entry : DirectoryEntry} {type value : Bytes}

/-- Deleting a value from a duplicate-free list leaves no spelling of it. -/
theorem delete_value_absent {existing : List Bytes}
    (single : existing.Pairwise fun left right => ¬ iequals left right) (value : Bytes) :
    Modify.hasValue (Modify.deleteValues existing [value]).2 value = false := by
  simp only [Modify.deleteValues]
  split
  · rename_i stored
    have many := (Modify.duplicate_free_iff existing).mp single value
    have count := Modify.copies_erase stored value
    rw [if_pos ((iequals_iff value value).mpr rfl)] at count
    rw [← Modify.copies_eq_zero_iff]
    change Modify.copies value (existing.eraseP fun candidate => iequals candidate value) = 0
    omega
  · rename_i absent
    simpa using absent

theorem deleted_value_lacks (unique : EntryNamesUnique entry)
    (single : ∀ pair ∈ entry.attributes.entries,
      pair.2.Pairwise fun left right => ¬ iequals left right) (named : type ≠ []) :
    Lacks (Modify.applyModification entry { op := .delete, type, values := [value] }).2
      type value := by
  unfold Modify.applyModification
  rw [if_neg named]
  cases located : entry.attributes.findBy toLowerAscii type with
  | none =>
      intro pair member same
      have absent := (OrderedMap.findBy_eq_none_iff toLowerAscii _ _).mp located pair member
      exact absurd ((iequals_iff pair.1 type).mp same) absent
  | some found =>
      rcases found with ⟨name, existing⟩
      obtain ⟨stored, spelling⟩ := OrderedMap.findBy_some toLowerAscii located
      have gone := delete_value_absent (single (name, existing) stored) value
      -- no other attribute has a spelling of the type
      have other (pair : Bytes × List Bytes) (member : pair ∈ entry.attributes.entries)
          (different : pair.1 ≠ name) (same : iequals pair.1 type = true) : False := by
        have equal := ((iequals_iff pair.1 type).mp same).trans spelling.symm
        exact different (congrArg Prod.fst (unique.entry_eq member stored equal))
      have erased : Lacks { entry with attributes := entry.attributes.erase name } type value := by
        intro pair member same
        rcases (OrderedMap.mem_erase _ _ _).mp member with ⟨older, different⟩
        exact (other pair older different same).elim
      have written : Lacks
          { entry with
            attributes := entry.attributes.insert name (Modify.deleteValues existing [value]).2 }
          type value := by
        intro pair member same
        rcases (OrderedMap.mem_insert _ _ _ _).mp member with here | ⟨older, different⟩
        · rw [here]
          exact gone
        · exact (other pair older different same).elim
      simp only [List.cons_ne_nil, if_false]
      split
      · split
        · exact erased
        · exact written
      · exact written

/-- Adding another value brings no spelling of this one. -/
theorem added_value_lacks {newType newValue : Bytes} (lacks : Lacks entry type value)
    (other : iequals newType type = true → iequals newValue value = false) :
    Lacks (Modify.applyModification entry
      { op := .add, type := newType, values := [newValue] }).2 type value := by
  rcases Modify.apply_modification_cases entry
      { op := .add, type := newType, values := [newValue] } with
    same | ⟨_, _, same⟩ | ⟨name, existing, located, same | ⟨values, same, origin⟩⟩
  · rw [same]
    exact lacks
  · rw [same]
    intro pair member spelling
    rcases (OrderedMap.mem_insert _ _ _ _).mp member with here | ⟨older, _⟩
    · rw [here] at spelling ⊢
      simpa [Modify.hasValue] using other spelling
    · exact lacks pair older spelling
  · rw [same]
    intro pair member spelling
    exact lacks pair ((OrderedMap.mem_erase _ _ _).mp member).1 spelling
  · rw [same]
    obtain ⟨stored, sameName⟩ := OrderedMap.findBy_some toLowerAscii located
    intro pair member spelling
    rcases (OrderedMap.mem_insert _ _ _ _).mp member with here | ⟨older, _⟩
    · rw [here] at spelling ⊢
      have before := lacks (name, existing) stored spelling
      have sameType : iequals newType type = true := by
        rw [iequals_iff] at spelling ⊢
        exact sameName.symm.trans spelling
      simp only [Modify.hasValue, List.any_eq_false] at before ⊢
      intro held inside
      rcases origin held inside with old | ⟨_, new⟩
      · exact before held old
      · rw [List.mem_singleton.mp new, other sameType]
        exact Bool.false_ne_true
    · exact lacks pair older spelling

/-- After a value was added, or found to be there, the attribute has it in some spelling. -/
theorem added_value_found (named : type ≠ []) :
    Modify.FirstHas (Modify.applyModification entry
      { op := .add, type, values := [value] }).2.attributes type
        fun values => Modify.hasValue values value = true := by
  have itself : iequals value value = true := (iequals_iff value value).mpr rfl
  unfold Modify.applyModification
  rw [if_neg named]
  cases located : entry.attributes.findBy toLowerAscii type with
  | none =>
      apply (Modify.first_has_written (Modify.addressed_absent located) rfl _).mpr
      simp [Modify.hasValue, itself]
  | some pair =>
      apply (Modify.first_has_rewritten located _).mpr
      simp only [Modify.addValues]
      split
      · rename_i present
        exact present
      · simp [Modify.hasValue, itself]

end Values

/-- The naming value is among the values of its attribute after the rename. -/
theorem renamed_entry_gains {change : ModifyDnRequestData} {old entry : DirectoryEntry}
    (applied : renamedEntry change old = .ok entry) {type value : Bytes}
    (parsed : parseRdn change.newRdn = some (type, value)) :
    Modify.FirstHas entry.attributes type fun values => Modify.hasValue values value = true := by
  obtain ⟨removed, _, second⟩ := renamed_entry_ok applied
  rw [parsed] at second
  rcases change_rdn_ok second with ⟨absent, _⟩ | ⟨newType, newValue, same, added, _⟩
  · cases absent
  · cases same
    rw [added]
    exact added_value_found (parse_rdn_some parsed).2.1

/-- The two changes of the naming values, whichever of them is tolerated. -/
theorem renamed_entry_moves {change : ModifyDnRequestData} {old entry : DirectoryEntry}
    (unique : EntryNamesUnique old)
    (single : ∀ pair ∈ old.attributes.entries,
      pair.2.Pairwise fun left right => ¬ iequals left right)
    (applied : renamedEntry change old = .ok entry) : NamingMoved change old entry := by
  obtain ⟨removed, first, second⟩ := renamed_entry_ok applied
  refine ⟨?_, ?_, ?_⟩
  · intro type value parsed
    rcases renamed_entry_gains applied parsed with ⟨pair, found, held⟩
    refine ⟨pair.2, ?_, held⟩
    rw [DirectoryEntry.findAttribute, found]
    rfl
  · intro deletes different type value parsed
    rw [if_pos deletes, parsed] at first
    have lacks : Lacks removed type value := by
      rcases change_rdn_ok first with ⟨absent, _⟩ | ⟨oldType, oldValue, same, deleted, _⟩
      · cases absent
      · cases same
        rw [deleted]
        exact deleted_value_lacks unique single (parse_rdn_some parsed).2.1
    rcases change_rdn_ok second with ⟨_, same⟩ | ⟨newType, newValue, newParsed, added, _⟩
    · rw [same]
      exact lacks
    · rw [added]
      apply added_value_lacks lacks
      -- equal types and values would make equal RDNs
      intro sameType
      rw [← Bool.not_eq_true] at different ⊢
      intro sameValue
      apply different
      rw [iequals_iff] at sameType sameValue ⊢
      rw [(parse_rdn_some parsed).1, (parse_rdn_some newParsed).1]
      simp only [toLowerAscii, List.map_append, List.map_cons] at sameType sameValue ⊢
      rw [sameType, sameValue]
  · intro name notOld notNew
    have elsewhere {rdn : Bytes} (other : NotNaming rdn name) {type value : Bytes}
        (parsed : parseRdn rdn = some (type, value)) : toLowerAscii name ≠ toLowerAscii type := by
      have unequal := other type value parsed
      rw [← Bool.not_eq_true, iequals_iff] at unequal
      exact unequal
    have middle : removed.attributes.get? name = old.attributes.get? name := by
      rcases change_rdn_ok first with ⟨_, same⟩ | ⟨type, value, parsed, deleted, _⟩
      · rw [same]
      · split at parsed
        · rw [deleted]
          exact Modify.apply_modification_elsewhere _ _ (elsewhere notOld parsed)
        · cases parsed
    rw [← middle]
    rcases change_rdn_ok second with ⟨_, same⟩ | ⟨type, value, parsed, added, _⟩
    · rw [same]
    · rw [added]
      exact Modify.apply_modification_elsewhere _ _ (elsewhere notNew parsed)

theorem NamingMoved.of_attributes {change : ModifyDnRequestData} {old entry stored : DirectoryEntry}
    (moves : NamingMoved change old entry) (same : stored.attributes = entry.attributes) :
    NamingMoved change old stored := by
  cases stored
  cases entry
  cases same
  exact ⟨moves.gained, moves.lost, moves.kept⟩

/-- The entry is written back and moved: what a lookup of any DN but the new one finds. -/
theorem RenameAccepted.lookups {server : Server} {session : SessionState}
    {store : MemoryStore} {change : ModifyDnRequestData}
    (accepted : RenameAccepted server session store change) (invariant : StoreInvariant store)
    {old entry : DirectoryEntry} (found : lookup store change.dn = some old)
    (applied : renamedEntry change old = .ok entry) (dn : Bytes)
    (notTarget : toLowerAscii (newDn change) ≠ toLowerAscii dn) :
    lookup (rename (modify store entry).2 change.dn (newDn change)).2 dn =
      if toLowerAscii change.dn = toLowerAscii dn then none else lookup store dn := by
  obtain ⟨written, moved⟩ := accepted.moved invariant found applied
  have kept : StoreInvariant (modify store entry).2 := exec_invariant invariant (.modify entry)
  have same : toLowerAscii entry.dn = toLowerAscii change.dn := by
    rw [renamed_entry_frame applied]
    exact invariant.lookup_dn found
  have rewritten := lookup_modified invariant written
  rw [same] at rewritten
  have still := rewritten change.dn
  rw [if_pos rfl] at still
  by_cases respelled : toLowerAscii change.dn = toLowerAscii (newDn change)
  · rw [rename_respelled kept respelled, rewritten, respelled, if_neg notTarget, if_neg notTarget]
  · rw [lookup_renamed kept still respelled moved, if_neg notTarget]
    split
    · rfl
    · rename_i notSource
      rw [rewritten, if_neg notSource]

/-- A ModifyDN request answered success moves the entry, its naming values with it, and
leaves everything else as it was. -/
theorem modify_dn_moves_entry (server : Server) (session : SessionState) {store : MemoryStore}
    (reachable : Reachable store) (request : LdapMessage) {old : DirectoryEntry}
    (target : lookup store request.modifyDn.dn = some old) (unique : EntryNamesUnique old)
    (single : ∀ pair ∈ old.attributes.entries,
      pair.2.Pairwise fun left right => ¬ iequals left right)
    (answered : ((handleModifyDn server session request).run exec store).1.result = .success) :
    EntryMoved request.modifyDn old store
      ((handleModifyDn server session request).run exec store).2 := by
  have invariant := reachable.invariant
  have settled : Program.Ensures exec (handleModifyDn server session request) store _ :=
    handle_modify_dn_settles server session invariant request
  rcases settled with ⟨_, accepted, found, entry, located, applied, same⟩ | ⟨_, refusal, _⟩
  · rw [target] at located
    cases located
    have apart {left right : Bytes} (unequal : dnEquals left right = false) :
        toLowerAscii left ≠ toLowerAscii right := by
      rw [← Bool.not_eq_true, dn_equals_iff] at unequal
      exact unequal
    rw [same]
    refine ⟨?_, ?_, ?_, ?_⟩
    · obtain ⟨stored, arrived, attributes⟩ := accepted.stored invariant target applied
      have moves := renamed_entry_moves unique single applied
      exact ⟨stored, arrived, moves.of_attributes attributes⟩
    · intro different
      rw [accepted.lookups invariant target applied _ (apart different).symm, if_pos rfl]
    · intro dn notSource notTarget
      rw [accepted.lookups invariant target applied _ (apart notTarget).symm,
        if_neg (apart notSource).symm]
    · have kept : StoreInvariant (modify store entry).2 :=
        exec_invariant invariant (.modify entry)
      rw [length_renamed kept, length_modified]
  · exact absurd answered refusal.1

/-- A rename of `cn=a`, spelled in capitals, to `cn=b` that drops the old value. -/
def renameToB : LdapMessage :=
  { op := .modifyDnRequest
    modifyDn := { dn := text "CN=A,ou=people,dc=example,dc=com", newRdn := text "cn=b"
                  deleteOldRdn := true } }

theorem rename_to_b_moves :
    ∃ old, lookup smallDirectory renameToB.modifyDn.dn = some old ∧
      EntryMoved renameToB.modifyDn old smallDirectory
        ((handleModifyDn {} administrator renameToB).run exec smallDirectory).2 := by
  have found : lookup smallDirectory renameToB.modifyDn.dn =
      some { dn := text "cn=a,ou=people,dc=example,dc=com"
             attributes := OrderedMap.empty.insert (text "cn") [text "a"] } := by
    decide +kernel
  exact ⟨_, found, modify_dn_moves_entry {} administrator small_directory_reachable renameToB found
    ((entry_names_unique_iff _).mpr (by decide +kernel)) (by decide +kernel) (by decide +kernel)⟩

end SimpleLdapd.Session
