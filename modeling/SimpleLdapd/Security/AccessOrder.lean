import SimpleLdapd.Backend.Sqlite
import SimpleLdapd.Security.Acl

/-!
# The order of access decisions

On a store that is only read, a decision is a question about the rules as a set:
some rule names the caller, covers the entry and grants the access. The order of
the two accesses, inheritance along the tree and the laws of the rule list all
follow from that reading. What the store contributes is that its lookups find an
entry under every spelling of its DN.
-/

namespace SimpleLdapd.AccessControl

open Dn

section Targets

theorem covers_iff (rule : AclRule) (entryDn : Bytes) :
    covers rule entryDn = true ↔ rule.target = [] ∨ dnEndsWith entryDn rule.target = true := by
  by_cases whole : rule.target = []
  · simp [covers, whole]
  · have suffix := dn_ends_with_iff entryDn whole
    simp only [covers, whole, decide_false, Bool.false_or, Bool.or_eq_true, false_or,
      dn_equals_iff]
    constructor
    · rintro (same | ends)
      · exact suffix.mpr (Or.inl same)
      · exact ends
    · exact Or.inr

theorem covers_below (rule : AclRule) {entryDn below : Bytes} (nonempty : entryDn ≠ [])
    (under : dnEndsWith below entryDn = true) (covered : covers rule entryDn = true) :
    covers rule below = true := by
  rw [covers_iff] at covered ⊢
  rcases covered with whole | ends
  · exact Or.inl whole
  · exact Or.inr (dn_ends_with_trans nonempty under ends)

theorem grants_search (rule : AclRule) : grants rule false = true := rfl

end Targets

section Callers

theorem has_value_congr (entry : DirectoryEntry) (name : Bytes) (asDn : Bool)
    {value other : Bytes} (same : toLowerAscii value = toLowerAscii other) :
    hasValue entry name value asDn = hasValue entry name other asDn := by
  unfold hasValue
  simp only [dnEquals, iequals, same]

theorem is_root_congr (config : LdapConfig) {bindDn other : Bytes}
    (same : toLowerAscii bindDn = toLowerAscii other) :
    isRoot config bindDn = isRoot config other := by
  have empty : bindDn = [] ↔ other = [] := by
    rw [← to_lower_eq_nil bindDn, same, to_lower_eq_nil]
  unfold isRoot
  simp only [dnEquals, iequals, same, ne_eq, empty]

/-- The RDN of a respelled name yields the same `uid` up to case. -/
theorem user_uid_to_lower (user : Option DirectoryEntry) (bindDn : Bytes) :
    toLowerAscii (userUid user (toLowerAscii bindDn)) = toLowerAscii (userUid user bindDn) := by
  unfold userUid
  extract_lets stored
  split
  · rfl
  · rw [dn_rdn_to_lower, parse_rdn_to_lower]
    cases parseRdn (dnRdn bindDn) with
    | none => rfl
    | some pair =>
        have typed : iequals (toLowerAscii pair.1) (text "uid") = iequals pair.1 (text "uid") := by
          simp only [iequals, to_lower_idempotent]
        simp only [Option.map_some, Prod.map, typed]
        split
        · exact to_lower_idempotent pair.2
        · rfl

theorem user_uid_congr (user : Option DirectoryEntry) {bindDn other : Bytes}
    (same : toLowerAscii bindDn = toLowerAscii other) :
    toLowerAscii (userUid user bindDn) = toLowerAscii (userUid user other) := by
  rw [← user_uid_to_lower user bindDn, same, user_uid_to_lower]

end Callers

section Decisions

variable {State : Type} (exec : (call : BackendCall) → State → call.Answer × State)
variable (store : State)

/-- The answer of a decision on a store nobody else writes to. -/
def decides (decision : BackendProgram Bool) : Bool := (decision.run exec store).1

/-- Reading leaves the store as it is, and a lookup finds an entry under every
spelling of its DN. -/
structure ReadsCaseless : Prop where
  keeps : ∀ call, call.Reads → ∀ reached : State, (exec call reached).2 = reached
  respelled : ∀ dn other, toLowerAscii dn = toLowerAscii other →
    (exec (.lookup dn) store).1 = (exec (.lookup other) store).1

variable {exec store}

theorem ReadsCaseless.run_keeps (reads : ReadsCaseless exec store) {Value : Type}
    {program : BackendProgram Value} (issued : program.Issues BackendCall.Reads) :
    (program.run exec store).2 = store :=
  Program.run_state_of_issues (fun call reached allowed => reads.keeps call allowed reached)
    issued store

theorem ReadsCaseless.in_group_congr (reads : ReadsCaseless exec store) {bindDn other : Bytes}
    (same : toLowerAscii bindDn = toLowerAscii other) (groupDn : Bytes) :
    decides exec store (inGroup bindDn groupDn) = decides exec store (inGroup other groupDn) := by
  have empty : bindDn = [] ↔ other = [] := by
    rw [← to_lower_eq_nil bindDn, same, to_lower_eq_nil]
  have kept : ∀ dn, (exec (.lookup dn) store).2 = store := fun dn =>
    reads.keeps (.lookup dn) trivial store
  unfold decides inGroup
  simp only [empty]
  split
  · rfl
  · simp only [Backend.lookup, Program.run_bind, Program.run_perform, kept]
    cases (exec (.lookup groupDn) store).1 with
    | none => rfl
    | some group =>
        simp only [has_value_congr group _ _ same]
        split
        · rfl
        · simp only [Program.run_bind, Program.run_perform, kept, reads.respelled _ _ same]
          have answered : ∃ user : Option DirectoryEntry,
              (exec (.lookup other) store).1 = user := ⟨_, rfl⟩
          obtain ⟨user, found⟩ := answered
          have uids := user_uid_congr user same
          have absent : userUid user bindDn = [] ↔ userUid user other = [] := by
            rw [← to_lower_eq_nil (userUid user bindDn), uids, to_lower_eq_nil]
          simp only [found, has_value_congr group _ _ uids, ne_eq, absent]

theorem ReadsCaseless.who_matches_congr (reads : ReadsCaseless exec store) (rule : AclRule)
    {bindDn other : Bytes} (same : toLowerAscii bindDn = toLowerAscii other) :
    decides exec store (whoMatches rule bindDn) = decides exec store (whoMatches rule other) := by
  have empty : bindDn = [] ↔ other = [] := by
    rw [← to_lower_eq_nil bindDn, same, to_lower_eq_nil]
  unfold whoMatches
  split
  · rfl
  · simp only [empty]
  · simp only [ne_eq, empty]
  · simp only [dnEquals, iequals, same]
  · exact reads.in_group_congr same rule.whoValue

/-- The loop over the rules asks whether some rule allows the access. -/
theorem ReadsCaseless.any_rule_iff (reads : ReadsCaseless exec store) (write : Bool)
    (bindDn entryDn : Bytes) (rules : List AclRule) :
    decides exec store (anyRule write bindDn entryDn rules) = true ↔
      ∃ rule ∈ rules, decides exec store (whoMatches rule bindDn) = true ∧
        covers rule entryDn = true ∧ grants rule write = true := by
  induction rules with
  | nil => simp [decides, anyRule]
  | cons rule rest ih =>
      have kept := reads.run_keeps (who_matches_read_only rule bindDn)
      rw [List.exists_mem_cons_iff, ← ih]
      simp only [decides, anyRule, Program.run_bind, kept]
      split
      · rename_i allowed
        simp only [Bool.and_eq_true] at allowed
        simp [allowed]
      · rename_i refused
        simp only [Bool.and_eq_true, and_assoc] at refused
        simp [refused]

theorem ReadsCaseless.may_search_iff (reads : ReadsCaseless exec store) (config : LdapConfig)
    (bindDn entryDn : Bytes) :
    decides exec store (maySearch config bindDn entryDn) = true ↔
      entryDn = [] ∨ isRoot config bindDn = true ∨ config.acls = [] ∨
        ∃ rule ∈ config.acls, decides exec store (whoMatches rule bindDn) = true ∧
          covers rule entryDn = true := by
  have rules := reads.any_rule_iff false bindDn entryDn config.acls
  simp only [grants_search, and_true] at rules
  unfold maySearch
  split
  · rename_i always
    simp only [Bool.or_eq_true, decide_eq_true_eq] at always
    simp only [decides, Program.run_pure, true_iff]
    rcases always with empty | root
    · exact Or.inl empty
    · exact Or.inr (Or.inl root)
  · rename_i ruled
    simp only [Bool.or_eq_true, decide_eq_true_eq, not_or] at ruled
    split
    · rename_i unruled
      simp [decides, unruled]
    · rename_i configured
      rw [rules]
      simp [ruled.1, ruled.2, configured]

theorem ReadsCaseless.may_write_iff (reads : ReadsCaseless exec store) (config : LdapConfig)
    (bindDn entryDn : Bytes) :
    decides exec store (mayWrite config bindDn entryDn) = true ↔
      isRoot config bindDn = true ∨
        ∃ rule ∈ config.acls, decides exec store (whoMatches rule bindDn) = true ∧
          covers rule entryDn = true ∧ grants rule true = true := by
  unfold mayWrite
  split
  · rename_i root
    simp [decides, root]
  · rename_i ordinary
    split
    · rename_i unruled
      simp [decides, ordinary, unruled]
    · rw [reads.any_rule_iff]
      simp [ordinary]

end Decisions

section Consistency

/-- The laws of the decisions on one store, for every configuration and caller. -/
structure ConsistentOrder {State : Type}
    (exec : (call : BackendCall) → State → call.Answer × State) (store : State) : Prop where
  writeIncludesSearch : ∀ (config : LdapConfig) (bindDn entryDn : Bytes),
    decides exec store (mayWrite config bindDn entryDn) = true →
      decides exec store (maySearch config bindDn entryDn) = true
  writeInherited : ∀ (config : LdapConfig) (bindDn entryDn below : Bytes), entryDn ≠ [] →
    dnEndsWith below entryDn = true →
      decides exec store (mayWrite config bindDn entryDn) = true →
        decides exec store (mayWrite config bindDn below) = true
  searchInherited : ∀ (config : LdapConfig) (bindDn entryDn below : Bytes), entryDn ≠ [] →
    dnEndsWith below entryDn = true →
      decides exec store (maySearch config bindDn entryDn) = true →
        decides exec store (maySearch config bindDn below) = true
  /-- Two lists of the same rules, in any order and with any repetitions. -/
  rulesAsSet : ∀ (config : LdapConfig) (rules : List AclRule) (bindDn entryDn : Bytes),
    (∀ rule, rule ∈ rules ↔ rule ∈ config.acls) →
      decides exec store (mayWrite { config with acls := rules } bindDn entryDn) =
          decides exec store (mayWrite config bindDn entryDn) ∧
        decides exec store (maySearch { config with acls := rules } bindDn entryDn) =
          decides exec store (maySearch config bindDn entryDn)
  callerSpelling : ∀ (config : LdapConfig) (bindDn other entryDn : Bytes),
    toLowerAscii bindDn = toLowerAscii other →
      decides exec store (mayWrite config bindDn entryDn) =
          decides exec store (mayWrite config other entryDn) ∧
        decides exec store (maySearch config bindDn entryDn) =
          decides exec store (maySearch config other entryDn)
  entrySpelling : ∀ (config : LdapConfig) (bindDn entryDn other : Bytes),
    toLowerAscii entryDn = toLowerAscii other →
      decides exec store (mayWrite config bindDn entryDn) =
          decides exec store (mayWrite config bindDn other) ∧
        decides exec store (maySearch config bindDn entryDn) =
          decides exec store (maySearch config bindDn other)
  ruleAdded : ∀ (config : LdapConfig) (before after : List AclRule) (rule : AclRule)
    (bindDn entryDn : Bytes), config.acls = before ++ after → config.acls ≠ [] →
      (decides exec store (mayWrite config bindDn entryDn) = true →
          decides exec store
            (mayWrite { config with acls := before ++ rule :: after } bindDn entryDn) = true) ∧
        (decides exec store (maySearch config bindDn entryDn) = true →
          decides exec store
            (maySearch { config with acls := before ++ rule :: after } bindDn entryDn) = true)

variable {State : Type} {exec : (call : BackendCall) → State → call.Answer × State}
variable {store : State}

theorem ReadsCaseless.write_includes_search (reads : ReadsCaseless exec store)
    (config : LdapConfig) (bindDn entryDn : Bytes)
    (writes : decides exec store (mayWrite config bindDn entryDn) = true) :
    decides exec store (maySearch config bindDn entryDn) = true := by
  rw [reads.may_write_iff] at writes
  rw [reads.may_search_iff]
  rcases writes with root | ⟨rule, listed, matched, covered, _⟩
  · exact Or.inr (Or.inl root)
  · exact Or.inr (Or.inr (Or.inr ⟨rule, listed, matched, covered⟩))

theorem ReadsCaseless.write_inherited (reads : ReadsCaseless exec store) (config : LdapConfig)
    (bindDn : Bytes) {entryDn below : Bytes} (nonempty : entryDn ≠ [])
    (under : dnEndsWith below entryDn = true)
    (writes : decides exec store (mayWrite config bindDn entryDn) = true) :
    decides exec store (mayWrite config bindDn below) = true := by
  rw [reads.may_write_iff] at writes ⊢
  rcases writes with root | ⟨rule, listed, matched, covered, granted⟩
  · exact Or.inl root
  · exact Or.inr ⟨rule, listed, matched, covers_below rule nonempty under covered, granted⟩

theorem ReadsCaseless.search_inherited (reads : ReadsCaseless exec store) (config : LdapConfig)
    (bindDn : Bytes) {entryDn below : Bytes} (nonempty : entryDn ≠ [])
    (under : dnEndsWith below entryDn = true)
    (searches : decides exec store (maySearch config bindDn entryDn) = true) :
    decides exec store (maySearch config bindDn below) = true := by
  rw [reads.may_search_iff] at searches ⊢
  rcases searches with empty | root | unruled | ⟨rule, listed, matched, covered⟩
  · exact absurd empty nonempty
  · exact Or.inr (Or.inl root)
  · exact Or.inr (Or.inr (Or.inl unruled))
  · exact Or.inr (Or.inr (Or.inr
      ⟨rule, listed, matched, covers_below rule nonempty under covered⟩))

/-- More rules allow more, as long as the smaller list is not the empty default. -/
theorem ReadsCaseless.write_mono (reads : ReadsCaseless exec store) (config : LdapConfig)
    {rules : List AclRule} (more : config.acls ⊆ rules) {bindDn entryDn : Bytes}
    (writes : decides exec store (mayWrite config bindDn entryDn) = true) :
    decides exec store (mayWrite { config with acls := rules } bindDn entryDn) = true := by
  rw [reads.may_write_iff] at writes ⊢
  rcases writes with root | ⟨rule, listed, allowed⟩
  · exact Or.inl root
  · exact Or.inr ⟨rule, more listed, allowed⟩

theorem ReadsCaseless.search_mono (reads : ReadsCaseless exec store) (config : LdapConfig)
    {rules : List AclRule} (more : config.acls ⊆ rules)
    (configured : config.acls = [] → rules = []) {bindDn entryDn : Bytes}
    (searches : decides exec store (maySearch config bindDn entryDn) = true) :
    decides exec store (maySearch { config with acls := rules } bindDn entryDn) = true := by
  rw [reads.may_search_iff] at searches ⊢
  rcases searches with empty | root | unruled | ⟨rule, listed, allowed⟩
  · exact Or.inl empty
  · exact Or.inr (Or.inl root)
  · exact Or.inr (Or.inr (Or.inl (configured unruled)))
  · exact Or.inr (Or.inr (Or.inr ⟨rule, more listed, allowed⟩))

theorem ReadsCaseless.rules_as_set (reads : ReadsCaseless exec store) (config : LdapConfig)
    {rules : List AclRule} (bindDn entryDn : Bytes)
    (same : ∀ rule, rule ∈ rules ↔ rule ∈ config.acls) :
    decides exec store (mayWrite { config with acls := rules } bindDn entryDn) =
        decides exec store (mayWrite config bindDn entryDn) ∧
      decides exec store (maySearch { config with acls := rules } bindDn entryDn) =
        decides exec store (maySearch config bindDn entryDn) := by
  have unruled : rules = [] ↔ config.acls = [] := by
    simp only [List.eq_nil_iff_forall_not_mem, same]
  constructor
  · rw [Bool.eq_iff_iff, reads.may_write_iff, reads.may_write_iff]
    simp only [same]
    rfl
  · rw [Bool.eq_iff_iff, reads.may_search_iff, reads.may_search_iff]
    simp only [same, unruled]
    rfl

theorem ReadsCaseless.caller_spelling (reads : ReadsCaseless exec store) (config : LdapConfig)
    {bindDn other : Bytes} (entryDn : Bytes) (same : toLowerAscii bindDn = toLowerAscii other) :
    decides exec store (mayWrite config bindDn entryDn) =
        decides exec store (mayWrite config other entryDn) ∧
      decides exec store (maySearch config bindDn entryDn) =
        decides exec store (maySearch config other entryDn) := by
  constructor
  · rw [Bool.eq_iff_iff, reads.may_write_iff, reads.may_write_iff]
    simp only [is_root_congr config same, reads.who_matches_congr _ same]
  · rw [Bool.eq_iff_iff, reads.may_search_iff, reads.may_search_iff]
    simp only [is_root_congr config same, reads.who_matches_congr _ same]

theorem ReadsCaseless.consistent (reads : ReadsCaseless exec store) :
    ConsistentOrder exec store where
  writeIncludesSearch := reads.write_includes_search
  writeInherited := fun config bindDn _ _ => reads.write_inherited config bindDn
  searchInherited := fun config bindDn _ _ => reads.search_inherited config bindDn
  rulesAsSet := fun config _ => reads.rules_as_set config
  callerSpelling := fun config _ _ entryDn => reads.caller_spelling config entryDn
  entrySpelling := fun config bindDn _ _ same =>
    ⟨congrArg _ (may_write_congr config bindDn same),
      congrArg _ (may_search_congr config bindDn same)⟩
  ruleAdded := by
    intro config before after rule bindDn entryDn split configured
    have more : config.acls ⊆ before ++ rule :: after := by
      rw [split]
      exact List.append_subset.mpr
        ⟨List.subset_append_left _ _, fun _ later => by simp [later]⟩
    exact ⟨reads.write_mono config more,
      reads.search_mono config more fun unruled => absurd unruled configured⟩

end Consistency

section Stores

theorem memory_reads_caseless (store : MemoryStore) :
    ReadsCaseless MemoryBackend.exec store where
  keeps := fun _ reads reached => MemoryBackend.exec_read_only reads.readOnly reached
  respelled := fun _ _ same => MemoryBackend.lookup_congr store same

theorem sqlite_reads_caseless (db : SqliteBackend.Database) :
    ReadsCaseless SqliteBackend.exec db where
  keeps := by
    intro call reads reached
    cases call <;> first | rfl | exact absurd reads id
  respelled := by
    intro dn other same
    simp only [SqliteBackend.exec, SqliteBackend.lookup, SqliteBackend.storedDn, same]

/-- The decisions form a consistent order on every store of either backend. -/
theorem access_decisions_consistent :
    (∀ store : MemoryStore, ConsistentOrder MemoryBackend.exec store) ∧
      ∀ db : SqliteBackend.Database, ConsistentOrder SqliteBackend.exec db :=
  ⟨fun store => (memory_reads_caseless store).consistent,
    fun db => (sqlite_reads_caseless db).consistent⟩

end Stores

end SimpleLdapd.AccessControl
