import SimpleLdapd.Backend.SeededRows

/-!
# The two LDIF seed paths (`LdifBackend::initialize`, `SqliteBackend::initialize`)

The file backend keeps the first record of each DN and takes every `name: value`
line for an attribute. The seed of the SQLite backend knows `version:`, change
records and keywords, and keeps every content record. Where the two agree on
which lines open a record, they agree on the directory exactly when the first
record of each DN is plain content and all others are change records.
-/

namespace SimpleLdapd.SqliteBackend

open Dn LineMark Ldif StableSort
open LdifBackend (newline getLines trimInPlace)

/-- The entries after `LdifBackend::initialize` on a file. -/
def ldifDirectory (content : Bytes) : List DirectoryEntry :=
  (LdifBackend.importFile OrderedMap.empty content).entries.map Prod.snd

/-- The entries after `SqliteBackend::initialize` on an empty database and a seed file. -/
def seededDirectory (content : Bytes) : List DirectoryEntry :=
  allEntries (initializeDatabase {} (some content)).2

def SeedsAgree (content : Bytes) : Prop :=
  ∀ entry, entry ∈ ldifDirectory content ↔ entry ∈ seededDirectory content

instance (content : Bytes) : Decidable (SeedsAgree content) :=
  decidable_of_iff
    ((∀ entry ∈ ldifDirectory content, entry ∈ seededDirectory content) ∧
      ∀ entry ∈ seededDirectory content, entry ∈ ldifDirectory content)
    ⟨fun same entry => ⟨same.1 entry, same.2 entry⟩,
      fun same => ⟨fun entry => (same entry).mp, fun entry => (same entry).mpr⟩⟩

section Lines

/-- A name that `parseLdifText` gives no meaning of its own. -/
structure Ordinary (name : Bytes) : Prop where
  dn : iequals name (text "dn") = false
  changetype : iequals name (text "changetype") = false
  newrdn : iequals name (text "newrdn") = false
  deleteoldrdn : iequals name (text "deleteoldrdn") = false
  newsuperior : iequals name (text "newsuperior") = false
  change : (iequals name (text "add") || iequals name (text "delete") ||
    iequals name (text "replace")) = false

theorem field_of_cases (name value : Bytes) :
    (Ordinary name ∧ fieldOf name value = .value name value) ∨
      (¬ Ordinary name ∧ ∀ other text, fieldOf name value ≠ .value other text) := by
  by_cases ordinary : Ordinary name
  · left
    refine ⟨ordinary, ?_⟩
    rcases ordinary with ⟨dn, changetype, newrdn, deleteoldrdn, newsuperior, change⟩
    simp only [fieldOf, dn, changetype, newrdn, deleteoldrdn, newsuperior, change,
      Bool.false_eq_true, if_false]
  · right
    refine ⟨ordinary, ?_⟩
    intro other text found
    apply ordinary
    unfold fieldOf at found
    split_ifs at found with dn changetype newrdn deleteoldrdn newsuperior change
    simp only [Bool.not_eq_true] at dn changetype newrdn deleteoldrdn newsuperior change
    exact ⟨dn, changetype, newrdn, deleteoldrdn, newsuperior, change⟩

/-- A line that is no `name: value` line to the parser, or one that the file backend also
splits, unless it starts a record there. -/
theorem line_of_cases (raw : Bytes) :
    lineOf raw = .blank ∨ lineOf raw = .skipped ∨ lineOf raw = .separator ∨
      ∃ name value, lineOf raw = fieldOf name value ∧
        (iequals name (text "dn") = false → LdifBackend.valueOf raw = some (name, value)) := by
  unfold lineOf LdifBackend.valueOf
  simp only
  by_cases blank : trimInPlace raw = []
  · exact Or.inl (by simp only [blank, if_true])
  by_cases comment : (trimInPlace raw).head? = some (chr '#')
  · exact Or.inr (Or.inl (by simp only [blank, comment, if_true, if_false]))
  by_cases version : iequals ((trimInPlace raw).take 8) (text "version:") = true
  · exact Or.inr (Or.inl (by simp only [blank, comment, version, if_true, if_false]))
  simp only [blank, comment, version, if_false]
  cases found : findByte (chr ':') (trimInPlace raw) with
  | none =>
      by_cases dash : trimInPlace raw = text "-"
      · exact Or.inr (Or.inr (Or.inl (by simp [dash])))
      · exact Or.inr (Or.inl (by simp [dash]))
  | some colon =>
      right; right; right
      refine ⟨_, _, rfl, ?_⟩
      intro other
      rcases find_byte_some found with ⟨before, after, split, position, noColon⟩
      have inFront : (trimInPlace raw).take colon = before := by
        rw [split, ← position]
        simp
      have noHeader : ¬ (text "dn:").isPrefixOf (trimInPlace raw) = true := by
        rw [split, LdifBackend.dn_prefix_iff noColon]
        intro header
        rw [inFront, header] at other
        revert other
        decide +kernel
      simp [noHeader]

/-- What the parser takes for a value, the file backend takes for the same one. -/
theorem value_of_agrees {raw : Bytes} {pair : Bytes × Bytes}
    (found : Ldif.valueOf raw = some pair) :
    LdifBackend.valueOf raw = some pair ∧ Ordinary pair.1 := by
  unfold Ldif.valueOf at found
  rcases line_of_cases raw with shape | shape | shape | ⟨name, value, shape, split⟩
  · simp [shape] at found
  · simp [shape] at found
  · simp [shape] at found
  · rw [shape] at found
    rcases field_of_cases name value with ⟨ordinary, field⟩ | ⟨_, other⟩
    · rw [field] at found
      cases found
      exact ⟨split ordinary.dn, ordinary⟩
    · split at found
      · rename_i other' value' field
        exact absurd field (other _ _)
      · cases found

/-- What the parser takes for a setting, the file backend takes for an attribute of that
name. -/
theorem setting_of_agrees {raw : Bytes} {keyword : LdifKeyword} {value : Bytes}
    (found : settingOf keyword raw = some value) :
    ∃ pair, LdifBackend.valueOf raw = some pair ∧ ¬ Ordinary pair.1 := by
  unfold settingOf at found
  rcases line_of_cases raw with shape | shape | shape | ⟨name, text, shape, split⟩
  · simp [shape] at found
  · simp [shape] at found
  · simp [shape] at found
  · rw [shape] at found
    rcases field_of_cases name text with ⟨_, field⟩ | ⟨special, other⟩
    · rw [field] at found
      cases found
    · refine ⟨(name, text), split ?_, special⟩
      rw [← Bool.not_eq_true]
      intro dn
      rw [fieldOf, if_pos dn] at found
      cases found

end Lines

section FileBackend

open LdifBackend (addAll)

/-- Among entries with a DN, the store keeps the first of each DN. -/
theorem lookup_add_all {entries : List DirectoryEntry} (named : ∀ entry ∈ entries, entry.dn ≠ [])
    (dn : Bytes) :
    MemoryBackend.lookup (addAll OrderedMap.empty entries) dn =
      entries.find? fun entry => toLowerAscii entry.dn = toLowerAscii dn := by
  induction entries using List.reverseRecOn with
  | nil => rfl
  | append_singleton entries entry ih =>
      have before := ih fun other member => named other (by simp [member])
      have grown : addAll OrderedMap.empty (entries ++ [entry]) =
          (MemoryBackend.add (addAll OrderedMap.empty entries) entry).2 := by
        simp [addAll]
      rw [grown, List.find?_append, ← before, List.find?_singleton]
      rcases MemoryBackend.add_cases (addAll OrderedMap.empty entries) entry with
        ⟨_, free, added⟩ | ⟨unnamed | taken, refused⟩
      · rw [MemoryBackend.lookup_added (by rw [added])]
        by_cases same : toLowerAscii entry.dn = toLowerAscii dn
        · rw [MemoryBackend.lookup_congr _ same] at free
          simp [same, free]
        · simp [same]
      · exact absurd unnamed (named entry (by simp))
      · rw [refused]
        by_cases same : toLowerAscii entry.dn = toLowerAscii dn
        · rw [MemoryBackend.lookup_congr _ same] at taken
          rcases Option.ne_none_iff_exists'.mp taken with ⟨older, found⟩
          simp [found]
        · simp [same]

theorem add_all_reachable (entries : List DirectoryEntry) :
    MemoryBackend.Reachable (addAll OrderedMap.empty entries) := by
  induction entries using List.reverseRecOn with
  | nil => exact .empty
  | append_singleton entries entry ih =>
      rw [addAll, List.foldl_append]
      exact MemoryBackend.Reachable.step (.add entry) ih

/-- An added entry is stored under its own DN. -/
theorem add_all_keys (entries : List DirectoryEntry) :
    ∀ pair ∈ (addAll OrderedMap.empty entries).entries, pair.1 = pair.2.dn := by
  induction entries using List.reverseRecOn with
  | nil =>
      intro pair member
      cases member
  | append_singleton entries entry ih =>
      intro pair member
      rw [addAll, List.foldl_append] at member
      rcases MemoryBackend.add_cases (addAll OrderedMap.empty entries) entry with
        ⟨_, _, added⟩ | ⟨_, refused⟩
      · rw [List.foldl_cons, List.foldl_nil, ← addAll, added] at member
        rcases (OrderedMap.mem_insert _ _ _ _).mp member with here | ⟨older, _⟩
        · rw [here]
        · exact ih pair older
      · rw [List.foldl_cons, List.foldl_nil, ← addAll, refused] at member
        exact ih pair member

theorem mem_add_all_iff {entries : List DirectoryEntry}
    (named : ∀ entry ∈ entries, entry.dn ≠ []) (entry : DirectoryEntry) :
    entry ∈ (addAll OrderedMap.empty entries).entries.map Prod.snd ↔
      (entries.find? fun other => toLowerAscii other.dn = toLowerAscii entry.dn) = some entry := by
  have invariant := (add_all_reachable entries).invariant
  rw [← lookup_add_all named]
  constructor
  · intro member
    rcases List.mem_map.mp member with ⟨pair, stored, same⟩
    rw [← same]
    exact invariant.lookup_key stored (invariant.sameDn pair stored).symm
  · intro found
    rcases MemoryBackend.lookup_eq_some found with ⟨key, stored, _⟩
    exact List.mem_map.mpr ⟨(key, entry), stored, rfl⟩

end FileBackend

section Records

open LdifBackend (addAll)

/-- The last `changetype` line makes the record one that the seed passes over. -/
def ChangeRecord (lines : List Bytes) : Prop :=
  ∃ value, lastSetting .changetype lines = some value ∧
    parseChangeType value ≠ .content ∧ parseChangeType value ≠ .add

instance (lines : List Bytes) : Decidable (ChangeRecord lines) :=
  decidable_of_iff
    (∃ value ∈ lastSetting .changetype lines,
      parseChangeType value ≠ .content ∧ parseChangeType value ≠ .add)
    (exists_congr fun _ => Iff.rfl)

/-- The entry that the seed inserts for a block. -/
def seedOf (block : Bytes × List Bytes) : DirectoryEntry where
  dn := block.1
  attributes := Attributes.pushAll OrderedMap.empty (block.2.filterMap Ldif.valueOf)

/-- Both parsers read the lines alike, and SQLite gives every string back whole. -/
structure PlainContent (block : Bytes × List Bytes) : Prop where
  dn : 0 ∉ block.1
  alike : ∀ raw ∈ block.2, Ldif.valueOf raw = LdifBackend.valueOf raw
  noNul : ∀ raw ∈ block.2, ∀ pair ∈ LdifBackend.valueOf raw, 0 ∉ pair.1 ∧ 0 ∉ pair.2

theorem changetype_record_of (block : Bytes × List Bytes) :
    (recordOf block).changetype =
      match lastSetting .changetype block.2 with
      | some value => parseChangeType value
      | none => .content := by
  have record : (recordOf block).changetype = (draftOf block.2).current.changetype :=
    same_record_of block .changetype
  have setting := same_draft_from {} block.2 .changetype
  rw [record]
  change (draftFrom {} block.2).current.changetype = _
  cases found : lastSetting .changetype block.2 with
  | none =>
      rw [found] at setting
      exact setting
  | some value =>
      rw [found] at setting
      exact setting

theorem entry_record_of (block : Bytes × List Bytes) : (recordOf block).entry = seedOf block := by
  have attributes := attributes_record_of block
  change DirectoryEntry.mk block.1 (recordOf block).entry.attributes = _
  rw [attributes]
  rfl

theorem seed_entry_change {block : Bytes × List Bytes} (change : ChangeRecord block.2) :
    seedEntry (recordOf block) = none := by
  rcases change with ⟨value, found, notContent, notAdd⟩
  have kind := changetype_record_of block
  rw [found] at kind
  unfold seedEntry
  split_ifs with unnamed skipped
  · rfl
  · rfl
  · exact absurd ⟨by rw [kind]; exact notContent, by rw [kind]; exact notAdd⟩ skipped

theorem seed_entry_content {block : Bytes × List Bytes} (named : block.1 ≠ [])
    (content : ¬ ChangeRecord block.2) : seedEntry (recordOf block) = some (seedOf block) := by
  have kind := changetype_record_of block
  have keptKind : ¬ ((recordOf block).changetype ≠ .content ∧
      (recordOf block).changetype ≠ .add) := by
    intro neither
    rcases neither with ⟨notContent, notAdd⟩
    cases found : lastSetting .changetype block.2 with
    | none =>
        rw [found] at kind
        exact notContent kind
    | some value =>
        rw [found] at kind
        rw [kind] at notContent notAdd
        exact content ⟨value, found, notContent, notAdd⟩
  have keptName : ¬ ((recordOf block).dn = [] ∨ (recordOf block).entry.dn = []) := by
    intro either
    rcases either with empty | empty
    · exact named empty
    · exact named empty
  rw [seedEntry, if_neg keptName, if_neg keptKind, entry_record_of]

theorem PlainContent.not_change {block : Bytes × List Bytes} (plain : PlainContent block) :
    ¬ ChangeRecord block.2 := by
  intro someValue
  rcases someValue with ⟨value, found, _⟩
  rcases List.mem_filterMap.mp (List.mem_of_getLast? found) with ⟨raw, inside, setting⟩
  rcases setting_of_agrees setting with ⟨pair, read, special⟩
  rw [← plain.alike raw inside] at read
  exact special (value_of_agrees read).2

theorem PlainContent.seed_eq {block : Bytes × List Bytes} (plain : PlainContent block) :
    seedOf block = LdifBackend.entryOf block := by
  have same : block.2.filterMap Ldif.valueOf = block.2.filterMap LdifBackend.valueOf :=
    List.filterMap_congr plain.alike
  rw [seedOf, LdifBackend.entryOf, same]

theorem push_all_storable {dn : Bytes} (noNul : 0 ∉ dn) {pairs : List (Bytes × Bytes)}
    (clean : ∀ pair ∈ pairs, 0 ∉ pair.1 ∧ 0 ∉ pair.2) :
    Storable ⟨dn, Attributes.pushAll OrderedMap.empty pairs⟩ := by
  refine ⟨noNul, ?_, ?_, ?_⟩
  · intro stored member
    rcases Attributes.mem_push_all member with ⟨present, inside⟩
    rcases List.exists_mem_of_ne_nil _ present with ⟨value, valueMember⟩
    exact (clean _ (inside value valueMember)).1
  · intro stored member value valueMember
    exact (clean _ ((Attributes.mem_push_all member).2 value valueMember)).2
  · intro stored member
    exact (Attributes.mem_push_all member).1

theorem PlainContent.storable {block : Bytes × List Bytes} (plain : PlainContent block) :
    Storable (LdifBackend.entryOf block) := by
  apply push_all_storable plain.dn
  intro pair member
  rcases List.mem_filterMap.mp member with ⟨raw, inside, read⟩
  exact plain.noNul raw inside pair read

/-- The first record of each DN is plain content and every later one a change record. -/
structure Layered (records : List (Bytes × List Bytes)) : Prop where
  first : ∀ before block after, records = before ++ block :: after →
    (∀ earlier ∈ before, toLowerAscii earlier.1 ≠ toLowerAscii block.1) → PlainContent block
  later : ∀ before block after, records = before ++ block :: after →
    (∃ earlier ∈ before, toLowerAscii earlier.1 = toLowerAscii block.1) → ChangeRecord block.2

theorem Layered.shorter {records : List (Bytes × List Bytes)} {last : Bytes × List Bytes}
    (layered : Layered (records ++ [last])) : Layered records where
  first := by
    intro before block after split
    exact layered.first before block (after ++ [last]) (by rw [split]; simp)
  later := by
    intro before block after split
    exact layered.later before block (after ++ [last]) (by rw [split]; simp)

theorem insert_seed_eq_add {db : Database} {entry : DirectoryEntry} (named : entry.dn ≠ [])
    (free : storedDn db entry.dn = none) : insertSeed db entry = some (add db entry).2 := by
  have absent : entry.dn ∉ db.entries := by
    intro member
    exact (stored_dn_none_iff db entry.dn).mp free entry.dn member rfl
  rw [insertSeed, if_neg absent, add, if_neg named, free]
  rfl

/-- Seeding record by record, the database follows the store of the file backend. -/
theorem layered_simulates {records : List (Bytes × List Bytes)} (layered : Layered records)
    (named : ∀ block ∈ records, block.1 ≠ []) :
    ∃ db, (records.filterMap fun block => seedEntry (recordOf block)).foldlM insertSeed {} =
        some db ∧
      Simulates db (addAll OrderedMap.empty (records.map LdifBackend.entryOf)) := by
  induction records using List.reverseRecOn with
  | nil => exact ⟨{}, rfl, simulates_empty⟩
  | append_singleton records block ih =>
      rcases ih layered.shorter (fun other member => named other (by simp [member])) with
        ⟨db, inserted, simulates⟩
      have entryNamed : (LdifBackend.entryOf block).dn ≠ [] := named block (by simp)
      have allNamed : ∀ entry ∈ records.map LdifBackend.entryOf, entry.dn ≠ [] := by
        intro entry member
        rcases List.mem_map.mp member with ⟨other, inside, same⟩
        rw [← same]
        exact named other (by simp [inside])
      have found := lookup_add_all allNamed block.1
      have grown : addAll OrderedMap.empty ((records ++ [block]).map LdifBackend.entryOf) =
          (MemoryBackend.add (addAll OrderedMap.empty (records.map LdifBackend.entryOf))
            (LdifBackend.entryOf block)).2 := by
        simp [addAll]
      rw [grown, List.filterMap_append, List.foldlM_append, inserted]
      by_cases repeated : ∃ earlier ∈ records, toLowerAscii earlier.1 = toLowerAscii block.1
      · have skipped := seed_entry_change (layered.later records block [] rfl repeated)
        rcases repeated with ⟨earlier, inside, same⟩
        have taken : MemoryBackend.lookup (addAll OrderedMap.empty
            (records.map LdifBackend.entryOf)) block.1 ≠ none := by
          rw [found]
          intro none
          have absent := List.find?_eq_none.mp none (LdifBackend.entryOf earlier)
            (List.mem_map_of_mem inside)
          exact absent (decide_eq_true same)
        rcases MemoryBackend.add_cases (addAll OrderedMap.empty
            (records.map LdifBackend.entryOf)) (LdifBackend.entryOf block) with
          ⟨_, free, _⟩ | ⟨_, refused⟩
        · exact absurd free taken
        · rw [refused]
          refine ⟨db, ?_, simulates⟩
          simp [skipped]
      · push Not at repeated
        have plain := layered.first records block [] rfl repeated
        have free : MemoryBackend.lookup (addAll OrderedMap.empty
            (records.map LdifBackend.entryOf)) block.1 = none := by
          rw [found, List.find?_eq_none]
          intro entry member same
          rcases List.mem_map.mp member with ⟨other, inside, equal⟩
          rw [← equal] at same
          exact repeated other inside (of_decide_eq_true same)
        have seeded := seed_entry_content (named block (by simp)) plain.not_change
        rw [plain.seed_eq] at seeded
        have step := simulates.add_step plain.storable
        refine ⟨(add db (LdifBackend.entryOf block)).2, ?_, step.2⟩
        have written := insert_seed_eq_add entryNamed (simulates.stored_none free)
        simp [seeded, written]

theorem imported_named (records : List (Bytes × List Bytes))
    (named : ∀ block ∈ records, block.1 ≠ []) :
    ∀ entry ∈ records.map LdifBackend.entryOf, entry.dn ≠ [] := by
  intro entry member
  rcases List.mem_map.mp member with ⟨block, inside, same⟩
  rw [← same]
  exact named block inside

/-- The first record of its DN. -/
def IsFirst (records : List (Bytes × List Bytes)) (block : Bytes × List Bytes) : Prop :=
  (records.find? fun other => toLowerAscii other.1 = toLowerAscii block.1) = some block

/-- The directory of the file backend holds the first record of each DN. -/
theorem mem_imported_iff {records : List (Bytes × List Bytes)}
    (named : ∀ block ∈ records, block.1 ≠ []) (entry : DirectoryEntry) :
    entry ∈ (addAll OrderedMap.empty (records.map LdifBackend.entryOf)).entries.map Prod.snd ↔
      ∃ block, IsFirst records block ∧ LdifBackend.entryOf block = entry := by
  rw [mem_add_all_iff (imported_named records named), List.find?_map]
  constructor
  · intro found
    rcases Option.map_eq_some_iff.mp found with ⟨block, located, same⟩
    refine ⟨block, ?_, same⟩
    rw [← same] at located
    exact located
  · intro listedBlock
    rcases listedBlock with ⟨block, located, same⟩
    rw [← same]
    exact Option.map_eq_some_iff.mpr ⟨block, located, rfl⟩

/-- Sublists that build the same attributes are equal. -/
theorem push_all_sublist {kept pairs : List (Bytes × Bytes)} (part : kept.Sublist pairs)
    (same : Attributes.pushAll OrderedMap.empty kept = Attributes.pushAll OrderedMap.empty pairs) :
    kept = pairs := by
  have named (name : Bytes) : kept.filter (·.1 = name) = pairs.filter (·.1 = name) := by
    apply (part.filter _).eq_of_length
    have values := congrArg (fun built => (OrderedMap.get? built name).getD []) same
    simp only [Attributes.get_push_all] at values
    have lengths := congrArg List.length values
    simpa using lengths
  apply part.eq_of_length
  apply List.Perm.length_eq
  apply List.perm_iff_count.mpr
  intro pair
  have counts := congrArg (List.count pair) (named pair.1)
  rwa [List.count_filter (by simp), List.count_filter (by simp)] at counts

theorem filter_map_alike {Line Value : Type*} {part whole : Line → Option Value}
    {lines : List Line} (agrees : ∀ line ∈ lines, part line = none ∨ part line = whole line) :
    (lines.filterMap part).Sublist (lines.filterMap whole) ∧
      (lines.filterMap part = lines.filterMap whole →
        ∀ line ∈ lines, part line = whole line) := by
  induction lines with
  | nil => simp
  | cons line rest ih =>
      rcases ih (fun other member => agrees other (by simp [member])) with ⟨sublist, same⟩
      rcases agrees line (by simp) with none | equal
      · cases found : whole line with
        | none =>
            simp only [List.filterMap_cons, none, found, List.mem_cons, forall_eq_or_imp,
              true_and]
            exact ⟨sublist, same⟩
        | some value =>
            simp only [List.filterMap_cons, none, found]
            refine ⟨sublist.cons value, ?_⟩
            intro equal
            have long := sublist.length_le
            rw [equal, List.length_cons] at long
            omega
      · cases found : whole line with
        | none =>
            rw [found] at equal
            simp only [List.filterMap_cons, equal, found, List.mem_cons, forall_eq_or_imp,
              true_and]
            exact ⟨sublist, same⟩
        | some value =>
            rw [found] at equal
            simp only [List.filterMap_cons, equal, found, List.cons.injEq, true_and, List.mem_cons,
              forall_eq_or_imp]
            exact ⟨sublist.cons_cons value, same⟩

/-- The names that rows are read back under. -/
theorem names_push_rows (rows : List AttributeRow) (attributes : Attributes)
    {stored : Bytes × List Bytes} (member : stored ∈ (rows.foldl pushRow attributes).entries) :
    (∃ row ∈ rows, columnText row.type = stored.1) ∨
      ∃ values, (stored.1, values) ∈ attributes.entries := by
  induction rows generalizing attributes with
  | nil => exact Or.inr ⟨stored.2, member⟩
  | cons row rest ih =>
      rcases ih (pushRow attributes row) member with ⟨later, inside, same⟩ | ⟨values, older⟩
      · exact Or.inl ⟨later, by simp [inside], same⟩
      · rcases Attributes.mem_push_back older with kept | ⟨named, _⟩
        · exact Or.inr ⟨values, kept⟩
        · exact Or.inl ⟨row, by simp, named.symm⟩

/-- The entries that the seed loop inserts for the records, and the directory it leaves. -/
def seedsOf (records : List (Bytes × List Bytes)) : List DirectoryEntry :=
  records.filterMap fun block => seedEntry (recordOf block)

def seedDatabase (records : List (Bytes × List Bytes)) : Database :=
  ((seedsOf records).foldlM insertSeed {}).getD {}

section Agreeing

variable {records : List (Bytes × List Bytes)}
  (named : ∀ block ∈ records, block.1 ≠ [])
  (plainNames : ∀ block ∈ records, ∀ raw ∈ block.2, ∀ pair ∈ LdifBackend.valueOf raw, 0 ∉ pair.1)
  (agree : ∀ entry,
    entry ∈ (addAll OrderedMap.empty (records.map LdifBackend.entryOf)).entries.map Prod.snd ↔
      entry ∈ allEntries (seedDatabase records))

theorem IsFirst.mem {block : Bytes × List Bytes} (first : IsFirst records block) :
    block ∈ records :=
  List.mem_of_find?_eq_some first

theorem exists_first {block : Bytes × List Bytes} (member : block ∈ records) :
    ∃ leader, IsFirst records leader ∧ toLowerAscii leader.1 = toLowerAscii block.1 := by
  cases found : records.find? fun other => toLowerAscii other.1 = toLowerAscii block.1 with
  | none => exact absurd (decide_eq_true rfl) (List.find?_eq_none.mp found block member)
  | some leader =>
      have same : toLowerAscii leader.1 = toLowerAscii block.1 := by
        simpa using List.find?_some found
      refine ⟨leader, ?_, same⟩
      unfold IsFirst
      rw [same]
      exact found

include named agree in
theorem first_in_seed {block : Bytes × List Bytes} (first : IsFirst records block) :
    LdifBackend.entryOf block ∈ allEntries (seedDatabase records) :=
  (agree _).mp ((mem_imported_iff named _).mpr ⟨block, first, rfl⟩)

include named agree in
theorem record_no_nul {block : Bytes × List Bytes} (member : block ∈ records) : 0 ∉ block.1 := by
  rcases exists_first member with ⟨leader, first, same⟩
  have clean : 0 ∉ leader.1 := (all_entries_storable (first_in_seed named agree first)).dn
  rwa [← zero_mem_to_lower, ← same, zero_mem_to_lower]

include named agree in
theorem seeds_inserted {block : Bytes × List Bytes} (member : block ∈ records) :
    (seedsOf records).foldlM insertSeed {} = some (seedDatabase records) := by
  rcases exists_first member with ⟨leader, first, _⟩
  have inside := first_in_seed named agree first
  unfold seedDatabase at inside ⊢
  cases inserted : (seedsOf records).foldlM insertSeed {} with
  | none =>
      rw [inserted] at inside
      cases inside
  | some db => rfl

theorem mem_seeds_of {entry : DirectoryEntry} (member : entry ∈ seedsOf records)
    (named : ∀ block ∈ records, block.1 ≠ []) :
    ∃ block ∈ records, ¬ ChangeRecord block.2 ∧ seedOf block = entry := by
  rcases List.mem_filterMap.mp member with ⟨block, inside, seeded⟩
  by_cases change : ChangeRecord block.2
  · rw [seed_entry_change change] at seeded
    cases seeded
  · rw [seed_entry_content (named block inside) change] at seeded
    exact ⟨block, inside, change, Option.some.inj seeded⟩

theorem seed_of_mem {block : Bytes × List Bytes} (member : block ∈ records)
    (named : ∀ block ∈ records, block.1 ≠ []) (content : ¬ ChangeRecord block.2) :
    seedOf block ∈ seedsOf records :=
  List.mem_filterMap.mpr ⟨block, member, seed_entry_content (named block member) content⟩

include named agree in
theorem seed_directory_iff {block : Bytes × List Bytes} (member : block ∈ records)
    (entry : DirectoryEntry) :
    entry ∈ allEntries (seedDatabase records) ↔
      ∃ seed ∈ seedsOf records, readBack seed = entry := by
  apply (seeded_of_inserted (seeds_inserted named agree member)).mem_all_entries
  intro seed inside
  rcases mem_seeds_of inside named with ⟨origin, originMember, _, same⟩
  rw [← same]
  exact record_no_nul named agree originMember

include plainNames in
/-- The seed reads an attribute back only under a name that is ordinary to the parser. -/
theorem read_back_ordinary {block : Bytes × List Bytes} (member : block ∈ records)
    {stored : Bytes × List Bytes} (inside : stored ∈ (readBack (seedOf block)).attributes.entries) :
    Ordinary stored.1 := by
  rcases names_push_rows _ _ inside with ⟨row, written, same⟩ | ⟨_, none⟩
  · rcases Attributes.mem_flatten.mp (mem_written_rows written).2 with
      ⟨pair, pairMember, pairName, valueMember⟩
    rcases List.mem_filterMap.mp ((Attributes.mem_push_all pairMember).2 row.value valueMember) with
      ⟨raw, line, read⟩
    rcases value_of_agrees read with ⟨backend, ordinary⟩
    have clean := plainNames block member raw line _ backend
    simp only [pairName] at clean ordinary
    rw [← same, column_text_eq clean]
    exact ordinary
  · cases none

include named plainNames agree in
/-- The file backend found no line in the first record that means more to the parser. -/
theorem first_ordinary {block : Bytes × List Bytes} (first : IsFirst records block) {raw : Bytes}
    (line : raw ∈ block.2) {pair : Bytes × Bytes} (read : LdifBackend.valueOf raw = some pair) :
    Ordinary pair.1 := by
  rcases (seed_directory_iff named agree first.mem _).mp (first_in_seed named agree first) with
    ⟨seed, inside, same⟩
  rcases mem_seeds_of inside named with ⟨origin, originMember, _, seedSame⟩
  rw [← seedSame] at same
  rcases Attributes.exists_of_push_all (List.mem_filterMap.mpr ⟨raw, line, read⟩) with
    ⟨values, stored, _⟩
  have found : (pair.1, values) ∈ (readBack (seedOf origin)).attributes.entries := by
    rw [same]
    exact stored
  exact read_back_ordinary plainNames originMember found

include named plainNames agree in
theorem first_is_content {block : Bytes × List Bytes} (first : IsFirst records block) :
    ¬ ChangeRecord block.2 := by
  intro someValue
  rcases someValue with ⟨value, found, _⟩
  rcases List.mem_filterMap.mp (List.mem_of_getLast? found) with ⟨raw, line, setting⟩
  rcases setting_of_agrees setting with ⟨pair, read, special⟩
  exact special (first_ordinary named plainNames agree first line read)

include named plainNames agree in
theorem first_read_back {block : Bytes × List Bytes} (first : IsFirst records block) :
    readBack (seedOf block) = LdifBackend.entryOf block := by
  rcases (seed_directory_iff named agree first.mem _).mp (first_in_seed named agree first) with
    ⟨seed, inside, same⟩
  have own := seed_of_mem first.mem named (first_is_content named plainNames agree first)
  have apart := (seeded_of_inserted (seeds_inserted named agree first.mem)).apart
  have dnSame : seed.dn = (seedOf block).dn := by
    have read := congrArg DirectoryEntry.dn same
    exact read
  rw [← OrderedMap.eq_of_pairwise_apart (fun entry : DirectoryEntry => entry.dn) apart inside own
    dnSame]
  exact same

include named plainNames agree in
theorem first_plain {block : Bytes × List Bytes} (first : IsFirst records block) :
    PlainContent block := by
  have storable := all_entries_storable (first_in_seed named agree first)
  have clean : ∀ raw ∈ block.2, ∀ pair ∈ LdifBackend.valueOf raw, 0 ∉ pair.1 ∧ 0 ∉ pair.2 := by
    intro raw line pair read
    rcases Attributes.exists_of_push_all (List.mem_filterMap.mpr ⟨raw, line, read⟩) with
      ⟨values, stored, inside⟩
    exact ⟨storable.names _ stored, storable.values _ stored _ inside⟩
  have agrees : ∀ raw ∈ block.2,
      Ldif.valueOf raw = none ∨ Ldif.valueOf raw = LdifBackend.valueOf raw := by
    intro raw _
    cases read : Ldif.valueOf raw with
    | none => exact Or.inl rfl
    | some pair => exact Or.inr (value_of_agrees read).1.symm
  have seedStorable : Storable (seedOf block) := by
    apply push_all_storable storable.dn
    intro pair member
    rcases List.mem_filterMap.mp member with ⟨raw, line, read⟩
    exact clean raw line pair (value_of_agrees read).1
  have same : seedOf block = LdifBackend.entryOf block := by
    rw [← read_back_storable seedStorable]
    exact first_read_back named plainNames agree first
  rcases filter_map_alike agrees with ⟨part, alike⟩
  have values := push_all_sublist part (congrArg DirectoryEntry.attributes same)
  exact ⟨storable.dn, alike values, clean⟩

include named plainNames agree in
/-- A later record of a DN would give the seed a second row. -/
theorem later_is_change {before after : List (Bytes × List Bytes)} {block : Bytes × List Bytes}
    (split : records = before ++ block :: after)
    (repeated : ∃ earlier ∈ before, toLowerAscii earlier.1 = toLowerAscii block.1) :
    ChangeRecord block.2 := by
  by_contra content
  have member : block ∈ records := by simp [split]
  have seeded := seed_of_mem member named content
  have stored := (seed_directory_iff named agree member _).mpr ⟨seedOf block, seeded, rfl⟩
  rcases (mem_imported_iff named _).mp ((agree _).mpr stored) with ⟨leader, first, same⟩
  have dnSame : leader.1 = block.1 := congrArg DirectoryEntry.dn same
  have ahead : leader ∈ before := by
    rcases repeated with ⟨earlier, inside, equal⟩
    have located := first
    rw [IsFirst, split, List.find?_append] at located
    cases found : before.find? fun other => toLowerAscii other.1 = toLowerAscii leader.1 with
    | none =>
        have different := List.find?_eq_none.mp found earlier inside
        rw [dnSame] at different
        exact absurd (decide_eq_true equal) different
    | some other =>
        rw [found, Option.some_or] at located
        rw [← Option.some.inj located]
        exact List.mem_of_find?_eq_some found
  have leaderSeed := seed_entry_content (named leader first.mem)
    (first_is_content named plainNames agree first)
  have blockSeed := seed_entry_content (named block member) content
  have apart := (seeded_of_inserted (seeds_inserted named agree member)).apart
  rw [seedsOf, split, List.filterMap_append, List.filterMap_cons, blockSeed,
    List.pairwise_append] at apart
  exact apart.2.2 (seedOf leader) (List.mem_filterMap.mpr ⟨leader, ahead, leaderSeed⟩)
    (seedOf block) (List.mem_cons_self) dnSame

end Agreeing

end Records

section Agreement

open LdifBackend (addAll)

/-- The line opens a record for both parsers or for neither, and no attribute name that the
file backend reads from it has a NUL byte. -/
structure Comparable (raw : Bytes) : Prop where
  sameMark : LdifBackend.mark raw = Ldif.mark raw
  plainName : ∀ pair ∈ LdifBackend.valueOf raw, 0 ∉ pair.1

instance (raw : Bytes) : Decidable (Comparable raw) :=
  decidable_of_iff
    (LdifBackend.mark raw = Ldif.mark raw ∧ ∀ pair ∈ LdifBackend.valueOf raw, 0 ∉ pair.1)
    ⟨fun both => ⟨both.1, both.2⟩, fun comparable => ⟨comparable.sameMark, comparable.plainName⟩⟩

/-- The records of a file: the DN of each and the block of lines it is read from. -/
def recordBlocks (content : Bytes) : List (Bytes × List Bytes) :=
  blocks Ldif.mark none [] (getLines [] content)

variable {content : Bytes}

theorem mem_record_blocks {block : Bytes × List Bytes} (member : block ∈ recordBlocks content) :
    block.1 ≠ [] ∧ ∀ raw ∈ block.2, raw ∈ getLines [] content := by
  have closed : (none : Option Bytes) ≠ some [] := nofun
  rcases mem_blocks Ldif.mark_named closed member with ⟨named, lines⟩
  refine ⟨named, ?_⟩
  intro raw line
  rcases lines raw line with none | inside
  · cases none
  · exact inside

theorem ldif_directory_eq (comparable : ∀ raw ∈ getLines [] content, Comparable raw) :
    ldifDirectory content =
      (addAll OrderedMap.empty
        ((recordBlocks content).map LdifBackend.entryOf)).entries.map Prod.snd := by
  have same := blocks_congr (fun raw line => (comparable raw line).sameMark) none []
  rw [ldifDirectory, LdifBackend.import_file_eq, LdifBackend.importedEntries, same, recordBlocks]

theorem seeded_directory_eq (content : Bytes) :
    seededDirectory content = allEntries (seedDatabase (recordBlocks content)) := by
  have seeds : seededEntries content = seedsOf (recordBlocks content) := by
    rw [seededEntries, parse_blocks, List.filterMap_map]
    rfl
  rw [seededDirectory, initializeDatabase, seeds, seedDatabase]
  simp only [if_true]
  cases (seedsOf (recordBlocks content)).foldlM insertSeed {} <;> rfl

theorem seeds_agree_of_layered (comparable : ∀ raw ∈ getLines [] content, Comparable raw)
    (layered : Layered (recordBlocks content)) : SeedsAgree content := by
  rcases layered_simulates layered (fun block member => (mem_record_blocks member).1) with
    ⟨db, inserted, simulates⟩
  have read : seedDatabase (recordBlocks content) = db := by
    rw [seedDatabase, seedsOf, inserted]
    rfl
  have same : allEntries db = (addAll OrderedMap.empty
      ((recordBlocks content).map LdifBackend.entryOf)).entries.map Prod.snd := by
    rw [simulates.all_entries]
    apply List.map_congr_left
    intro pair member
    rw [add_all_keys _ pair member]
  intro entry
  rw [ldif_directory_eq comparable, seeded_directory_eq, read, same]

/-- Where the two parsers see the same records, the two directories agree exactly when the
first record of each DN is plain content and the seed passes over every later one. -/
theorem layered_of_comparable (comparable : ∀ raw ∈ getLines [] content, Comparable raw) :
    SeedsAgree content ↔ Layered (recordBlocks content) := by
  constructor
  · intro agree
    have named : ∀ block ∈ recordBlocks content, block.1 ≠ [] :=
      fun block member => (mem_record_blocks member).1
    have plainNames : ∀ block ∈ recordBlocks content, ∀ raw ∈ block.2,
        ∀ pair ∈ LdifBackend.valueOf raw, 0 ∉ pair.1 :=
      fun block member raw line =>
        (comparable raw ((mem_record_blocks member).2 raw line)).plainName
    have both : ∀ entry, entry ∈ (addAll OrderedMap.empty
          ((recordBlocks content).map LdifBackend.entryOf)).entries.map Prod.snd ↔
        entry ∈ allEntries (seedDatabase (recordBlocks content)) := by
      intro entry
      rw [← ldif_directory_eq comparable, ← seeded_directory_eq]
      exact agree entry
    constructor
    · intro before block after split fresh
      apply first_plain named plainNames both
      have unseen : (before.find? fun other => toLowerAscii other.1 = toLowerAscii block.1) =
          none := by
        rw [List.find?_eq_none]
        intro other member same
        exact fresh other member (of_decide_eq_true same)
      rw [IsFirst, split, List.find?_append, unseen]
      simp
    · intro before block after split repeated
      exact later_is_change named plainNames both split repeated
  · exact seeds_agree_of_layered comparable

/-- The records that the file backend cuts a file into. -/
def fileBlocks (content : Bytes) : List (Bytes × List Bytes) :=
  blocks LdifBackend.mark none [] (getLines [] content)

/-- The records that the seed has an `INSERT` for. -/
def contentBlocks (content : Bytes) : List (Bytes × List Bytes) :=
  (recordBlocks content).filter fun block => ¬ ChangeRecord block.2

/-- The records that the seed leaves behind: none when a DN comes twice byte for byte, since
the second `INSERT` rolls all of them back. -/
def insertedBlocks (content : Bytes) : List (Bytes × List Bytes) :=
  if (contentBlocks content).Pairwise fun left right => left.1 ≠ right.1 then
    contentBlocks content
  else []

/-- The value lines of the inserted records of a DN, with every string up to its first NUL
byte. Only NUL bytes make the order matter: records are taken by DN, and the lines of one
record by name. -/
def insertedLines (content dn : Bytes) : List (Bytes × Bytes) :=
  ((sortBy Prod.fst (insertedBlocks content)).filter (columnText ·.1 = dn)).flatMap fun block =>
    (sortBy Prod.fst (block.2.filterMap Ldif.valueOf)).map cutPair

/-- The records that are stored have the same DNs and, name by name, the same value lines. -/
structure SameLines (content : Bytes) : Prop where
  dns : ∀ dn, (∃ block, IsFirst (fileBlocks content) block ∧ block.1 = dn) ↔
    ∃ block ∈ insertedBlocks content, columnText block.1 = dn
  lines : ∀ block, IsFirst (fileBlocks content) block → ∀ name,
    valuesNamed name (block.2.filterMap LdifBackend.valueOf) =
      valuesNamed name (insertedLines content block.1)

theorem file_blocks_named (content : Bytes) : ∀ block ∈ fileBlocks content, block.1 ≠ [] := by
  intro block member
  have closed : (none : Option Bytes) ≠ some [] := nofun
  exact (mem_blocks LdifBackend.mark_named closed member).1

theorem mem_ldif_directory (content : Bytes) (entry : DirectoryEntry) :
    entry ∈ ldifDirectory content ↔
      ∃ block, IsFirst (fileBlocks content) block ∧ LdifBackend.entryOf block = entry := by
  rw [← mem_imported_iff (file_blocks_named content), ldifDirectory, LdifBackend.import_file_eq]
  rfl

theorem seeds_of_records (content : Bytes) :
    seedsOf (recordBlocks content) = (contentBlocks content).map seedOf := by
  rw [contentBlocks, ← List.filterMap_eq_map, List.filterMap_filter]
  apply List.filterMap_congr
  intro block member
  by_cases change : ChangeRecord block.2
  · rw [seed_entry_change change, if_neg (by simpa using change)]
  · rw [seed_entry_content (mem_record_blocks member).1 change, if_pos (by simpa using change)]
    rfl

theorem cut_pairs_seeds (content dn : Bytes)
    (apart : (contentBlocks content).Pairwise fun left right => left.1 ≠ right.1) :
    cutPairs ((contentBlocks content).map seedOf) dn = insertedLines content dn := by
  rw [cutPairs, sort_by_map, List.filter_map, List.flatMap_map, insertedLines, insertedBlocks,
    if_pos apart]
  apply congrArg (List.flatMap · _)
  funext block
  rw [seedOf, flatten_push_all]

theorem mem_seeded_directory (content : Bytes) (entry : DirectoryEntry) :
    entry ∈ seededDirectory content ↔
      ∃ block ∈ insertedBlocks content, entry =
        ⟨columnText block.1,
          Attributes.pushAll OrderedMap.empty (insertedLines content (columnText block.1))⟩ := by
  have mapped : ((contentBlocks content).map seedOf).Pairwise (fun left right =>
      left.dn ≠ right.dn) ↔ (contentBlocks content).Pairwise fun left right =>
        left.1 ≠ right.1 := List.pairwise_map
  rw [seeded_directory_eq, seedDatabase, seeds_of_records]
  by_cases apart : (contentBlocks content).Pairwise fun left right => left.1 ≠ right.1
  · rcases exists_inserted (mapped.mpr apart) with ⟨db, inserted⟩
    have read := (seeded_of_inserted inserted).mem_all_texts entry
    rw [inserted, Option.getD_some, read]
    simp only [cut_pairs_seeds content _ apart, insertedBlocks, if_pos apart, List.mem_map,
      exists_exists_and_eq_and]
    rfl
  · have rolledBack : ((contentBlocks content).map seedOf).foldlM insertSeed {} = none := by
      rw [Option.eq_none_iff_forall_ne_some]
      intro db inserted
      exact apart (mapped.mp (seeded_of_inserted inserted).apart)
    rw [rolledBack, insertedBlocks, if_neg apart]
    simp [allEntries, emptyEntries]

/-- For every file, the two directories agree exactly when the records that are stored have
the same DNs and value lines. Where the two parsers see the same records, this says that the
first record of each DN is plain content and that the seed passes over every later one. -/
theorem seeds_agree_iff (content : Bytes) :
    (SeedsAgree content ↔ SameLines content) ∧
      ((∀ raw ∈ getLines [] content, Comparable raw) →
        (SeedsAgree content ↔ Layered (recordBlocks content))) := by
  refine ⟨?_, layered_of_comparable⟩
  constructor
  · intro agree
    constructor
    · intro dn
      constructor
      · intro importedBlock
        rcases importedBlock with ⟨block, first, same⟩
        have seeded := (agree _).mp ((mem_ldif_directory content _).mpr ⟨block, first, rfl⟩)
        rcases (mem_seeded_directory content _).mp seeded with ⟨other, inside, equal⟩
        have dnSame : block.1 = columnText other.1 := congrArg DirectoryEntry.dn equal
        exact ⟨other, inside, dnSame.symm.trans same⟩
      · intro seededBlock
        rcases seededBlock with ⟨block, inside, same⟩
        have imported := (agree _).mpr ((mem_seeded_directory content _).mpr ⟨block, inside, rfl⟩)
        rcases (mem_ldif_directory content _).mp imported with ⟨other, first, equal⟩
        have dnSame : other.1 = columnText block.1 := congrArg DirectoryEntry.dn equal
        exact ⟨other, first, dnSame.trans same⟩
    · intro block first
      have seeded := (agree _).mp ((mem_ldif_directory content _).mpr ⟨block, first, rfl⟩)
      rcases (mem_seeded_directory content _).mp seeded with ⟨other, _, equal⟩
      have dnSame : block.1 = columnText other.1 := congrArg DirectoryEntry.dn equal
      rw [← dnSame] at equal
      exact push_all_eq_iff.mp (congrArg DirectoryEntry.attributes equal)
  · intro same entry
    have entrySame {block : Bytes × List Bytes} (first : IsFirst (fileBlocks content) block) :
        LdifBackend.entryOf block =
          ⟨block.1, Attributes.pushAll OrderedMap.empty (insertedLines content block.1)⟩ :=
      congrArg (DirectoryEntry.mk block.1) (push_all_eq_iff.mpr (same.lines block first))
    rw [mem_ldif_directory, mem_seeded_directory]
    constructor
    · intro importedBlock
      rcases importedBlock with ⟨block, first, equal⟩
      rcases (same.dns block.1).mp ⟨block, first, rfl⟩ with ⟨other, inside, dnSame⟩
      refine ⟨other, inside, ?_⟩
      rw [← equal, entrySame first, dnSame]
    · intro seededBlock
      rcases seededBlock with ⟨block, inside, equal⟩
      rcases (same.dns (columnText block.1)).mpr ⟨block, inside, rfl⟩ with ⟨other, first, dnSame⟩
      refine ⟨other, first, ?_⟩
      rw [equal, entrySame first, dnSame]

/-- A record and the later deletion of its entry. -/
def deletedLater : Bytes :=
  text "dn: cn=a" ++ newline :: text "cn: a" ++ newline :: newline :: text "dn: CN=A" ++
    newline :: text "changetype: delete"

theorem deleted_later_layered :
    (∀ raw ∈ getLines [] deletedLater, Comparable raw) ∧ Layered (recordBlocks deletedLater) := by
  have comparable : ∀ raw ∈ getLines [] deletedLater, Comparable raw := by decide +kernel
  exact ⟨comparable, ((seeds_agree_iff deletedLater).2 comparable).mp (by decide +kernel)⟩

/-- The version line that an LDIF file may start with. -/
theorem version_line_separates :
    ¬ SeedsAgree (text "version: 1" ++ newline :: newline :: text "dn: cn=a") := by
  decide +kernel

end Agreement

end SimpleLdapd.SqliteBackend
