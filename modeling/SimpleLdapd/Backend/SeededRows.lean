import SimpleLdapd.Backend.Seeding
import SimpleLdapd.Library.StableSort

/-!
# The rows of a seeded database (`SqliteBackend::initialize`, `allEntries`)

The seed writes the rows of one entry after another, and `allEntries` reads them
back by DN and position, each string up to its first NUL byte. What a record's
lines give is therefore read back by name, and two records whose DNs differ after
a NUL byte are read back as one entry.
-/

namespace SimpleLdapd.SqliteBackend

open StableSort

section ByName

/-- The values of the pairs with the name, in their order. -/
def valuesNamed (name : Bytes) (pairs : List (Bytes × Bytes)) : List Bytes :=
  (pairs.filter (·.1 = name)).map Prod.snd

variable {left right : List (Bytes × Bytes)}

theorem filter_eq_of_values {name : Bytes}
    (same : valuesNamed name left = valuesNamed name right) :
    left.filter (·.1 = name) = right.filter (·.1 = name) := by
  have rebuilt (pairs : List (Bytes × Bytes)) :
      pairs.filter (·.1 = name) = (valuesNamed name pairs).map fun value => (name, value) := by
    rw [valuesNamed, List.map_map]
    apply (List.map_id _).symm.trans
    apply List.map_congr_left
    intro pair member
    have named : pair.1 = name := by simpa using (List.mem_filter.mp member).2
    rw [← named]
    rfl
  rw [rebuilt left, rebuilt right, same]

/-- The map lists what was pushed sorted by name. -/
theorem flatten_push_all (pairs : List (Bytes × Bytes)) :
    Attributes.flatten (Attributes.pushAll OrderedMap.empty pairs) = sortBy Prod.fst pairs := by
  have listed : (Attributes.flatten (Attributes.pushAll OrderedMap.empty pairs)).Pairwise
      fun first second => first.1 ≤ second.1 := by
    unfold Attributes.flatten
    rw [List.pairwise_flatMap]
    constructor
    · intro stored _
      exact List.pairwise_map.mpr (List.pairwise_of_forall fun _ _ => le_refl stored.1)
    · apply (Attributes.pushAll OrderedMap.empty pairs).sorted.imp
      intro earlier later less first firstMember second secondMember
      rcases List.mem_map.mp firstMember with ⟨_, _, firstSame⟩
      rcases List.mem_map.mp secondMember with ⟨_, _, secondSame⟩
      rw [← firstSame, ← secondSame]
      exact le_of_lt less
  apply eq_of_sorted listed (sorted_sort_by Prod.fst pairs)
  intro name
  rw [filter_sort_by]
  apply filter_eq_of_values
  have again := Attributes.push_flatten (Attributes.pushAll OrderedMap.empty pairs)
    fun stored member => (Attributes.mem_push_all member).1
  have own := Attributes.get_push_all OrderedMap.empty
    (Attributes.flatten (Attributes.pushAll OrderedMap.empty pairs)) name
  rw [again, Attributes.get_push_all] at own
  exact (List.append_cancel_left own).symm

/-- Two lists of pairs build the same map when they have the same values of each name. -/
theorem push_all_eq_iff :
    Attributes.pushAll OrderedMap.empty left = Attributes.pushAll OrderedMap.empty right ↔
      ∀ name, valuesNamed name left = valuesNamed name right := by
  constructor
  · intro same name
    have own := Attributes.get_push_all OrderedMap.empty left name
    rw [same, Attributes.get_push_all] at own
    exact (List.append_cancel_left own).symm
  · intro same
    have rebuilt (pairs : List (Bytes × Bytes)) :
        Attributes.pushAll OrderedMap.empty (sortBy Prod.fst pairs) =
          Attributes.pushAll OrderedMap.empty pairs := by
      rw [← flatten_push_all]
      exact Attributes.push_flatten _ fun stored member => (Attributes.mem_push_all member).1
    have sorted : sortBy Prod.fst left = sortBy Prod.fst right := by
      apply eq_of_sorted (sorted_sort_by Prod.fst left) (sorted_sort_by Prod.fst right)
      intro name
      rw [filter_sort_by, filter_sort_by]
      exact filter_eq_of_values (same name)
    rw [← rebuilt left, sorted, rebuilt right]

end ByName

section SeededRows

variable {entries : List DirectoryEntry} {db : Database}

/-- The rows that the seed loop wrote. -/
structure Seeded (db : Database) (entries : List DirectoryEntry) : Prop where
  dns : db.entries = entries.map (·.dn)
  written : db.attributes = entries.flatMap writtenRows
  apart : entries.Pairwise fun left right => left.dn ≠ right.dn
  rows : ∀ entry ∈ entries, db.attributes.filter (·.dn = entry.dn) = writtenRows entry
  owned : ∀ row ∈ db.attributes, row.dn ∈ db.entries

theorem Seeded.insert (seeded : Seeded db entries) {entry : DirectoryEntry}
    (fresh : entry.dn ∉ db.entries) :
    Seeded (writeAttributes (insertEntry db entry.dn) entry) (entries ++ [entry]) where
  dns := by simp [writeAttributes, insertEntry, seeded.dns]
  written := by
    have kept : db.attributes.filter (·.dn ≠ entry.dn) = db.attributes := by
      apply List.filter_eq_self.mpr
      intro row member
      simpa using fun same : row.dn = entry.dn => fresh (same ▸ seeded.owned row member)
    change db.attributes.filter (·.dn ≠ entry.dn) ++ writtenRows entry = _
    rw [kept, seeded.written, List.flatMap_append, List.flatMap_singleton]
  apart := by
    rw [List.pairwise_append]
    refine ⟨seeded.apart, List.pairwise_singleton _ _, ?_⟩
    intro left leftMember right rightMember same
    rw [List.mem_singleton.mp rightMember] at same
    apply fresh
    rw [seeded.dns, ← same]
    exact List.mem_map_of_mem leftMember
  rows := by
    have unwritten : ∀ row ∈ db.attributes, row.dn ≠ entry.dn := by
      intro row member same
      exact fresh (same ▸ seeded.owned row member)
    have kept : db.attributes.filter (·.dn ≠ entry.dn) = db.attributes := by
      apply List.filter_eq_self.mpr
      intro row member
      simpa using unwritten row member
    intro other member
    simp only [writeAttributes, insertEntry, kept, List.filter_append, filter_written_rows]
    rcases List.mem_append.mp member with older | last
    · have different : entry.dn ≠ other.dn := by
        intro same
        apply fresh
        rw [seeded.dns, same]
        exact List.mem_map_of_mem older
      rw [if_neg different, List.append_nil]
      exact seeded.rows other older
    · rw [List.mem_singleton.mp last, if_pos rfl]
      have none : db.attributes.filter (·.dn = entry.dn) = [] := by
        apply List.filter_eq_nil_iff.mpr
        intro row member
        simpa using unwritten row member
      rw [none, List.nil_append]
  owned := by
    intro row member
    simp only [writeAttributes, insertEntry, List.mem_append, List.mem_filter] at member ⊢
    rcases member with ⟨older, _⟩ | written
    · exact Or.inl (seeded.owned row older)
    · exact Or.inr (List.mem_singleton.mpr (mem_written_rows written).1)

theorem seeded_of_inserted (inserted : entries.foldlM insertSeed {} = some db) :
    Seeded db entries := by
  induction entries using List.reverseRecOn generalizing db with
  | nil =>
      cases inserted
      exact ⟨rfl, rfl, List.Pairwise.nil, by simp, by simp⟩
  | append_singleton entries entry ih =>
      rw [List.foldlM_append] at inserted
      rcases Option.bind_eq_some_iff.mp inserted with ⟨before, earlier, last⟩
      have single : insertSeed before entry = some db := by simpa using last
      rcases insert_seed_eq_some single with ⟨fresh, written⟩
      rw [written]
      exact (ih earlier).insert fresh

/-- The primary key lets the seed in when no DN comes twice. -/
theorem exists_inserted (apart : entries.Pairwise fun left right => left.dn ≠ right.dn) :
    ∃ db, entries.foldlM insertSeed {} = some db := by
  induction entries using List.reverseRecOn with
  | nil => exact ⟨{}, rfl⟩
  | append_singleton entries entry ih =>
      rw [List.pairwise_append] at apart
      rcases ih apart.1 with ⟨before, inserted⟩
      have fresh : entry.dn ∉ before.entries := by
        rw [(seeded_of_inserted inserted).dns]
        intro member
        rcases List.mem_map.mp member with ⟨earlier, inside, same⟩
        exact apart.2.2 earlier inside entry (by simp) same
      refine ⟨writeAttributes (insertEntry before entry.dn) entry, ?_⟩
      rw [List.foldlM_append, inserted]
      simp [insertSeed, fresh]

/-- An entry as its rows give it back. -/
def readBack (entry : DirectoryEntry) : DirectoryEntry where
  dn := entry.dn
  attributes := (writtenRows entry).foldl pushRow OrderedMap.empty

theorem read_back_storable {entry : DirectoryEntry} (storable : Storable entry) :
    readBack entry = entry := by
  rw [readBack, push_written_rows storable]

theorem Seeded.mem_all_entries (seeded : Seeded db entries)
    (noNul : ∀ entry ∈ entries, 0 ∉ entry.dn) (entry : DirectoryEntry) :
    entry ∈ allEntries db ↔ ∃ seed ∈ entries, readBack seed = entry := by
  have keyNoNul : ∀ row ∈ db.entries, 0 ∉ row := by
    intro row member
    rw [seeded.dns] at member
    rcases List.mem_map.mp member with ⟨seed, inside, same⟩
    rw [← same]
    exact noNul seed inside
  have read := get_collected keyNoNul seeded.owned
  have stored (seed : DirectoryEntry) (inside : seed ∈ entries) :
      ((db.attributes.insertionSort DnOrdLe).foldl pushToEntry (emptyEntries db)).get? seed.dn =
        some (readBack seed) := by
    have member : seed.dn ∈ db.entries := by
      rw [seeded.dns]
      exact List.mem_map_of_mem inside
    have increasing := written_rows_increasing seed
    rw [← seeded.rows seed inside] at increasing
    rw [read, if_pos member, filter_sorted_rows increasing, seeded.rows seed inside]
    rfl
  constructor
  · intro member
    rcases List.mem_map.mp member with ⟨pair, inside, same⟩
    have found := (OrderedMap.get_eq_some_iff _ pair.1 pair.2).mpr inside
    by_cases keyed : pair.1 ∈ db.entries
    · rw [seeded.dns] at keyed
      rcases List.mem_map.mp keyed with ⟨seed, seedMember, seedDn⟩
      rw [← seedDn, stored seed seedMember] at found
      exact ⟨seed, seedMember, (Option.some.inj found).trans same⟩
    · rw [read, if_neg keyed] at found
      cases found
  · intro seeded
    rcases seeded with ⟨seed, inside, same⟩
    rw [← same]
    exact List.mem_map.mpr
      ⟨(seed.dn, readBack seed), (OrderedMap.get_eq_some_iff _ _ _).mp (stored seed inside), rfl⟩

/-- A pair as its row gives it back. -/
def cutPair (pair : Bytes × Bytes) : Bytes × Bytes := (columnText pair.1, columnText pair.2)

/-- The pairs that come back under a DN: those of every entry whose DN is the same up to
the first NUL byte. -/
def cutPairs (entries : List DirectoryEntry) (dn : Bytes) : List (Bytes × Bytes) :=
  ((sortBy (·.dn) entries).filter (columnText ·.dn = dn)).flatMap fun entry =>
    (Attributes.flatten entry.attributes).map cutPair

theorem filter_rows (entries : List DirectoryEntry) (test : Bytes → Bool) :
    (entries.flatMap writtenRows).filter (fun row => test row.dn) =
      (entries.filter fun entry => test entry.dn).flatMap writtenRows := by
  induction entries with
  | nil => rfl
  | cons entry rest ih =>
      have own : (writtenRows entry).filter (fun row => test row.dn) =
          if test entry.dn then writtenRows entry else [] := by
        split_ifs with tested
        · apply List.filter_eq_self.mpr
          intro row member
          rwa [(mem_written_rows member).1]
        · apply List.filter_eq_nil_iff.mpr
          intro row member
          rwa [(mem_written_rows member).1]
      rw [List.flatMap_cons, List.filter_append, ih, own, List.filter_cons]
      split_ifs
      · rfl
      · rfl

theorem Seeded.rows_increasing (seeded : Seeded db entries) (dn : Bytes) :
    (db.attributes.filter (·.dn = dn)).Pairwise fun left right => left.ord < right.ord := by
  by_cases stored : dn ∈ db.entries
  · rw [seeded.dns] at stored
    rcases List.mem_map.mp stored with ⟨seed, inside, same⟩
    rw [← same, seeded.rows seed inside]
    exact written_rows_increasing seed
  · have none : db.attributes.filter (·.dn = dn) = [] := by
      apply List.filter_eq_nil_iff.mpr
      intro row member
      simpa using fun same : row.dn = dn => stored (same ▸ seeded.owned row member)
    rw [none]
    exact List.Pairwise.nil

/-- `ORDER BY dn, ord` reads the rows entry after entry. -/
theorem Seeded.sorted_rows (seeded : Seeded db entries) :
    db.attributes.insertionSort DnOrdLe = (sortBy (·.dn) entries).flatMap writtenRows := by
  have byDn : (db.attributes.insertionSort DnOrdLe).Pairwise
      fun first second => first.dn ≤ second.dn := by
    apply (List.pairwise_insertionSort DnOrdLe db.attributes).imp
    intro first second ordered
    rcases ordered with less | ⟨same, _⟩
    · exact le_of_lt less
    · exact le_of_eq same
  have byEntry : ((sortBy (·.dn) entries).flatMap writtenRows).Pairwise
      fun first second => first.dn ≤ second.dn := by
    rw [List.pairwise_flatMap]
    constructor
    · intro entry _
      apply (written_rows_increasing entry).imp_of_mem
      intro first second firstMember secondMember _
      rw [(mem_written_rows firstMember).1, (mem_written_rows secondMember).1]
    · apply (sorted_sort_by (·.dn) entries).imp
      intro left right ordered first firstMember second secondMember
      rwa [(mem_written_rows firstMember).1, (mem_written_rows secondMember).1]
  apply eq_of_sorted byDn byEntry
  intro dn
  have sorted := filter_sort_by (fun entry : DirectoryEntry => entry.dn) dn entries
  rw [filter_sorted_rows (seeded.rows_increasing dn), seeded.written,
    filter_rows entries (· = dn), filter_rows _ (· = dn)]
  exact congrArg (List.flatMap writtenRows) sorted.symm

theorem Seeded.read_pairs (seeded : Seeded db entries) (dn : Bytes) :
    ((db.attributes.insertionSort DnOrdLe).filter (columnText ·.dn = dn)).map readPair =
      cutPairs entries dn := by
  rw [seeded.sorted_rows, filter_rows _ (columnText · = dn), cutPairs, List.map_flatMap]
  apply congrArg (List.flatMap · _)
  funext entry
  rw [← written_rows_pairs, List.map_map]
  rfl

/-- An entry that is read has the DN of a seed and the pairs of all seeds of that DN, each
string up to its first NUL byte. -/
theorem Seeded.mem_all_texts (seeded : Seeded db entries) (entry : DirectoryEntry) :
    entry ∈ allEntries db ↔
      ∃ seed ∈ entries, entry =
        ⟨columnText seed.dn,
          Attributes.pushAll OrderedMap.empty (cutPairs entries (columnText seed.dn))⟩ := by
  have read := get_collected_texts db
  have texts : db.entries.map columnText = entries.map (columnText ·.dn) := by
    rw [seeded.dns, List.map_map]
    rfl
  simp only [push_read_pairs, seeded.read_pairs, texts] at read
  constructor
  · intro member
    rcases List.mem_map.mp member with ⟨pair, inside, same⟩
    have found := (OrderedMap.get_eq_some_iff _ pair.1 pair.2).mpr inside
    rw [read] at found
    split_ifs at found with keyed
    rcases List.mem_map.mp keyed with ⟨seed, seedMember, seedDn⟩
    refine ⟨seed, seedMember, ?_⟩
    rw [← same, ← Option.some.inj found, seedDn]
  · intro seeded
    rcases seeded with ⟨seed, inside, same⟩
    have found := read (columnText seed.dn)
    rw [if_pos (List.mem_map_of_mem inside)] at found
    rw [same]
    exact List.mem_map.mpr
      ⟨(columnText seed.dn, _), (OrderedMap.get_eq_some_iff _ _ _).mp found, rfl⟩

theorem push_to_entry_storable {byDn : OrderedMap Bytes DirectoryEntry}
    (clean : ∀ pair ∈ byDn.entries, Storable pair.2) (row : AttributeRow) :
    ∀ pair ∈ (pushToEntry byDn row).entries, Storable pair.2 := by
  intro pair member
  unfold pushToEntry at member
  split at member
  · exact clean pair member
  · rename_i older found
    rcases (OrderedMap.mem_insert _ _ _ _).mp member with here | ⟨kept, _⟩
    · have before := clean _ ((OrderedMap.get_eq_some_iff _ _ _).mp found)
      have readable : ∀ pair ∈ (pushRow older.attributes row).entries, Readable pair := by
        apply push_row_readable
        intro pair stored
        exact ⟨before.names pair stored, before.present pair stored, before.values pair stored⟩
      rw [here]
      exact ⟨before.dn, fun pair stored => (readable pair stored).1,
        fun pair stored => (readable pair stored).2.2,
        fun pair stored => (readable pair stored).2.1⟩
    · exact clean pair kept

theorem empty_entries_storable (rows : List Bytes) {byDn : OrderedMap Bytes DirectoryEntry}
    (clean : ∀ pair ∈ byDn.entries, Storable pair.2) :
    ∀ pair ∈ (rows.foldl (fun byDn row =>
      byDn.insert (columnText row) { dn := columnText row }) byDn).entries, Storable pair.2 := by
  induction rows generalizing byDn with
  | nil => exact clean
  | cons row rest ih =>
      apply ih
      intro pair member
      rcases (OrderedMap.mem_insert _ _ _ _).mp member with here | ⟨kept, _⟩
      · rw [here]
        exact ⟨column_text_no_nul row, by simp, by simp, by simp⟩
      · exact clean pair kept

theorem push_all_rows_storable (rows : List AttributeRow)
    {byDn : OrderedMap Bytes DirectoryEntry} (clean : ∀ pair ∈ byDn.entries, Storable pair.2) :
    ∀ pair ∈ (rows.foldl pushToEntry byDn).entries, Storable pair.2 := by
  induction rows generalizing byDn with
  | nil => exact clean
  | cons row rest ih => exact ih (push_to_entry_storable clean row)

/-- Whatever the rows are, an entry that is read has no NUL byte and no empty list. -/
theorem all_entries_storable {entry : DirectoryEntry} (member : entry ∈ allEntries db) :
    Storable entry := by
  rcases List.mem_map.mp member with ⟨pair, inside, same⟩
  rw [← same]
  have start : ∀ pair ∈ (OrderedMap.empty : OrderedMap Bytes DirectoryEntry).entries,
      Storable pair.2 := by simp
  exact push_all_rows_storable _ (empty_entries_storable _ start) pair inside

end SeededRows

end SimpleLdapd.SqliteBackend
