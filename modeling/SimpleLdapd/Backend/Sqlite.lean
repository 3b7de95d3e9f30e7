import SimpleLdapd.Backend.Memory

/-!
# The SQLite backend (`backend/sqlite.cpp`)

The database is its two tables as lists of rows. Every statement is taken to
succeed, `lower()` folds ASCII, comparisons use byte order, and deleting or
renaming a row of `entries` cascades to its `attributes`. The second half shows
that the backend simulates the memory backend call by call.
-/

namespace SimpleLdapd.SqliteBackend

open Dn

structure AttributeRow where
  dn : Bytes
  type : Bytes
  value : Bytes
  ord : Nat
  deriving DecidableEq

structure Database where
  entries : List Bytes := []
  attributes : List AttributeRow := []
  deriving DecidableEq

/-- `sqlite3_column_text` is read as a C string. -/
def columnText (value : Bytes) : Bytes := value.takeWhile (· ≠ 0)

/-- `SELECT dn FROM entries WHERE lower(dn) = lower(?1)`. -/
def storedDn (db : Database) (dn : Bytes) : Option Bytes :=
  (db.entries.find? fun row => toLowerAscii row = toLowerAscii dn).map columnText

def pushRow (attributes : Attributes) (row : AttributeRow) : Attributes :=
  Attributes.pushBack attributes (columnText row.type) (columnText row.value)

/-- `ORDER BY ord`. -/
def OrdLe (left right : AttributeRow) : Prop := left.ord ≤ right.ord

/-- `ORDER BY dn, ord`. -/
def DnOrdLe (left right : AttributeRow) : Prop :=
  left.dn < right.dn ∨ (left.dn = right.dn ∧ left.ord ≤ right.ord)

instance : DecidableRel OrdLe := fun left right => inferInstanceAs (Decidable (left.ord ≤ right.ord))

instance : DecidableRel DnOrdLe := fun left right =>
  inferInstanceAs
    (Decidable (left.dn < right.dn ∨ (left.dn = right.dn ∧ left.ord ≤ right.ord)))

def loadAttributes (db : Database) (dn : Bytes) : DirectoryEntry where
  dn := dn
  attributes :=
    ((db.attributes.filter (·.dn = dn)).insertionSort OrdLe).foldl pushRow OrderedMap.empty

/-- The rows inserted for an entry; `ord` counts all of its values. -/
def writtenRows (entry : DirectoryEntry) : List AttributeRow :=
  (Attributes.flatten entry.attributes).zipIdx.map fun numbered =>
    { dn := entry.dn, type := numbered.1.1, value := numbered.1.2, ord := numbered.2 }

def writeAttributes (db : Database) (entry : DirectoryEntry) : Database :=
  { db with attributes := db.attributes.filter (·.dn ≠ entry.dn) ++ writtenRows entry }

/-- `INSERT INTO entries(dn) VALUES(?1)`. -/
def insertEntry (db : Database) (dn : Bytes) : Database :=
  { db with entries := db.entries ++ [dn] }

/-- `DELETE FROM entries WHERE dn = ?1`. -/
def deleteEntry (db : Database) (dn : Bytes) : Database where
  entries := db.entries.filter (· ≠ dn)
  attributes := db.attributes.filter (·.dn ≠ dn)

def renamed (stored target dn : Bytes) : Bytes := if dn = stored then target else dn

/-- `UPDATE entries SET dn = ?1 WHERE dn = ?2`. -/
def updateEntry (db : Database) (target stored : Bytes) : Database where
  entries := db.entries.map (renamed stored target)
  attributes := db.attributes.map fun row => { row with dn := renamed stored target row.dn }

def pushToEntry (byDn : OrderedMap Bytes DirectoryEntry) (row : AttributeRow) :
    OrderedMap Bytes DirectoryEntry :=
  match byDn.get? (columnText row.dn) with
  | none => byDn
  | some entry =>
      byDn.insert (columnText row.dn) { entry with attributes := pushRow entry.attributes row }

def emptyEntries (db : Database) : OrderedMap Bytes DirectoryEntry :=
  db.entries.foldl (fun byDn row => byDn.insert (columnText row) { dn := columnText row })
    OrderedMap.empty

def allEntries (db : Database) : List DirectoryEntry :=
  ((db.attributes.insertionSort DnOrdLe).foldl pushToEntry (emptyEntries db)).entries.map Prod.snd

def lookup (db : Database) (dn : Bytes) : Option DirectoryEntry :=
  (storedDn db dn).map (loadAttributes db)

def search (db : Database) (baseDn : Bytes) (scope : SearchScope) (filter : SearchFilter) :
    List DirectoryEntry :=
  (allEntries db).filter fun entry =>
    Backend.inScope scope entry.dn baseDn && filter.matchesEntry entry

def add (db : Database) (entry : DirectoryEntry) : Bool × Database :=
  if entry.dn = [] then (false, db)
  else if (storedDn db entry.dn).isSome then (false, db)
  else (true, writeAttributes (insertEntry db entry.dn) entry)

def modify (db : Database) (entry : DirectoryEntry) : Bool × Database :=
  match storedDn db entry.dn with
  | none => (false, db)
  | some stored => (true, writeAttributes db { entry with dn := stored })

def remove (db : Database) (dn : Bytes) : Bool × Database :=
  match storedDn db dn with
  | none => (false, db)
  | some stored => (true, deleteEntry db stored)

def rename (db : Database) (source target : Bytes) : Bool × Database :=
  if source = [] ∨ target = [] then (false, db)
  else
    match storedDn db source with
    | none => (false, db)
    | some stored =>
        if dnEquals source target then (true, db)
        else if (storedDn db target).isSome then (false, db)
        else (true, updateEntry db target stored)

def hasChildren (db : Database) (dn : Bytes) : Bool :=
  (allEntries db).any fun entry => dnIsOneLevelChild entry.dn dn

def exec : (call : BackendCall) → Database → call.Answer × Database
  | .lookup dn, db => (lookup db dn, db)
  | .search baseDn scope filter, db => (search db baseDn scope filter, db)
  | .add entry, db => add db entry
  | .modify entry, db => modify db entry
  | .remove dn, db => remove db dn
  | .rename source target, db => rename db source target
  | .hasChildren dn, db => (hasChildren db dn, db)
  | .persist, db => ((), db)

/-- No string of the entry has a NUL byte and no value list is empty. -/
structure Storable (entry : DirectoryEntry) : Prop where
  dn : 0 ∉ entry.dn
  names : ∀ pair ∈ entry.attributes.entries, 0 ∉ pair.1
  values : ∀ pair ∈ entry.attributes.entries, ∀ value ∈ pair.2, 0 ∉ value
  present : ∀ pair ∈ entry.attributes.entries, pair.2 ≠ []

/-- The calls the simulation covers. -/
def Admissible : BackendCall → Prop
  | .lookup dn | .remove dn | .hasChildren dn => 0 ∉ dn
  | .search baseDn _ _ => 0 ∉ baseDn
  | .add entry | .modify entry => Storable entry
  | .rename source target => 0 ∉ source ∧ 0 ∉ target
  | .persist => True

/-- Equal attributes and value order, and DNs equal ignoring ASCII case. -/
def EntriesAgree (left right : DirectoryEntry) : Prop :=
  left.attributes = right.attributes ∧ toLowerAscii left.dn = toLowerAscii right.dn

def AnswersAgree : (call : BackendCall) → call.Answer → call.Answer → Prop
  | .lookup _, left, right => Option.Rel EntriesAgree left right
  | .search _ _ _, left, right => List.Forall₂ EntriesAgree left right
  | .add _, left, right => left = right
  | .modify _, left, right => left = right
  | .remove _, left, right => left = right
  | .rename _ _, left, right => left = right
  | .hasChildren _, left, right => left = right
  | .persist, left, right => left = right

/-- The database holds the keys of the map and, for each, the rows of its attributes. -/
structure Simulates (db : Database) (store : MemoryStore) : Prop where
  invariant : MemoryBackend.StoreInvariant store
  keys : ∀ dn, dn ∈ db.entries ↔ ∃ entry, (dn, entry) ∈ store.entries
  rows : ∀ pair ∈ store.entries,
    db.attributes.filter (·.dn = pair.1) = writtenRows { pair.2 with dn := pair.1 }
  owned : ∀ row ∈ db.attributes, row.dn ∈ db.entries
  storable : ∀ pair ∈ store.entries, Storable { pair.2 with dn := pair.1 }

theorem column_text_eq {value : Bytes} (noNul : 0 ∉ value) : columnText value = value := by
  unfold columnText
  induction value with
  | nil => rfl
  | cons byte rest ih =>
      have visible : byte ≠ 0 := by
        intro zero
        exact noNul (by simp [zero])
      rw [List.takeWhile_cons, if_pos (by simpa using visible),
        ih (fun member => noNul (by simp [member]))]

section Rows

theorem mem_written_rows {entry : DirectoryEntry} {row : AttributeRow}
    (member : row ∈ writtenRows entry) :
    row.dn = entry.dn ∧ (row.type, row.value) ∈ Attributes.flatten entry.attributes := by
  obtain ⟨⟨pair, ord⟩, numbered, same⟩ := List.mem_map.mp member
  rw [← same]
  exact ⟨rfl, (List.mem_zipIdx' numbered).2 ▸ List.getElem_mem _⟩

theorem written_rows_increasing (entry : DirectoryEntry) :
    (writtenRows entry).Pairwise fun left right => left.ord < right.ord := by
  have ords : (writtenRows entry).map (·.ord) =
      List.range' 0 (Attributes.flatten entry.attributes).length := by
    rw [writtenRows, List.map_map, ← List.zipIdx_map_snd]
    rfl
  apply List.pairwise_map.mp
  rw [ords]
  exact List.pairwise_lt_range'

theorem written_rows_pairs (entry : DirectoryEntry) :
    (writtenRows entry).map (fun row => (row.type, row.value)) =
      Attributes.flatten entry.attributes := by
  rw [writtenRows, List.map_map]
  conv_rhs => rw [← List.zipIdx_map_fst 0 (Attributes.flatten entry.attributes)]
  rfl

/-- The name and value of a row as they are read back. -/
def readPair (row : AttributeRow) : Bytes × Bytes := (columnText row.type, columnText row.value)

theorem push_read_pairs (rows : List AttributeRow) (attributes : Attributes) :
    rows.foldl pushRow attributes = Attributes.pushAll attributes (rows.map readPair) := by
  induction rows generalizing attributes with
  | nil => rfl
  | cons row rest ih => exact ih (pushRow attributes row)

theorem push_rows (rows : List AttributeRow)
    (noNul : ∀ row ∈ rows, 0 ∉ row.type ∧ 0 ∉ row.value) (attributes : Attributes) :
    rows.foldl pushRow attributes =
      Attributes.pushAll attributes (rows.map fun row => (row.type, row.value)) := by
  rw [push_read_pairs]
  apply congrArg
  apply List.map_congr_left
  intro row member
  rcases noNul row member with ⟨type, value⟩
  rw [readPair, column_text_eq type, column_text_eq value]

/-- Reading the rows of an entry back rebuilds its attributes. -/
theorem push_written_rows {entry : DirectoryEntry} (storable : Storable entry) :
    (writtenRows entry).foldl pushRow OrderedMap.empty = entry.attributes := by
  rw [push_rows, written_rows_pairs, Attributes.push_flatten _ storable.present]
  intro row member
  obtain ⟨pair, stored, same, inside⟩ :=
    Attributes.mem_flatten.mp (mem_written_rows member).2
  rw [← same]
  exact ⟨storable.names pair stored, storable.values pair stored row.value inside⟩

theorem filter_written_rows (entry : DirectoryEntry) (key : Bytes) :
    (writtenRows entry).filter (·.dn = key) = if entry.dn = key then writtenRows entry else [] := by
  split_ifs with same
  · apply List.filter_eq_self.mpr
    intro row member
    rw [(mem_written_rows member).1]
    exact decide_eq_true same
  · apply List.filter_eq_nil_iff.mpr
    intro row member
    rw [(mem_written_rows member).1]
    simpa using same

instance : Std.Total DnOrdLe where
  total left right := by
    rcases lt_trichotomy left.dn right.dn with less | same | greater
    · exact Or.inl (Or.inl less)
    · rcases Nat.le_total left.ord right.ord with before | after
      · exact Or.inl (Or.inr ⟨same, before⟩)
      · exact Or.inr (Or.inr ⟨same.symm, after⟩)
    · exact Or.inr (Or.inl greater)

instance : IsTrans AttributeRow DnOrdLe where
  trans first second third := by
    intro before after
    rcases before with less | ⟨same, ordered⟩
    · rcases after with further | ⟨equal, _⟩
      · exact Or.inl (less.trans further)
      · exact Or.inl (equal ▸ less)
    · rcases after with less | ⟨equal, later⟩
      · exact Or.inl (same ▸ less)
      · exact Or.inr ⟨same.trans equal, ordered.trans later⟩

/-- Sorting by `dn, ord` keeps the rows of one entry that are already in order. -/
theorem filter_sorted_rows {rows : List AttributeRow} {key : Bytes}
    (increasing : (rows.filter (·.dn = key)).Pairwise fun left right => left.ord < right.ord) :
    (rows.insertionSort DnOrdLe).filter (·.dn = key) = rows.filter (·.dn = key) := by
  have permuted : ((rows.insertionSort DnOrdLe).filter (·.dn = key)).Perm
      (rows.filter (·.dn = key)) := (List.perm_insertionSort DnOrdLe rows).filter _
  have sorted : ((rows.insertionSort DnOrdLe).filter (·.dn = key)).Pairwise OrdLe := by
    apply List.Pairwise.imp_of_mem _ ((List.pairwise_insertionSort DnOrdLe rows).filter _)
    intro left right leftMember rightMember ordered
    have leftKey : left.dn = key := by simpa using (List.mem_filter.mp leftMember).2
    have rightKey : right.dn = key := by simpa using (List.mem_filter.mp rightMember).2
    rcases ordered with less | ⟨_, before⟩
    · rw [leftKey, rightKey] at less
      exact absurd less (lt_irrefl key)
    · exact before
  apply List.Perm.eq_of_pairwise _ sorted (increasing.imp fun less => Nat.le_of_lt less) permuted
  intro left right leftMember rightMember before after
  apply OrderedMap.eq_of_pairwise_apart (fun row : AttributeRow => row.ord)
    (increasing.imp fun less => Nat.ne_of_lt less) (permuted.subset leftMember) rightMember
  exact Nat.le_antisymm before after

end Rows

section Reading

theorem get_push_rows (rows : List AttributeRow) (byDn : OrderedMap Bytes DirectoryEntry)
    (key : Bytes) :
    (rows.foldl pushToEntry byDn).get? key =
      (byDn.get? key).map fun entry =>
        { entry with attributes :=
            (rows.filter (columnText ·.dn = key)).foldl pushRow entry.attributes } := by
  induction rows generalizing byDn with
  | nil => simp
  | cons row rest ih =>
      rw [List.foldl_cons, ih, pushToEntry]
      cases found : byDn.get? (columnText row.dn) with
      | none =>
          by_cases same : columnText row.dn = key
          · rw [← same, found]
            rfl
          · rw [List.filter_cons_of_neg (by simpa using same)]
      | some entry =>
          simp only
          rw [OrderedMap.get_insert]
          by_cases same : columnText row.dn = key
          · rw [if_pos same.symm, List.filter_cons_of_pos (by simpa using same), ← same, found]
            rfl
          · rw [if_neg (Ne.symm same), List.filter_cons_of_neg (by simpa using same)]

theorem get_empty_entries (rows : List Bytes) (byDn : OrderedMap Bytes DirectoryEntry)
    (key : Bytes) :
    (rows.foldl (fun byDn row => byDn.insert (columnText row) { dn := columnText row })
        byDn).get? key =
      if key ∈ rows.map columnText then some { dn := key } else byDn.get? key := by
  induction rows generalizing byDn with
  | nil => simp
  | cons row rest ih =>
      rw [List.foldl_cons, ih, OrderedMap.get_insert]
      by_cases later : key ∈ rest.map columnText
      · rw [if_pos later, if_pos (by rw [List.map_cons]; exact List.mem_cons_of_mem _ later)]
      · by_cases here : key = columnText row
        · rw [if_neg later, if_pos here, if_pos (by simp [here]), here]
        · rw [if_neg later, if_neg here, if_neg (by simp [here, later])]

/-- The entries that `allEntries` collects, by DN as it is read back. -/
theorem get_collected_texts (db : Database) (key : Bytes) :
    ((db.attributes.insertionSort DnOrdLe).foldl pushToEntry (emptyEntries db)).get? key =
      if key ∈ db.entries.map columnText then
        some ⟨key, ((db.attributes.insertionSort DnOrdLe).filter
          (columnText ·.dn = key)).foldl pushRow OrderedMap.empty⟩
      else none := by
  rw [get_push_rows, emptyEntries, get_empty_entries]
  split_ifs
  · rfl
  · rfl

/-- The entries that `allEntries` collects, by DN. -/
theorem get_collected {db : Database} (keys : ∀ row ∈ db.entries, 0 ∉ row)
    (owned : ∀ row ∈ db.attributes, row.dn ∈ db.entries) (key : Bytes) :
    ((db.attributes.insertionSort DnOrdLe).foldl pushToEntry (emptyEntries db)).get? key =
      if key ∈ db.entries then
        some ⟨key, ((db.attributes.insertionSort DnOrdLe).filter (·.dn = key)).foldl pushRow
          OrderedMap.empty⟩
      else none := by
  have rows : ∀ row ∈ db.attributes.insertionSort DnOrdLe, 0 ∉ row.dn := by
    intro row member
    exact keys _ (owned row ((List.mem_insertionSort DnOrdLe).mp member))
  have texts : db.entries.map columnText = db.entries :=
    (List.map_congr_left fun row member => column_text_eq (keys row member)).trans
      (List.map_id _)
  have named : (db.attributes.insertionSort DnOrdLe).filter (columnText ·.dn = key) =
      (db.attributes.insertionSort DnOrdLe).filter (·.dn = key) := by
    apply List.filter_congr
    intro row member
    rw [column_text_eq (rows row member)]
  rw [get_collected_texts, texts, named]

variable {db : Database} {store : MemoryStore}

theorem Simulates.key_no_nul (simulates : Simulates db store) {dn : Bytes}
    (member : dn ∈ db.entries) : 0 ∉ dn := by
  obtain ⟨entry, stored⟩ := (simulates.keys dn).mp member
  exact (simulates.storable (dn, entry) stored).dn

theorem Simulates.stored_dn (simulates : Simulates db store) (dn : Bytes) :
    storedDn db dn = (store.findBy toLowerAscii dn).map Prod.fst := by
  unfold storedDn
  cases found : db.entries.find? (fun row => toLowerAscii row = toLowerAscii dn) with
  | none =>
      have absent : store.findBy toLowerAscii dn = none := by
        rw [OrderedMap.findBy_eq_none_iff]
        intro pair member same
        have row := (simulates.keys pair.1).mpr ⟨pair.2, member⟩
        exact absurd (by simpa using same) (List.find?_eq_none.mp found pair.1 row)
      rw [absent]
      rfl
  | some row =>
      have member := List.mem_of_find?_eq_some found
      have same : toLowerAscii row = toLowerAscii dn := by simpa using List.find?_some found
      obtain ⟨entry, stored⟩ := (simulates.keys row).mp member
      have located := (simulates.invariant.distinct.findBy_eq_some_iff dn (row, entry)).mpr
        ⟨stored, same⟩
      rw [located, Option.map_some, Option.map_some,
        column_text_eq (simulates.key_no_nul member)]

theorem Simulates.load_attributes (simulates : Simulates db store)
    {pair : Bytes × DirectoryEntry} (stored : pair ∈ store.entries) :
    loadAttributes db pair.1 = { pair.2 with dn := pair.1 } := by
  have rows := simulates.rows pair stored
  have increasing := written_rows_increasing { pair.2 with dn := pair.1 }
  have ordered : (writtenRows { pair.2 with dn := pair.1 }).Pairwise OrdLe :=
    increasing.imp fun less => Nat.le_of_lt less
  unfold loadAttributes
  rw [rows, ordered.insertionSort_eq, push_written_rows (simulates.storable pair stored)]

/-- The rows, collected by DN, are the map with each entry under its key's spelling. -/
theorem Simulates.all_entries (simulates : Simulates db store) :
    allEntries db = store.entries.map fun pair => { pair.2 with dn := pair.1 } := by
  have collected : (db.attributes.insertionSort DnOrdLe).foldl pushToEntry (emptyEntries db) =
      store.mapValues fun key entry => { entry with dn := key } := by
    apply OrderedMap.ext_get
    intro key
    rw [get_collected (fun row member => simulates.key_no_nul member) simulates.owned,
      OrderedMap.get_mapValues]
    by_cases member : key ∈ db.entries
    · obtain ⟨entry, stored⟩ := (simulates.keys key).mp member
      have rows := simulates.rows (key, entry) stored
      have increasing := written_rows_increasing { entry with dn := key }
      rw [← rows] at increasing
      rw [if_pos member, (OrderedMap.get_eq_some_iff store key entry).mpr stored,
        filter_sorted_rows increasing, rows, push_written_rows (simulates.storable (key, entry) stored)]
      rfl
    · have absent : store.get? key = none := by
        rw [OrderedMap.get_eq_none_iff]
        intro pair stored same
        exact member ((simulates.keys key).mpr ⟨pair.2, same ▸ stored⟩)
      rw [if_neg member, absent]
      rfl
  rw [allEntries, collected, OrderedMap.mapValues, List.map_map]
  rfl

theorem Simulates.lookup_agrees (simulates : Simulates db store) (dn : Bytes) :
    Option.Rel EntriesAgree (MemoryBackend.lookup store dn) (lookup db dn) := by
  rw [lookup, simulates.stored_dn]
  rcases MemoryBackend.find_cases store dn with
    ⟨key, entry, stored, _, located, found⟩ | ⟨absent, none⟩
  · rw [located, found]
    apply Option.Rel.some
    rw [simulates.load_attributes stored]
    exact ⟨rfl, simulates.invariant.sameDn (key, entry) stored⟩
  · rw [absent, none]
    exact Option.Rel.none

theorem Simulates.search_agrees (simulates : Simulates db store) (baseDn : Bytes)
    (scope : SearchScope) (filter : SearchFilter) :
    List.Forall₂ EntriesAgree (MemoryBackend.search store baseDn scope filter)
      (search db baseDn scope filter) := by
  rw [search, simulates.all_entries, MemoryBackend.search, List.filter_map, List.forall₂_map_left_iff,
    List.forall₂_map_right_iff]
  have chosen : ((fun entry : DirectoryEntry =>
        Backend.inScope scope entry.dn baseDn && filter.matchesEntry entry) ∘
        fun pair : Bytes × DirectoryEntry => { pair.2 with dn := pair.1 }) =
      fun pair => Backend.inScope scope pair.1 baseDn && filter.matchesEntry pair.2 := by
    funext pair
    have unnamed : filter.matchesEntry { pair.2 with dn := pair.1 } =
        filter.matchesEntry pair.2 := filter.matches_congr fun _ => rfl
    rw [Function.comp_apply, unnamed]
  rw [chosen, List.forall₂_same]
  intro pair member
  exact ⟨rfl, simulates.invariant.sameDn pair (List.mem_filter.mp member).1⟩

theorem Simulates.has_children_agrees (simulates : Simulates db store) (dn : Bytes) :
    MemoryBackend.hasChildren store dn = hasChildren db dn := by
  rw [hasChildren, simulates.all_entries, List.any_map]
  rfl

end Reading

section Writing

variable {db : Database} {store : MemoryStore}

/-- Replacing the attributes of a key, new or stored, on both sides. -/
theorem Simulates.write (simulates : Simulates db store) {key : Bytes} {entry : DirectoryEntry}
    (invariant : MemoryBackend.StoreInvariant (store.insert key entry))
    (storable : Storable { entry with dn := key }) {rows : List Bytes}
    (added : ∀ dn, dn ∈ rows ↔ dn = key ∨ dn ∈ db.entries) :
    Simulates (writeAttributes { db with entries := rows } { entry with dn := key })
      (store.insert key entry) where
  invariant := invariant
  keys := by
    intro dn
    simp only [writeAttributes, added, simulates.keys, OrderedMap.mem_insert, Prod.mk.injEq]
    constructor
    · intro member
      by_cases here : dn = key
      · exact ⟨entry, Or.inl ⟨here, rfl⟩⟩
      · rcases member with same | ⟨old, stored⟩
        · exact absurd same here
        · exact ⟨old, Or.inr ⟨stored, here⟩⟩
    · intro member
      obtain ⟨old, ⟨here, _⟩ | ⟨stored, _⟩⟩ := member
      · exact Or.inl here
      · exact Or.inr ⟨old, stored⟩
  rows := by
    intro pair member
    have separate : ((db.attributes.filter (·.dn ≠ key)).filter (·.dn = pair.1)) =
        if key = pair.1 then [] else db.attributes.filter (·.dn = pair.1) := by
      rw [List.filter_filter]
      split_ifs with same
      · apply List.filter_eq_nil_iff.mpr
        intro row _
        simp [same]
      · apply List.filter_congr
        intro row _
        by_cases equal : row.dn = pair.1
        · simp [equal, Ne.symm same]
        · simp [equal]
    simp only [writeAttributes, List.filter_append, separate, filter_written_rows]
    rcases (OrderedMap.mem_insert _ _ _ _).mp member with here | ⟨stored, different⟩
    · rw [here]
      simp
    · rw [if_neg (Ne.symm different), if_neg (Ne.symm different), List.append_nil]
      exact simulates.rows pair stored
  owned := by
    intro row member
    simp only [writeAttributes, added, List.mem_append, List.mem_filter] at member ⊢
    rcases member with ⟨older, _⟩ | written
    · exact Or.inr (simulates.owned row older)
    · exact Or.inl (mem_written_rows written).1
  storable := by
    intro pair member
    rcases (OrderedMap.mem_insert _ _ _ _).mp member with here | ⟨stored, _⟩
    · rw [here]
      exact storable
    · exact simulates.storable pair stored

theorem Simulates.delete (simulates : Simulates db store) (key : Bytes) :
    Simulates (deleteEntry db key) (store.erase key) where
  invariant := simulates.invariant.erase key
  keys := by
    intro dn
    simp only [deleteEntry, List.mem_filter, simulates.keys, OrderedMap.mem_erase,
      decide_eq_true_eq]
    constructor
    · intro member
      obtain ⟨⟨entry, stored⟩, different⟩ := member
      exact ⟨entry, stored, different⟩
    · intro member
      obtain ⟨entry, stored, different⟩ := member
      exact ⟨⟨entry, stored⟩, different⟩
  rows := by
    intro pair member
    obtain ⟨stored, different⟩ := (OrderedMap.mem_erase _ _ _).mp member
    rw [deleteEntry, List.filter_filter, ← simulates.rows pair stored]
    apply List.filter_congr
    intro row _
    by_cases equal : row.dn = pair.1
    · simp [equal, different]
    · simp [equal]
  owned := by
    intro row member
    simp only [deleteEntry, List.mem_filter] at member ⊢
    exact ⟨simulates.owned row member.1, member.2⟩
  storable := by
    intro pair member
    exact simulates.storable pair ((OrderedMap.mem_erase _ _ _).mp member).1

theorem renamed_rows (entry : DirectoryEntry) (source target : Bytes) :
    (writtenRows { entry with dn := source }).map
        (fun row => { row with dn := renamed source target row.dn }) =
      writtenRows { entry with dn := target } := by
  rw [writtenRows, writtenRows, List.map_map]
  apply List.map_congr_left
  intro numbered _
  simp [renamed]

/-- The cascade moves the rows of the renamed entry and touches no other. -/
theorem Simulates.update (simulates : Simulates db store) {key target : Bytes}
    {entry : DirectoryEntry} (stored : (key, entry) ∈ store.entries)
    (free : target ∉ db.entries) (noNul : 0 ∉ target)
    (invariant : MemoryBackend.StoreInvariant
      ((store.erase key).insert target { entry with dn := target })) :
    Simulates (updateEntry db target key)
      ((store.erase key).insert target { entry with dn := target }) where
  invariant := invariant
  keys := by
    intro dn
    have present : key ∈ db.entries := (simulates.keys key).mpr ⟨entry, stored⟩
    simp only [updateEntry, List.mem_map, OrderedMap.mem_insert, OrderedMap.mem_erase,
      Prod.mk.injEq]
    constructor
    · intro member
      obtain ⟨row, rowMember, same⟩ := member
      by_cases moved : row = key
      · rw [renamed, if_pos moved] at same
        exact ⟨_, Or.inl ⟨same.symm, rfl⟩⟩
      · rw [renamed, if_neg moved] at same
        obtain ⟨old, kept⟩ := (simulates.keys row).mp rowMember
        rw [← same]
        refine ⟨old, Or.inr ⟨⟨kept, moved⟩, ?_⟩⟩
        intro equal
        exact free (equal ▸ rowMember)
    · intro member
      obtain ⟨old, ⟨here, _⟩ | ⟨⟨kept, different⟩, _⟩⟩ := member
      · exact ⟨key, present, by rw [renamed, if_pos rfl, here]⟩
      · exact ⟨dn, (simulates.keys dn).mpr ⟨old, kept⟩, by rw [renamed, if_neg different]⟩
  rows := by
    intro pair member
    rw [updateEntry, List.filter_map]
    rcases (OrderedMap.mem_insert _ _ _ _).mp member with here | ⟨older, notTarget⟩
    · have moved : db.attributes.filter ((fun row => decide (row.dn = target)) ∘
            fun row => { row with dn := renamed key target row.dn }) =
          db.attributes.filter (·.dn = key) := by
        apply List.filter_congr
        intro row rowMember
        have owner := simulates.owned row rowMember
        have other : row.dn ≠ target := fun same => free (same ▸ owner)
        by_cases same : row.dn = key
        · simp [renamed, same]
        · simp [renamed, same, other]
      rw [here, moved, simulates.rows (key, entry) stored]
      exact renamed_rows entry key target
    · obtain ⟨kept, notKey⟩ := (OrderedMap.mem_erase _ _ _).mp older
      have untouched : db.attributes.filter ((fun row => decide (row.dn = pair.1)) ∘
            fun row => { row with dn := renamed key target row.dn }) =
          db.attributes.filter (·.dn = pair.1) := by
        apply List.filter_congr
        intro row _
        by_cases same : row.dn = key
        · simp [renamed, same, Ne.symm notTarget, Ne.symm notKey]
        · simp [renamed, same]
      have fixed : ∀ row ∈ db.attributes.filter (·.dn = pair.1),
          ({ row with dn := renamed key target row.dn } : AttributeRow) = id row := by
        intro row rowMember
        have owner : row.dn = pair.1 := by simpa using (List.mem_filter.mp rowMember).2
        rw [renamed, if_neg (by rwa [owner])]
        rfl
      rw [untouched, ← simulates.rows pair kept, List.map_congr_left fixed, List.map_id]
  owned := by
    intro row member
    simp only [updateEntry, List.mem_map] at member ⊢
    obtain ⟨old, oldMember, same⟩ := member
    exact ⟨old.dn, simulates.owned old oldMember, by rw [← same]⟩
  storable := by
    intro pair member
    rcases (OrderedMap.mem_insert _ _ _ _).mp member with here | ⟨older, _⟩
    · have source := simulates.storable (key, entry) stored
      rw [here]
      exact ⟨noNul, source.names, source.values, source.present⟩
    · exact simulates.storable pair ((OrderedMap.mem_erase _ _ _).mp older).1

end Writing

section Calls

variable {db : Database} {store : MemoryStore}

theorem Simulates.not_stored (simulates : Simulates db store) {dn : Bytes}
    (absent : MemoryBackend.lookup store dn = none) : dn ∉ db.entries := by
  intro member
  obtain ⟨entry, stored⟩ := (simulates.keys dn).mp member
  have found := simulates.invariant.lookup_key stored rfl
  rw [absent] at found
  cases found

theorem Simulates.stored_none (simulates : Simulates db store) {dn : Bytes}
    (absent : MemoryBackend.lookup store dn = none) : storedDn db dn = none := by
  rw [simulates.stored_dn, (MemoryBackend.lookup_eq_none_iff store dn).mp absent]
  rfl

theorem Simulates.stored_some (simulates : Simulates db store) {dn key : Bytes}
    {entry : DirectoryEntry} (stored : (key, entry) ∈ store.entries)
    (same : toLowerAscii key = toLowerAscii dn) : storedDn db dn = some key := by
  rw [simulates.stored_dn,
    (simulates.invariant.distinct.findBy_eq_some_iff dn (key, entry)).mpr ⟨stored, same⟩]
  rfl

theorem Simulates.stored_is_some (simulates : Simulates db store) {dn : Bytes}
    (found : MemoryBackend.lookup store dn ≠ none) : (storedDn db dn).isSome = true := by
  rcases MemoryBackend.find_cases store dn with ⟨key, entry, stored, same, _⟩ | ⟨_, absent⟩
  · rw [simulates.stored_some stored same]
    rfl
  · exact absurd absent found

theorem Simulates.add_step (simulates : Simulates db store) {entry : DirectoryEntry}
    (storable : Storable entry) :
    (MemoryBackend.add store entry).1 = (add db entry).1 ∧
      Simulates (add db entry).2 (MemoryBackend.add store entry).2 := by
  have kept := MemoryBackend.exec_invariant simulates.invariant (.add entry)
  change MemoryBackend.StoreInvariant (MemoryBackend.add store entry).2 at kept
  rcases MemoryBackend.add_cases store entry with ⟨named, free, added⟩ | ⟨refusal, refused⟩
  · rw [added] at kept ⊢
    rw [add, if_neg named, simulates.stored_none free, if_neg (by simp)]
    refine ⟨rfl, simulates.write kept storable ?_⟩
    intro dn
    simp [or_comm]
  · rw [refused]
    rcases refusal with unnamed | taken
    · rw [add, if_pos unnamed]
      exact ⟨rfl, simulates⟩
    · by_cases unnamed : entry.dn = []
      · rw [add, if_pos unnamed]
        exact ⟨rfl, simulates⟩
      · rw [add, if_neg unnamed, if_pos (simulates.stored_is_some taken)]
        exact ⟨rfl, simulates⟩

theorem Simulates.modify_step (simulates : Simulates db store) {entry : DirectoryEntry}
    (storable : Storable entry) :
    (MemoryBackend.modify store entry).1 = (modify db entry).1 ∧
      Simulates (modify db entry).2 (MemoryBackend.modify store entry).2 := by
  have kept := MemoryBackend.exec_invariant simulates.invariant (.modify entry)
  change MemoryBackend.StoreInvariant (MemoryBackend.modify store entry).2 at kept
  rcases MemoryBackend.modify_cases store entry with
    ⟨key, old, stored, same, _, written⟩ | ⟨absent, refused⟩
  · have keyStorable := (simulates.storable (key, old) stored).dn
    have present : key ∈ db.entries := (simulates.keys key).mpr ⟨old, stored⟩
    rw [written] at kept ⊢
    rw [modify, simulates.stored_some stored same]
    refine ⟨rfl, simulates.write kept
      ⟨keyStorable, storable.names, storable.values, storable.present⟩ ?_⟩
    intro dn
    constructor
    · exact Or.inr
    · intro member
      rcases member with here | there
      · rwa [here]
      · exact there
  · rw [refused, modify, simulates.stored_none absent]
    exact ⟨rfl, simulates⟩

theorem Simulates.remove_step (simulates : Simulates db store) (dn : Bytes) :
    (MemoryBackend.remove store dn).1 = (remove db dn).1 ∧
      Simulates (remove db dn).2 (MemoryBackend.remove store dn).2 := by
  rcases MemoryBackend.remove_cases store dn with
    ⟨key, old, stored, same, _, removed⟩ | ⟨absent, refused⟩
  · rw [removed, remove, simulates.stored_some stored same]
    exact ⟨rfl, simulates.delete key⟩
  · rw [refused, remove, simulates.stored_none absent]
    exact ⟨rfl, simulates⟩

theorem Simulates.rename_step (simulates : Simulates db store) (source : Bytes) {target : Bytes}
    (noNul : 0 ∉ target) :
    (MemoryBackend.rename store source target).1 = (rename db source target).1 ∧
      Simulates (rename db source target).2 (MemoryBackend.rename store source target).2 := by
  have kept := MemoryBackend.exec_invariant simulates.invariant (.rename source target)
  change MemoryBackend.StoreInvariant (MemoryBackend.rename store source target).2 at kept
  rcases MemoryBackend.rename_cases simulates.invariant source target with
    ⟨key, entry, stored, same, found, named, different, free, moved⟩ |
      ⟨found, respelled, unchanged⟩ | ⟨refusal, refused⟩
  · have sourceNamed := simulates.invariant.lookup_nonempty found
    have unequal : ¬ dnEquals source target = true := by rwa [dn_equals_iff]
    rw [moved] at kept ⊢
    simp only [rename, sourceNamed, named, or_self, if_false, simulates.stored_some stored same,
      unequal, simulates.stored_none free]
    exact ⟨rfl, simulates.update stored (simulates.not_stored free) noNul kept⟩
  · obtain ⟨entry, isFound⟩ := Option.ne_none_iff_exists'.mp found
    have sourceNamed := simulates.invariant.lookup_nonempty isFound
    have targetNamed : target ≠ [] := by
      intro empty
      rw [empty] at respelled
      exact sourceNamed ((to_lower_eq_nil source).mp respelled)
    have equal : dnEquals source target = true := (dn_equals_iff source target).mpr respelled
    obtain ⟨stored, isStored⟩ := Option.isSome_iff_exists.mp (simulates.stored_is_some found)
    rw [unchanged]
    simp only [rename, sourceNamed, targetNamed, or_self, if_false, isStored, equal, if_true]
    exact ⟨trivial, simulates⟩
  · have both : rename db source target = (false, db) := by
      unfold rename
      by_cases unnamed : source = [] ∨ target = []
      · exact if_pos unnamed
      · rw [if_neg unnamed]
        by_cases absent : MemoryBackend.lookup store source = none
        · rw [simulates.stored_none absent]
        · obtain ⟨stored, isStored⟩ :=
            Option.isSome_iff_exists.mp (simulates.stored_is_some absent)
          have taken : toLowerAscii source ≠ toLowerAscii target ∧
              MemoryBackend.lookup store target ≠ none := by
            rcases refusal with noSource | noTarget | missing | taken
            · exact absurd (Or.inl noSource) unnamed
            · exact absurd (Or.inr noTarget) unnamed
            · exact absurd missing absent
            · exact taken
          have unequal : ¬ dnEquals source target = true := by
            rw [dn_equals_iff]
            exact taken.1
          rw [isStored]
          simp only [unequal, simulates.stored_is_some taken.2, if_true]
          rfl
    rw [refused, both]
    exact ⟨rfl, simulates⟩

/-- One call keeps the simulation, and the two backends answer it alike. -/
theorem Simulates.step (simulates : Simulates db store) {call : BackendCall}
    (admissible : Admissible call) :
    AnswersAgree call (MemoryBackend.exec call store).1 (exec call db).1 ∧
      Simulates (exec call db).2 (MemoryBackend.exec call store).2 := by
  cases call with
  | lookup dn => exact ⟨simulates.lookup_agrees dn, simulates⟩
  | search baseDn scope filter => exact ⟨simulates.search_agrees baseDn scope filter, simulates⟩
  | add entry => exact simulates.add_step admissible
  | modify entry => exact simulates.modify_step admissible
  | remove dn => exact simulates.remove_step dn
  | rename source target => exact simulates.rename_step source admissible.2
  | hasChildren dn => exact ⟨simulates.has_children_agrees dn, simulates⟩
  | persist => exact ⟨rfl, simulates⟩

theorem simulates_empty : Simulates {} OrderedMap.empty where
  invariant := MemoryBackend.Reachable.empty.invariant
  keys := by simp
  rows := by simp
  owned := by simp
  storable := by simp

/-- The database after a sequence of calls. -/
def afterCalls (db : Database) (calls : List BackendCall) : Database :=
  calls.foldl (fun reached call => (exec call reached).2) db

theorem Simulates.run (simulates : Simulates db store) (calls : List BackendCall)
    (admissible : ∀ call ∈ calls, Admissible call) :
    Simulates (afterCalls db calls) (MemoryBackend.afterCalls store calls) := by
  induction calls generalizing db store with
  | nil => exact simulates
  | cons call rest ih =>
      have after := (simulates.step (admissible call (by simp))).2
      exact ih after (fun other member => admissible other (by simp [member]))

/-- In every sequence of calls, each call is answered alike by both backends. -/
theorem answers_agree (calls : List BackendCall) (admissible : ∀ call ∈ calls, Admissible call)
    (earlier later : List BackendCall) (call : BackendCall)
    (position : calls = earlier ++ call :: later) :
    AnswersAgree call
      (MemoryBackend.exec call (MemoryBackend.afterCalls OrderedMap.empty earlier)).1
      (exec call (afterCalls {} earlier)).1 := by
  subst position
  have before := simulates_empty.run earlier
    (fun other member => admissible other (by simp [member]))
  exact (before.step (admissible call (by simp))).1

/-- An entry added, modified under another spelling, renamed and looked up. -/
def respelledCalls : List BackendCall :=
  [.add { dn := text "cn=A", attributes := OrderedMap.empty.insert (text "cn") [text "a"] },
    .modify { dn := text "CN=a"
              attributes := OrderedMap.empty.insert (text "sn") [text "x", text "y"] },
    .rename (text "Cn=a") (text "cn=B"),
    .lookup (text "CN=b")]

theorem respelled_calls_admissible : ∀ call ∈ respelledCalls, Admissible call := by
  have storable (dn name : Bytes) (values : List Bytes) (noNul : 0 ∉ dn ∧ 0 ∉ name)
      (clean : ∀ value ∈ values, 0 ∉ value) (present : values ≠ []) :
      Storable { dn := dn, attributes := OrderedMap.empty.insert name values } := by
    have only : ∀ pair ∈ (OrderedMap.empty.insert name values : Attributes).entries,
        pair = (name, values) := by
      intro pair member
      simpa using member
    refine ⟨noNul.1, ?_, ?_, ?_⟩
    · intro pair member
      rw [only pair member]
      exact noNul.2
    · intro pair member
      rw [only pair member]
      exact clean
    · intro pair member
      rw [only pair member]
      exact present
  intro call member
  simp only [respelledCalls, List.mem_cons, List.not_mem_nil, or_false] at member
  rcases member with added | modified | renamed | lookedUp
  · rw [added]
    exact storable _ _ _ (by decide +kernel) (by decide +kernel) (by simp)
  · rw [modified]
    exact storable _ _ _ (by decide +kernel) (by decide +kernel) (by simp)
  · rw [renamed]
    exact (by decide +kernel : 0 ∉ text "Cn=a" ∧ 0 ∉ text "cn=B")
  · rw [lookedUp]
    exact (by decide +kernel : 0 ∉ text "CN=b")

theorem respelled_lookup_agrees :
    AnswersAgree (.lookup (text "CN=b"))
      (MemoryBackend.exec (.lookup (text "CN=b"))
        (MemoryBackend.afterCalls OrderedMap.empty (respelledCalls.take 3))).1
      (exec (.lookup (text "CN=b")) (afterCalls {} (respelledCalls.take 3))).1 :=
  answers_agree respelledCalls respelled_calls_admissible (respelledCalls.take 3) [] _ rfl

end Calls

section Fidelity

variable {db : Database} {entry : DirectoryEntry}

theorem column_text_no_nul (value : Bytes) : 0 ∉ columnText value := by
  intro member
  simpa using List.mem_takeWhile_imp member

/-- What a read can return: strings end at their first NUL, and every attribute that is
there came with a row. -/
def Readable (pair : Bytes × List Bytes) : Prop :=
  0 ∉ pair.1 ∧ pair.2 ≠ [] ∧ ∀ value ∈ pair.2, 0 ∉ value

theorem push_row_readable {attributes : Attributes}
    (readable : ∀ pair ∈ attributes.entries, Readable pair) (row : AttributeRow) :
    ∀ pair ∈ (pushRow attributes row).entries, Readable pair := by
  intro pair member
  rcases Attributes.mem_push_back member with older | ⟨named, earlier, values, stored⟩
  · exact readable pair older
  · have before : ∀ value ∈ earlier, 0 ∉ value := by
      rcases stored with none | older
      · simp [none]
      · exact (readable _ older).2.2
    refine ⟨?_, by simp [values], ?_⟩
    · rw [named]
      exact column_text_no_nul row.type
    · intro value inside
      rw [values] at inside
      rcases List.mem_append.mp inside with old | new
      · exact before value old
      · rw [List.mem_singleton.mp new]
        exact column_text_no_nul row.value

theorem push_rows_readable (rows : List AttributeRow) {attributes : Attributes}
    (readable : ∀ pair ∈ attributes.entries, Readable pair) :
    ∀ pair ∈ (rows.foldl pushRow attributes).entries, Readable pair := by
  induction rows generalizing attributes with
  | nil => exact readable
  | cons row rest ih => exact ih (push_row_readable readable row)

theorem load_attributes_storable (dn : Bytes) (noNul : 0 ∉ dn) :
    Storable (loadAttributes db dn) := by
  have start : ∀ pair ∈ (OrderedMap.empty : Attributes).entries, Readable pair := by simp
  have readable := push_rows_readable
    ((db.attributes.filter (·.dn = dn)).insertionSort OrdLe) start
  exact ⟨noNul, fun pair member => (readable pair member).1,
    fun pair member => (readable pair member).2.2, fun pair member => (readable pair member).2.1⟩

theorem lookup_storable {dn : Bytes} (found : lookup db dn = some entry) : Storable entry := by
  rcases Option.map_eq_some_iff.mp found with ⟨stored, located, loaded⟩
  rcases Option.map_eq_some_iff.mp located with ⟨row, _, same⟩
  rw [← loaded]
  apply load_attributes_storable
  rw [← same]
  exact column_text_no_nul row

theorem add_effect (added : (add db entry).1 = true) :
    storedDn db entry.dn = none ∧
      (add db entry).2 = writeAttributes (insertEntry db entry.dn) entry := by
  unfold add at added ⊢
  split at added
  · cases added
  rename_i named
  split at added
  · cases added
  rename_i free
  rw [if_neg named, if_neg free]
  exact ⟨by simpa using free, rfl⟩

theorem load_written (rows : Database) (storable : Storable entry) :
    loadAttributes (writeAttributes rows entry) entry.dn = entry := by
  have ordered : (writtenRows entry).Pairwise OrdLe :=
    (written_rows_increasing entry).imp fun less => Nat.le_of_lt less
  have written : (writeAttributes rows entry).attributes.filter (·.dn = entry.dn) =
      writtenRows entry := by
    rw [writeAttributes, List.filter_append, filter_written_rows, if_pos rfl, List.filter_filter]
    simp
  rw [loadAttributes, written, ordered.insertionSort_eq, push_written_rows storable]

/-- An added entry is read back unchanged exactly when no string of it has a NUL byte and
no value list of it is empty. -/
theorem lookup_after_add_iff (added : (add db entry).1 = true) :
    lookup (add db entry).2 entry.dn = some entry ↔ Storable entry := by
  rcases add_effect added with ⟨free, effect⟩
  constructor
  · exact lookup_storable
  · intro storable
    have located : storedDn (add db entry).2 entry.dn = some entry.dn := by
      have unmatched := Option.map_eq_none_iff.mp free
      rw [effect, storedDn]
      simp only [writeAttributes, insertEntry, List.find?_append, unmatched, Option.none_or,
        List.find?_singleton, decide_true, if_true, Option.map_some, column_text_eq storable.dn]
    rw [lookup, located, Option.map_some, effect, load_written _ storable]

/-- A value with a NUL byte in it. -/
def binaryEntry : DirectoryEntry :=
  { dn := text "cn=a", attributes := OrderedMap.empty.insert (text "cn") [[1, 0, 2]] }

def plainEntry : DirectoryEntry :=
  { dn := text "cn=a", attributes := OrderedMap.empty.insert (text "cn") [text "a", text "b"] }

theorem plain_entry_storable : (add {} plainEntry).1 = true ∧ Storable plainEntry := by
  have added : (add {} plainEntry).1 = true := by decide +kernel
  exact ⟨added, (lookup_after_add_iff added).mp (by decide +kernel)⟩

theorem binary_value_truncated :
    (add {} binaryEntry).1 = true ∧
      lookup (add {} binaryEntry).2 binaryEntry.dn ≠ some binaryEntry := by
  decide +kernel

end Fidelity

end SimpleLdapd.SqliteBackend
