import SimpleLdapd.Protocol.Ldif

/-!
# Which lines an LDIF record is made of (`backend/ldif.cpp`, `protocol/ldif.cpp`)

Both readers keep the record under construction when a blank line or a `dn` line
finds that it has no DN yet. Lines outside a record are therefore not dropped:
they go into the next record. The file backend hands `add` one entry for each
block of lines, and the entry has values of its own lines only when no value line
outside a record has a record after it.
-/

namespace SimpleLdapd.LdifBackend

open Dn LineMark

/-- What a line means for the extent of the records. -/
def mark (raw : Bytes) : LineMark Bytes :=
  let line := trimInPlace raw
  if line = [] then .blank
  else if line.head? = some (chr '#') then .body
  else if (text "dn:").isPrefixOf line then
    .header (Ldif.keyOf (trimInPlace (line.drop 3)))
  else .body

/-- The name and value that a line gives to the entry. -/
def valueOf (raw : Bytes) : Option (Bytes × Bytes) :=
  let line := trimInPlace raw
  if line = [] then none
  else if line.head? = some (chr '#') then none
  else if (text "dn:").isPrefixOf line then none
  else (findByte (chr ':') line).map fun colon =>
    (trimInPlace (line.take colon), trimInPlace (line.drop (colon + 1)))

/-- The entry that the values of a block build. -/
def entryOf (block : Bytes × List Bytes) : DirectoryEntry where
  dn := block.1
  attributes := Attributes.pushAll OrderedMap.empty (block.2.filterMap valueOf)

/-- The entries that `importFile` hands to `add`, in order. -/
def importedEntries (content : Bytes) : List DirectoryEntry :=
  (blocks mark none [] (getLines [] content)).map entryOf

/-- For each `dn` line that names an entry, the entry with the values of the lines up to
the next blank or `dn` line. -/
def ownEntries (content : Bytes) : List DirectoryEntry :=
  (ownBlocks mark (getLines [] content)).map entryOf

def addAll (store : MemoryStore) (entries : List DirectoryEntry) : MemoryStore :=
  entries.foldl (fun reached entry => (MemoryBackend.add reached entry).2) store

theorem value_of_silent (raw : Bytes) (other : mark raw ≠ .body) : valueOf raw = none := by
  unfold mark at other
  unfold valueOf
  simp only at other ⊢
  by_cases blank : trimInPlace raw = []
  · rw [if_pos blank]
  by_cases comment : (trimInPlace raw).head? = some (chr '#')
  · rw [if_neg blank, if_pos comment]
  by_cases header : (text "dn:").isPrefixOf (trimInPlace raw) = true
  · rw [if_neg blank, if_neg comment, if_pos header]
  · rw [if_neg blank, if_neg comment, if_neg header] at other
    exact absurd rfl other

theorem mark_named (raw : Bytes) : mark raw ≠ .header (some []) := by
  unfold mark
  simp only
  split_ifs
  · exact nofun
  · exact nofun
  · simpa using Ldif.key_of_ne _
  · exact nofun

theorem import_line_eq (state : ImportState) (raw : Bytes) :
    importLine state raw =
      match mark raw with
      | .blank => flush state
      | .header key => startEntry state (key.getD [])
      | .body =>
          match valueOf raw with
          | none => state
          | some pair => pushValue state pair.1 pair.2 := by
  unfold importLine mark valueOf
  simp only
  by_cases blank : trimInPlace raw = []
  · simp only [blank, if_true]
  by_cases comment : (trimInPlace raw).head? = some (chr '#')
  · simp only [blank, comment, if_true, if_false]
  by_cases header : (text "dn:").isPrefixOf (trimInPlace raw) = true
  · simp only [blank, comment, header, if_true, if_false, Ldif.key_of_get]
  · simp only [blank, comment, header, if_false]
    cases findByte (chr ':') (trimInPlace raw) <;> rfl

/-- The state of the loop, told by the blocks read so far. -/
def stateOf (store : MemoryStore) (cut : Cut Bytes Bytes) : ImportState where
  current := entryOf (cut.key.getD [], cut.block)
  store := addAll store (cut.done.map entryOf)

theorem flush_state_outside {store : MemoryStore} {cut : Cut Bytes Bytes}
    (outside : cut.key = none) : flush (stateOf store cut) = stateOf store cut := by
  have unnamed : (stateOf store cut).current.dn = [] := by
    simp [stateOf, entryOf, outside]
  rw [flush, if_neg (fun named => named unnamed)]

theorem flush_state_inside {store : MemoryStore} {cut : Cut Bytes Bytes} {dn : Bytes}
    (inside : cut.key = some dn) (named : dn ≠ []) :
    flush (stateOf store cut) =
      { current := {}, store := addAll store ((cut.done ++ [(dn, cut.block)]).map entryOf) } := by
  have keyed : (stateOf store cut).current.dn = dn := by
    simp [stateOf, entryOf, inside]
  rw [flush, if_pos (by rwa [keyed])]
  simp [stateOf, inside, addAll]

/-- A line without a value leaves what the block builds. -/
theorem entry_of_silent {raw : Bytes} (silent : valueOf raw = none) (dn : Bytes)
    (block : List Bytes) : entryOf (dn, block ++ [raw]) = entryOf (dn, block) := by
  simp [entryOf, silent]

theorem entry_of_value {raw : Bytes} {pair : Bytes × Bytes} (found : valueOf raw = some pair)
    (dn : Bytes) (block : List Bytes) :
    entryOf (dn, block ++ [raw]) =
      { entryOf (dn, block) with
        attributes := Attributes.pushBack (entryOf (dn, block)).attributes pair.1 pair.2 } := by
  simp only [entryOf, List.filterMap_append, List.filterMap_cons, found, List.filterMap_nil,
    Attributes.push_all_append]
  rfl

/-- One turn of the loop cuts one more line. -/
theorem import_line_cut (store : MemoryStore) {cut : Cut Bytes Bytes} (named : cut.key ≠ some [])
    (raw : Bytes) :
    importLine (stateOf store cut) raw = stateOf store (cut.next mark raw) := by
  rw [import_line_eq]
  cases marked : mark raw with
  | blank =>
      have silent := value_of_silent raw (by simp [marked])
      dsimp only
      cases opened : cut.key with
      | none =>
          rw [flush_state_outside opened]
          simp only [Cut.next, nextKey, opened, marked, stateOf, entry_of_silent silent]
      | some dn =>
          have keyed : dn ≠ [] := fun empty => named (by rw [opened, empty])
          rw [flush_state_inside opened keyed]
          simp only [Cut.next, opened, marked, stateOf]
          simp [entryOf, silent, Attributes.pushAll]
  | header next =>
      have silent := value_of_silent raw (by simp [marked])
      dsimp only
      rw [startEntry]
      cases opened : cut.key with
      | none =>
          rw [flush_state_outside opened]
          simp only [Cut.next, nextKey, opened, marked, stateOf, entry_of_silent silent]
          rfl
      | some dn =>
          have keyed : dn ≠ [] := fun empty => named (by rw [opened, empty])
          rw [flush_state_inside opened keyed]
          simp only [Cut.next, opened, marked, stateOf]
          simp [entryOf, silent, Attributes.pushAll]
  | body =>
      have grown : cut.next mark raw = { cut with block := cut.block ++ [raw] } := by
        cases opened : cut.key <;> simp [Cut.next, nextKey, marked, opened]
      rw [grown]
      cases found : valueOf raw with
      | none => simp only [stateOf, entry_of_silent found]
      | some pair =>
          simp only [stateOf, entry_of_value found]
          rfl

theorem import_lines_cut (store : MemoryStore) (lines : List Bytes) {cut : Cut Bytes Bytes}
    (named : cut.key ≠ some []) :
    lines.foldl importLine (stateOf store cut) =
        stateOf store (lines.foldl (Cut.next mark) cut) ∧
      (lines.foldl (Cut.next mark) cut).key ≠ some [] := by
  induction lines generalizing cut with
  | nil => exact ⟨rfl, named⟩
  | cons raw rest ih =>
      rw [List.foldl_cons, List.foldl_cons, import_line_cut store named]
      exact ih (Cut.next_key_ne mark_named named raw)

theorem import_file_eq (store : MemoryStore) (content : Bytes) :
    importFile store content = addAll store (importedEntries content) := by
  have start : ({} : Cut Bytes Bytes).key ≠ some [] := nofun
  rcases import_lines_cut store (getLines [] content) start with ⟨reached, named⟩
  have begun : stateOf store {} = { store := store } := rfl
  have finished := finish_cut mark {} (getLines [] content)
  rw [importFile, ← begun, reached, importedEntries]
  generalize (getLines [] content).foldl (Cut.next mark) {} = cut at *
  rw [List.nil_append] at finished
  rw [← finished]
  cases opened : cut.key with
  | none =>
      rw [flush_state_outside opened]
      simp [stateOf, Cut.finish, opened]
  | some dn =>
      have keyed : dn ≠ [] := fun empty => named (by rw [opened, empty])
      rw [flush_state_inside opened keyed]
      simp [Cut.finish, opened]

/-- The entry under the DN with the attributes. -/
def toEntry (pair : Bytes × Attributes) : DirectoryEntry := { dn := pair.1, attributes := pair.2 }

theorem to_entry_injective : Function.Injective toEntry := by
  intro left right same
  exact Prod.ext (congrArg DirectoryEntry.dn same) (congrArg DirectoryEntry.attributes same)

theorem imported_own_iff (content : Bytes) :
    importedEntries content = ownEntries content ↔
      StrayFree mark valueOf none (getLines [] content) := by
  have entries (records : List (Bytes × List Bytes)) :
      records.map entryOf =
        (records.map (contents valueOf (Attributes.pushAll OrderedMap.empty))).map toEntry := by
    rw [List.map_map]
    rfl
  rw [importedEntries, ownEntries, entries, entries,
    (List.map_injective_iff.mpr to_entry_injective).eq_iff]
  exact contents_own_iff value_of_silent (fun _ _ same => Attributes.push_extra same) _

/-- Which texts are read as if each record stood alone. For two texts joined by a blank
line: the lines after the last record of the first leave no trace in the first record of
the second. For a file: no value line outside a record has a record after it. -/
theorem ldif_records_independent_iff (first second content : Bytes) (store : MemoryStore) :
    (Ldif.parseLdifText (first ++ newline :: newline :: second) =
        Ldif.parseLdifText first ++ Ldif.parseLdifText second ↔
      Ldif.Independent first second) ∧
    importFile store content = addAll store (importedEntries content) ∧
    (importedEntries content = ownEntries content ↔
      StrayFree mark valueOf none (getLines [] content)) :=
  ⟨Ldif.parse_append_iff first second, import_file_eq store content, imported_own_iff content⟩

/-- A value line before the first `dn` line ends up in the first record. -/
theorem stray_value_joins_record :
    Ldif.parseLdifText (text "cn: x" ++ newline :: newline :: text "dn: cn=a") ≠
        Ldif.parseLdifText (text "cn: x") ++ Ldif.parseLdifText (text "dn: cn=a") ∧
      importedEntries (text "cn: x" ++ newline :: newline :: text "dn: cn=a") ≠
        ownEntries (text "cn: x" ++ newline :: newline :: text "dn: cn=a") := by
  decide +kernel

end SimpleLdapd.LdifBackend
