import Mathlib.Data.List.DropRight
import SimpleLdapd.Backend.Memory

/-!
# The LDIF file backend (`backend/ldif.cpp`)

`exportFile` writes every entry as raw `name: value` lines and `importFile`
reads such lines back. The file is its bytes; opening and writing it is taken
to succeed. The reader trims each line, name and value, splits at the first
colon and gives a meaning of its own to blank lines, `#` and `dn:`, so the two
are inverse only on directories whose texts survive all of that.
-/

namespace SimpleLdapd.LdifBackend

open Dn

def newline : Byte := 10

def trimsAtEnd (byte : Byte) : Bool := byte = 13 || byte = chr ' ' || byte = 9

def trimsAtStart (byte : Byte) : Bool := byte = chr ' ' || byte = 9

def trimEnd (value : Bytes) : Bytes := value.rdropWhile trimsAtEnd

def trimInPlace (value : Bytes) : Bytes := (trimEnd value).dropWhile trimsAtStart

/-- The `std::getline` loop; `line` is what has been read of the current line. -/
def getLines (line : Bytes) : Bytes → List Bytes
  | [] => if line = [] then [] else [line]
  | byte :: rest =>
      if byte = newline then line :: getLines [] rest else getLines (line ++ [byte]) rest

structure ImportState where
  current : DirectoryEntry := {}
  store : MemoryStore

def flush (state : ImportState) : ImportState :=
  if state.current.dn ≠ [] then
    { current := {}, store := (MemoryBackend.add state.store state.current).2 }
  else state

def pushValue (state : ImportState) (name value : Bytes) : ImportState :=
  { state with current :=
      { state.current with attributes := Attributes.pushBack state.current.attributes name value } }

def startEntry (state : ImportState) (dn : Bytes) : ImportState :=
  { flush state with current := { (flush state).current with dn := dn } }

def importLine (state : ImportState) (raw : Bytes) : ImportState :=
  let line := trimInPlace raw
  if line = [] then flush state
  else if line.head? = some (chr '#') then state
  else if (text "dn:").isPrefixOf line then startEntry state (trimInPlace (line.drop 3))
  else
    match findByte (chr ':') line with
    | none => state
    | some colon =>
        pushValue state (trimInPlace (line.take colon)) (trimInPlace (line.drop (colon + 1)))

def importFile (store : MemoryStore) (content : Bytes) : MemoryStore :=
  (flush ((getLines [] content).foldl importLine { store := store })).store

def dnLine (dn : Bytes) : Bytes := text "dn: " ++ dn

def valueLine (name value : Bytes) : Bytes := name ++ text ": " ++ value

/-- The lines that `exportFile` writes for one entry. -/
def entryLines (entry : DirectoryEntry) : List Bytes :=
  dnLine entry.dn ::
    ((Attributes.flatten entry.attributes).map fun pair => valueLine pair.1 pair.2) ++ [[]]

def exportFile (store : MemoryStore) : Bytes :=
  (MemoryBackend.search store [] .subtree Filter.all).flatMap fun entry =>
    (entryLines entry).flatMap fun line => line ++ [newline]

/-- The two directories hold the same entries: DN, attributes and value lists. -/
def SameEntries (left right : MemoryStore) : Prop :=
  ∀ entry, entry ∈ left.entries.map Prod.snd ↔ entry ∈ right.entries.map Prod.snd

instance (left right : MemoryStore) : Decidable (SameEntries left right) :=
  decidable_of_iff
    ((∀ entry ∈ left.entries.map Prod.snd, entry ∈ right.entries.map Prod.snd) ∧
      ∀ entry ∈ right.entries.map Prod.snd, entry ∈ left.entries.map Prod.snd)
    ⟨fun same entry => ⟨same.1 entry, same.2 entry⟩,
      fun same => ⟨fun entry => (same entry).mp, fun entry => (same entry).mpr⟩⟩

/-- A text on one line that trimming leaves alone. -/
def Clean (value : Bytes) : Prop := trimInPlace value = value ∧ newline ∉ value

/-- A name that the reader finds again in front of the first colon of its line. -/
structure NameSurvives (name : Bytes) : Prop where
  clean : Clean name
  noColon : chr ':' ∉ name
  noComment : name.head? ≠ some (chr '#')

/-- The entries that a file can describe at all. -/
structure Importable (entry : DirectoryEntry) : Prop where
  dn : Clean entry.dn
  names : ∀ pair ∈ entry.attributes.entries, NameSurvives pair.1
  present : ∀ pair ∈ entry.attributes.entries, pair.2 ≠ []
  values : ∀ pair ∈ entry.attributes.entries, ∀ value ∈ pair.2, Clean value

/-- No attribute whose lines would read as the start of another entry. -/
def NoDnAttribute (entry : DirectoryEntry) : Prop :=
  ∀ pair ∈ entry.attributes.entries, pair.1 ≠ text "dn"

/-- The entries that come back from the file as they were. -/
def Survives (entry : DirectoryEntry) : Prop := Importable entry ∧ NoDnAttribute entry

section Trimming

theorem trim_end_keep (front : Bytes) {stop : Byte} (kept : trimsAtEnd stop = false)
    (back : Bytes) : trimEnd (front ++ stop :: back) = front ++ stop :: trimEnd back := by
  simp only [trimEnd, List.rdropWhile, List.reverse_append, List.reverse_cons, List.append_assoc,
    List.singleton_append, List.dropWhile_append]
  split_ifs with blank
  · rw [List.isEmpty_iff] at blank
    simp [blank, kept]
  · simp

theorem trim_end_blank {blank : Byte} (trimmed : trimsAtEnd blank = true) (back : Bytes) :
    trimEnd (blank :: back) = if trimEnd back = [] then [] else blank :: trimEnd back := by
  by_cases empty : trimEnd back = []
  · rw [if_pos empty]
    apply List.rdropWhile_eq_nil_iff.mpr
    intro byte member
    rcases List.mem_cons.mp member with here | later
    · rwa [here]
    · exact List.rdropWhile_eq_nil_iff.mp empty byte later
  · rw [if_neg empty]
    have kept : ¬ (back.reverse.dropWhile trimsAtEnd).isEmpty = true := by
      intro none
      apply empty
      rw [trimEnd, List.rdropWhile, List.isEmpty_iff.mp none, List.reverse_nil]
    simp only [trimEnd, List.rdropWhile, List.reverse_cons, List.dropWhile_append]
    rw [if_neg kept, List.reverse_append, List.reverse_singleton, List.singleton_append]

theorem trim_end_idempotent (value : Bytes) : trimEnd (trimEnd value) = trimEnd value :=
  List.rdropWhile_idempotent trimsAtEnd value

theorem trim_parts {value : Bytes} (trimmed : trimInPlace value = value) :
    trimEnd value = value ∧ value.dropWhile trimsAtStart = value := by
  have short := (List.rdropWhile_prefix trimsAtEnd value).length_le
  have shorter := (List.dropWhile_suffix trimsAtStart (l := trimEnd value)).length_le
  have lengths := congrArg List.length trimmed
  have atEnd : trimEnd value = value :=
    (List.rdropWhile_prefix trimsAtEnd value).eq_of_length (by
      unfold trimInPlace trimEnd at *
      omega)
  rw [trimInPlace, atEnd] at trimmed
  exact ⟨atEnd, trimmed⟩

theorem trim_of_parts {value : Bytes} (atEnd : trimEnd value = value)
    (atStart : value.dropWhile trimsAtStart = value) : trimInPlace value = value := by
  rw [trimInPlace, atEnd, atStart]

/-- Dropping leading blanks cannot uncover a trailing one. -/
theorem trim_end_drop_while (value : Bytes) (atEnd : trimEnd value = value) :
    trimEnd (value.dropWhile trimsAtStart) = value.dropWhile trimsAtStart := by
  apply List.rdropWhile_eq_self_iff.mpr
  intro nonempty
  obtain ⟨front, split⟩ := List.dropWhile_suffix trimsAtStart (l := value)
  have whole : value ≠ [] := by
    intro empty
    rw [empty] at nonempty
    simp at nonempty
  have last := List.rdropWhile_eq_self_iff.mp atEnd whole
  have same : value.getLast whole = (value.dropWhile trimsAtStart).getLast nonempty := by
    generalize value.dropWhile trimsAtStart = kept at split nonempty
    subst split
    exact List.getLast_append_of_ne_nil _ nonempty
  rwa [same] at last

theorem trim_idempotent (value : Bytes) : trimInPlace (trimInPlace value) = trimInPlace value := by
  apply trim_of_parts
  · exact trim_end_drop_while _ (trim_end_idempotent value)
  · exact List.dropWhile_idempotent trimsAtStart _

theorem trim_mem {value : Bytes} {byte : Byte} (member : byte ∈ trimInPlace value) :
    byte ∈ value :=
  (List.rdropWhile_prefix trimsAtEnd value).subset ((List.dropWhile_suffix trimsAtStart).subset member)

theorem clean_trim {value : Bytes} (oneLine : newline ∉ value) : Clean (trimInPlace value) :=
  ⟨trim_idempotent value, fun member => oneLine (trim_mem member)⟩

theorem trim_space (value : Bytes) :
    trimInPlace (trimEnd (chr ' ' :: value)) = trimInPlace value := by
  rw [trimInPlace, trim_end_idempotent, trim_end_blank (by decide)]
  split_ifs with empty
  · rw [trimInPlace, empty]
  · rw [trimInPlace]
    exact List.dropWhile_cons_of_pos (by decide)

end Trimming

section Lines

theorem get_lines_newline {front : Bytes} (oneLine : newline ∉ front) (line rest : Bytes) :
    getLines line (front ++ newline :: rest) = (line ++ front) :: getLines [] rest := by
  induction front generalizing line with
  | nil => simp [getLines]
  | cons byte front ih =>
      have different : byte ≠ newline := by
        intro same
        exact oneLine (by simp [same])
      rw [List.cons_append, getLines, if_neg different, ih (fun member => oneLine (by simp [member]))]
      simp

/-- Text that goes on after a line break: the lines before it, with a line of their own for
the break if the text before it ended in one. -/
theorem get_lines_append (line first rest : Bytes) :
    ∃ gap : List Bytes, (∀ raw ∈ gap, raw = []) ∧
      getLines line (first ++ newline :: rest) = getLines line first ++ gap ++ getLines [] rest := by
  induction first generalizing line with
  | nil =>
      by_cases empty : line = []
      · exact ⟨[[]], by simp, by simp [getLines, empty]⟩
      · exact ⟨[], by simp, by simp [getLines, empty]⟩
  | cons byte first ih =>
      by_cases ends : byte = newline
      · rcases ih [] with ⟨gap, blank, split⟩
        exact ⟨gap, blank, by simp [getLines, ends, split]⟩
      · rcases ih (line ++ [byte]) with ⟨gap, blank, split⟩
        exact ⟨gap, blank, by simp [getLines, ends, split]⟩

theorem get_lines_written (lines : List Bytes) (oneLine : ∀ line ∈ lines, newline ∉ line) :
    getLines [] (lines.flatMap fun line => line ++ [newline]) = lines := by
  induction lines with
  | nil => rfl
  | cons line rest ih =>
      rw [List.flatMap_cons, List.append_assoc, List.singleton_append,
        get_lines_newline (oneLine line (by simp)),
        ih (fun other member => oneLine other (by simp [member]))]
      rfl

theorem get_lines_one_line (line content : Bytes) (started : newline ∉ line) :
    ∀ read ∈ getLines line content, newline ∉ read := by
  induction content generalizing line with
  | nil =>
      intro read member
      rw [getLines] at member
      split_ifs at member with empty
      · simp at member
      · rw [List.mem_singleton] at member
        rwa [member]
  | cons byte rest ih =>
      intro read member
      rw [getLines] at member
      split_ifs at member with ended
      · rcases List.mem_cons.mp member with here | later
        · rwa [here]
        · exact ih [] (by simp) read later
      · exact ih (line ++ [byte]) (by simp [started, Ne.symm ended]) read member

theorem name_survives_read {raw before after : Bytes} (oneLine : newline ∉ raw)
    (split : trimInPlace raw = before ++ chr ':' :: after) (noColon : chr ':' ∉ before)
    (noComment : (trimInPlace raw).head? ≠ some (chr '#')) : NameSurvives (trimInPlace before) := by
  have inLine : ∀ byte ∈ before, byte ∈ raw := by
    intro byte member
    apply trim_mem
    rw [split]
    simp [member]
  refine ⟨clean_trim (fun member => oneLine (inLine _ member)),
    fun member => noColon (trim_mem member), ?_⟩
  -- The first byte of the line is no blank, so trimming the name keeps it in front.
  cases before with
  | nil => simp [trimInPlace, trimEnd]
  | cons first rest =>
      have atStart := (trim_parts (trim_idempotent raw)).2
      rw [split, List.cons_append] at atStart noComment
      have visible : ¬ trimsAtStart first = true := by
        have head := List.dropWhile_eq_self_iff.mp atStart (by simp)
        simpa using head
      obtain ⟨back, prefixed⟩ := List.rdropWhile_prefix trimsAtEnd (first :: rest)
      rw [trimInPlace, trimEnd]
      cases shape : (first :: rest).rdropWhile trimsAtEnd with
      | nil => simp
      | cons byte kept =>
          rw [shape, List.cons_append, List.cons.injEq] at prefixed
          rw [prefixed.1, List.dropWhile_cons_of_neg visible]
          simpa using noComment

end Lines

section Importing

/-- Everything one line can do to the import state. -/
theorem import_line_cases (state : ImportState) {raw : Bytes} (oneLine : newline ∉ raw) :
    importLine state raw = flush state ∨ importLine state raw = state ∨
      (∃ dn, Clean dn ∧ importLine state raw = startEntry state dn) ∨
      ∃ name value, NameSurvives name ∧ Clean value ∧
        importLine state raw = pushValue state name value := by
  have noBreak : ∀ {part : Bytes}, part ⊆ trimInPlace raw → newline ∉ part := by
    intro part included member
    exact oneLine (trim_mem (included member))
  unfold importLine
  by_cases empty : trimInPlace raw = []
  · exact Or.inl (by simp [empty])
  by_cases comment : (trimInPlace raw).head? = some (chr '#')
  · exact Or.inr (Or.inl (by simp [empty, comment]))
  by_cases start : (text "dn:").isPrefixOf (trimInPlace raw) = true
  · right; right; left
    refine ⟨trimInPlace ((trimInPlace raw).drop 3), clean_trim (noBreak ?_), ?_⟩
    · exact (List.drop_suffix 3 (trimInPlace raw)).subset
    · simp [empty, comment, start]
  cases found : findByte (chr ':') (trimInPlace raw) with
  | none => exact Or.inr (Or.inl (by simp [empty, comment, start, found]))
  | some colon =>
      right; right; right
      obtain ⟨before, after, split, position, noColon⟩ := find_byte_some found
      have inFront : (trimInPlace raw).take colon = before := by
        rw [split, ← position]
        simp
      refine ⟨trimInPlace ((trimInPlace raw).take colon),
        trimInPlace ((trimInPlace raw).drop (colon + 1)), ?_, clean_trim (noBreak ?_), ?_⟩
      · rw [inFront]
        exact name_survives_read oneLine split noColon comment
      · exact (List.drop_suffix (colon + 1) (trimInPlace raw)).subset
      · simp [empty, comment, start, found]

theorem dn_prefix_iff {name : Bytes} (noColon : chr ':' ∉ name) (rest : Bytes) :
    (text "dn:").isPrefixOf (name ++ chr ':' :: rest) = true ↔ name = text "dn" := by
  have literal : text "dn:" = [chr 'd', chr 'n', chr ':'] := rfl
  rw [List.isPrefixOf_iff_prefix, literal]
  constructor
  · intro starts
    match name with
    | [] => exact absurd (List.cons_prefix_cons.mp starts).1 (by decide)
    | [first] =>
        have second := (List.cons_prefix_cons.mp starts).2
        exact absurd (List.cons_prefix_cons.mp second).1 (by decide)
    | [first, second] =>
        obtain ⟨atFirst, tail⟩ := List.cons_prefix_cons.mp starts
        obtain ⟨atSecond, _⟩ := List.cons_prefix_cons.mp tail
        rw [← atFirst, ← atSecond]
        rfl
    | first :: second :: third :: more =>
        have tail := (List.cons_prefix_cons.mp (List.cons_prefix_cons.mp starts).2).2
        have atThird := (List.cons_prefix_cons.mp tail).1
        rw [← atThird] at noColon
        exact absurd (by simp) noColon
  · intro same
    rw [same]
    exact ⟨rest, rfl⟩

/-- Trimming a line leaves its name and its first colon. -/
theorem NameSurvives.trimmed_line {name : Bytes} (survives : NameSurvives name) (raw : Bytes) :
    trimInPlace (name ++ chr ':' :: raw) = name ++ chr ':' :: trimEnd raw := by
  rw [trimInPlace, trim_end_keep name (by decide)]
  cases name with
  | nil => exact List.dropWhile_cons_of_neg (by decide)
  | cons first rest =>
      have visible := List.dropWhile_eq_self_iff.mp (trim_parts survives.clean.1).2 (by simp)
      exact List.dropWhile_cons_of_neg (by simpa using visible)

/-- No line with such a name in front of its colon is a comment. -/
theorem NameSurvives.no_comment_line {name : Bytes} (survives : NameSurvives name) (raw : Bytes) :
    (name ++ chr ':' :: raw).head? ≠ some (chr '#') := by
  cases name with
  | nil => exact fun same => absurd (Option.some.inj same) (by decide)
  | cons first rest => exact survives.noComment

theorem take_name (name raw : Bytes) : (name ++ chr ':' :: raw).take name.length = name := by
  simp

theorem drop_name (name raw : Bytes) :
    (name ++ chr ':' :: raw).drop (name.length + 1) = raw := by
  simp [List.drop_append]

/-- A written line whose name survives is split at its own colon. -/
theorem import_value_line (state : ImportState) {name : Bytes} (survives : NameSurvives name)
    (value : Bytes) :
    importLine state (valueLine name value) =
      if name = text "dn" then startEntry state (trimInPlace value)
      else pushValue state name (trimInPlace value) := by
  have written : valueLine name value = name ++ chr ':' :: chr ' ' :: value := by
    simp [valueLine, text]
  have line := survives.trimmed_line (chr ' ' :: value)
  have nonempty : name ++ chr ':' :: trimEnd (chr ' ' :: value) ≠ [] := by simp
  unfold importLine
  rw [written, line, if_neg nonempty, if_neg (survives.no_comment_line _)]
  simp only [dn_prefix_iff survives.noColon, find_byte_append survives.noColon]
  split_ifs with isDn
  · rw [isDn]
    exact congrArg (startEntry state) (trim_space value)
  · rw [take_name, drop_name, survives.clean.1, trim_space]

theorem dn_name_survives : NameSurvives (text "dn") where
  clean := ⟨by decide +kernel, by decide +kernel⟩
  noColon := by decide +kernel
  noComment := by decide +kernel

theorem import_dn_line (state : ImportState) (dn : Bytes) :
    importLine state (dnLine dn) = startEntry state (trimInPlace dn) := by
  have parsed := import_value_line state dn_name_survives dn
  rw [if_pos rfl] at parsed
  exact parsed

theorem import_blank_line (state : ImportState) : importLine state [] = flush state := rfl

end Importing

section Kept

variable {Property : DirectoryEntry → Prop}

/-- A property of every entry imported so far and of the one under construction. -/
def Holds (Property : DirectoryEntry → Prop) (state : ImportState) : Prop :=
  (∀ pair ∈ state.store.entries, Property pair.2) ∧ Property state.current

theorem holds_flush (fresh : Property {}) {state : ImportState} (holds : Holds Property state) :
    Holds Property (flush state) := by
  unfold flush
  split_ifs with named
  · refine ⟨?_, fresh⟩
    intro pair member
    rcases MemoryBackend.add_cases state.store state.current with ⟨_, _, added⟩ | ⟨_, refused⟩
    · simp only [added, OrderedMap.mem_insert] at member
      rcases member with here | ⟨older, _⟩
      · rw [here]
        exact holds.2
      · exact holds.1 pair older
    · simp only [refused] at member
      exact holds.1 pair member
  · exact holds

theorem clean_nil : Clean [] := ⟨rfl, by simp⟩

theorem importable_empty : Importable {} := by
  refine ⟨clean_nil, ?_, ?_, ?_⟩ <;> simp

theorem Importable.with_dn {entry : DirectoryEntry} (importable : Importable entry) {dn : Bytes}
    (clean : Clean dn) : Importable { entry with dn := dn } :=
  ⟨clean, importable.names, importable.present, importable.values⟩

theorem Importable.push {entry : DirectoryEntry} (importable : Importable entry)
    {name value : Bytes} (survives : NameSurvives name) (clean : Clean value) :
    Importable { entry with attributes := Attributes.pushBack entry.attributes name value } := by
  refine ⟨importable.dn, ?_, ?_, ?_⟩
  · intro pair member
    rcases Attributes.mem_push_back member with older | ⟨same, _⟩
    · exact importable.names pair older
    · rwa [same]
  · intro pair member
    rcases Attributes.mem_push_back member with older | ⟨_, earlier, shape, _⟩
    · exact importable.present pair older
    · simp [shape]
  · intro pair member stored valueMember
    rcases Attributes.mem_push_back member with older | ⟨_, earlier, shape, origin⟩
    · exact importable.values pair older stored valueMember
    · rw [shape, List.mem_append, List.mem_singleton] at valueMember
      rcases valueMember with before | last
      · rcases origin with none | older
        · simp [none] at before
        · exact importable.values (name, earlier) older stored before
      · rwa [last]

/-- Whatever the file holds, it describes importable entries only. -/
theorem import_file_importable (content : Bytes) :
    ∀ pair ∈ (importFile OrderedMap.empty content).entries, Importable pair.2 := by
  have step : ∀ (lines : List Bytes) (state : ImportState),
      (∀ line ∈ lines, newline ∉ line) → Holds Importable state →
        Holds Importable (lines.foldl importLine state) := by
    intro lines
    induction lines with
    | nil => exact fun _ _ holds => holds
    | cons line rest ih =>
        intro state oneLine holds
        have later : ∀ other ∈ rest, newline ∉ other :=
          fun other member => oneLine other (by simp [member])
        rw [List.foldl_cons]
        rcases import_line_cases state (oneLine line (by simp)) with
          flushed | same | ⟨dn, clean, started⟩ | ⟨name, value, survives, clean, pushed⟩
        · rw [flushed]
          exact ih _ later (holds_flush importable_empty holds)
        · rw [same]
          exact ih _ later holds
        · rw [started]
          have closed := holds_flush importable_empty holds
          exact ih _ later ⟨closed.1, closed.2.with_dn clean⟩
        · rw [pushed]
          exact ih _ later ⟨holds.1, holds.2.push survives clean⟩
  have start : Holds Importable { store := OrderedMap.empty } :=
    ⟨by simp, importable_empty⟩
  exact (holds_flush importable_empty
    (step _ _ (get_lines_one_line [] content (by simp)) start)).1

end Kept

section RoundTrip

/-- All the lines of an exported directory, in file order. -/
def exportLines (store : MemoryStore) : List Bytes :=
  (store.entries.map Prod.snd).flatMap entryLines

theorem export_file_lines (store : MemoryStore) :
    exportFile store = (exportLines store).flatMap fun line => line ++ [newline] := by
  have everything : MemoryBackend.search store [] .subtree Filter.all =
      store.entries.map Prod.snd := by
    have kept : ∀ pair ∈ store.entries,
        (Backend.inScope .subtree pair.1 [] && Filter.all.matchesEntry pair.2) = true :=
      fun _ _ => rfl
    rw [MemoryBackend.search, List.filter_eq_self.mpr kept]
  rw [exportFile, everything, exportLines, List.flatMap_assoc]

theorem mem_entry_lines {entry : DirectoryEntry} {line : Bytes}
    (member : line ∈ entryLines entry) :
    line = [] ∨ line = dnLine entry.dn ∨
      ∃ pair ∈ entry.attributes.entries, ∃ value ∈ pair.2, line = valueLine pair.1 value := by
  simp only [entryLines, List.cons_append, List.mem_cons, List.mem_append, List.mem_map,
    List.not_mem_nil, or_false] at member
  rcases member with first | ⟨⟨name, value⟩, flat, written⟩ | last
  · exact Or.inr (Or.inl first)
  · obtain ⟨pair, stored, same, inside⟩ := Attributes.mem_flatten.mp flat
    exact Or.inr (Or.inr ⟨pair, stored, value, inside, by rw [same, written]⟩)
  · exact Or.inl last

theorem entry_lines_one_line {entry : DirectoryEntry} (importable : Importable entry) :
    ∀ line ∈ entryLines entry, newline ∉ line := by
  intro line member
  rcases mem_entry_lines member with blank | first | ⟨pair, stored, value, valueMember, written⟩
  · simp [blank]
  · rw [first, dnLine, List.mem_append]
    exact not_or.mpr ⟨by decide, importable.dn.2⟩
  · rw [written, valueLine, List.mem_append, List.mem_append]
    have name := (importable.names pair stored).clean.2
    have text := (importable.values pair stored value valueMember).2
    exact not_or.mpr ⟨not_or.mpr ⟨name, by decide⟩, text⟩

theorem lines_of_export {store : MemoryStore}
    (importable : ∀ pair ∈ store.entries, Importable pair.2) :
    getLines [] (exportFile store) = exportLines store := by
  rw [export_file_lines]
  apply get_lines_written
  intro line member
  obtain ⟨entry, stored, written⟩ := List.mem_flatMap.mp member
  obtain ⟨pair, pairMember, same⟩ := List.mem_map.mp stored
  rw [← same] at written
  exact entry_lines_one_line (importable pair pairMember) line written

theorem NoDnAttribute.push {entry : DirectoryEntry} (absent : NoDnAttribute entry)
    {name : Bytes} (different : name ≠ text "dn") (value : Bytes) :
    NoDnAttribute { entry with attributes := Attributes.pushBack entry.attributes name value } := by
  intro pair member
  rcases Attributes.mem_push_back member with older | ⟨same, _⟩
  · exact absent pair older
  · rwa [same]

/-- A line whose trimmed name is its written name never yields an attribute `dn`. -/
theorem import_exported_line {entry : DirectoryEntry} (importable : Importable entry)
    {line : Bytes} (member : line ∈ entryLines entry) {state : ImportState}
    (holds : Holds NoDnAttribute state) : Holds NoDnAttribute (importLine state line) := by
  have fresh : NoDnAttribute {} := by
    intro pair absurdMember
    simp at absurdMember
  have closed := holds_flush fresh holds
  rcases mem_entry_lines member with blank | first | ⟨pair, stored, value, _, written⟩
  · rw [blank]
    exact closed
  · rw [first, import_dn_line]
    exact ⟨closed.1, closed.2⟩
  · rw [written, import_value_line state (importable.names pair stored)]
    split_ifs with isDn
    · exact ⟨closed.1, closed.2⟩
    · exact ⟨holds.1, holds.2.push isDn _⟩

theorem import_export_no_dn {store : MemoryStore}
    (importable : ∀ pair ∈ store.entries, Importable pair.2) :
    ∀ pair ∈ (importFile OrderedMap.empty (exportFile store)).entries,
      NoDnAttribute pair.2 := by
  have fresh : NoDnAttribute {} := by
    intro pair absurdMember
    simp at absurdMember
  have step : ∀ (lines : List Bytes), (∀ line ∈ lines, ∃ entry, Importable entry ∧
      line ∈ entryLines entry) → ∀ state, Holds NoDnAttribute state →
        Holds NoDnAttribute (lines.foldl importLine state) := by
    intro lines
    induction lines with
    | nil => exact fun _ _ holds => holds
    | cons line rest ih =>
        intro origin state holds
        obtain ⟨entry, described, member⟩ := origin line (by simp)
        rw [List.foldl_cons]
        exact ih (fun other later => origin other (by simp [later])) _
          (import_exported_line described member holds)
  have origin : ∀ line ∈ exportLines store, ∃ entry, Importable entry ∧
      line ∈ entryLines entry := by
    intro line member
    obtain ⟨entry, stored, written⟩ := List.mem_flatMap.mp member
    obtain ⟨pair, pairMember, same⟩ := List.mem_map.mp stored
    exact ⟨entry, same ▸ importable pair pairMember, written⟩
  unfold importFile
  rw [lines_of_export importable]
  exact (holds_flush fresh (step _ origin { store := OrderedMap.empty } ⟨by simp, fresh⟩)).1

/-- The attributes under construction, in a state that has started an entry. -/
def building (dn : Bytes) (store : MemoryStore) (attributes : Attributes) : ImportState :=
  { current := { dn := dn, attributes := attributes }, store := store }

theorem import_pairs (pairs : List (Bytes × Bytes))
    (survive : ∀ pair ∈ pairs, NameSurvives pair.1 ∧ pair.1 ≠ text "dn" ∧ Clean pair.2)
    (dn : Bytes) (store : MemoryStore) (attributes : Attributes) :
    (pairs.map fun pair => valueLine pair.1 pair.2).foldl importLine
        (building dn store attributes) =
      building dn store (Attributes.pushAll attributes pairs) := by
  induction pairs generalizing attributes with
  | nil => rfl
  | cons pair rest ih =>
      obtain ⟨survives, different, clean⟩ := survive pair (by simp)
      rw [List.map_cons, List.foldl_cons, import_value_line _ survives, if_neg different, clean.1]
      exact ih (fun other member => survive other (by simp [member])) _

/-- The lines of a surviving entry add exactly that entry. -/
theorem import_entry {entry : DirectoryEntry} (survives : Survives entry) (named : entry.dn ≠ [])
    (store : MemoryStore) :
    (entryLines entry).foldl importLine { store := store } =
      { store := (MemoryBackend.add store entry).2 } := by
  obtain ⟨importable, noDn⟩ := survives
  have started : importLine { store := store } (dnLine entry.dn) =
      building entry.dn store OrderedMap.empty := by
    rw [import_dn_line, importable.dn.1]
    rfl
  have survive : ∀ pair ∈ Attributes.flatten entry.attributes,
      NameSurvives pair.1 ∧ pair.1 ≠ text "dn" ∧ Clean pair.2 := by
    intro pair member
    obtain ⟨stored, storedMember, same, inside⟩ := Attributes.mem_flatten.mp member
    rw [← same]
    exact ⟨importable.names stored storedMember, noDn stored storedMember,
      importable.values stored storedMember pair.2 inside⟩
  have filled := import_pairs _ survive entry.dn store OrderedMap.empty
  rw [Attributes.push_flatten _ importable.present] at filled
  rw [entryLines, List.cons_append, List.foldl_cons, started, List.foldl_append, filled]
  simp [import_blank_line, flush, building, named]

theorem import_entries (entries : List DirectoryEntry)
    (survive : ∀ entry ∈ entries, Survives entry ∧ entry.dn ≠ []) (store : MemoryStore) :
    (entries.flatMap entryLines).foldl importLine { store := store } =
      { store := entries.foldl (fun built entry => (MemoryBackend.add built entry).2) store } := by
  induction entries generalizing store with
  | nil => rfl
  | cons entry rest ih =>
      obtain ⟨survives, named⟩ := survive entry (by simp)
      rw [List.flatMap_cons, List.foldl_append, import_entry survives named, List.foldl_cons]
      exact ih (fun other member => survive other (by simp [member])) _

/-- Adding entries with different DNs loses none of them. -/
theorem mem_added_entries (entries : List DirectoryEntry)
    (apart : entries.Pairwise fun left right => toLowerAscii left.dn ≠ toLowerAscii right.dn)
    (named : ∀ entry ∈ entries, entry.dn ≠ []) (store : MemoryStore)
    (free : ∀ entry ∈ entries, MemoryBackend.lookup store entry.dn = none)
    (wanted : DirectoryEntry) :
    wanted ∈ (entries.foldl (fun built entry =>
        (MemoryBackend.add built entry).2) store).entries.map Prod.snd ↔
      wanted ∈ store.entries.map Prod.snd ∨ wanted ∈ entries := by
  induction entries generalizing store with
  | nil => simp
  | cons entry rest ih =>
      obtain ⟨fresh, restApart⟩ := List.pairwise_cons.mp apart
      have unused := free entry (by simp)
      have added : MemoryBackend.add store entry = (true, store.insert entry.dn entry) := by
        rcases MemoryBackend.add_cases store entry with ⟨_, _, added⟩ | ⟨taken | taken, _⟩
        · exact added
        · exact absurd taken (named entry (by simp))
        · exact absurd unused taken
      have absent := (OrderedMap.findBy_eq_none_iff _ _ _).mp
        ((MemoryBackend.lookup_eq_none_iff store entry.dn).mp unused)
      have stillFree : ∀ other ∈ rest,
          MemoryBackend.lookup (store.insert entry.dn entry) other.dn = none := by
        intro other member
        rw [MemoryBackend.lookup_eq_none_iff, OrderedMap.findBy_eq_none_iff]
        intro pair stored
        rcases (OrderedMap.mem_insert _ _ _ _).mp stored with here | ⟨older, _⟩
        · rw [here]
          exact fresh other member
        · exact (OrderedMap.findBy_eq_none_iff _ _ _).mp
            ((MemoryBackend.lookup_eq_none_iff store other.dn).mp
              (free other (by simp [member]))) pair older
      rw [List.foldl_cons, added,
        ih restApart (fun other member => named other (by simp [member])) _ stillFree]
      simp only [List.mem_map, OrderedMap.mem_insert, List.mem_cons]
      constructor
      · intro member
        rcases member with ⟨pair, here | ⟨older, _⟩, same⟩ | later
        · rw [here] at same
          exact Or.inr (Or.inl same.symm)
        · exact Or.inl ⟨pair, older, same⟩
        · exact Or.inr (Or.inr later)
      · intro member
        rcases member with ⟨pair, older, same⟩ | here | later
        · refine Or.inl ⟨pair, Or.inr ⟨older, ?_⟩, same⟩
          intro equal
          exact absent pair older (by rw [equal])
        · exact Or.inl ⟨(entry.dn, entry), Or.inl rfl, here.symm⟩
        · exact Or.inr later

theorem same_entries_of_survive {store : MemoryStore}
    (invariant : MemoryBackend.StoreInvariant store)
    (survive : ∀ pair ∈ store.entries, Survives pair.2) :
    SameEntries (importFile OrderedMap.empty (exportFile store)) store := by
  have named : ∀ pair ∈ store.entries, pair.2.dn ≠ [] := by
    intro pair member empty
    have same := invariant.sameDn pair member
    rw [empty] at same
    exact invariant.named pair member ((to_lower_eq_nil pair.1).mp same.symm)
  have apart : (store.entries.map Prod.snd).Pairwise fun left right =>
      toLowerAscii left.dn ≠ toLowerAscii right.dn := by
    rw [List.pairwise_map]
    apply List.Pairwise.imp_of_mem _ invariant.distinct
    intro left right leftMember rightMember different
    rw [invariant.sameDn left leftMember, invariant.sameDn right rightMember]
    exact different
  have described : ∀ entry ∈ store.entries.map Prod.snd, Survives entry ∧ entry.dn ≠ [] := by
    intro entry member
    obtain ⟨pair, stored, same⟩ := List.mem_map.mp member
    rw [← same]
    exact ⟨survive pair stored, named pair stored⟩
  intro wanted
  unfold importFile
  rw [lines_of_export (fun pair member => (survive pair member).1), exportLines,
    import_entries _ described]
  have members := mem_added_entries _ apart (fun entry member => (described entry member).2)
    OrderedMap.empty (fun _ _ => rfl) wanted
  simpa [flush] using members

/-- Importing an export gives the same entries back exactly when every stored entry survives. -/
theorem import_export_iff {store : MemoryStore} (reachable : MemoryBackend.Reachable store) :
    SameEntries (importFile OrderedMap.empty (exportFile store)) store ↔
      ∀ pair ∈ store.entries, Survives pair.2 := by
  constructor
  · intro same
    have imported : ∀ pair ∈ store.entries,
        pair.2 ∈ (importFile OrderedMap.empty (exportFile store)).entries.map Prod.snd := by
      intro pair member
      exact (same pair.2).mpr (List.mem_map.mpr ⟨pair, member, rfl⟩)
    have importable : ∀ pair ∈ store.entries, Importable pair.2 := by
      intro pair member
      obtain ⟨read, readMember, equal⟩ := List.mem_map.mp (imported pair member)
      rw [← equal]
      exact import_file_importable _ read readMember
    intro pair member
    obtain ⟨read, readMember, equal⟩ := List.mem_map.mp (imported pair member)
    refine ⟨importable pair member, ?_⟩
    rw [← equal]
    exact import_export_no_dn importable read readMember
  · exact same_entries_of_survive reachable.invariant

def plainStore : MemoryStore :=
  (MemoryBackend.exec (.add
    { dn := text "cn=ann,dc=com"
      attributes := (OrderedMap.empty.insert (text "cn") [text "ann", text "Ann B"]).insert
        (text "mail") [text "a: b"] }) OrderedMap.empty).2

theorem plain_store_survives :
    SameEntries (importFile OrderedMap.empty (exportFile plainStore)) plainStore ∧
      ∀ pair ∈ plainStore.entries, Survives pair.2 := by
  have same : SameEntries (importFile OrderedMap.empty (exportFile plainStore)) plainStore := by
    decide +kernel
  exact ⟨same, (import_export_iff (.step _ .empty)).mp same⟩

/-- One value that holds a line break, a blank line and a `dn:` line. -/
def smugglingStore : MemoryStore :=
  (MemoryBackend.exec (.add
    { dn := text "cn=a"
      attributes := OrderedMap.empty.insert (text "description") [text "x\n\ndn: cn=evil"] })
    OrderedMap.empty).2

theorem value_creates_entry :
    MemoryBackend.Reachable smugglingStore ∧
      MemoryBackend.lookup smugglingStore (text "cn=evil") = none ∧
      MemoryBackend.lookup (importFile OrderedMap.empty (exportFile smugglingStore))
        (text "cn=evil") = some { dn := text "cn=evil" } ∧
      ¬ SameEntries (importFile OrderedMap.empty (exportFile smugglingStore)) smugglingStore :=
  ⟨.step _ .empty, by decide +kernel, by decide +kernel, by decide +kernel⟩

end RoundTrip

end SimpleLdapd.LdifBackend
