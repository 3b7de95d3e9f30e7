import SimpleLdapd.Protocol.Ldif

/-!
# Round trip of LDIF content (`protocol/ldif.cpp`)

What `formatLdif` writes is read back as it was when no text is trimmed away and
no name has a meaning of its own. The reader takes every physical line by itself:
a folded line is two lines to it, and a base64 value is its code.
-/

namespace SimpleLdapd.Ldif

open Dn LdifBackend LineMark

/-- The names that `parseLdifText` does not take for attributes. -/
def ldifKeywords : List Bytes :=
  [text "dn", text "version", text "changetype", text "newrdn", text "deleteoldrdn",
    text "newsuperior", text "add", text "delete", text "replace"]

/-- A name that is found again in front of the first colon of its line. -/
structure PlainName (name : Bytes) : Prop where
  survives : NameSurvives name
  noVersion : iequals name (text "version") = false

/-- An attribute name: no keyword in any case. -/
structure AttributeName (name : Bytes) : Prop where
  survives : NameSurvives name
  ordinary : ∀ keyword ∈ ldifKeywords, iequals name keyword = false

/-- A line with the name in front of its first colon. -/
def fieldLine (name raw : Bytes) : Bytes := name ++ chr ':' :: raw

section Lines

theorem lower_byte_colon : ∀ byte : Byte, toLowerByte byte = chr ':' ↔ byte = chr ':' := by
  decide +kernel

theorem colon_mem_to_lower (value : Bytes) :
    chr ':' ∈ toLowerAscii value ↔ chr ':' ∈ value := by
  simp [toLowerAscii, lower_byte_colon]

theorem to_lower_colon (before after : Bytes) :
    toLowerAscii (before ++ chr ':' :: after) =
      toLowerAscii before ++ chr ':' :: toLowerAscii after := by
  simp [toLowerAscii, (lower_byte_colon (chr ':')).mpr rfl]

/-- The test for a `version:` line looks at nothing but the name. -/
theorem version_test {name : Bytes} (noColon : chr ':' ∉ name) (rest : Bytes) :
    iequals ((name ++ chr ':' :: rest).take 8) (text "version:") = true →
      iequals name (text "version") = true := by
  intro matched
  have literal : toLowerAscii (text "version:") = toLowerAscii (text "version") ++ [chr ':'] := by
    decide +kernel
  rw [iequals_iff, literal] at matched
  have colon : chr ':' ∈ (name ++ chr ':' :: rest).take 8 := by
    rw [← colon_mem_to_lower, matched]
    exact List.mem_append_right _ List.mem_cons_self
  have short : name.length < 8 := by
    by_contra long
    rw [List.take_append_of_le_length (by omega)] at colon
    exact noColon (List.mem_of_mem_take colon)
  have front : (name ++ chr ':' :: rest).take 8 =
      name ++ chr ':' :: rest.take (7 - name.length) := by
    rw [List.take_append, List.take_of_length_le (by omega),
      show 8 - name.length = (7 - name.length) + 1 by omega, List.take_succ_cons]
  have lower : chr ':' ∉ toLowerAscii name := by rwa [colon_mem_to_lower]
  rw [front, to_lower_colon] at matched
  have same := congrArg (findByte (chr ':')) matched
  rw [find_byte_append lower, find_byte_append (by decide +kernel)] at same
  rw [iequals_iff]
  exact (List.append_inj matched (Option.some.inj same)).1

/-- The line is split at its own colon and the rest is trimmed. -/
theorem PlainName.line_of {name : Bytes} (plain : PlainName name) (raw : Bytes) :
    lineOf (fieldLine name raw) = fieldOf name (trimInPlace raw) := by
  have survives := plain.survives
  have unversioned :
      ¬iequals ((name ++ chr ':' :: trimEnd raw).take 8) (text "version:") = true := by
    intro matched
    have noVersion := plain.noVersion
    rw [version_test survives.noColon _ matched] at noVersion
    cases noVersion
  have after : trimInPlace (trimEnd raw) = trimInPlace raw := by
    rw [trimInPlace, trim_end_idempotent, trimInPlace]
  unfold lineOf fieldLine
  simp only [survives.trimmed_line]
  rw [if_neg (by simp), if_neg (survives.no_comment_line _), if_neg unversioned,
    find_byte_append survives.noColon]
  simp only [take_name, drop_name, survives.clean.1, after]

theorem AttributeName.plain {name : Bytes} (named : AttributeName name) : PlainName name :=
  ⟨named.survives, named.ordinary _ (by decide +kernel)⟩

theorem AttributeName.line_of {name : Bytes} (named : AttributeName name) (raw : Bytes) :
    lineOf (fieldLine name raw) = .value name (trimInPlace raw) := by
  have ordinary := named.ordinary
  simp only [ldifKeywords, List.mem_cons, List.not_mem_nil, or_false, forall_eq_or_imp,
    forall_eq] at ordinary
  rw [named.plain.line_of]
  simp [fieldOf, ordinary]

theorem dn_plain_name : PlainName (text "dn") := ⟨dn_name_survives, by decide +kernel⟩

theorem line_of_dn (raw : Bytes) :
    lineOf (fieldLine (text "dn") raw) = .dn (trimInPlace raw) := by
  rw [dn_plain_name.line_of, fieldOf, if_pos (by decide +kernel)]

theorem field_one_line {name raw : Bytes} (noName : newline ∉ name) (noRaw : newline ∉ raw) :
    newline ∉ fieldLine name raw := by
  simp only [fieldLine, List.mem_append, List.mem_cons, not_or]
  exact ⟨noName, by decide, noRaw⟩

theorem trim_blank {blank : Byte} (trimmed : trimsAtStart blank = true) (raw : Bytes) :
    trimInPlace (blank :: raw) = trimInPlace raw := by
  have atEnd : trimsAtEnd blank = true := by
    simp only [trimsAtStart, trimsAtEnd, Bool.or_eq_true, decide_eq_true_eq] at trimmed ⊢
    tauto
  rw [trimInPlace, trim_end_blank atEnd]
  split_ifs with empty
  · rw [trimInPlace, empty]
  · rw [List.dropWhile_cons_of_pos trimmed, trimInPlace]

/-- A continuation line is the line without its leading blank. -/
theorem line_of_blank {blank : Byte} (trimmed : trimsAtStart blank = true) (raw : Bytes) :
    lineOf (blank :: raw) = lineOf raw := by
  rw [lineOf, lineOf, trim_blank trimmed]

end Lines

section Records

/-- A record of content as it is written: the raw text behind `dn:` and behind each name, and
the empty lines that follow. -/
structure WrittenRecord where
  dn : Bytes
  fields : List (Bytes × Bytes)
  gap : List Bytes

namespace WrittenRecord

def lines (record : WrittenRecord) : List Bytes :=
  fieldLine (text "dn") record.dn :: record.fields.map fun field => fieldLine field.1 field.2

/-- The record that the reader makes of it. -/
def read (record : WrittenRecord) : LdifRecord where
  dn := trimInPlace record.dn
  entry :=
    { dn := trimInPlace record.dn
      attributes := Attributes.pushAll OrderedMap.empty
        (record.fields.map fun field => (field.1, trimInPlace field.2)) }

/-- One line for each field, each with a name that stays an attribute, and a DN. -/
structure Sound (record : WrittenRecord) : Prop where
  named : trimInPlace record.dn ≠ []
  dnLine : newline ∉ record.dn
  names : ∀ field ∈ record.fields, AttributeName field.1
  oneLine : ∀ field ∈ record.fields, newline ∉ field.2
  gap : ∀ raw ∈ record.gap, lineOf raw = .blank ∧ newline ∉ raw

variable {record : WrittenRecord}

theorem Sound.lines_one_line (sound : record.Sound) : ∀ line ∈ record.lines, newline ∉ line := by
  intro line member
  rcases List.mem_cons.mp member with first | later
  · rw [first]
    exact field_one_line dn_name_survives.clean.2 sound.dnLine
  · rcases List.mem_map.mp later with ⟨field, inside, same⟩
    rw [← same]
    exact field_one_line (sound.names field inside).survives.clean.2 (sound.oneLine field inside)

theorem Sound.value_of (sound : record.Sound) {field : Bytes × Bytes}
    (member : field ∈ record.fields) :
    valueOf (fieldLine field.1 field.2) = some (field.1, trimInPlace field.2) := by
  rw [valueOf, (sound.names field member).line_of]

theorem Sound.mark_field (sound : record.Sound) {line : Bytes}
    (member : line ∈ record.fields.map fun field => fieldLine field.1 field.2) :
    mark line = .body := by
  rcases List.mem_map.mp member with ⟨field, inside, same⟩
  rw [← same, mark, (sound.names field inside).line_of]

theorem Sound.mark_dn (sound : record.Sound) :
    mark (fieldLine (text "dn") record.dn) = .header (some (trimInPlace record.dn)) := by
  rw [mark, line_of_dn]
  simp only [keyOf, if_neg sound.named]

theorem Sound.values (sound : record.Sound) :
    record.lines.filterMap valueOf =
      record.fields.map fun field => (field.1, trimInPlace field.2) := by
  have none : valueOf (fieldLine (text "dn") record.dn) = none := by rw [valueOf, line_of_dn]
  rw [lines, List.filterMap_cons, none, List.filterMap_map]
  apply List.filterMap_eq_map_iff_forall_eq_some.mpr
  exact fun field member => sound.value_of member

/-- What the lines of content look like to the reader. -/
theorem Sound.line_cases (sound : record.Sound) {stray : List Bytes}
    (blank : ∀ raw ∈ stray, lineOf raw = .blank) {raw : Bytes}
    (member : raw ∈ stray ++ record.lines) :
    lineOf raw = .blank ∨ (∃ value, lineOf raw = .dn value) ∨
      ∃ name value, lineOf raw = .value name value := by
  rcases List.mem_append.mp member with before | own
  · exact Or.inl (blank raw before)
  · rcases List.mem_cons.mp own with first | later
    · rw [first]
      exact Or.inr (Or.inl ⟨_, line_of_dn record.dn⟩)
    · rcases List.mem_map.mp later with ⟨field, inside, same⟩
      rw [← same]
      exact Or.inr (Or.inr ⟨_, _, (sound.names field inside).line_of field.2⟩)

/-- The lines of the record, read after blank lines, make the record. -/
theorem Sound.record_of (sound : record.Sound) {stray : List Bytes}
    (blank : ∀ raw ∈ stray, lineOf raw = .blank) :
    recordOf (trimInPlace record.dn, stray ++ record.lines) = record.read := by
  have content := fun raw (member : raw ∈ stray ++ record.lines) => sound.line_cases blank member
  have sameDn : (recordOf (trimInPlace record.dn, stray ++ record.lines)).dn = record.read.dn := rfl
  rw [record_eq_iff sameDn sameDn]
  refine ⟨?_, ?_, ?_⟩
  · have silent : stray.filterMap valueOf = [] := by
      rw [List.filterMap_eq_nil_iff]
      intro raw member
      rw [valueOf, blank raw member]
    rw [attributes_record_of, List.filterMap_append, silent, List.nil_append, sound.values]
    rfl
  · apply (changes_eq_nil_iff _).mpr
    intro raw member
    rcases content raw member with shape | ⟨_, shape⟩ | ⟨_, _, shape⟩
    · rw [StartsChange, shape]
    · rw [StartsChange, shape]
    · rw [StartsChange, shape]
  · intro keyword
    have unset : lastSetting keyword (stray ++ record.lines) = none := by
      rw [lastSetting, List.getLast?_eq_none_iff, List.filterMap_eq_nil_iff]
      intro raw member
      rcases content raw member with shape | ⟨_, shape⟩ | ⟨_, _, shape⟩
      · rw [settingOf, shape]
      · rw [settingOf, shape]
      · rw [settingOf, shape]
    have built := same_draft_from {} (stray ++ record.lines) keyword
    rw [unset] at built
    have whole := same_trans (same_record_of (trimInPlace record.dn, stray ++ record.lines) keyword)
      built
    have default : keyword.Same ({} : LdifRecord) record.read := by cases keyword <;> rfl
    exact same_trans whole default

def withGap (record : WrittenRecord) : List Bytes := record.lines ++ record.gap

theorem Sound.mark_gap (sound : record.Sound) : ∀ raw ∈ record.gap, mark raw = .blank := by
  intro raw member
  rw [mark, (sound.gap raw member).1]

/-- What follows the fields of a record closes it: an empty line or the next `dn` line. -/
theorem Sound.closed (sound : record.Sound) {rest : List WrittenRecord}
    (others : ∀ record ∈ rest, record.Sound) :
    ∀ line ∈ (record.gap ++ rest.flatMap withGap).head?, mark line ≠ .body := by
  intro line found
  cases written : record.gap with
  | cons blank gap =>
      rw [written] at found
      cases found
      rw [sound.mark_gap _ (by simp [written])]
      exact nofun
  | nil =>
      rw [written] at found
      cases rest with
      | nil => cases found
      | cons next rest =>
          cases found
          rw [(others next List.mem_cons_self).mark_dn]
          exact nofun

/-- The records of a text, read after blank lines. -/
theorem blocks_of_records {records : List WrittenRecord} (sound : ∀ record ∈ records, record.Sound)
    {stray : List Bytes} (blank : ∀ raw ∈ stray, lineOf raw = .blank) :
    (blocks mark none stray (records.flatMap withGap)).map recordOf = records.map read := by
  induction records generalizing stray with
  | nil => rfl
  | cons record rest ih =>
      have here := sound record List.mem_cons_self
      have others : ∀ record ∈ rest, record.Sound :=
        fun other member => sound other (List.mem_cons_of_mem _ member)
      have split : (record :: rest).flatMap withGap =
          fieldLine (text "dn") record.dn ::
            ((record.fields.map fun field => fieldLine field.1 field.2) ++
              (record.gap ++ rest.flatMap withGap)) := by
        simp [withGap, lines]
      have later := ih others fun raw member => (here.gap raw member).1
      rw [split, blocks_record_closed here.mark_dn (fun line member => here.mark_field member) stray
        (here.closed others), blocks_blanks mark here.mark_gap, List.nil_append, List.map_cons,
        later, List.map_cons]
      exact congrArg (· :: rest.map read) (here.record_of blank)

end WrittenRecord

/-- The text with a line break behind each line. -/
def writeLines (lines : List Bytes) : Bytes := lines.flatMap fun line => line ++ [newline]

theorem parse_written (records : List WrittenRecord) (sound : ∀ record ∈ records, record.Sound) :
    parseLdifText (writeLines (records.flatMap WrittenRecord.withGap)) =
      records.map WrittenRecord.read := by
  have lines : getLines [] (writeLines (records.flatMap WrittenRecord.withGap)) =
      records.flatMap WrittenRecord.withGap := by
    apply get_lines_written
    intro line member
    rcases List.mem_flatMap.mp member with ⟨record, inside, own⟩
    rcases List.mem_append.mp own with written | blank
    · exact (sound record inside).lines_one_line line written
    · exact ((sound record inside).gap line blank).2
  rw [parse_blocks, lines]
  exact WrittenRecord.blocks_of_records sound (by simp)

end Records

section Entries

/-- The entries whose texts survive trimming and whose names stay attributes. -/
structure Writable (entry : DirectoryEntry) : Prop where
  named : entry.dn ≠ []
  dn : Clean entry.dn
  names : ∀ pair ∈ entry.attributes.entries, AttributeName pair.1
  present : ∀ pair ∈ entry.attributes.entries, pair.2 ≠ []
  values : ∀ pair ∈ entry.attributes.entries, ∀ value ∈ pair.2, Clean value

/-- How a value is written behind its colon: after some spaces and with the line break of
either kind, as it is or as a code behind a second colon. -/
inductive FieldForm where
  | plain (fill : Nat) (carriageReturn : Bool)
  | coded (fill : Nat) (code : Bytes) (carriageReturn : Bool)

/-- What stands in front of the newline. -/
def lineEnd (carriageReturn : Bool) : Bytes := if carriageReturn then [13] else []

def spaces (fill : Nat) : Bytes := List.replicate fill (chr ' ')

namespace FieldForm

def raw (value : Bytes) : FieldForm → Bytes
  | .plain fill carriageReturn => spaces fill ++ (value ++ lineEnd carriageReturn)
  | .coded fill code carriageReturn => chr ':' :: (spaces fill ++ code) ++ lineEnd carriageReturn

/-- What the reader makes of it: a code stays a code, the second colon with it. -/
def read (value : Bytes) : FieldForm → Bytes
  | .plain _ _ => value
  | .coded fill code _ => trimInPlace (chr ':' :: (spaces fill ++ code))

def OneLine : FieldForm → Prop
  | .plain _ _ => True
  | .coded _ code _ => newline ∉ code

def IsPlain : FieldForm → Prop
  | .plain _ _ => True
  | .coded _ _ _ => False

end FieldForm

/-- A way to write an entry without folds: the form of the DN, the values in some order with
the form of each, and the empty lines behind with their line breaks. -/
structure Rendering where
  entry : DirectoryEntry
  dn : FieldForm
  values : List ((Bytes × Bytes) × FieldForm)
  gap : List Bool

def contentRecord (entry : DirectoryEntry) : LdifRecord := { dn := entry.dn, entry := entry }

namespace Rendering

def forms (rendering : Rendering) : List FieldForm :=
  rendering.dn :: rendering.values.map Prod.snd

/-- The values are those of the entry, and each code is on one line. -/
structure Sound (rendering : Rendering) : Prop where
  writable : Writable rendering.entry
  complete : Attributes.pushAll OrderedMap.empty (rendering.values.map Prod.fst) =
    rendering.entry.attributes
  oneLine : ∀ form ∈ rendering.forms, form.OneLine

def written (rendering : Rendering) : WrittenRecord where
  dn := rendering.dn.raw rendering.entry.dn
  fields := rendering.values.map fun value => (value.1.1, value.2.raw value.1.2)
  gap := rendering.gap.map lineEnd

/-- The entry with every coded text as it stands behind the first colon. -/
def literal (rendering : Rendering) : DirectoryEntry where
  dn := rendering.dn.read rendering.entry.dn
  attributes := Attributes.pushAll OrderedMap.empty
    (rendering.values.map fun value => (value.1.1, value.2.read value.1.2))

end Rendering

def renderLdif (renderings : List Rendering) : Bytes :=
  writeLines (renderings.flatMap fun rendering => rendering.written.withGap)

/-- The way that `formatLdif` writes an entry. -/
def plainRendering (entry : DirectoryEntry) : Rendering where
  entry := entry
  dn := .plain 1 false
  values := (Attributes.flatten entry.attributes).map fun pair => (pair, .plain 1 false)
  gap := [false]

section Forms

theorem trim_line_end (value : Bytes) (carriageReturn : Bool) :
    trimInPlace (value ++ lineEnd carriageReturn) = trimInPlace value := by
  cases carriageReturn with
  | false => rw [lineEnd, if_neg Bool.false_ne_true, List.append_nil]
  | true =>
      rw [lineEnd, if_pos rfl, trimInPlace, trimEnd, List.rdropWhile_concat_pos _ _ _ (by decide)]
      rfl

theorem trim_spaces (fill : Nat) (value : Bytes) :
    trimInPlace (spaces fill ++ value) = trimInPlace value := by
  induction fill with
  | zero => rfl
  | succ fill ih => rw [spaces, List.replicate_succ, List.cons_append, trim_blank (by decide), ← ih,
      spaces]

theorem spaces_one_line (fill : Nat) : newline ∉ spaces fill := by
  intro inside
  exact absurd (List.eq_of_mem_replicate inside) (by decide)

theorem line_end_one_line (carriageReturn : Bool) : newline ∉ lineEnd carriageReturn := by
  cases carriageReturn with
  | false => exact List.not_mem_nil
  | true => decide

theorem line_of_line_end (carriageReturn : Bool) : lineOf (lineEnd carriageReturn) = .blank := by
  cases carriageReturn with
  | false => rfl
  | true => rfl

variable {value : Bytes}

theorem trim_raw (clean : Clean value) (form : FieldForm) :
    trimInPlace (form.raw value) = form.read value := by
  cases form with
  | plain fill carriageReturn =>
      rw [FieldForm.raw, trim_spaces, trim_line_end]
      exact clean.1
  | coded fill code carriageReturn => exact trim_line_end _ carriageReturn

theorem raw_one_line (clean : Clean value) {form : FieldForm} (oneLine : form.OneLine) :
    newline ∉ form.raw value := by
  cases form with
  | plain fill carriageReturn =>
      simp only [FieldForm.raw, List.mem_append, not_or]
      exact ⟨spaces_one_line fill, clean.2, line_end_one_line carriageReturn⟩
  | coded fill code carriageReturn =>
      simp only [FieldForm.raw, List.cons_append, List.mem_cons, List.mem_append, not_or]
      exact ⟨by decide, ⟨spaces_one_line fill, oneLine⟩, line_end_one_line carriageReturn⟩

theorem read_nonempty (named : value ≠ []) (form : FieldForm) : form.read value ≠ [] := by
  cases form with
  | plain fill carriageReturn => exact named
  | coded fill code carriageReturn =>
      have kept : trimEnd (chr ':' :: (spaces fill ++ code)) =
          chr ':' :: trimEnd (spaces fill ++ code) := trim_end_keep [] (by decide) _
      rw [FieldForm.read, trimInPlace, kept, List.dropWhile_cons_of_neg (by decide)]
      exact List.cons_ne_nil _ _

theorem read_plain {form : FieldForm} (plain : form.IsPlain) (value : Bytes) :
    form.read value = value := by
  cases form with
  | plain fill carriageReturn => rfl
  | coded fill code carriageReturn => cases plain

end Forms

namespace Rendering

variable {rendering : Rendering}

/-- A written value is one of the entry. -/
theorem Sound.stored (sound : rendering.Sound) {value : (Bytes × Bytes) × FieldForm}
    (member : value ∈ rendering.values) :
    ∃ values, (value.1.1, values) ∈ rendering.entry.attributes.entries ∧ value.1.2 ∈ values := by
  rw [← sound.complete]
  exact Attributes.exists_of_push_all (List.mem_map_of_mem member)

theorem Sound.clean (sound : rendering.Sound) {value : (Bytes × Bytes) × FieldForm}
    (member : value ∈ rendering.values) : Clean value.1.2 := by
  rcases sound.stored member with ⟨values, stored, inside⟩
  exact sound.writable.values _ stored _ inside

theorem Sound.written_sound (sound : rendering.Sound) : rendering.written.Sound where
  named := by
    rw [written, trim_raw sound.writable.dn]
    exact read_nonempty sound.writable.named _
  dnLine := raw_one_line sound.writable.dn (sound.oneLine _ List.mem_cons_self)
  names := by
    intro field member
    rcases List.mem_map.mp member with ⟨value, inside, same⟩
    rcases sound.stored inside with ⟨values, stored, _⟩
    rw [← same]
    exact sound.writable.names _ stored
  oneLine := by
    intro field member
    rcases List.mem_map.mp member with ⟨value, inside, same⟩
    rw [← same]
    exact raw_one_line (sound.clean inside)
      (sound.oneLine _ (List.mem_cons_of_mem _ (List.mem_map_of_mem inside)))
  gap := by
    intro raw member
    rcases List.mem_map.mp member with ⟨carriageReturn, _, same⟩
    rw [← same]
    exact ⟨line_of_line_end carriageReturn, line_end_one_line carriageReturn⟩

theorem Sound.written_read (sound : rendering.Sound) :
    rendering.written.read = contentRecord rendering.literal := by
  have dn : trimInPlace rendering.written.dn = rendering.literal.dn :=
    trim_raw sound.writable.dn _
  have fields : rendering.written.fields.map (fun field => (field.1, trimInPlace field.2)) =
      rendering.values.map fun value => (value.1.1, value.2.read value.1.2) := by
    rw [written, List.map_map]
    apply List.map_congr_left
    intro value member
    rw [Function.comp_apply, trim_raw (sound.clean member)]
  rw [WrittenRecord.read, dn, fields]
  rfl

theorem Sound.literal_plain (sound : rendering.Sound)
    (plain : ∀ form ∈ rendering.forms, form.IsPlain) : rendering.literal = rendering.entry := by
  have values : rendering.values.map (fun value => (value.1.1, value.2.read value.1.2)) =
      rendering.values.map Prod.fst := by
    apply List.map_congr_left
    intro value member
    rw [read_plain (plain _ (List.mem_cons_of_mem _ (List.mem_map_of_mem member)))]
  rw [literal, values, sound.complete, read_plain (plain _ List.mem_cons_self)]

end Rendering

variable {renderings : List Rendering}

theorem parse_rendered (sound : ∀ rendering ∈ renderings, rendering.Sound) :
    parseLdifText (renderLdif renderings) =
      renderings.map fun rendering => contentRecord rendering.literal := by
  have written := parse_written (renderings.map Rendering.written) (by
    intro record member
    rcases List.mem_map.mp member with ⟨rendering, inside, same⟩
    rw [← same]
    exact (sound rendering inside).written_sound)
  rw [List.flatMap_map, List.map_map] at written
  rw [renderLdif, written]
  apply List.map_congr_left
  intro rendering member
  exact (sound rendering member).written_read

theorem parse_plain (sound : ∀ rendering ∈ renderings, rendering.Sound)
    (plain : ∀ rendering ∈ renderings, ∀ form ∈ rendering.forms, form.IsPlain) :
    parseLdifText (renderLdif renderings) =
      renderings.map fun rendering => contentRecord rendering.entry := by
  rw [parse_rendered sound]
  apply List.map_congr_left
  intro rendering member
  rw [(sound rendering member).literal_plain (plain rendering member)]

theorem plain_rendering_forms (entry : DirectoryEntry) :
    ∀ form ∈ (plainRendering entry).forms, form = .plain 1 false := by
  intro form member
  rcases List.mem_cons.mp member with first | later
  · exact first
  · rw [plainRendering, List.map_map] at later
    rcases List.mem_map.mp later with ⟨_, _, same⟩
    exact same.symm

theorem plain_rendering_sound {entry : DirectoryEntry} (writable : Writable entry) :
    (plainRendering entry).Sound where
  writable := writable
  complete := by
    rw [plainRendering, List.map_map]
    exact (congrArg _ (List.map_id _)).trans (Attributes.push_flatten _ writable.present)
  oneLine := by
    intro form member
    rw [plain_rendering_forms entry form member]
    trivial

theorem format_rendered (entries : List DirectoryEntry) :
    formatLdif entries = renderLdif (entries.map plainRendering) := by
  unfold formatLdif renderLdif writeLines
  rw [List.flatMap_map, List.flatMap_assoc]
  apply List.flatMap_congr
  intro entry _
  simp [plainRendering, Rendering.written, WrittenRecord.withGap, WrittenRecord.lines, fieldLine,
    FieldForm.raw, spaces, lineEnd, Attributes.flatten, text, List.flatMap_map, List.flatMap_assoc]

theorem parse_formatted {entries : List DirectoryEntry}
    (writable : ∀ entry ∈ entries, Writable entry) :
    parseLdifText (formatLdif entries) = entries.map contentRecord := by
  have sound : ∀ rendering ∈ entries.map plainRendering, rendering.Sound := by
    intro rendering member
    rcases List.mem_map.mp member with ⟨entry, inside, same⟩
    rw [← same]
    exact plain_rendering_sound (writable entry inside)
  have plain : ∀ rendering ∈ entries.map plainRendering,
      ∀ form ∈ rendering.forms, form.IsPlain := by
    intro rendering member form inside
    rcases List.mem_map.mp member with ⟨entry, _, same⟩
    rw [← same] at inside
    rw [plain_rendering_forms entry form inside]
    trivial
  rw [format_rendered, parse_plain sound plain, List.map_map]
  rfl

/-- Entries that are written are read back, one content record for each. -/
theorem format_round_trip (entries : List DirectoryEntry)
    (writable : ∀ entry ∈ entries, Writable entry) :
    parseLdifText (formatLdif entries) = entries.map contentRecord :=
  parse_formatted writable

/-- One entry with one value. -/
def smallEntry : DirectoryEntry where
  dn := text "cn=a"
  attributes := OrderedMap.empty.insert (text "cn") [text "ab"]

theorem small_entry_writable : Writable smallEntry := by
  have only : ∀ pair ∈ smallEntry.attributes.entries, pair = (text "cn", [text "ab"]) :=
    fun pair member => List.mem_singleton.mp member
  refine ⟨by decide, ⟨by decide +kernel, by decide +kernel⟩, ?_, ?_, ?_⟩
  · intro pair member
    rw [only pair member]
    exact ⟨⟨⟨by decide +kernel, by decide +kernel⟩, by decide +kernel, by decide +kernel⟩,
      by decide +kernel⟩
  · intro pair member
    rw [only pair member]
    exact List.cons_ne_nil _ _
  · intro pair member value inside
    rw [only pair member] at inside
    rw [List.mem_singleton.mp inside]
    exact ⟨by decide +kernel, by decide +kernel⟩

theorem format_round_trip_small :
    parseLdifText (formatLdif [smallEntry, smallEntry]) =
      [smallEntry, smallEntry].map contentRecord :=
  format_round_trip [smallEntry, smallEntry] (by simp [small_entry_writable])

end Entries

section Folds

theorem get_lines_before (line first : Bytes) :
    ∃ before : List Bytes, ∀ rest, getLines line (first ++ newline :: rest) =
      before ++ getLines [] rest := by
  induction first generalizing line with
  | nil => exact ⟨[line], fun rest => by simp [getLines]⟩
  | cons byte first ih =>
      by_cases ends : byte = newline
      · rcases ih [] with ⟨before, split⟩
        exact ⟨line :: before, fun rest => by simp [getLines, ends, split]⟩
      · rcases ih (line ++ [byte]) with ⟨before, split⟩
        exact ⟨before, fun rest => by simp [getLines, ends, split]⟩

/-- A byte in front of a text goes in front of its first line. -/
theorem get_lines_front (byte : Byte) (line content : Bytes) (some : line ≠ [] ∨ content ≠ []) :
    ∃ first later, getLines line content = first :: later ∧
      getLines (byte :: line) content = (byte :: first) :: later := by
  induction content generalizing line with
  | nil =>
      have present : line ≠ [] := some.resolve_right (by simp)
      exact ⟨line, [], by simp [getLines, present], by simp [getLines]⟩
  | cons next rest ih =>
      by_cases ends : next = newline
      · exact ⟨line, getLines [] rest, by simp [getLines, ends], by simp [getLines, ends]⟩
      · rcases ih (line ++ [next]) (Or.inl (by simp)) with ⟨first, later, plain, longer⟩
        exact ⟨first, later, by simp [getLines, ends, plain],
          by simpa [getLines, ends] using longer⟩

theorem flush_unnamed {state : ParseState} (closed : state.draft.haveChange = false)
    (unnamed : state.draft.current.dn = []) : (flush state).records = state.records := by
  have same : flushChange state.draft = state.draft := by
    rw [flushChange, closed, if_neg Bool.false_ne_true]
  rw [flush, same]
  exact congrArg ParseState.records (if_neg (fun named => named unnamed))

theorem flush_again (state : ParseState) :
    (flush (flush state)).records = (flush state).records := by
  have closed := (change_count_flush state.draft).2
  by_cases named : (flushChange state.draft).current.dn ≠ []
  · apply flush_unnamed
    · rw [flush, if_pos named]
      exact closed
    · rw [flush, if_pos named]
  · apply flush_unnamed
    · rw [flush, if_neg named]
      exact closed
    · rw [flush, if_neg named]
      exact not_not.mp named

/-- A blank at the start of a line is not seen: a fold is a line break and nothing else. -/
theorem parse_folded {blank : Byte} (trimmed : trimsAtStart blank = true) (before after : Bytes) :
    parseLdifText (before ++ newline :: blank :: after) =
      parseLdifText (before ++ newline :: after) := by
  rcases get_lines_before [] before with ⟨lines, split⟩
  have different : blank ≠ newline := by
    intro same
    rw [same] at trimmed
    exact absurd trimmed (by decide)
  rw [parseLdifText, parseLdifText, split, split, List.foldl_append, List.foldl_append]
  generalize lines.foldl parseLine {} = state
  have opened : getLines [] (blank :: after) = getLines [blank] after := by
    rw [getLines, if_neg different, List.nil_append]
  rw [opened]
  by_cases ended : after = []
  · have closes : lineOf [blank] = .blank := line_of_blank trimmed []
    have turn : parseLine state [blank] = flush state := by rw [parseLine, closes]
    rw [ended]
    exact (congrArg (fun reached => (flush reached).records) turn).trans (flush_again state)
  · rcases get_lines_front blank [] after (Or.inr ended) with ⟨first, later, plain, longer⟩
    have turn : parseLine state (blank :: first) = parseLine state first := by
      rw [parseLine, parseLine, line_of_blank trimmed]
    rw [plain, longer, List.foldl_cons, List.foldl_cons, turn]

/-- Every physical line is read by itself: a folded line as two lines, a value in a code as the
code with its colon. Without folds and codes the entries come back, whatever the blanks, the
line breaks and the order of the values. -/
theorem renderings_read_by_line :
    (∀ before after : Bytes,
      parseLdifText (before ++ newline :: chr ' ' :: after) =
        parseLdifText (before ++ newline :: after)) ∧
    (∀ renderings : List Rendering, (∀ rendering ∈ renderings, rendering.Sound) →
      parseLdifText (renderLdif renderings) =
        renderings.map fun rendering => contentRecord rendering.literal) ∧
    ∀ renderings : List Rendering, (∀ rendering ∈ renderings, rendering.Sound) →
      (∀ rendering ∈ renderings, ∀ form ∈ rendering.forms, form.IsPlain) →
      parseLdifText (renderLdif renderings) =
        parseLdifText (formatLdif (renderings.map Rendering.entry)) := by
  refine ⟨parse_folded (by decide), fun _ => parse_rendered, ?_⟩
  intro renderings sound plain
  have writable : ∀ entry ∈ renderings.map Rendering.entry, Writable entry := by
    intro entry member
    rcases List.mem_map.mp member with ⟨rendering, inside, same⟩
    rw [← same]
    exact (sound rendering inside).writable
  rw [parse_plain sound plain, parse_formatted writable, List.map_map]
  rfl

/-- The entry with its value in base64 and line breaks of both kinds. -/
def codedRendering : Rendering where
  entry := smallEntry
  dn := .plain 1 true
  values := [((text "cn", text "ab"), .coded 1 (text "YWI=") false)]
  gap := [true]

theorem coded_rendering_sound : codedRendering.Sound where
  writable := small_entry_writable
  complete := by decide +kernel
  oneLine := by
    intro form member
    rcases List.mem_cons.mp member with first | later
    · rw [first]
      trivial
    · rw [List.mem_singleton.mp later]
      exact (by decide +kernel : newline ∉ text "YWI=")

theorem renderings_read_by_line_applied :
    parseLdifText (renderLdif [codedRendering, plainRendering smallEntry]) =
        [codedRendering, plainRendering smallEntry].map
          (fun rendering => contentRecord rendering.literal) ∧
      parseLdifText (renderLdif [{ codedRendering with
          values := [((text "cn", text "ab"), .plain 0 true)] }]) =
        parseLdifText (formatLdif [smallEntry]) := by
  constructor
  · apply renderings_read_by_line.2.1
    intro rendering member
    rcases List.mem_cons.mp member with first | later
    · rw [first]
      exact coded_rendering_sound
    · rw [List.mem_singleton.mp later]
      exact plain_rendering_sound small_entry_writable
  · have forms : ∀ form ∈ [FieldForm.plain 1 true, .plain 0 true], form.IsPlain ∧ form.OneLine := by
      simp [FieldForm.IsPlain, FieldForm.OneLine]
    apply renderings_read_by_line.2.2
    · intro rendering member
      rw [List.mem_singleton.mp member]
      exact ⟨small_entry_writable, by decide +kernel, fun form inside => (forms form inside).2⟩
    · intro rendering member
      rw [List.mem_singleton.mp member]
      exact fun form inside => (forms form inside).1

/-- The entry folded between the letters of its value, and with the value in base64. -/
theorem fold_and_base64_change_values :
    (text "dn: cn=a" ++ newline :: text "cn: a") ++ (text "b" ++ [newline, newline]) =
        formatLdif [smallEntry] ∧
      parseLdifText ((text "dn: cn=a" ++ newline :: text "cn: a") ++
          newline :: chr ' ' :: (text "b" ++ [newline, newline])) ≠
        parseLdifText (formatLdif [smallEntry]) ∧
      parseLdifText (text "dn: cn=a" ++ newline :: text "cn:: YWI=" ++ [newline, newline]) ≠
        parseLdifText (formatLdif [smallEntry]) := by
  decide +kernel

end Folds

end SimpleLdapd.Ldif
