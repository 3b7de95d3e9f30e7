import SimpleLdapd.Protocol.LdifRoundTrip

/-!
# LDIF change records (`protocol/ldif.cpp`, `ldapmodify.cpp`)

A `type: value` line of a modify record goes to the entry and, under the type of
the pending change, to that change too. `-`, the next change, a blank line and
the end of the text each close the pending change, and none closes it twice.
-/

namespace SimpleLdapd.Ldif

open Dn LdifBackend LineMark

/-- The word that `parseModifyOp` reads. -/
def opName : ModifyOp → Bytes
  | .add => text "add"
  | .delete => text "delete"
  | .replace => text "replace"
  | .undeclared _ => []

/-- A `name: value` line. -/
def settingLine (name value : Bytes) : Bytes := fieldLine name (chr ' ' :: value)

/-- A change as it is written, with the `-` behind it or without. -/
structure WrittenChange where
  change : AttributeModification
  closed : Bool := true

namespace WrittenChange

def lines (written : WrittenChange) : List Bytes :=
  settingLine (opName written.change.op) written.change.type ::
    (written.change.values.map (settingLine written.change.type) ++
      if written.closed then [text "-"] else [])

/-- The lines of the change say what it is. -/
structure Sound (written : WrittenChange) : Prop where
  op : written.change.op.Declared
  type : AttributeName written.change.type
  values : ∀ value ∈ written.change.values, Clean value

end WrittenChange

def modifyBody (changes : List WrittenChange) : List Bytes :=
  settingLine (text "changetype") (text "modify") :: changes.flatMap WrittenChange.lines

/-- A modify record, with blank lines behind it or none. -/
def modifyRecord (dn : Bytes) (changes : List WrittenChange) (blanks : Nat) : List Bytes :=
  settingLine (text "dn") dn :: (modifyBody changes ++ List.replicate blanks [])

/-- The changes that `ldapmodify` asks for when the record is a modification: without any, each
attribute of the entry is replaced. -/
def requestedChanges (record : LdifRecord) : List AttributeModification :=
  if record.changes = [] then
    record.entry.attributes.entries.map fun pair =>
      { op := .replace, type := pair.1, values := pair.2 }
  else record.changes

section Lines

theorem trim_setting {value : Bytes} (clean : Clean value) :
    trimInPlace (chr ' ' :: value) = value := by
  rw [trim_blank (by decide)]
  exact clean.1

theorem line_of_setting_dn {dn : Bytes} (clean : Clean dn) :
    lineOf (settingLine (text "dn") dn) = .dn dn := by
  rw [settingLine, line_of_dn, trim_setting clean]

theorem line_of_changetype :
    lineOf (settingLine (text "changetype") (text "modify")) =
      .setting .changetype (text "modify") := by
  decide +kernel

theorem AttributeName.line_of_value {name value : Bytes} (named : AttributeName name)
    (clean : Clean value) : lineOf (settingLine name value) = .value name value := by
  rw [settingLine, named.line_of, trim_setting clean]

theorem op_name_plain {op : ModifyOp} (declared : op.Declared) : PlainName (opName op) := by
  rcases declared with same | same | same <;> rw [same] <;>
    exact ⟨⟨⟨by decide +kernel, by decide +kernel⟩, by decide +kernel, by decide +kernel⟩,
      by decide +kernel⟩

/-- The names in front of the ops in the chain of tests. -/
theorem field_of_op {name : Bytes}
    (later : ∀ keyword ∈ ldifKeywords.take 6, iequals name keyword = false)
    (op : (iequals name (text "add") || iequals name (text "delete") ||
      iequals name (text "replace")) = true) (value : Bytes) :
    fieldOf name value = .change (parseModifyOp name) value := by
  simp only [ldifKeywords, List.take_succ_cons, List.take_zero, List.mem_cons, List.not_mem_nil,
    or_false, forall_eq_or_imp, forall_eq] at later
  simp [fieldOf, later, op]

theorem line_of_op {op : ModifyOp} (declared : op.Declared) {type : Bytes} (clean : Clean type) :
    lineOf (settingLine (opName op) type) = .change op type := by
  rw [settingLine, (op_name_plain declared).line_of, trim_setting clean]
  have read : parseModifyOp (opName op) = op := by
    rcases declared with same | same | same <;> rw [same] <;> decide +kernel
  rw [field_of_op, read]
  · rcases declared with same | same | same <;> rw [same] <;> decide +kernel
  · rcases declared with same | same | same <;> rw [same] <;> decide +kernel

theorem line_of_separator : lineOf (text "-") = .separator := by decide +kernel

end Lines

section Drafts

/-- `changes` are those of the record and the pending one. -/
structure Draft.Reads (draft : Draft) (changes : List AttributeModification) : Prop where
  kind : draft.current.changetype = .modify
  settled : Settled draft
  changes : (flushChange draft).current.changes = changes

/-- The change is pending, after `before`. -/
structure Draft.Opens (draft : Draft) (before : List AttributeModification)
    (change : AttributeModification) : Prop where
  kind : draft.current.changetype = .modify
  before : draft.current.changes = before
  change : draft.change = change
  pending : draft.haveChange = true

variable {draft : Draft} {changes : List AttributeModification} {change : AttributeModification}

/-- The lines of a block, read from `draft` on. -/
def readLines (draft : Draft) (lines : List Bytes) : Draft :=
  lines.foldl (fun draft raw => draftLine draft (lineOf raw)) draft

theorem read_lines_append (draft : Draft) (first second : List Bytes) :
    readLines draft (first ++ second) = readLines (readLines draft first) second :=
  List.foldl_append

theorem Draft.Opens.reads (opened : draft.Opens changes change) :
    draft.Reads (changes ++ [change]) := by
  refine ⟨opened.kind, ?_, ?_⟩
  · intro none
    rw [opened.pending] at none
    cases none
  · rw [flushChange, if_pos opened.pending, opened.before, opened.change]

theorem Draft.Reads.flushed (reads : draft.Reads changes) : (flushChange draft).Reads changes := by
  refine ⟨?_, settled_flush_change reads.settled, ?_⟩
  · rw [← reads.kind]
    exact same_flush_change draft .changetype
  · rw [flush_change_idempotent]
    exact reads.changes

/-- A change starts without values, whatever was pending before it. -/
theorem Draft.Reads.start (reads : draft.Reads changes) (op : ModifyOp) (type : Bytes) :
    (draftLine draft (.change op type)).Opens changes { op := op, type := type } := by
  have empty : (flushChange draft).change = {} := by rw [flush_change_fresh reads.settled]
  refine ⟨reads.flushed.kind, reads.changes, ?_, rfl⟩
  simp only [draftLine, startChange, empty]

theorem Draft.Opens.push (opened : draft.Opens changes change) (value : Bytes) :
    (draftLine draft (.value change.type value)).Opens changes
      { change with values := change.values ++ [value] } := by
  have own : (draft.haveChange && iequals change.type change.type) = true := by
    rw [opened.pending, Bool.true_and, iequals_iff]
  refine ⟨opened.kind, opened.before, ?_, opened.pending⟩
  simp only [draftLine, pushValue, opened.change, own, if_true]

theorem Draft.Opens.push_all (opened : draft.Opens changes change)
    (named : AttributeName change.type) {values : List Bytes}
    (clean : ∀ value ∈ values, Clean value) :
    (readLines draft (values.map (settingLine change.type))).Opens changes
      { change with values := change.values ++ values } := by
  induction values generalizing draft change with
  | nil =>
      rw [List.append_nil]
      exact opened
  | cons value values ih =>
      have here := opened.push value
      rw [← named.line_of_value (clean value List.mem_cons_self)] at here
      have later := ih here named fun other member => clean other (List.mem_cons_of_mem _ member)
      rw [List.append_assoc, List.singleton_append] at later
      exact later

/-- The lines of one change add that change. -/
theorem Draft.Reads.written (reads : draft.Reads changes) {written : WrittenChange}
    (sound : written.Sound) :
    (readLines draft written.lines).Reads (changes ++ [written.change]) := by
  have opened := reads.start written.change.op written.change.type
  rw [← line_of_op sound.op sound.type.survives.clean] at opened
  have pushed := (opened.push_all sound.type sound.values).reads
  have lines : readLines draft written.lines =
      readLines (readLines (draftLine draft
          (lineOf (settingLine (opName written.change.op) written.change.type)))
        (written.change.values.map (settingLine written.change.type)))
        (if written.closed then [text "-"] else []) :=
    read_lines_append _ _ _
  rw [lines]
  cases written.closed with
  | false => exact pushed
  | true =>
      have flushed := pushed.flushed
      simp only [if_true, readLines, List.foldl_cons, List.foldl_nil, line_of_separator]
      exact flushed

theorem Draft.Reads.all (reads : draft.Reads changes) {written : List WrittenChange}
    (sound : ∀ one ∈ written, one.Sound) :
    (readLines draft (written.flatMap WrittenChange.lines)).Reads
      (changes ++ written.map WrittenChange.change) := by
  induction written generalizing draft changes with
  | nil =>
      rw [List.map_nil, List.append_nil]
      exact reads
  | cons first rest ih =>
      have here := reads.written (sound first List.mem_cons_self)
      have later := ih here fun one member => sound one (List.mem_cons_of_mem _ member)
      rw [List.append_assoc, List.singleton_append] at later
      rw [List.flatMap_cons, read_lines_append]
      exact later

theorem draft_of_modify {dn : Bytes} (clean : Clean dn) {written : List WrittenChange}
    (sound : ∀ one ∈ written, one.Sound) :
    (draftOf (settingLine (text "dn") dn :: modifyBody written)).Reads
      (written.map WrittenChange.change) := by
  have start : ({ current := { changetype := .modify } } : Draft).Reads [] :=
    ⟨rfl, fun _ => rfl, rfl⟩
  have header : draftOf (settingLine (text "dn") dn :: modifyBody written) =
      readLines { current := { changetype := .modify } }
        (written.flatMap WrittenChange.lines) := by
    have kind : parseChangeType (text "modify") = .modify := by decide +kernel
    simp only [draftOf, modifyBody, readLines, List.foldl_cons, line_of_setting_dn clean,
      line_of_changetype, draftLine, flushChange, LdifRecord.set, kind]
    rfl
  rw [header]
  exact start.all sound

end Drafts

section ModifyRecords

variable {dn : Bytes} {changes : List WrittenChange}

/-- The lines of the body: the kind of the record, and the ops, values and ends of its changes. -/
theorem modify_body_cases {raw : Bytes} (member : raw ∈ modifyBody changes) :
    raw = settingLine (text "changetype") (text "modify") ∨
      (∃ written ∈ changes, raw = settingLine (opName written.change.op) written.change.type) ∨
      (∃ written ∈ changes, ∃ value ∈ written.change.values,
        raw = settingLine written.change.type value) ∨ raw = text "-" := by
  rcases List.mem_cons.mp member with kind | later
  · exact Or.inl kind
  right
  rcases List.mem_flatMap.mp later with ⟨written, inside, own⟩
  rcases List.mem_cons.mp own with opens | rest
  · exact Or.inl ⟨written, inside, opens⟩
  right
  rcases List.mem_append.mp rest with value | closes
  · rcases List.mem_map.mp value with ⟨value, listed, same⟩
    exact Or.inl ⟨written, inside, value, listed, same.symm⟩
  · right
    split at closes
    · exact List.mem_singleton.mp closes
    · cases closes

/-- No line of the body opens or closes a record. -/
theorem mark_modify_body (sound : ∀ written ∈ changes, written.Sound) :
    ∀ raw ∈ modifyBody changes, mark raw = .body := by
  intro raw member
  rcases modify_body_cases member with
    kind | ⟨written, inside, opens⟩ | ⟨written, inside, value, listed, same⟩ | closes
  · rw [kind, mark, line_of_changetype]
  · have good := sound written inside
    rw [opens, mark, line_of_op good.op good.type.survives.clean]
  · have good := sound written inside
    rw [same, mark, good.type.line_of_value (good.values value listed)]
  · rw [closes, mark, line_of_separator]

theorem setting_one_line {name value : Bytes} (noName : newline ∉ name)
    (noValue : newline ∉ value) : newline ∉ settingLine name value := by
  apply field_one_line noName
  rw [List.mem_cons, not_or]
  exact ⟨by decide, noValue⟩

theorem modify_body_one_line (sound : ∀ written ∈ changes, written.Sound) :
    ∀ raw ∈ modifyBody changes, newline ∉ raw := by
  intro raw member
  rcases modify_body_cases member with
    kind | ⟨written, inside, opens⟩ | ⟨written, inside, value, listed, same⟩ | closes
  · rw [kind]
    decide +kernel
  · have good := sound written inside
    rw [opens]
    exact setting_one_line (op_name_plain good.op).survives.clean.2 good.type.survives.clean.2
  · have good := sound written inside
    rw [same]
    exact setting_one_line good.type.survives.clean.2 (good.values value listed).2
  · rw [closes]
    decide +kernel

theorem modify_record_one_line (clean : Clean dn) (sound : ∀ written ∈ changes, written.Sound)
    (blanks : Nat) : ∀ raw ∈ modifyRecord dn changes blanks, newline ∉ raw := by
  intro raw member
  rcases List.mem_cons.mp member with header | later
  · rw [header]
    exact setting_one_line dn_name_survives.clean.2 clean.2
  rcases List.mem_append.mp later with body | blank
  · exact modify_body_one_line sound raw body
  · rw [List.eq_of_mem_replicate blank]
    exact List.not_mem_nil

theorem parse_modify_record (named : dn ≠ []) (clean : Clean dn)
    (sound : ∀ written ∈ changes, written.Sound) (blanks : Nat) :
    parseLdifText (writeLines (modifyRecord dn changes blanks)) =
      [recordOf (dn, settingLine (text "dn") dn :: modifyBody changes)] := by
  have opens : mark (settingLine (text "dn") dn) = .header (some dn) := by
    rw [mark, line_of_setting_dn clean]
    simp only [keyOf, if_neg named]
  have closes : ∀ blank ∈ List.replicate blanks ([] : Bytes), mark blank = .blank := by
    intro blank member
    rw [List.eq_of_mem_replicate member]
    rfl
  rw [parse_blocks, writeLines, get_lines_written _ (modify_record_one_line clean sound blanks),
    modifyRecord, blocks_last_record opens (mark_modify_body sound) closes]
  rfl

/-- A record without changes has no attributes either, so nothing is replaced. -/
theorem requested_changes_read (clean : Clean dn)
    (read : (recordOf (dn, settingLine (text "dn") dn :: modifyBody changes)).changes =
      changes.map WrittenChange.change) :
    requestedChanges (recordOf (dn, settingLine (text "dn") dn :: modifyBody changes)) =
      changes.map WrittenChange.change := by
  rw [requestedChanges, read]
  cases changes with
  | cons written rest => exact if_neg (List.cons_ne_nil _ _)
  | nil =>
      have silent : [settingLine (text "dn") dn,
          settingLine (text "changetype") (text "modify")].filterMap valueOf = [] := by
        simp only [List.filterMap_cons, valueOf, line_of_setting_dn clean, line_of_changetype,
          List.filterMap_nil]
      rw [List.map_nil, if_pos rfl, attributes_record_of, modifyBody, List.flatMap_nil, silent]
      rfl

/-- A modify record is read as its changes in order, and `ldapmodify` asks for these. -/
theorem modify_record_read (dn : Bytes) (changes : List WrittenChange) (blanks : Nat)
    (named : dn ≠ []) (clean : Clean dn) (sound : ∀ written ∈ changes, written.Sound) :
    ∃ record, parseLdifText (writeLines (modifyRecord dn changes blanks)) = [record] ∧
      record.dn = dn ∧ record.changetype = .modify ∧
      record.changes = changes.map WrittenChange.change ∧
      requestedChanges record = changes.map WrittenChange.change := by
  have reads := draft_of_modify clean sound
  have read : (recordOf (dn, settingLine (text "dn") dn :: modifyBody changes)).changes =
      changes.map WrittenChange.change := reads.changes
  exact ⟨_, parse_modify_record named clean sound blanks, rfl, reads.flushed.kind, read,
    requested_changes_read clean read⟩

/-- A type without values that is deleted, then added twice, the last time without its `-`. -/
def mailChanges : List WrittenChange :=
  [⟨{ op := .delete, type := text "mail" }, true⟩,
    ⟨{ op := .add, type := text "mail", values := [text "add: a", text "b"] }, true⟩,
    ⟨{ op := .add, type := text "mail", values := [text "c"] }, false⟩]

theorem modify_record_read_mail :
    ∃ record, parseLdifText (writeLines (modifyRecord (text "cn=a") mailChanges 0)) = [record] ∧
      record.dn = text "cn=a" ∧ record.changetype = .modify ∧
      record.changes = mailChanges.map WrittenChange.change ∧
      requestedChanges record = mailChanges.map WrittenChange.change := by
  have named : AttributeName (text "mail") :=
    ⟨⟨⟨by decide +kernel, by decide +kernel⟩, by decide +kernel, by decide +kernel⟩,
      by decide +kernel⟩
  refine modify_record_read (text "cn=a") mailChanges 0 (by decide)
    ⟨by decide +kernel, by decide +kernel⟩ ?_
  simp only [mailChanges, List.mem_cons, List.not_mem_nil, or_false, forall_eq_or_imp, forall_eq]
  refine ⟨⟨by simp [ModifyOp.Declared], named, by simp⟩,
    ⟨by simp [ModifyOp.Declared], named, ?_⟩, ⟨by simp [ModifyOp.Declared], named, ?_⟩⟩
  · simp only [List.mem_cons, List.not_mem_nil, or_false, forall_eq_or_imp, forall_eq]
    exact ⟨⟨by decide +kernel, by decide +kernel⟩, by decide +kernel, by decide +kernel⟩
  · simp only [List.mem_singleton, forall_eq]
    exact ⟨by decide +kernel, by decide +kernel⟩

end ModifyRecords

end SimpleLdapd.Ldif
