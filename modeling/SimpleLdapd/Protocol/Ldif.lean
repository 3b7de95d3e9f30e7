import SimpleLdapd.Backend.Ldif
import SimpleLdapd.Library.RecordBlocks

/-!
# LDIF content and change records (`protocol/ldif.cpp`)

`parseLdifText` reads line by line: `lineOf` is what the tests of the loop make
of a line, `draftLine` what the line does to the record under construction and
the pending change. Lines are trimmed and split as in the file backend. Only a
`flush` that finds a DN starts a new record, so a record is built from a whole
block of lines, and `parse_blocks` says so.
-/

namespace SimpleLdapd.Ldif

open Dn LdifBackend

inductive LdifChangeType where
  | content
  | add
  | modify
  | delete
  | modrdn
  deriving DecidableEq

structure LdifRecord where
  dn : Bytes := []
  changetype : LdifChangeType := .content
  entry : DirectoryEntry := {}
  changes : List AttributeModification := []
  newRdn : Bytes := []
  deleteOldRdn : Bool := true
  newSuperior : Bytes := []
  deriving DecidableEq

def parseChangeType (value : Bytes) : LdifChangeType :=
  if iequals value (text "add") then .add
  else if iequals value (text "modify") then .modify
  else if iequals value (text "delete") then .delete
  else if iequals value (text "modrdn") || iequals value (text "moddn") then .modrdn
  else .content

def parseModifyOp (value : Bytes) : ModifyOp :=
  if iequals value (text "add") then .add
  else if iequals value (text "delete") then .delete
  else .replace

inductive LdifKeyword where
  | changetype
  | newrdn
  | deleteoldrdn
  | newsuperior
  deriving DecidableEq

inductive LdifLine where
  | blank
  | skipped
  | separator
  | dn (value : Bytes)
  | setting (keyword : LdifKeyword) (value : Bytes)
  | change (op : ModifyOp) (type : Bytes)
  | value (name value : Bytes)
  deriving DecidableEq

/-- The tests on the name of a `name: value` line. -/
def fieldOf (name value : Bytes) : LdifLine :=
  if iequals name (text "dn") then .dn value
  else if iequals name (text "changetype") then .setting .changetype value
  else if iequals name (text "newrdn") then .setting .newrdn value
  else if iequals name (text "deleteoldrdn") then .setting .deleteoldrdn value
  else if iequals name (text "newsuperior") then .setting .newsuperior value
  else if iequals name (text "add") || iequals name (text "delete") ||
      iequals name (text "replace") then .change (parseModifyOp name) value
  else .value name value

def lineOf (raw : Bytes) : LdifLine :=
  let line := trimInPlace raw
  if line = [] then .blank
  else if line.head? = some (chr '#') then .skipped
  else if iequals (line.take 8) (text "version:") then .skipped
  else
    match findByte (chr ':') line with
    | none => if line = text "-" then .separator else .skipped
    | some colon =>
        fieldOf (trimInPlace (line.take colon)) (trimInPlace (line.drop (colon + 1)))

/-- The locals `current`, `change` and `have_change` of the loop. -/
structure Draft where
  current : LdifRecord := {}
  change : AttributeModification := {}
  haveChange : Bool := false
  deriving DecidableEq

def flushChange (draft : Draft) : Draft :=
  if draft.haveChange then
    { current := { draft.current with changes := draft.current.changes ++ [draft.change] } }
  else draft

def LdifRecord.set (record : LdifRecord) (value : Bytes) : LdifKeyword → LdifRecord
  | .changetype => { record with changetype := parseChangeType value }
  | .newrdn => { record with newRdn := value }
  | .deleteoldrdn =>
      { record with deleteOldRdn := value = text "1" || iequals value (text "true") }
  | .newsuperior => { record with newSuperior := value }

def startChange (draft : Draft) (op : ModifyOp) (type : Bytes) : Draft :=
  { flushChange draft with
    change := { (flushChange draft).change with op := op, type := type }
    haveChange := true }

def pushValue (draft : Draft) (name value : Bytes) : Draft :=
  { draft with
    current := { draft.current with entry := { draft.current.entry with
      attributes := Attributes.pushBack draft.current.entry.attributes name value } }
    change := if draft.haveChange && iequals draft.change.type name then
      { draft.change with values := draft.change.values ++ [value] } else draft.change }

/-- What a line does when it neither ends nor starts a record: a blank line or a `dn`
line still closes the pending change. -/
def draftLine (draft : Draft) : LdifLine → Draft
  | .blank | .separator | .dn _ => flushChange draft
  | .skipped => draft
  | .setting keyword value => { draft with current := draft.current.set value keyword }
  | .change op type => startChange draft op type
  | .value name value => pushValue draft name value

structure ParseState where
  records : List LdifRecord := []
  draft : Draft := {}

def Draft.withDn (draft : Draft) (dn : Bytes) : Draft :=
  { draft with current := { draft.current with dn := dn } }

/-- `current.entry.dn = current.dn` before the record is pushed. -/
def LdifRecord.named (record : LdifRecord) : LdifRecord :=
  { record with entry := { record.entry with dn := record.dn } }

def flush (state : ParseState) : ParseState :=
  let draft := flushChange state.draft
  if draft.current.dn ≠ [] then
    { records := state.records ++ [draft.current.named], draft := { draft with current := {} } }
  else { state with draft := draft }

def parseLine (state : ParseState) (raw : Bytes) : ParseState :=
  match lineOf raw with
  | .blank => flush state
  | .dn value => { flush state with draft := (flush state).draft.withDn value }
  | line => { state with draft := draftLine state.draft line }

def parseLdifText (content : Bytes) : List LdifRecord :=
  (flush ((getLines [] content).foldl parseLine {})).records

def formatLdif (entries : List DirectoryEntry) : Bytes :=
  entries.flatMap fun entry =>
    text "dn: " ++ entry.dn ++ [newline] ++
      (entry.attributes.entries.flatMap fun pair =>
        pair.2.flatMap fun value => pair.1 ++ text ": " ++ value ++ [newline]) ++ [newline]

section Blocks

open LineMark

/-- The record that a `dn` line opens: none without a value. -/
def keyOf (dn : Bytes) : Option Bytes := if dn = [] then none else some dn

/-- What a line means for the extent of the records. -/
def mark (raw : Bytes) : LineMark Bytes :=
  match lineOf raw with
  | .blank => .blank
  | .dn value => .header (keyOf value)
  | _ => .body

/-- The draft that a block of lines leaves. -/
def draftOf (lines : List Bytes) : Draft :=
  lines.foldl (fun draft raw => draftLine draft (lineOf raw)) {}

/-- The record that a block of lines describes. -/
def recordOf (block : Bytes × List Bytes) : LdifRecord :=
  ((flushChange (draftOf block.2)).withDn block.1).current.named

theorem draft_of_append (first second : List Bytes) :
    draftOf (first ++ second) =
      second.foldl (fun draft raw => draftLine draft (lineOf raw)) (draftOf first) :=
  List.foldl_append

theorem draft_of_concat (lines : List Bytes) (raw : Bytes) :
    draftOf (lines ++ [raw]) = draftLine (draftOf lines) (lineOf raw) := by
  rw [draft_of_append]
  rfl

/-- Without a pending change there is nothing left of an earlier one. -/
def Settled (draft : Draft) : Prop := draft.haveChange = false → draft.change = {}

theorem flush_change_fresh {draft : Draft} (settled : Settled draft) :
    flushChange draft = { current := (flushChange draft).current } := by
  unfold flushChange
  split
  · rfl
  · rename_i none
    rcases draft with ⟨current, change, haveChange⟩
    simp only [Bool.not_eq_true] at none
    have empty := settled none
    simp only at none empty
    rw [none, empty]

theorem settled_flush_change {draft : Draft} (settled : Settled draft) :
    Settled (flushChange draft) := by
  rw [flush_change_fresh settled]
  exact fun _ => rfl

theorem settled_draft_line {draft : Draft} (settled : Settled draft) (line : LdifLine) :
    Settled (draftLine draft line) := by
  cases line with
  | blank => exact settled_flush_change settled
  | separator => exact settled_flush_change settled
  | dn value => exact settled_flush_change settled
  | skipped => exact settled
  | setting keyword value => exact settled
  | change op type =>
      intro none
      cases none
  | value name value =>
      intro none
      simp only [draftLine, pushValue] at none ⊢
      rw [none, Bool.false_and, if_neg Bool.false_ne_true]
      exact settled none

theorem settled_draft_of (lines : List Bytes) : Settled (draftOf lines) := by
  induction lines using List.reverseRecOn with
  | nil => exact fun _ => rfl
  | append_singleton lines raw ih =>
      rw [draft_of_concat]
      exact settled_draft_line ih _

theorem flush_change_with_dn (draft : Draft) (dn : Bytes) :
    flushChange (draft.withDn dn) = (flushChange draft).withDn dn := by
  unfold flushChange Draft.withDn
  split <;> rfl

theorem draft_line_with_dn (draft : Draft) (dn : Bytes) (line : LdifLine) :
    draftLine (draft.withDn dn) line = (draftLine draft line).withDn dn := by
  cases line with
  | blank => exact flush_change_with_dn draft dn
  | separator => exact flush_change_with_dn draft dn
  | dn value => exact flush_change_with_dn draft dn
  | skipped => rfl
  | setting keyword value => cases keyword <;> rfl
  | change op type =>
      simp only [draftLine, startChange, flush_change_with_dn]
      rfl
  | value name value => rfl

/-- The state of the loop, told by the blocks read so far. -/
def stateOf (cut : Cut Bytes Bytes) : ParseState where
  records := cut.done.map recordOf
  draft := (draftOf cut.block).withDn (cut.key.getD [])

theorem key_of_ne (dn : Bytes) : keyOf dn ≠ some [] := by
  unfold keyOf
  split_ifs with empty
  · exact nofun
  · simpa using empty

theorem mark_named (raw : Bytes) : mark raw ≠ .header (some []) := by
  unfold mark
  split
  · exact nofun
  · rename_i value _
    simpa using key_of_ne value
  · exact nofun

/-- No key is empty: a `dn` line without a value opens no record. -/
def Named (cut : Cut Bytes Bytes) : Prop := cut.key ≠ some []

theorem flush_outside {cut : Cut Bytes Bytes} (outside : cut.key = none) :
    flush (stateOf cut) =
      { records := cut.done.map recordOf
        draft := (flushChange (draftOf cut.block)).withDn [] } := by
  simp only [flush, stateOf, outside, Option.getD_none, flush_change_with_dn]
  exact if_neg (fun named => named rfl)

theorem flush_inside {cut : Cut Bytes Bytes} {dn : Bytes} (inside : cut.key = some dn)
    (named : dn ≠ []) :
    flush (stateOf cut) =
      { records := (cut.done ++ [(dn, cut.block)]).map recordOf, draft := {} } := by
  have fresh :
      { (flushChange (draftOf cut.block)).withDn dn with current := {} } = ({} : Draft) := by
    rw [flush_change_fresh (settled_draft_of cut.block)]
    rfl
  simp only [flush, stateOf, inside, Option.getD_some, flush_change_with_dn, fresh, List.map_append,
    List.map_singleton]
  exact if_pos named

theorem key_of_get (dn : Bytes) : (keyOf dn).getD [] = dn := by
  unfold keyOf
  split_ifs with empty
  · exact empty.symm
  · rfl

theorem mark_body {raw : Bytes} (noBlank : lineOf raw ≠ .blank)
    (noDn : ∀ value, lineOf raw ≠ .dn value) : mark raw = .body := by
  unfold mark
  split
  · rename_i shape
    exact absurd shape noBlank
  · rename_i value shape
    exact absurd shape (noDn value)
  · rfl

theorem parse_line_outside {cut : Cut Bytes Bytes} (outside : cut.key = none) (raw : Bytes) :
    parseLine (stateOf cut) raw = stateOf (cut.next mark raw) := by
  have cutNext : cut.next mark raw =
      { cut with key := nextKey mark none raw, block := cut.block ++ [raw] } := by
    simp only [Cut.next, outside]
  rw [cutNext]
  unfold parseLine
  split
  · rename_i shape
    rw [flush_outside outside]
    simp only [stateOf, nextKey, mark, shape, draft_of_concat]
    rfl
  · rename_i value shape
    rw [flush_outside outside]
    simp only [stateOf, nextKey, mark, shape, draft_of_concat, key_of_get]
    rfl
  · rename_i noBlank noDn
    have marked := mark_body noBlank noDn
    simp only [stateOf, nextKey, marked, outside, draft_of_concat, draft_line_with_dn]

/-- One turn of the loop cuts one more line. -/
theorem parse_line_cut {cut : Cut Bytes Bytes} (named : Named cut) (raw : Bytes) :
    parseLine (stateOf cut) raw = stateOf (cut.next mark raw) := by
  cases opened : cut.key with
  | none => exact parse_line_outside opened raw
  | some dn =>
      have keyed : dn ≠ [] := by
        intro empty
        exact named (by rw [opened, empty])
      unfold parseLine
      split
      · rename_i shape
        have marked : mark raw = .blank := by simp only [mark, shape]
        rw [flush_inside opened keyed]
        simp only [stateOf, Cut.next, opened, marked]
        simp [draftOf, shape, draftLine, flushChange, Draft.withDn]
      · rename_i value shape
        have marked : mark raw = .header (keyOf value) := by
          simp only [mark, shape]
        rw [flush_inside opened keyed]
        simp only [stateOf, Cut.next, opened, marked, key_of_get]
        simp [draftOf, shape, draftLine, flushChange, Draft.withDn]
      · rename_i noBlank noDn
        have marked := mark_body noBlank noDn
        simp only [stateOf, Cut.next, nextKey, marked, opened, draft_of_concat, draft_line_with_dn]

theorem parse_lines_cut (lines : List Bytes) {cut : Cut Bytes Bytes} (named : Named cut) :
    lines.foldl parseLine (stateOf cut) = stateOf (lines.foldl (Cut.next mark) cut) ∧
      Named (lines.foldl (Cut.next mark) cut) := by
  induction lines generalizing cut with
  | nil => exact ⟨rfl, named⟩
  | cons raw rest ih =>
      rw [List.foldl_cons, List.foldl_cons, parse_line_cut named]
      exact ih (Cut.next_key_ne mark_named named raw)

theorem records_flush {cut : Cut Bytes Bytes} (named : Named cut) :
    (flush (stateOf cut)).records = cut.finish.map recordOf := by
  cases opened : cut.key with
  | none =>
      rw [flush_outside opened]
      simp [Cut.finish, opened]
  | some dn =>
      have keyed : dn ≠ [] := by
        intro empty
        exact named (by rw [opened, empty])
      rw [flush_inside opened keyed]
      simp [Cut.finish, opened]

/-- The parser describes each block of lines by one record. -/
theorem parse_blocks (content : Bytes) :
    parseLdifText content = (blocks mark none [] (getLines [] content)).map recordOf := by
  have start : Named ({} : Cut Bytes Bytes) := nofun
  rcases parse_lines_cut (getLines [] content) start with ⟨reached, named⟩
  have begun : (stateOf {} : ParseState) = {} := rfl
  rw [parseLdifText, ← begun, reached, records_flush named, finish_cut]
  rfl

end Blocks

section Fields

def valueOf (raw : Bytes) : Option (Bytes × Bytes) :=
  match lineOf raw with
  | .value name value => some (name, value)
  | _ => none

def settingOf (keyword : LdifKeyword) (raw : Bytes) : Option Bytes :=
  match lineOf raw with
  | .setting other value => if other = keyword then some value else none
  | _ => none

/-- The value that the last line with the keyword gives. -/
def lastSetting (keyword : LdifKeyword) (lines : List Bytes) : Option Bytes :=
  (lines.filterMap (settingOf keyword)).getLast?

/-- An `add:`, `delete:` or `replace:` line. -/
def StartsChange (raw : Bytes) : Bool :=
  match lineOf raw with
  | .change _ _ => true
  | _ => false

/-- The two records agree in the field that the keyword sets. -/
def LdifKeyword.Same (left right : LdifRecord) : LdifKeyword → Prop
  | .changetype => left.changetype = right.changetype
  | .newrdn => left.newRdn = right.newRdn
  | .deleteoldrdn => left.deleteOldRdn = right.deleteOldRdn
  | .newsuperior => left.newSuperior = right.newSuperior

theorem record_eq_iff {left right : LdifRecord} (dn : left.dn = right.dn)
    (entryDn : left.entry.dn = right.entry.dn) :
    left = right ↔ left.entry.attributes = right.entry.attributes ∧
      left.changes = right.changes ∧ ∀ keyword : LdifKeyword, keyword.Same left right := by
  constructor
  · intro same
    rw [same]
    exact ⟨rfl, rfl, fun keyword => by cases keyword <;> rfl⟩
  · rintro ⟨attributes, changes, settings⟩
    have changetype := settings .changetype
    have newrdn := settings .newrdn
    have deleteoldrdn := settings .deleteoldrdn
    have newsuperior := settings .newsuperior
    rcases left with ⟨_, _, ⟨_, _⟩, _, _, _, _⟩
    rcases right with ⟨_, _, ⟨_, _⟩, _, _, _, _⟩
    simp only [LdifKeyword.Same] at *
    subst dn entryDn attributes changes changetype newrdn deleteoldrdn newsuperior
    rfl

theorem set_same (left right : LdifRecord) (value : Bytes) (keyword : LdifKeyword) :
    keyword.Same (left.set value keyword) (right.set value keyword) := by
  cases keyword <;> rfl

theorem set_other (record : LdifRecord) (value : Bytes) {keyword other : LdifKeyword}
    (different : keyword ≠ other) : other.Same (record.set value keyword) record := by
  cases keyword <;> cases other <;> first | rfl | exact absurd rfl different

/-- The draft that a block of lines leaves when the record starts as `start`. -/
def draftFrom (start : LdifRecord) (lines : List Bytes) : Draft :=
  lines.foldl (fun draft raw => draftLine draft (lineOf raw)) { current := start }

theorem draft_from_concat (start : LdifRecord) (lines : List Bytes) (raw : Bytes) :
    draftFrom start (lines ++ [raw]) = draftLine (draftFrom start lines) (lineOf raw) := by
  rw [draftFrom, List.foldl_append]
  rfl

theorem attributes_flush_change (draft : Draft) :
    (flushChange draft).current.entry = draft.current.entry := by
  unfold flushChange
  split <;> rfl

theorem attributes_draft_line (draft : Draft) (raw : Bytes) :
    (draftLine draft (lineOf raw)).current.entry.attributes =
      Attributes.pushAll draft.current.entry.attributes (valueOf raw).toList := by
  unfold valueOf
  cases lineOf raw with
  | blank => exact congrArg _ (attributes_flush_change draft)
  | separator => exact congrArg _ (attributes_flush_change draft)
  | dn value => exact congrArg _ (attributes_flush_change draft)
  | skipped => rfl
  | setting keyword value => cases keyword <;> rfl
  | change op type => exact congrArg _ (attributes_flush_change draft)
  | value name value => rfl

theorem attributes_draft_from (start : LdifRecord) (lines : List Bytes) :
    (draftFrom start lines).current.entry.attributes =
      Attributes.pushAll start.entry.attributes (lines.filterMap valueOf) := by
  induction lines using List.reverseRecOn with
  | nil => rfl
  | append_singleton lines raw ih =>
      rw [draft_from_concat, attributes_draft_line, ih, List.filterMap_append,
        Attributes.push_all_append]
      cases found : valueOf raw <;> simp [found]

theorem same_trans {left middle right : LdifRecord} {keyword : LdifKeyword}
    (first : keyword.Same left middle) (second : keyword.Same middle right) :
    keyword.Same left right := by
  cases keyword <;> exact Eq.trans first second

theorem same_flush_change (draft : Draft) (keyword : LdifKeyword) :
    keyword.Same (flushChange draft).current draft.current := by
  unfold flushChange
  split <;> cases keyword <;> rfl

theorem same_draft_line (draft : Draft) (raw : Bytes) (keyword : LdifKeyword) :
    keyword.Same (draftLine draft (lineOf raw)).current
      (match settingOf keyword raw with
      | some value => LdifRecord.set {} value keyword
      | none => draft.current) := by
  unfold settingOf
  cases lineOf raw with
  | blank => exact same_flush_change draft keyword
  | separator => exact same_flush_change draft keyword
  | dn value => exact same_flush_change draft keyword
  | skipped => cases keyword <;> rfl
  | change op type => exact same_flush_change draft keyword
  | value name value => cases keyword <;> rfl
  | setting other value =>
      simp only [draftLine]
      by_cases same : other = keyword
      · rw [if_pos same, same]
        exact set_same _ _ value keyword
      · rw [if_neg same]
        exact set_other _ value same

theorem same_draft_from (start : LdifRecord) (lines : List Bytes) (keyword : LdifKeyword) :
    keyword.Same (draftFrom start lines).current
      (match lastSetting keyword lines with
      | some value => LdifRecord.set {} value keyword
      | none => start) := by
  induction lines using List.reverseRecOn with
  | nil => cases keyword <;> rfl
  | append_singleton lines raw ih =>
      have step := same_draft_line (draftFrom start lines) raw keyword
      rw [draft_from_concat, lastSetting, List.filterMap_append]
      cases found : settingOf keyword raw with
      | none =>
          rw [found] at step
          simp only [List.filterMap_cons, found, List.filterMap_nil, List.append_nil]
          exact same_trans step ih
      | some value =>
          rw [found] at step
          simp only [List.filterMap_cons, found, List.filterMap_nil, List.getLast?_append,
            List.getLast?_singleton, Option.some_or]
          exact step

/-- Two drafts that differ in the record they started from. -/
structure Parallel (start : LdifRecord) (left right : Draft) : Prop where
  change : left.change = right.change
  haveChange : left.haveChange = right.haveChange
  changes : left.current.changes = start.changes ++ right.current.changes

theorem Parallel.flush_change {start : LdifRecord} {left right : Draft}
    (parallel : Parallel start left right) :
    Parallel start (flushChange left) (flushChange right) := by
  unfold flushChange
  rw [parallel.haveChange]
  split
  · refine ⟨rfl, rfl, ?_⟩
    simp only [parallel.change, parallel.changes, List.append_assoc]
  · exact parallel

theorem Parallel.draft_line {start : LdifRecord} {left right : Draft}
    (parallel : Parallel start left right) (line : LdifLine) :
    Parallel start (draftLine left line) (draftLine right line) := by
  cases line with
  | blank => exact parallel.flush_change
  | separator => exact parallel.flush_change
  | dn value => exact parallel.flush_change
  | skipped => exact parallel
  | setting keyword value =>
      refine ⟨parallel.change, parallel.haveChange, ?_⟩
      cases keyword <;> exact parallel.changes
  | change op type =>
      have flushed := parallel.flush_change
      refine ⟨?_, rfl, flushed.changes⟩
      simp only [draftLine, startChange, flushed.change]
  | value name value =>
      refine ⟨?_, parallel.haveChange, parallel.changes⟩
      simp only [draftLine, pushValue, parallel.change, parallel.haveChange]

theorem parallel_draft_from (start : LdifRecord) (lines : List Bytes) :
    Parallel start (draftFrom start lines) (draftOf lines) := by
  induction lines using List.reverseRecOn with
  | nil => exact ⟨rfl, rfl, (List.append_nil start.changes).symm⟩
  | append_singleton lines raw ih =>
      rw [draft_from_concat, draft_of_concat]
      exact ih.draft_line (lineOf raw)

/-- The changes of the record and the pending one. -/
def Draft.changeCount (draft : Draft) : Nat :=
  draft.current.changes.length + draft.haveChange.toNat

theorem change_count_flush (draft : Draft) :
    (flushChange draft).changeCount = draft.changeCount ∧
      (flushChange draft).haveChange = false := by
  unfold flushChange
  split
  · rename_i pending
    simp [Draft.changeCount, pending]
  · rename_i none
    exact ⟨rfl, by simpa using none⟩

theorem change_count_draft_line (draft : Draft) (raw : Bytes) :
    (draftLine draft (lineOf raw)).changeCount =
      draft.changeCount + if StartsChange raw then 1 else 0 := by
  unfold StartsChange
  cases lineOf raw with
  | blank => exact (change_count_flush draft).1
  | separator => exact (change_count_flush draft).1
  | dn value => exact (change_count_flush draft).1
  | skipped => rfl
  | setting keyword value => cases keyword <;> rfl
  | value name value => rfl
  | change op type =>
      rcases change_count_flush draft with ⟨kept, closed⟩
      rw [← kept]
      simp [draftLine, startChange, Draft.changeCount, closed]

theorem change_count_draft_of (lines : List Bytes) :
    (draftOf lines).changeCount = lines.countP StartsChange := by
  induction lines using List.reverseRecOn with
  | nil => rfl
  | append_singleton lines raw ih =>
      rw [draft_of_concat, change_count_draft_line, ih, List.countP_append, List.countP_singleton]

theorem changes_eq_nil_iff (lines : List Bytes) :
    (flushChange (draftOf lines)).current.changes = [] ↔
      ∀ raw ∈ lines, StartsChange raw = false := by
  rcases change_count_flush (draftOf lines) with ⟨kept, closed⟩
  rw [change_count_draft_of, Draft.changeCount, closed] at kept
  rw [← List.length_eq_zero_iff]
  simp only [Bool.toNat_false, Nat.add_zero] at kept
  rw [kept, List.countP_eq_zero]
  simp

end Fields

section Independence

open LineMark

/-- The value leaves the field of a new record as it is. -/
def LdifKeyword.Default (value : Bytes) : LdifKeyword → Prop
  | .changetype => parseChangeType value = .content
  | .newrdn => value = []
  | .deleteoldrdn => (decide (value = text "1") || iequals value (text "true")) = true
  | .newsuperior => value = []

/-- The stray lines leave no trace in a record built from `own`: no attribute value, no
change, and no setting that `own` does not make itself, except the default. -/
structure Neutral (stray own : List Bytes) : Prop where
  values : ∀ raw ∈ stray, valueOf raw = none
  changes : ∀ raw ∈ stray, StartsChange raw = false
  settings : ∀ keyword : LdifKeyword, lastSetting keyword own ≠ none ∨
    ∀ value, lastSetting keyword stray = some value → keyword.Default value

theorem default_iff (value : Bytes) (keyword : LdifKeyword) :
    keyword.Same (LdifRecord.set {} value keyword) {} ↔ keyword.Default value := by
  cases keyword <;> rfl

theorem same_congr {left right left' right' : LdifRecord} {keyword : LdifKeyword}
    (first : keyword.Same left left') (second : keyword.Same right right') :
    keyword.Same left right ↔ keyword.Same left' right' := by
  cases keyword <;> simp only [LdifKeyword.Same] at * <;> rw [first, second]

theorem same_record_of (block : Bytes × List Bytes) (keyword : LdifKeyword) :
    keyword.Same (recordOf block) (draftOf block.2).current := by
  have flushed := same_flush_change (draftOf block.2) keyword
  cases keyword <;> exact flushed

theorem attributes_record_of (block : Bytes × List Bytes) :
    (recordOf block).entry.attributes =
      Attributes.pushAll OrderedMap.empty (block.2.filterMap valueOf) := by
  have built := attributes_draft_from {} block.2
  have flushed := attributes_flush_change (draftOf block.2)
  exact (congrArg DirectoryEntry.attributes flushed).trans built

theorem flush_change_idempotent (draft : Draft) :
    flushChange (flushChange draft) = flushChange draft := by
  have closed := (change_count_flush draft).2
  rw [flushChange, closed, if_neg Bool.false_ne_true]

theorem draft_of_gap (stray : List Bytes) {gap : List Bytes} (present : gap ≠ [])
    (blank : ∀ raw ∈ gap, raw = []) : draftOf (stray ++ gap) = flushChange (draftOf stray) := by
  induction gap using List.reverseRecOn with
  | nil => exact absurd rfl present
  | append_singleton gap raw ih =>
      have last : raw = [] := blank raw (by simp)
      rw [← List.append_assoc, draft_of_concat, last]
      change flushChange (draftOf (stray ++ gap)) = flushChange (draftOf stray)
      by_cases only : gap = []
      · rw [only, List.append_nil]
      · rw [ih only (fun other member => blank other (by simp [member])), flush_change_idempotent]

/-- Lines that end in a blank one start the record that follows them. -/
theorem draft_of_extra (stray : List Bytes) {gap : List Bytes} (present : gap ≠ [])
    (blank : ∀ raw ∈ gap, raw = []) (own : List Bytes) :
    draftOf (stray ++ gap ++ own) =
      draftFrom (flushChange (draftOf stray)).current own := by
  rw [draft_of_append, draft_of_gap stray present blank,
    flush_change_fresh (settled_draft_of stray)]
  rfl

theorem settings_extra_iff (stray own : List Bytes) (keyword : LdifKeyword) :
    keyword.Same (draftFrom (flushChange (draftOf stray)).current own).current
        (draftOf own).current ↔
      lastSetting keyword own ≠ none ∨
        ∀ value, lastSetting keyword stray = some value → keyword.Default value := by
  have left := same_draft_from (flushChange (draftOf stray)).current own keyword
  have right : keyword.Same (draftOf own).current _ := same_draft_from {} own keyword
  have start : keyword.Same (draftOf stray).current _ := same_draft_from {} stray keyword
  have flushed := same_flush_change (draftOf stray) keyword
  rw [same_congr left right]
  cases set : lastSetting keyword own with
  | some value => simpa using set_same {} {} value keyword
  | none =>
      have untouched : keyword.Same ({} : LdifRecord) {} := by cases keyword <;> rfl
      simp only [ne_eq, not_true_eq_false, false_or]
      rw [same_congr (same_trans flushed start) untouched]
      cases lastSetting keyword stray with
      | none => simpa using untouched
      | some value => simpa using default_iff value keyword

theorem record_of_extra_iff (dn : Bytes) (stray own : List Bytes) {gap : List Bytes}
    (present : gap ≠ []) (blank : ∀ raw ∈ gap, raw = []) :
    recordOf (dn, stray ++ gap ++ own) = recordOf (dn, own) ↔ Neutral stray own := by
  have merged := draft_of_extra stray present blank own
  have dnSame : (recordOf (dn, stray ++ gap ++ own)).dn = (recordOf (dn, own)).dn := rfl
  rw [record_eq_iff dnSame dnSame, attributes_record_of, attributes_record_of]
  have values : Attributes.pushAll OrderedMap.empty ((stray ++ gap ++ own).filterMap valueOf) =
      Attributes.pushAll OrderedMap.empty (own.filterMap valueOf) ↔
      ∀ raw ∈ stray, valueOf raw = none := by
    have silent : gap.filterMap valueOf = [] := by
      rw [List.filterMap_eq_nil_iff]
      intro raw member
      rw [blank raw member]
      rfl
    rw [List.filterMap_append, List.filterMap_append, silent, List.append_nil]
    constructor
    · intro same
      exact List.filterMap_eq_nil_iff.mp (Attributes.push_extra same)
    · intro none
      rw [List.filterMap_eq_nil_iff.mpr none, List.nil_append]
  have changes : (recordOf (dn, stray ++ gap ++ own)).changes = (recordOf (dn, own)).changes ↔
      ∀ raw ∈ stray, StartsChange raw = false := by
    have parallel :=
      (parallel_draft_from (flushChange (draftOf stray)).current own).flush_change.changes
    change (flushChange (draftOf (stray ++ gap ++ own))).current.changes =
      (flushChange (draftOf own)).current.changes ↔ _
    rw [merged, parallel, List.append_left_eq_self, changes_eq_nil_iff]
  have settings (keyword : LdifKeyword) :
      keyword.Same (recordOf (dn, stray ++ gap ++ own)) (recordOf (dn, own)) ↔
        keyword.Same (draftFrom (flushChange (draftOf stray)).current own).current
          (draftOf own).current := by
    rw [← merged]
    exact same_congr (same_record_of _ keyword) (same_record_of _ keyword)
  rw [values, changes]
  simp only [settings, settings_extra_iff]
  exact ⟨fun all => ⟨all.1, all.2.1, all.2.2⟩,
    fun neutral => ⟨neutral.values, neutral.changes, neutral.settings⟩⟩

/-- The lines of a text that come after its last record. -/
def leftOver (content : Bytes) : List Bytes := remainder mark none [] (getLines [] content)

/-- What the first text leaves over does not show in the first record of the second. -/
def Independent (first second : Bytes) : Prop :=
  ∀ block ∈ (blocks mark none [] (getLines [] second)).head?, Neutral (leftOver first) block.2

theorem blocks_two_texts (first second : Bytes) :
    ∃ gap : List Bytes, gap ≠ [] ∧ (∀ raw ∈ gap, raw = []) ∧
      blocks mark none [] (getLines [] (first ++ newline :: newline :: second)) =
        blocks mark none [] (getLines [] first) ++
          onFirst (leftOver first ++ gap) (blocks mark none [] (getLines [] second)) := by
  rcases get_lines_append [] first (newline :: second) with ⟨gap, blank, split⟩
  have breaks : getLines [] (newline :: second) = [] :: getLines [] second := rfl
  have blanks : ∀ raw ∈ gap ++ [[]], raw = [] := by
    intro raw member
    rcases List.mem_append.mp member with inGap | last
    · exact blank raw inGap
    · exact List.mem_singleton.mp last
  have closes : ∀ raw ∈ gap ++ [[]], mark raw = .blank := by
    intro raw member
    rw [blanks raw member]
    rfl
  refine ⟨gap ++ [[]], by simp, blanks, ?_⟩
  have whole : getLines [] first ++ gap ++ [] :: getLines [] second =
      getLines [] first ++ ((gap ++ [[]]) ++ getLines [] second) := by simp
  rw [split, breaks, whole, blocks_append_gap mark (by simp) closes]
  rfl

theorem parse_append_iff (first second : Bytes) :
    parseLdifText (first ++ newline :: newline :: second) =
        parseLdifText first ++ parseLdifText second ↔
      Independent first second := by
  rcases blocks_two_texts first second with ⟨gap, present, blank, cut⟩
  rw [parse_blocks, parse_blocks, parse_blocks, cut, List.map_append, List.append_cancel_left_eq,
    Independent]
  cases blocks mark none [] (getLines [] second) with
  | nil => simp [onFirst]
  | cons block rest =>
      rcases block with ⟨dn, own⟩
      simp only [onFirst, List.map_cons, List.cons.injEq, and_true, List.head?_cons,
        Option.mem_some_iff, forall_eq']
      exact record_of_extra_iff dn (leftOver first) own present blank

end Independence

end SimpleLdapd.Ldif
