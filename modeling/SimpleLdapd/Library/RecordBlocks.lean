import Mathlib.Data.List.Basic

/-!
# Records cut from a list of lines

A header line opens a record under its key, and the next blank line or header
closes it. A reader that starts afresh only when it closes a record builds each
record from a whole block of lines: those since the last record was closed,
which are the record's own lines and whatever stood between the two records.
`blocks` is what such a reader sees and `ownBlocks` what belongs to each record.
-/

namespace SimpleLdapd

/-- What a line means to the reader; a header without a key opens no record. -/
inductive LineMark (Key : Type*) where
  | blank
  | header (key : Option Key)
  | body
  deriving DecidableEq

namespace LineMark

variable {Key Line Value : Type*} (mark : Line → LineMark Key)

/-- The key of the record that is open after the line. -/
def nextKey (key : Option Key) (line : Line) : Option Key :=
  match mark line with
  | .blank => none
  | .header next => next
  | .body => key

/-- The records read so far, the open record and the lines since the last one was closed. -/
structure Cut (Key Line : Type*) where
  done : List (Key × List Line) := []
  key : Option Key := none
  block : List Line := []

namespace Cut

def finish (cut : Cut Key Line) : List (Key × List Line) :=
  cut.done ++ (cut.key.map fun key => (key, cut.block)).toList

def next (cut : Cut Key Line) (line : Line) : Cut Key Line :=
  match cut.key, mark line with
  | some key, .blank =>
      { done := cut.done ++ [(key, cut.block)], key := none, block := [line] }
  | some key, .header next =>
      { done := cut.done ++ [(key, cut.block)], key := next, block := [line] }
  | _, _ => { cut with key := nextKey mark cut.key line, block := cut.block ++ [line] }

end Cut

variable {mark} in
/-- A key that no header has is never open. -/
theorem next_key_ne {absent : Key} (never : ∀ line, mark line ≠ .header (some absent))
    {key : Option Key} (other : key ≠ some absent) (line : Line) :
    nextKey mark key line ≠ some absent := by
  unfold nextKey
  cases marked : mark line with
  | blank => exact nofun
  | body => exact other
  | header opened => exact fun same => never line (marked.trans (congrArg header same))

theorem Cut.next_key (cut : Cut Key Line) (line : Line) :
    (cut.next mark line).key = nextKey mark cut.key line := by
  unfold Cut.next
  split
  · rename_i marked
    rw [nextKey, marked]
  · rename_i marked
    rw [nextKey, marked]
  · rfl

variable {mark} in
theorem Cut.next_key_ne {absent : Key} (never : ∀ line, mark line ≠ .header (some absent))
    {cut : Cut Key Line} (other : cut.key ≠ some absent) (line : Line) :
    (cut.next mark line).key ≠ some absent := by
  rw [Cut.next_key]
  exact LineMark.next_key_ne never other line

/-- The blocks of the records from here on, when `key` is open and `block` collected. -/
def blocks : Option Key → List Line → List Line → List (Key × List Line)
  | key, block, [] => (key.map fun key => (key, block)).toList
  | key, block, line :: rest =>
      match key, mark line with
      | some key, .blank => (key, block) :: blocks none [line] rest
      | some key, .header next => (key, block) :: blocks next [line] rest
      | _, _ => blocks (nextKey mark key line) (block ++ [line]) rest

/-- The lines left over at the end: none if a record is open there. -/
def remainder : Option Key → List Line → List Line → List Line
  | none, block, [] => block
  | some _, _, [] => []
  | key, block, line :: rest =>
      match key, mark line with
      | some _, .blank => remainder none [line] rest
      | some _, .header next => remainder next [line] rest
      | _, _ => remainder (nextKey mark key line) (block ++ [line]) rest

def IsBody (line : Line) : Bool :=
  match mark line with
  | .body => true
  | _ => false

/-- Each header with a key and the body lines that follow it directly. -/
def ownBlocks : List Line → List (Key × List Line)
  | [] => []
  | line :: rest =>
      match mark line with
      | .header (some key) => (key, rest.takeWhile (IsBody mark)) :: ownBlocks rest
      | _ => ownBlocks rest

def onFirst (extra : List Line) : List (Key × List Line) → List (Key × List Line)
  | [] => []
  | (key, block) :: rest => (key, extra ++ block) :: rest

def NoHeader (lines : List Line) : Prop :=
  ∀ line ∈ lines, ∀ key, mark line ≠ .header (some key)

section Lines

variable {mark} {line : Line}

theorem next_key_blank (marked : mark line = .blank) (key : Option Key) :
    nextKey mark key line = none := by
  rw [nextKey, marked]

theorem next_key_header {next : Option Key} (marked : mark line = .header next)
    (key : Option Key) : nextKey mark key line = next := by
  rw [nextKey, marked]

theorem next_key_body (marked : mark line = .body) (key : Option Key) :
    nextKey mark key line = key := by
  rw [nextKey, marked]

variable (block rest : List Line)

theorem blocks_outside :
    blocks mark none block (line :: rest) =
      blocks mark (nextKey mark none line) (block ++ [line]) rest := rfl

theorem blocks_inside (key : Key) :
    blocks mark (some key) block (line :: rest) =
      match mark line with
      | .blank => (key, block) :: blocks mark none [line] rest
      | .header next => (key, block) :: blocks mark next [line] rest
      | .body => blocks mark (some key) (block ++ [line]) rest := by
  cases marked : mark line with
  | blank => simp only [blocks, marked]
  | header next => simp only [blocks, marked]
  | body => simp only [blocks, marked, next_key_body marked]

theorem blocks_blank (marked : mark line = .blank) (key : Key) :
    blocks mark (some key) block (line :: rest) =
      (key, block) :: blocks mark none [line] rest := by
  rw [blocks_inside, marked]

theorem blocks_header {next : Option Key} (marked : mark line = .header next) (key : Key) :
    blocks mark (some key) block (line :: rest) =
      (key, block) :: blocks mark next [line] rest := by
  rw [blocks_inside, marked]

theorem blocks_body (marked : mark line = .body) (key : Key) :
    blocks mark (some key) block (line :: rest) =
      blocks mark (some key) (block ++ [line]) rest := by
  rw [blocks_inside, marked]

theorem remainder_outside :
    remainder mark none block (line :: rest) =
      remainder mark (nextKey mark none line) (block ++ [line]) rest := rfl

theorem remainder_inside (key : Key) :
    remainder mark (some key) block (line :: rest) =
      match mark line with
      | .blank => remainder mark none [line] rest
      | .header next => remainder mark next [line] rest
      | .body => remainder mark (some key) (block ++ [line]) rest := by
  cases marked : mark line with
  | blank => simp only [remainder, marked]
  | header next => simp only [remainder, marked]
  | body => simp only [remainder, marked, next_key_body marked]

end Lines

theorem finish_cut (cut : Cut Key Line) (lines : List Line) :
    (lines.foldl (Cut.next mark) cut).finish =
      cut.done ++ blocks mark cut.key cut.block lines := by
  induction lines generalizing cut with
  | nil => rfl
  | cons line rest ih =>
      rw [List.foldl_cons, ih]
      rcases cut with ⟨done, key, block⟩
      cases key with
      | none => rfl
      | some key =>
          cases marked : mark line with
          | blank => simp [Cut.next, blocks_blank, marked]
          | header next => simp [Cut.next, blocks_header, marked]
          | body => simp only [Cut.next, blocks_body, next_key_body, marked]

theorem blocks_extra (extra : List Line) (key : Option Key) (block lines : List Line) :
    blocks mark key (extra ++ block) lines = onFirst extra (blocks mark key block lines) := by
  induction lines generalizing key block with
  | nil => cases key <;> rfl
  | cons line rest ih =>
      cases key with
      | none =>
          rw [blocks_outside, blocks_outside, List.append_assoc]
          exact ih _ _
      | some key =>
          cases marked : mark line with
          | blank =>
              rw [blocks_blank _ _ marked, blocks_blank _ _ marked]
              rfl
          | header next =>
              rw [blocks_header _ _ marked, blocks_header _ _ marked]
              rfl
          | body =>
              rw [blocks_body _ _ marked, blocks_body _ _ marked, List.append_assoc]
              exact ih _ _

/-- Reading on after a blank line: the first record that follows also gets what the lines
before left over. -/
theorem blocks_append {blank : Line} (closes : mark blank = .blank) (key : Option Key)
    (block first second : List Line) :
    blocks mark key block (first ++ blank :: second) =
      blocks mark key block first ++
        onFirst (remainder mark key block first ++ [blank]) (blocks mark none [] second) := by
  induction first generalizing key block with
  | nil =>
      rw [← blocks_extra, List.append_nil]
      cases key with
      | none =>
          rw [List.nil_append, blocks_outside, next_key_blank closes]
          rfl
      | some key =>
          rw [List.nil_append, blocks_blank _ _ closes]
          rfl
  | cons line rest ih =>
      cases key with
      | none =>
          rw [List.cons_append, blocks_outside, blocks_outside, remainder_outside]
          exact ih _ _
      | some key =>
          rw [List.cons_append, blocks_inside, blocks_inside, remainder_inside]
          cases mark line with
          | blank => exact congrArg _ (ih _ _)
          | header next => exact congrArg _ (ih _ _)
          | body => exact ih _ _

theorem blocks_blanks {gap : List Line} (closes : ∀ blank ∈ gap, mark blank = .blank)
    (block second : List Line) :
    blocks mark none block (gap ++ second) = blocks mark none (block ++ gap) second := by
  induction gap generalizing block with
  | nil => simp
  | cons blank rest ih =>
      have here := closes blank (by simp)
      have later := ih (fun other member => closes other (by simp [member])) (block ++ [blank])
      rw [List.cons_append, blocks_outside, next_key_blank here, later]
      simp

theorem blocks_append_gap {gap : List Line} (present : gap ≠ [])
    (closes : ∀ blank ∈ gap, mark blank = .blank) (first second : List Line) :
    blocks mark none [] (first ++ (gap ++ second)) =
      blocks mark none [] first ++
        onFirst (remainder mark none [] first ++ gap) (blocks mark none [] second) := by
  rcases List.exists_cons_of_ne_nil present with ⟨blank, rest, split⟩
  rw [split] at closes ⊢
  have others : ∀ other ∈ rest, mark other = .blank := fun other member =>
    closes other (by simp [member])
  rw [List.cons_append, blocks_append mark (closes blank (by simp)), ← blocks_extra,
    ← blocks_extra, blocks_blanks mark others, List.append_nil, List.append_nil,
    List.append_assoc, List.singleton_append]

variable {mark} in
/-- Body lines are collected for the record that is open. -/
theorem blocks_body_lines {body : List Line} (inside : ∀ line ∈ body, mark line = .body)
    (key : Key) (block rest : List Line) :
    blocks mark (some key) block (body ++ rest) =
      blocks mark (some key) (block ++ body) rest := by
  induction body generalizing block with
  | nil => rw [List.nil_append, List.append_nil]
  | cons line body ih =>
      have later := ih fun other member => inside other (by simp [member])
      rw [List.cons_append, blocks_body _ _ (inside line (by simp)), later, List.append_assoc,
        List.singleton_append]

variable {mark} in
/-- A header, its body and the line that closes it are one record. -/
theorem blocks_record {header blank : Line} {key : Key} (opens : mark header = .header (some key))
    (closes : mark blank = .blank) {body : List Line} (inside : ∀ line ∈ body, mark line = .body)
    (block rest : List Line) :
    blocks mark none block (header :: (body ++ blank :: rest)) =
      (key, block ++ header :: body) :: blocks mark none [blank] rest := by
  rw [blocks_outside, next_key_header opens, blocks_body_lines inside, blocks_blank _ _ closes,
    List.append_assoc, List.singleton_append]

variable {mark} in
/-- A header and its body are one record when the input ends behind them or goes on with a
line that closes it. -/
theorem blocks_record_closed {header : Line} {key : Key} (opens : mark header = .header (some key))
    {body : List Line} (inside : ∀ line ∈ body, mark line = .body) (block : List Line)
    {rest : List Line} (closed : ∀ line ∈ rest.head?, mark line ≠ .body) :
    blocks mark none block (header :: (body ++ rest)) =
      (key, block ++ header :: body) :: blocks mark none [] rest := by
  rw [blocks_outside, next_key_header opens, blocks_body_lines inside, List.append_assoc,
    List.singleton_append]
  cases rest with
  | nil => rfl
  | cons line rest =>
      cases marked : mark line with
      | blank => rw [blocks_blank _ _ marked, blocks_outside, next_key_blank marked, List.nil_append]
      | header next =>
          rw [blocks_header _ _ marked, blocks_outside, next_key_header marked, List.nil_append]
      | body => exact absurd marked (closed line rfl)

variable {mark} in
/-- The last record ends with the input, after any number of blank lines. -/
theorem blocks_last_record {header : Line} {key : Key} (opens : mark header = .header (some key))
    {body gap : List Line} (inside : ∀ line ∈ body, mark line = .body)
    (closes : ∀ blank ∈ gap, mark blank = .blank) (block : List Line) :
    blocks mark none block (header :: (body ++ gap)) = [(key, block ++ header :: body)] := by
  cases gap with
  | nil =>
      rw [blocks_outside, next_key_header opens, blocks_body_lines inside, List.append_assoc]
      rfl
  | cons blank gap =>
      have others : ∀ other ∈ gap, mark other = .blank := fun other member =>
        closes other (by simp [member])
      have later := blocks_blanks mark others [blank] []
      rw [blocks_record opens (closes blank (by simp)) inside, ← List.append_nil gap, later]
      rfl

variable {mark} in
theorem blocks_congr {other : Line → LineMark Key} {lines : List Line}
    (same : ∀ line ∈ lines, mark line = other line) (key : Option Key) (block : List Line) :
    blocks mark key block lines = blocks other key block lines := by
  induction lines generalizing key block with
  | nil => rfl
  | cons line rest ih =>
      have here := same line (by simp)
      have later := ih fun next member => same next (by simp [member])
      cases key with
      | none => rw [blocks_outside, blocks_outside, nextKey, nextKey, here, later]
      | some key => simp only [blocks_inside, here, later]

variable {mark} in
/-- A block has a key that a header has, and lines that were read. -/
theorem mem_blocks {absent : Key} (never : ∀ line, mark line ≠ .header (some absent))
    {lines : List Line} {key : Option Key} (other : key ≠ some absent) {block : List Line}
    {record : Key × List Line} (member : record ∈ blocks mark key block lines) :
    record.1 ≠ absent ∧ ∀ line ∈ record.2, line ∈ block ∨ line ∈ lines := by
  induction lines generalizing key block with
  | nil =>
      cases key with
      | none => cases member
      | some key =>
          rw [List.mem_singleton.mp member]
          exact ⟨fun same => other (congrArg some same), fun line inside => Or.inl inside⟩
  | cons line rest ih =>
      have next := next_key_ne never other line
      have grown {key : Option Key} {collected : List Line} (fine : key ≠ some absent)
          (within : ∀ inner ∈ collected, inner ∈ block ∨ inner ∈ line :: rest)
          (later : record ∈ blocks mark key collected rest) :
          record.1 ≠ absent ∧ ∀ inner ∈ record.2, inner ∈ block ∨ inner ∈ line :: rest := by
        rcases ih fine later with ⟨named, inside⟩
        refine ⟨named, ?_⟩
        intro inner innerMember
        rcases inside inner innerMember with old | new
        · exact within inner old
        · exact Or.inr (List.mem_cons_of_mem line new)
      have alone : ∀ inner ∈ [line], inner ∈ block ∨ inner ∈ line :: rest := by simp
      have more : ∀ inner ∈ block ++ [line], inner ∈ block ∨ inner ∈ line :: rest := by
        simp only [List.mem_append, List.mem_cons]
        tauto
      cases key with
      | none =>
          rw [blocks_outside] at member
          exact grown next more member
      | some key =>
          have closed (here : record = (key, block)) :
              record.1 ≠ absent ∧ ∀ inner ∈ record.2, inner ∈ block ∨ inner ∈ line :: rest := by
            rw [here]
            exact ⟨fun same => other (congrArg some same), fun inner inside => Or.inl inside⟩
          cases marked : mark line with
          | blank =>
              rw [blocks_blank _ _ marked, List.mem_cons] at member
              exact member.elim closed (grown nofun alone)
          | header opened =>
              rw [blocks_header _ _ marked, List.mem_cons] at member
              have fine : opened ≠ some absent := by
                rwa [next_key_header marked] at next
              exact member.elim closed (grown fine alone)
          | body =>
              rw [blocks_body _ _ marked] at member
              exact grown other more member

theorem no_header_cons (line : Line) (rest : List Line) :
    NoHeader mark (line :: rest) ↔
      (∀ key, mark line ≠ .header (some key)) ∧ NoHeader mark rest :=
  List.forall_mem_cons

section Own

variable (value : Line → Option Value)

/-- A line that has a value and stands in no record has no record after it. -/
def StrayFree (key : Option Key) (lines : List Line) : Prop :=
  ∀ before line after, lines = before ++ line :: after →
    before.foldl (nextKey mark) key = none → value line ≠ none → NoHeader mark after

theorem stray_free_cons (key : Option Key) (line : Line) (rest : List Line) :
    StrayFree mark value key (line :: rest) ↔
      (key = none → value line ≠ none → NoHeader mark rest) ∧
        StrayFree mark value (nextKey mark key line) rest := by
  constructor
  · intro free
    constructor
    · exact free [] line rest rfl
    · intro before inner after split
      exact free (line :: before) inner after (by rw [split]; rfl)
  · rintro ⟨here, later⟩ before inner after split
    cases before with
    | nil =>
        cases split
        exact here
    | cons first before =>
        cases split
        exact later before inner after rfl

variable {Content : Type*} (build : List Value → Content)

/-- The key of a block and what its values build. -/
def contents (block : Key × List Line) : Key × Content :=
  (block.1, build (block.2.filterMap value))

variable {mark value build}

/-- An open record is built from the values collected and those of the lines up to the
next blank line or header. -/
theorem contents_blocks_open (key : Key) (block lines : List Line) :
    (blocks mark (some key) block lines).map (contents value build) =
      (key, build ((block ++ lines.takeWhile (IsBody mark)).filterMap value)) ::
        (blocks mark none [] (lines.dropWhile (IsBody mark))).map (contents value build) := by
  induction lines generalizing block with
  | nil => simp [blocks, contents]
  | cons line rest ih =>
      cases marked : mark line with
      | blank =>
          simp [blocks_blank, blocks_outside, next_key_blank, marked, IsBody, contents]
      | header next =>
          simp [blocks_header, blocks_outside, next_key_header, marked, IsBody, contents]
      | body =>
          rw [blocks_body _ _ marked, ih]
          simp [IsBody, marked]

theorem own_blocks_cons {line : Line} (marked : ∀ key, mark line ≠ .header (some key))
    (rest : List Line) : ownBlocks mark (line :: rest) = ownBlocks mark rest := by
  cases shape : mark line with
  | blank => simp [ownBlocks, shape]
  | body => simp [ownBlocks, shape]
  | header next =>
      cases next with
      | none => simp [ownBlocks, shape]
      | some key => exact absurd shape (marked key)

section Silent

variable (silent : ∀ line, mark line ≠ .body → value line = none)

include silent

theorem stray_free_silent {line : Line} (marked : mark line ≠ .body) (key : Key)
    (rest : List Line) :
    StrayFree mark value none (line :: rest) ↔ StrayFree mark value (some key) (line :: rest) := by
  have same : nextKey mark none line = nextKey mark (some key) line := by
    cases shape : mark line with
    | blank => rw [next_key_blank shape, next_key_blank shape]
    | header next => rw [next_key_header shape, next_key_header shape]
    | body => exact absurd shape marked
  rw [stray_free_cons, stray_free_cons, same]
  simp [silent line marked]

variable (notices : ∀ extra own, build (extra ++ own) = build own → extra = [])

include notices

/-- Outside a record: what was collected before must have no value, or no record follows. -/
theorem contents_outside_step (line : Line) {rest : List Line}
    (outside : ∀ block, (blocks mark none block rest).map (contents value build) =
        (ownBlocks mark rest).map (contents value build) ↔
      (block.filterMap value = [] ∨ NoHeader mark rest) ∧ StrayFree mark value none rest)
    (inside : ∀ key, (blocks mark none [] (rest.dropWhile (IsBody mark))).map
        (contents value build) = (ownBlocks mark rest).map (contents value build) ↔
      StrayFree mark value (some key) rest)
    (block : List Line) :
    (blocks mark none block (line :: rest)).map (contents value build) =
        (ownBlocks mark (line :: rest)).map (contents value build) ↔
      (block.filterMap value = [] ∨ NoHeader mark (line :: rest)) ∧
        StrayFree mark value none (line :: rest) := by
  rw [stray_free_cons, no_header_cons]
  by_cases opens : ∃ key, mark line = .header (some key)
  · rcases opens with ⟨key, marked⟩
    have quiet := silent line (by simp [marked])
    have only (own : List Value) :
        build (block.filterMap value ++ own) = build own ↔ block.filterMap value = [] :=
      ⟨notices _ own, fun none => by rw [none, List.nil_append]⟩
    simp only [blocks_outside, next_key_header marked, marked, ownBlocks, List.map_cons]
    rw [contents_blocks_open, List.cons.injEq, inside key]
    simp [contents, quiet, only]
  · push Not at opens
    have closed : nextKey mark none line = none := by
      cases marked : mark line with
      | blank => exact next_key_blank marked none
      | body => exact next_key_body marked none
      | header next =>
          cases next with
          | none => exact next_key_header marked none
          | some key => exact absurd marked (opens key)
    have appended : blocks mark none block (line :: rest) =
        blocks mark none (block ++ [line]) rest := by
      rw [blocks_outside, closed]
    rw [own_blocks_cons opens, appended, outside, closed]
    cases found : value line with
    | none => simp [found, opens]
    | some item =>
        simp [found, opens]
        tauto

theorem contents_own_lines (lines : List Line) :
    (∀ block, (blocks mark none block lines).map (contents value build) =
        (ownBlocks mark lines).map (contents value build) ↔
      (block.filterMap value = [] ∨ NoHeader mark lines) ∧ StrayFree mark value none lines) ∧
    ∀ key, (blocks mark none [] (lines.dropWhile (IsBody mark))).map (contents value build) =
        (ownBlocks mark lines).map (contents value build) ↔
      StrayFree mark value (some key) lines := by
  induction lines with
  | nil => simp [blocks, ownBlocks, NoHeader, StrayFree]
  | cons line rest ih =>
      have outside := contents_outside_step silent notices line ih.1 ih.2
      refine ⟨outside, ?_⟩
      intro key
      by_cases marked : mark line = .body
      · have kept : (line :: rest).dropWhile (IsBody mark) = rest.dropWhile (IsBody mark) := by
          simp [IsBody, marked]
        rw [kept, own_blocks_cons (by simp [marked]), ih.2 key, stray_free_cons]
        simp [next_key_body marked]
      · have stopped : (line :: rest).dropWhile (IsBody mark) = line :: rest := by
          apply List.dropWhile_cons_of_neg
          unfold IsBody
          split <;> simp_all
        rw [stopped, outside, ← stray_free_silent silent marked key]
        simp

/-- Every record is built from its own values alone exactly when no stray value precedes
one. -/
theorem contents_own_iff (lines : List Line) :
    (blocks mark none [] lines).map (contents value build) =
        (ownBlocks mark lines).map (contents value build) ↔
      StrayFree mark value none lines := by
  rw [(contents_own_lines silent notices lines).1 []]
  simp

end Silent

end Own

end LineMark

end SimpleLdapd
