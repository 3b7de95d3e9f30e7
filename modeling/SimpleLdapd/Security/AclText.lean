import Mathlib.Data.List.DropRight
import SimpleLdapd.Config.Config
import SimpleLdapd.Utils.Text

/-!
# Access rules as text (`parseAclLine` in `security/acl.cpp`)

A line names who is meant, the permission and the subtree. The words are read off a
stream, so no word holds a blank, and the subtree is the rest of the line without the
blanks around it. What a line can state, and that each such rule has a line of its own.
-/

namespace SimpleLdapd

open Dn Text

namespace AclText

/-- `in >> word`: the word, and what is left of the stream behind it. -/
def nextWord (stream : Bytes) : Option (Bytes × Bytes) :=
  let start := stream.dropWhile isSpace
  if start = [] then none
  else some (start.takeWhile fun byte => !isSpace byte, start.dropWhile fun byte => !isSpace byte)

/-- The kind and the name that the first word states, or the error text. -/
def parseWho (who : Bytes) : Except Bytes (AclWhoKind × Bytes) :=
  let whoKey := toLowerAscii who
  if whoKey = text "*" ∨ whoKey = text "anyone" then .ok (.anyone, [])
  else if whoKey = text "anonymous" then .ok (.anonymous, [])
  else if whoKey = text "users" then .ok (.users, [])
  else if text "dn:" <+: whoKey then
    if who.drop 3 = [] then .error (text "acl dn: is empty") else .ok (.dn, who.drop 3)
  else if text "group:" <+: whoKey then
    if who.drop 6 = [] then .error (text "acl group: is empty") else .ok (.group, who.drop 6)
  else .error (text "acl who must be anonymous, users, *, dn:..., or group:...")

def parsePermission (perm : Bytes) : Except Bytes AclPermission :=
  let permKey := toLowerAscii perm
  if permKey = text "search" then .ok .search
  else if permKey = text "write" ∨ permKey = text "*" then .ok .write
  else .error (text "acl permission must be search or write")

end AclText

open AclText

/-- The rule, or the error text. -/
def parseAclLine (line : Bytes) : Except Bytes AclRule :=
  match nextWord line with
  | none => .error (text "acl requires who and permission")
  | some (who, afterWho) =>
      match nextWord afterWho with
      | none => .error (text "acl requires who and permission")
      | some (perm, rest) => do
          let target := trim (rest.takeWhile (· ≠ chr '\n'))
          let (kind, value) ← parseWho who
          let permission ← parsePermission perm
          .ok { who := kind, whoValue := value, permission := permission,
                target := if target = [] ∨ target = text "*" then [] else target }

/-- The rules that a line can state. -/
structure AclRule.Statable (rule : AclRule) : Prop where
  named : rule.who = .dn ∨ rule.who = .group →
    rule.whoValue ≠ [] ∧ ∀ byte ∈ rule.whoValue, isSpace byte = false
  unnamed : rule.who ≠ .dn → rule.who ≠ .group → rule.whoValue = []
  trimmed : trim rule.target = rule.target
  oneLine : chr '\n' ∉ rule.target
  subtree : rule.target ≠ text "*"

namespace AclText

def whoText (rule : AclRule) : Bytes :=
  match rule.who with
  | .anyone => text "*"
  | .anonymous => text "anonymous"
  | .users => text "users"
  | .dn => text "dn:" ++ rule.whoValue
  | .group => text "group:" ++ rule.whoValue

def permissionText : AclPermission → Bytes
  | .search => text "search"
  | .write => text "write"

def targetText (target : Bytes) : Bytes := if target = [] then text "*" else target

/-- A line that states the rule. -/
def lineOf (rule : AclRule) : Bytes :=
  whoText rule ++ chr ' ' :: (permissionText rule.permission ++ chr ' ' :: targetText rule.target)

section Words

/-- Text as `>>` reads it. -/
def Word (word : Bytes) : Prop := word ≠ [] ∧ ∀ byte ∈ word, isSpace byte = false

instance (word : Bytes) : Decidable (Word word) :=
  decidable_of_iff (word ≠ [] ∧ (word.all fun byte => !isSpace byte) = true)
    (and_congr_right fun _ => by simp)

theorem next_word_found {stream word rest : Bytes} (found : nextWord stream = some (word, rest)) :
    Word word := by
  unfold nextWord at found
  extract_lets start at found
  split at found
  · cases found
  · rename_i nonempty
    cases found
    obtain ⟨first, tail, shape⟩ := List.exists_cons_of_ne_nil nonempty
    have solid : isSpace first = false := by
      have front := List.head_dropWhile_not isSpace nonempty
      simp only [start] at shape
      simpa only [shape, List.head_cons] using front
    constructor
    · rw [shape, List.takeWhile_cons_of_pos (by simp [solid])]
      exact List.cons_ne_nil _ _
    · intro byte member
      simpa using List.mem_takeWhile_imp member

theorem next_word_read {word : Bytes} (solid : Word word) (rest : Bytes) :
    nextWord (word ++ chr ' ' :: rest) = some (word, chr ' ' :: rest) := by
  have whole : ∀ byte ∈ word, (!isSpace byte) = true := by
    intro byte member
    rw [solid.2 byte member]
    rfl
  obtain ⟨first, tail, shape⟩ := List.exists_cons_of_ne_nil solid.1
  have kept : (word ++ chr ' ' :: rest).dropWhile isSpace = word ++ chr ' ' :: rest := by
    rw [shape, List.cons_append, List.dropWhile_cons_of_neg]
    simp [solid.2 first (by simp [shape])]
  have blank : isSpace (chr ' ') = true := by decide
  simp [nextWord, kept, List.takeWhile_append_of_pos whole, List.dropWhile_append_of_pos whole,
    blank]

theorem next_word_blank (stream : Bytes) : nextWord (chr ' ' :: stream) = nextWord stream := by
  have blank : isSpace (chr ' ') = true := by decide
  simp only [nextWord, List.dropWhile_cons_of_pos blank]

end Words

section Trimming

theorem mem_of_trim {byte : Byte} {value : Bytes} (member : byte ∈ trim value) : byte ∈ value :=
  (List.dropWhile_suffix isSpace).subset ((List.rdropWhile_prefix isSpace _).subset member)

theorem trim_trim (value : Bytes) : trim (trim value) = trim value := by
  have front : (trim value).dropWhile isSpace = trim value := by
    obtain ⟨back, split⟩ := List.rdropWhile_prefix isSpace (value.dropWhile isSpace)
    change trim value ++ back = _ at split
    cases shape : trim value with
    | nil => rfl
    | cons first rest =>
        rw [shape, List.cons_append] at split
        have nonempty : value.dropWhile isSpace ≠ [] := by simp [← split]
        have solid := List.head_dropWhile_not isSpace nonempty
        simp only [← split, List.head_cons] at solid
        exact List.dropWhile_cons_of_neg (by simp [solid])
  calc trim (trim value) = ((trim value).dropWhile isSpace).rdropWhile isSpace := rfl
    _ = (trim value).rdropWhile isSpace := by rw [front]
    _ = trim value := List.rdropWhile_idempotent isSpace _

theorem trim_blank (value : Bytes) : trim (chr ' ' :: value) = trim value := by
  have blank : isSpace (chr ' ') = true := by decide
  simp only [trim, List.dropWhile_cons_of_pos blank]

end Trimming

section Callers

theorem different_start {start whole other : Bytes} (starts : start <+: whole)
    (starts_not : ¬ start <+: other) : whole ≠ other :=
  fun same => starts_not (same ▸ starts)

theorem parse_who_named {who value : Bytes} {kind : AclWhoKind} (solid : Word who)
    (parsed : parseWho who = .ok (kind, value)) :
    (kind = .dn ∨ kind = .group → Word value) ∧
      (kind ≠ .dn → kind ≠ .group → value = []) := by
  have part (count : Nat) (nonempty : who.drop count ≠ []) : Word (who.drop count) :=
    ⟨nonempty, fun byte member => solid.2 byte (List.mem_of_mem_drop member)⟩
  unfold parseWho at parsed
  extract_lets whoKey at parsed
  split at parsed
  · cases parsed
    simp
  split at parsed
  · cases parsed
    simp
  split at parsed
  · cases parsed
    simp
  split at parsed
  · split at parsed
    · cases parsed
    · rename_i nonempty
      cases parsed
      simpa using part 3 nonempty
  split at parsed
  · split at parsed
    · cases parsed
    · rename_i nonempty
      cases parsed
      simpa using part 6 nonempty
  · cases parsed

theorem parse_who_dn {value : Bytes} (nonempty : value ≠ []) :
    parseWho (text "dn:" ++ value) = .ok (.dn, value) := by
  have key : toLowerAscii (text "dn:" ++ value) = text "dn:" ++ toLowerAscii value := by
    rw [toLowerAscii, List.map_append]
    rfl
  have starts : text "dn:" <+: toLowerAscii (text "dn:" ++ value) := ⟨_, key.symm⟩
  have dropped : (text "dn:" ++ value).drop 3 = value := rfl
  unfold parseWho
  extract_lets whoKey
  rw [if_neg (not_or.mpr ⟨different_start starts (by decide), different_start starts (by decide)⟩),
    if_neg (different_start starts (by decide)), if_neg (different_start starts (by decide)),
    if_pos starts, dropped, if_neg nonempty]

theorem parse_who_group {value : Bytes} (nonempty : value ≠ []) :
    parseWho (text "group:" ++ value) = .ok (.group, value) := by
  have key : toLowerAscii (text "group:" ++ value) = text "group:" ++ toLowerAscii value := by
    rw [toLowerAscii, List.map_append]
    rfl
  have starts : text "group:" <+: toLowerAscii (text "group:" ++ value) := ⟨_, key.symm⟩
  have dropped : (text "group:" ++ value).drop 6 = value := rfl
  have noDn : ¬ text "dn:" <+: toLowerAscii (text "group:" ++ value) := by
    intro dn
    have short := List.prefix_of_prefix_length_le dn starts (by decide)
    exact absurd short (by decide)
  unfold parseWho
  extract_lets whoKey
  rw [if_neg (not_or.mpr ⟨different_start starts (by decide), different_start starts (by decide)⟩),
    if_neg (different_start starts (by decide)), if_neg (different_start starts (by decide)),
    if_neg noDn, if_pos starts, dropped, if_neg nonempty]

theorem parse_who_text {rule : AclRule} (statable : rule.Statable) :
    parseWho (whoText rule) = .ok (rule.who, rule.whoValue) := by
  rcases rule with ⟨who, value, permission, target⟩
  have unnamed := statable.unnamed
  have named := statable.named
  cases who with
  | anyone =>
      cases unnamed nofun nofun
      rfl
  | anonymous =>
      cases unnamed nofun nofun
      rfl
  | users =>
      cases unnamed nofun nofun
      rfl
  | dn => exact parse_who_dn (named (Or.inl rfl)).1
  | group => exact parse_who_group (named (Or.inr rfl)).1

theorem who_text_word {rule : AclRule} (statable : rule.Statable) : Word (whoText rule) := by
  have extended {front : Bytes} (word : Word front) (value : Bytes)
      (solid : ∀ byte ∈ value, isSpace byte = false) : Word (front ++ value) := by
    refine ⟨by simp [word.1], ?_⟩
    intro byte member
    rcases List.mem_append.mp member with inFront | inValue
    · exact word.2 byte inFront
    · exact solid byte inValue
  rcases rule with ⟨who, value, permission, target⟩
  have named := statable.named
  cases who with
  | anyone => exact (by decide : Word (text "*"))
  | anonymous => exact (by decide : Word (text "anonymous"))
  | users => exact (by decide : Word (text "users"))
  | dn => exact extended (by decide) value (named (Or.inl rfl)).2
  | group => exact extended (by decide) value (named (Or.inr rfl)).2

theorem permission_text_word (permission : AclPermission) : Word (permissionText permission) := by
  cases permission with
  | search => exact (by decide : Word (text "search"))
  | write => exact (by decide : Word (text "write"))

theorem parse_permission_text (permission : AclPermission) :
    parsePermission (permissionText permission) = .ok permission := by
  cases permission <;> rfl

end Callers

section Targets

/-- The subtree a rule gets from the rest of its line. -/
theorem target_read {target : Bytes} (trimmed : trim target = target)
    (oneLine : chr '\n' ∉ target) (subtree : target ≠ text "*") :
    (if trim ((chr ' ' :: targetText target).takeWhile (· ≠ chr '\n')) = [] ∨
        trim ((chr ' ' :: targetText target).takeWhile (· ≠ chr '\n')) = text "*" then []
      else trim ((chr ' ' :: targetText target).takeWhile (· ≠ chr '\n'))) = target := by
  by_cases whole : target = []
  · rw [whole]
    decide
  · have line : (chr ' ' :: target).takeWhile (· ≠ chr '\n') = chr ' ' :: target := by
      rw [List.takeWhile_eq_self_iff]
      intro byte member
      rcases List.mem_cons.mp member with blank | inside
      · rw [blank]
        decide
      · simpa using fun same : byte = chr '\n' => oneLine (same ▸ inside)
    rw [targetText, if_neg whole, line, trim_blank, trimmed, if_neg (not_or.mpr ⟨whole, subtree⟩)]

end Targets

theorem parse_line_of {rule : AclRule} (statable : rule.Statable) :
    parseAclLine (lineOf rule) = .ok rule := by
  have caller := who_text_word statable
  have permission := permission_text_word rule.permission
  have target := target_read statable.trimmed statable.oneLine statable.subtree
  rw [parseAclLine, lineOf, next_word_read caller]
  simp only [next_word_blank, next_word_read permission, parse_who_text statable,
    parse_permission_text, bind, Except.bind, target]

theorem parse_line_statable {line : Bytes} {rule : AclRule} (parsed : parseAclLine line = .ok rule) :
    rule.Statable := by
  unfold parseAclLine at parsed
  split at parsed
  · cases parsed
  rename_i who afterWho first
  split at parsed
  · cases parsed
  rename_i perm rest second
  extract_lets target at parsed
  simp only [bind, Except.bind] at parsed
  cases caller : parseWho who with
  | error error =>
      rw [caller] at parsed
      cases parsed
  | ok stated =>
      rw [caller] at parsed
      have names := parse_who_named (next_word_found first) caller
      have trimmed : trim target = target := trim_trim _
      have oneLine : chr '\n' ∉ target := by
        intro member
        simpa using List.mem_takeWhile_imp (mem_of_trim member)
      cases granted : parsePermission perm with
      | error error =>
          simp only [granted] at parsed
          cases parsed
      | ok permission =>
          simp only [granted, Except.ok.injEq] at parsed
          subst parsed
          by_cases whole : target = [] ∨ target = text "*"
          · simp only [if_pos whole]
            exact ⟨names.1, names.2, rfl, List.not_mem_nil, nofun⟩
          · simp only [if_neg whole]
            exact ⟨names.1, names.2, trimmed, oneLine, fun same => whole (Or.inr same)⟩

end AclText

open AclText

/-- The rules that lines state are the statable ones, and each of these has a line. -/
theorem acl_lines_state_rules (rule : AclRule) :
    ((∃ line, parseAclLine line = .ok rule) ↔ rule.Statable) ∧
      (parseAclLine (lineOf rule) = .ok rule ↔ rule.Statable) :=
  ⟨⟨fun ⟨_, parsed⟩ => parse_line_statable parsed, fun statable => ⟨_, parse_line_of statable⟩⟩,
    parse_line_statable, parse_line_of⟩

end SimpleLdapd
