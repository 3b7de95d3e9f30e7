import SimpleLdapd.Protocol.Filter

/-!
# The text form of search filters

What `SearchFilter::parse` reads, stated without its fuel: `Parses` says that a
filter stands at the front of a text. Every result about the parser goes through
one rule, `parse_rule`, with a case for each production of the source.
-/

namespace SimpleLdapd.Filter

open Dn Ber
open Text (isSpace)

/-- The operators in front of a list of filters. -/
def listType (operator : Byte) : Option FilterType :=
  if operator = chr '&' then some .and else if operator = chr '|' then some .or else none

/-- The node an item `name=value` stands for. -/
def itemNode (name value : Bytes) : FilterNode :=
  if value = text "*" then { type := .present, attributeName := name }
  else if (splitStars [] value).length = 1 then
    { type := .equality, attributeName := name, value := value }
  else
    { type := .substring
      attributeName := name
      initial := (splitStars [] value).headD []
      any := ((splitStars [] value).tail.dropLast).filter (· ≠ [])
      final := (splitStars [] value).getLastD [] }

/-- What stands between the parentheses of a filter. -/
def parseBody (fuel : Nat) : Bytes → Option (FilterNode × Bytes)
  | [] => none
  | operator :: operands =>
      if operator = chr '&' then
        match parseList fuel operands with
        | some (child :: children, after) =>
            some ({ type := .and, children := child :: children }, after)
        | _ => none
      else if operator = chr '|' then
        match parseList fuel operands with
        | some (child :: children, after) =>
            some ({ type := .or, children := child :: children }, after)
        | _ => none
      else if operator = chr '!' then
        match parseFilter fuel operands with
        | some (child, after) => some ({ type := .not, children := [child] }, after)
        | none => none
      else parseItem (operator :: operands)

section Shapes

variable {fuel : Nat} {source after : Bytes} {node : FilterNode}

theorem parse_filter_succ :
    parseFilter (fuel + 1) source = some (node, after) ↔
      ∃ body inner, skipSpace source = chr '(' :: body ∧
        parseBody fuel (skipSpace body) = some (node, inner) ∧
        skipSpace inner = chr ')' :: after := by
  rw [parseFilter]
  cases opened : skipSpace source with
  | nil => simp
  | cons opening body =>
      by_cases bracket : opening = chr '('
      · subst bracket
        simp only [ne_eq, not_true_eq_false, if_false, List.cons.injEq, true_and,
          exists_and_left, exists_eq_left']
        cases inside : skipSpace body with
        | nil => simp [parseBody]
        | cons operator operands =>
            simp only [parseBody]
            generalize ite (operator = chr '&') _ _ = parsed
            rcases parsed with _ | ⟨inner, behind⟩
            · simp
            · cases closed : skipSpace behind with
              | nil => simp [closed]
              | cons closing remaining =>
                  by_cases last : closing = chr ')' <;> simp [closed, last]
      · simp [bracket]

theorem parse_list_succ {children : List FilterNode} :
    parseList (fuel + 1) source = some (children, after) ↔
      (source.head? ≠ some (chr '(') ∧ children = [] ∧ after = source) ∨
        (source.head? = some (chr '(') ∧ ∃ child inner rest, children = child :: rest ∧
          parseFilter fuel source = some (child, inner) ∧
          parseList fuel inner = some (rest, after)) := by
  rw [parseList]
  by_cases opened : source.head? = some (chr '(')
  · simp only [opened, ne_eq, not_true_eq_false, if_false, false_and, true_and, false_or]
    rcases parseFilter fuel source with _ | ⟨child, inner⟩
    · simp
    · rcases listed : parseList fuel inner with _ | ⟨rest, remaining⟩
      · simp [listed]
      · simp only [listed]
        constructor
        · intro parsed
          cases parsed
          exact ⟨child, inner, rest, rfl, rfl, listed⟩
        · rintro ⟨_, _, _, rfl, same, last⟩
          cases same
          rw [listed] at last
          cases last
          rfl
  · simp [opened, eq_comm]

theorem list_type_cases {operator : Byte} {type : FilterType}
    (list : listType operator = some type) :
    (operator = chr '&' ∧ type = .and) ∨ (operator = chr '|' ∧ type = .or) := by
  unfold listType at list
  split at list
  · cases list
    exact Or.inl ⟨by assumption, rfl⟩
  · split at list
    · cases list
      exact Or.inr ⟨by assumption, rfl⟩
    · cases list

theorem list_type_none {operator : Byte} :
    listType operator = none ↔ operator ≠ chr '&' ∧ operator ≠ chr '|' := by
  unfold listType
  split
  · simp [*]
  · split <;> simp [*]

theorem parse_body_list {operator : Byte} {type : FilterType} {operands : Bytes}
    (list : listType operator = some type) :
    parseBody fuel (operator :: operands) = some (node, after) ↔
      ∃ child rest, node = { type := type, children := child :: rest } ∧
        parseList fuel operands = some (child :: rest, after) := by
  have listed : parseBody fuel (operator :: operands) =
      (parseList fuel operands).bind fun parsed =>
        if parsed.1 = [] then none
        else some ({ type := type, children := parsed.1 }, parsed.2) := by
    rcases list_type_cases list with ⟨rfl, rfl⟩ | ⟨rfl, rfl⟩
    · rw [parseBody, if_pos rfl]
      rcases parseList fuel operands with _ | ⟨_ | ⟨child, rest⟩, remaining⟩ <;> rfl
    · rw [parseBody, if_neg (by decide), if_pos rfl]
      rcases parseList fuel operands with _ | ⟨_ | ⟨child, rest⟩, remaining⟩ <;> rfl
  rw [listed]
  rcases parseList fuel operands with _ | ⟨_ | ⟨child, rest⟩, remaining⟩
  · simp
  · simp
  · constructor
    · intro parsed
      cases parsed
      exact ⟨child, rest, rfl, rfl⟩
    · rintro ⟨_, _, rfl, same⟩
      cases same
      rfl

theorem parse_body_not {operands : Bytes} :
    parseBody fuel (chr '!' :: operands) = some (node, after) ↔
      ∃ child, node = { type := .not, children := [child] } ∧
        parseFilter fuel operands = some (child, after) := by
  rw [parseBody, if_neg (by decide), if_neg (by decide), if_pos rfl]
  rcases parseFilter fuel operands with _ | ⟨child, remaining⟩
  · simp
  · constructor
    · intro parsed
      cases parsed
      exact ⟨child, rfl, rfl⟩
    · rintro ⟨_, rfl, same⟩
      cases same
      rfl

theorem parse_body_item {operator : Byte} {operands : Bytes} (noList : listType operator = none)
    (noNot : operator ≠ chr '!') :
    parseBody fuel (operator :: operands) = parseItem (operator :: operands) := by
  obtain ⟨noAnd, noOr⟩ := list_type_none.mp noList
  rw [parseBody, if_neg noAnd, if_neg noOr, if_neg noNot]

/-- The body of an accepted filter is a list, a negation or an item. -/
theorem parse_body_cases (parsed : parseBody fuel source = some (node, after)) :
    ∃ operator operands, source = operator :: operands ∧
      ((∃ type child rest, listType operator = some type ∧
          node = { type := type, children := child :: rest } ∧
          parseList fuel operands = some (child :: rest, after)) ∨
        (∃ child, operator = chr '!' ∧ node = { type := .not, children := [child] } ∧
          parseFilter fuel operands = some (child, after)) ∨
        (listType operator = none ∧ operator ≠ chr '!' ∧
          parseItem source = some (node, after))) := by
  cases source with
  | nil => cases parsed
  | cons operator operands =>
      refine ⟨operator, operands, rfl, ?_⟩
      cases list : listType operator with
      | some type =>
          obtain ⟨child, rest, same, listed⟩ := (parse_body_list list).mp parsed
          exact Or.inl ⟨type, child, rest, rfl, same, listed⟩
      | none =>
          by_cases negation : operator = chr '!'
          · subst negation
            obtain ⟨child, same, negated⟩ := parse_body_not.mp parsed
            exact Or.inr (Or.inl ⟨child, rfl, same, negated⟩)
          · rw [parse_body_item list negation] at parsed
            exact Or.inr (Or.inr ⟨rfl, negation, parsed⟩)

/-- The bytes that end the attribute of an item. -/
def endsName (byte : Byte) : Bool := byte = chr '=' || byte = chr ')' || byte = chr '('

theorem parse_item_named {name tail : Bytes} (plain : ∀ byte ∈ name, endsName byte = false) :
    parseItem (name ++ chr '=' :: tail) =
      if trimRight name = [] then none
      else some (itemNode (trimRight name) (tail.takeWhile (· ≠ chr ')')),
        tail.dropWhile (· ≠ chr ')')) := by
  have inside : ∀ byte ∈ name, (!endsName byte) = true := by
    intro byte member
    rw [plain byte member]
    rfl
  have taken : (name ++ chr '=' :: tail).takeWhile (fun byte => !endsName byte) = name := by
    rw [List.takeWhile_append_of_pos inside, List.takeWhile_cons_of_neg (by decide),
      List.append_nil]
  have dropped : (name ++ chr '=' :: tail).dropWhile (fun byte => !endsName byte) =
      chr '=' :: tail := by
    rw [List.dropWhile_append_of_pos inside, List.dropWhile_cons_of_neg (by decide)]
  unfold endsName at taken dropped
  simp only [parseItem, taken, dropped, ne_eq, not_true_eq_false, if_false, itemNode]
  split
  · rfl
  · split
    · rfl
    · split <;> rfl

/-- A value goes up to the next closing bracket or to the end of the text. -/
theorem take_to_bracket_iff {tail value : Bytes} :
    (tail.takeWhile (· ≠ chr ')') = value ∧ tail.dropWhile (· ≠ chr ')') = after) ↔
      tail = value ++ after ∧ chr ')' ∉ value ∧
        (after = [] ∨ after.head? = some (chr ')')) := by
  constructor
  · rintro ⟨rfl, rfl⟩
    refine ⟨List.takeWhile_append_dropWhile.symm, ?_, ?_⟩
    · intro member
      simpa using List.mem_takeWhile_imp member
    · cases left : tail.dropWhile (· ≠ chr ')') with
      | nil => exact Or.inl rfl
      | cons byte rest =>
          have present : tail.dropWhile (· ≠ chr ')') ≠ [] := by
            rw [left]
            exact List.cons_ne_nil byte rest
          have stopped := List.head_dropWhile_not (· ≠ chr ')') present
          simp only [left, List.head_cons, decide_eq_false_iff_not, not_not] at stopped
          exact Or.inr (by simp [stopped])
  · rintro ⟨rfl, absent, ended⟩
    have inside : ∀ byte ∈ value, decide (byte ≠ chr ')') = true := by
      intro byte member
      simp only [decide_eq_true_eq]
      intro same
      exact absent (same ▸ member)
    rw [List.takeWhile_append_of_pos inside, List.dropWhile_append_of_pos inside]
    rcases ended with rfl | ended
    · simp
    · obtain ⟨rest, rfl⟩ := List.head?_eq_some_iff.mp ended
      simp

/-- An item is an attribute up to the first `=` and a value up to the next `)`. -/
theorem parse_item_iff :
    parseItem source = some (node, after) ↔
      ∃ name value, source = name ++ chr '=' :: (value ++ after) ∧
        (∀ byte ∈ name, endsName byte = false) ∧ chr ')' ∉ value ∧
        (after = [] ∨ after.head? = some (chr ')')) ∧ trimRight name ≠ [] ∧
        node = itemNode (trimRight name) value := by
  constructor
  · intro parsed
    have plain : ∀ byte ∈ source.takeWhile (fun byte => !endsName byte),
        endsName byte = false := by
      intro byte member
      simpa using List.mem_takeWhile_imp member
    have whole := List.takeWhile_append_dropWhile (p := fun byte => !endsName byte) (l := source)
    cases left : source.dropWhile (fun byte => !endsName byte) with
    | nil =>
        unfold endsName at left
        simp only [parseItem, left] at parsed
        cases parsed
    | cons byte tail =>
        by_cases equals : byte = chr '='
        · rw [left, equals] at whole
          rw [← whole, parse_item_named plain] at parsed
          split at parsed
          · cases parsed
          · rename_i named
            cases parsed
            obtain ⟨split, absent, ended⟩ := take_to_bracket_iff.mp ⟨rfl, rfl⟩
            exact ⟨_, _, by rw [← split, whole], plain, absent, ended, named, rfl⟩
        · unfold endsName at left
          simp only [parseItem, left, ne_eq, equals, not_false_eq_true, if_true] at parsed
          cases parsed
  · rintro ⟨name, value, rfl, plain, absent, ended, named, rfl⟩
    obtain ⟨taken, dropped⟩ := take_to_bracket_iff.mpr ⟨rfl, absent, ended⟩
    rw [parse_item_named plain, if_neg named, taken, dropped]

end Shapes

section Rule

/-- A filter begins here, and `operator` is the first byte of its body. -/
def Opens (source : Bytes) (operator : Byte) (operands : Bytes) : Prop :=
  ∃ body, skipSpace source = chr '(' :: body ∧ skipSpace body = operator :: operands

/-- The body of a filter ends here. -/
def Closes (inner after : Bytes) : Prop := skipSpace inner = chr ')' :: after

theorem skip_space_length (source : Bytes) : (skipSpace source).length ≤ source.length :=
  List.length_dropWhile_le isSpace source

theorem Opens.shorter {source operands : Bytes} {operator : Byte}
    (opens : Opens source operator operands) : operands.length + 2 ≤ source.length := by
  obtain ⟨body, opened, inside⟩ := opens
  have outer := skip_space_length source
  have inner := skip_space_length body
  rw [opened] at outer
  rw [inside] at inner
  simp only [List.length_cons] at outer inner
  omega

theorem Closes.shorter {inner after : Bytes} (closes : Closes inner after) :
    after.length + 1 ≤ inner.length := by
  have whole := skip_space_length inner
  rw [closes] at whole
  exact whole

/-- Induction over an accepted text: a case for each production of the parser. -/
theorem parse_rule (filterGoal : Bytes → FilterNode → Bytes → Prop)
    (listGoal : Bytes → List FilterNode → Bytes → Prop)
    (list : ∀ {source operator operands type child rest inner after},
      Opens source operator operands → listType operator = some type →
      listGoal operands (child :: rest) inner → Closes inner after →
      filterGoal source { type := type, children := child :: rest } after)
    (negation : ∀ {source operands child inner after}, Opens source (chr '!') operands →
      filterGoal operands child inner → Closes inner after →
      filterGoal source { type := .not, children := [child] } after)
    (item : ∀ {source operator operands node inner after}, Opens source operator operands →
      listType operator = none → operator ≠ chr '!' →
      parseItem (operator :: operands) = some (node, inner) → Closes inner after →
      filterGoal source node after)
    (stop : ∀ {source}, source.head? ≠ some (chr '(') → listGoal source [] source)
    (more : ∀ {source child rest inner after}, source.head? = some (chr '(') →
      filterGoal source child inner → listGoal inner rest after →
      listGoal source (child :: rest) after) (fuel : Nat) :
    (∀ source node after, parseFilter fuel source = some (node, after) →
        filterGoal source node after) ∧
      ∀ source children after, parseList fuel source = some (children, after) →
        listGoal source children after := by
  induction fuel with
  | zero =>
      constructor
      · intro source node after parsed
        cases parsed
      · intro source children after parsed
        cases parsed
  | succ fuel ih =>
      obtain ⟨filters, lists⟩ := ih
      constructor
      · intro source node after parsed
        obtain ⟨body, inner, opened, parsedBody, closes⟩ := parse_filter_succ.mp parsed
        obtain ⟨operator, operands, inside, shape⟩ := parse_body_cases parsedBody
        have opens : Opens source operator operands := ⟨body, opened, inside⟩
        rcases shape with ⟨type, child, rest, isList, rfl, listed⟩ |
          ⟨child, rfl, rfl, negated⟩ | ⟨noList, noNot, read⟩
        · exact list opens isList (lists _ _ _ listed) closes
        · exact negation opens (filters _ _ _ negated) closes
        · rw [inside] at read
          exact item opens noList noNot read closes
      · intro source children after parsed
        rcases parse_list_succ.mp parsed with ⟨stopped, rfl, rfl⟩ |
          ⟨opened, child, inner, rest, rfl, first, later⟩
        · exact stop stopped
        · exact more opened (filters _ _ _ first) (lists _ _ _ later)

/-- The filter `node` stands at the front of `source`, with `after` behind it. -/
def Parses (source : Bytes) (node : FilterNode) (after : Bytes) : Prop :=
  ∀ fuel, 2 * source.length ≤ fuel → parseFilter fuel source = some (node, after)

def ParsesList (source : Bytes) (children : List FilterNode) (after : Bytes) : Prop :=
  ∀ fuel, 2 * source.length + 1 ≤ fuel → parseList fuel source = some (children, after)

variable {source operands inner after : Bytes} {operator : Byte} {node child : FilterNode}
  {rest : List FilterNode}

theorem fuel_after_open {fuel : Nat} (opens : Opens source operator operands)
    (enough : 2 * source.length ≤ fuel) :
    ∃ less, fuel = less + 1 ∧ 2 * operands.length + 1 ≤ less := by
  have shorter := opens.shorter
  exact ⟨fuel - 1, by omega, by omega⟩

theorem parses_of_body (opens : Opens source operator operands)
    (body : ∀ fuel, 2 * operands.length + 1 ≤ fuel →
      parseBody fuel (operator :: operands) = some (node, inner))
    (closes : Closes inner after) : Parses source node after := by
  intro fuel enough
  obtain ⟨less, rfl, remains⟩ := fuel_after_open opens enough
  obtain ⟨opened, first, inside⟩ := opens
  exact parse_filter_succ.mpr ⟨opened, inner, first, by rw [inside, body less remains], closes⟩

theorem parses_list {type : FilterType} (opens : Opens source operator operands)
    (list : listType operator = some type) (listed : ParsesList operands (child :: rest) inner)
    (closes : Closes inner after) :
    Parses source { type := type, children := child :: rest } after := by
  apply parses_of_body opens _ closes
  intro fuel enough
  exact (parse_body_list list).mpr ⟨child, rest, rfl, listed fuel enough⟩

theorem parses_not (opens : Opens source (chr '!') operands) (negated : Parses operands child inner)
    (closes : Closes inner after) :
    Parses source { type := .not, children := [child] } after := by
  apply parses_of_body opens _ closes
  intro fuel enough
  exact parse_body_not.mpr ⟨child, rfl, negated fuel (by omega)⟩

theorem parses_item (opens : Opens source operator operands) (noList : listType operator = none)
    (noNot : operator ≠ chr '!') (read : parseItem (operator :: operands) = some (node, inner))
    (closes : Closes inner after) : Parses source node after := by
  apply parses_of_body opens _ closes
  intro fuel enough
  rw [parse_body_item noList noNot, read]

theorem parses_list_nil (stopped : source.head? ≠ some (chr '(')) :
    ParsesList source [] source := by
  intro fuel enough
  obtain ⟨less, rfl⟩ := Nat.exists_eq_add_of_le' (Nat.le_of_add_left_le enough)
  exact parse_list_succ.mpr (Or.inl ⟨stopped, rfl, rfl⟩)

theorem parses_list_cons (opened : source.head? = some (chr '(')) (first : Parses source child inner)
    (progress : inner.length < source.length) (later : ParsesList inner rest after) :
    ParsesList source (child :: rest) after := by
  intro fuel enough
  obtain ⟨less, rfl⟩ := Nat.exists_eq_add_of_le' (Nat.le_of_add_left_le enough)
  exact parse_list_succ.mpr (Or.inr ⟨opened, child, inner, rest, rfl, first less (by omega),
    later less (by omega)⟩)

/-- Fuel only bounds the recursion: a text accepted with some fuel is accepted in the
same way with any fuel from twice its length on. -/
theorem parses_of_some {fuel : Nat} (parsed : parseFilter fuel source = some (node, after)) :
    Parses source node after ∧ after.length < source.length := by
  have rule := parse_rule
    (fun source node after => Parses source node after ∧ after.length < source.length)
    (fun source children after =>
      ParsesList source children after ∧ after.length ≤ source.length)
  refine (rule ?_ ?_ ?_ ?_ ?_ fuel).1 source node after parsed
  · intro source operator operands type child rest inner after opens list listed closes
    have begun := opens.shorter
    have ended := closes.shorter
    exact ⟨parses_list opens list listed.1 closes, by omega⟩
  · intro source operands child inner after opens negated closes
    have begun := opens.shorter
    have ended := closes.shorter
    exact ⟨parses_not opens negated.1 closes, by omega⟩
  · intro source operator operands node inner after opens noList noNot read closes
    have begun := opens.shorter
    have ended := closes.shorter
    obtain ⟨name, value, split, _⟩ := parse_item_iff.mp read
    have whole := congrArg List.length split
    simp only [List.length_cons, List.length_append] at whole
    exact ⟨parses_item opens noList noNot read closes, by omega⟩
  · intro source stopped
    exact ⟨parses_list_nil stopped, le_rfl⟩
  · intro source child rest inner after opened first later
    exact ⟨parses_list_cons opened first.1 first.2 later.1, by omega⟩

theorem parse_valid_iff :
    (parse source).valid = true ∧ (parse source).root = node ↔
      ∃ after, Parses source node after ∧ skipSpace after = [] := by
  constructor
  · rintro ⟨valid, same⟩
    unfold parse at valid same
    cases parsed : parseFilter (2 * source.length + 2) source with
    | none => simp [parsed] at valid
    | some result =>
        simp only [parsed, decide_eq_true_eq] at valid same
        subst same
        exact ⟨result.2, (parses_of_some parsed).1, valid⟩
  · rintro ⟨after, parses, blank⟩
    have parsed := parses (2 * source.length + 2) (by omega)
    simp [parse, parsed, blank]

end Rule

section Render

mutual

/-- A tree as a filter string without optional blanks. -/
def render : FilterNode → Bytes
  | ⟨type, name, value, children, initial, any, final⟩ =>
      match type with
      | .and => text "(&" ++ renderAll children ++ text ")"
      | .or => text "(|" ++ renderAll children ++ text ")"
      | .not => text "(!" ++ renderAll children ++ text ")"
      | .present => text "(" ++ name ++ text "=*)"
      | .equality => text "(" ++ name ++ text "=" ++ value ++ text ")"
      | .substring =>
          text "(" ++ name ++ text "=" ++
            (initial ++ text "*" ++ any.flatMap (fun part => part ++ text "*") ++ final) ++ text ")"
      | .true => text "(&)"
      | .false => text "(|)"

def renderAll : List FilterNode → Bytes
  | [] => []
  | child :: rest => render child ++ renderAll rest

end

/-- A value that needs no escapes. -/
def PlainValue (value : Bytes) : Prop := ∀ byte ∈ value, byte ∉ text "()*\\"

structure PlainName (name : Bytes) : Prop where
  unbroken : ∀ byte ∈ name, byte ∉ text "=()"
  first : ∃ byte, name.head? = some byte ∧ isSpace byte = false ∧ byte ∉ text "&|!"
  last : ∃ byte, name.getLast? = some byte ∧ isSpace byte = false

inductive Printable : FilterNode → Prop where
  | and (children : List FilterNode) (nonempty : children ≠ [])
      (each : ∀ child ∈ children, Printable child) :
      Printable { type := .and, children := children }
  | or (children : List FilterNode) (nonempty : children ≠ [])
      (each : ∀ child ∈ children, Printable child) :
      Printable { type := .or, children := children }
  | not (child : FilterNode) (only : Printable child) :
      Printable { type := .not, children := [child] }
  | present (name : Bytes) (named : PlainName name) :
      Printable { type := .present, attributeName := name }
  | equality (name value : Bytes) (named : PlainName name) (plain : PlainValue value) :
      Printable { type := .equality, attributeName := name, value := value }
  | substring (name initial : Bytes) (any : List Bytes) (final : Bytes) (named : PlainName name)
      (plainInitial : PlainValue initial) (plainAny : ∀ part ∈ any, PlainValue part ∧ part ≠ [])
      (plainFinal : PlainValue final) (some : initial ≠ [] ∨ any ≠ [] ∨ final ≠ []) :
      Printable { type := .substring, attributeName := name, initial := initial, any := any
                  final := final }

theorem split_stars_cons {byte : Byte} (noEscape : byte ≠ chr '\\') (current rest : Bytes) :
    splitStars current (byte :: rest) =
      if byte = chr '*' then current :: splitStars [] rest
      else splitStars (current ++ [byte]) rest := by
  cases rest with
  | nil => by_cases star : byte = chr '*' <;> simp [splitStars, star]
  | cons next rest => rw [splitStars, if_neg noEscape]

/-- Without a star there is one part, escapes or not. -/
theorem split_stars_whole (current value : Bytes) (noStar : chr '*' ∉ value) :
    splitStars current value = [current ++ value] := by
  induction current, value using splitStars.induct with
  | case1 current => simp [splitStars]
  | case2 current => exact absurd (by simp) noStar
  | case3 current byte other => simp [splitStars, other]
  | case4 current next rest ih =>
      rw [splitStars, if_pos rfl, ih fun member => noStar (by simp [member])]
      simp
  | case5 current next rest solid ih => exact absurd (by simp) noStar
  | case6 current byte next rest noEscape other ih =>
      rw [splitStars, if_neg noEscape, if_neg other,
        ih fun member => noStar (List.mem_cons_of_mem _ member)]
      simp

theorem PlainValue.no_star {value : Bytes} (plain : PlainValue value) : chr '*' ∉ value :=
  fun member => plain _ member (by decide)

theorem PlainValue.no_bracket {value : Bytes} (plain : PlainValue value) : chr ')' ∉ value :=
  fun member => plain _ member (by decide)

theorem split_stars_star {value : Bytes} (plain : PlainValue value) (current rest : Bytes) :
    splitStars current (value ++ chr '*' :: rest) = (current ++ value) :: splitStars [] rest := by
  induction value generalizing current with
  | nil => rw [List.nil_append, split_stars_cons (by decide), if_pos rfl, List.append_nil]
  | cons byte tail ih =>
      have special := plain byte (by simp)
      rw [List.cons_append, split_stars_cons (by rintro rfl; exact special (by decide)),
        if_neg (by rintro rfl; exact special (by decide)),
        ih fun other member => plain other (by simp [member])]
      simp

theorem split_stars_parts {any : List Bytes} {final : Bytes}
    (plainAny : ∀ part ∈ any, PlainValue part) (plainFinal : PlainValue final) :
    splitStars [] (any.flatMap (fun part => part ++ text "*") ++ final) = any ++ [final] := by
  induction any with
  | nil => simp [split_stars_whole [] final plainFinal.no_star]
  | cons part rest ih =>
      rw [List.flatMap_cons, List.append_assoc, List.append_assoc]
      change splitStars [] (part ++ chr '*' :: (_ ++ final)) = _
      rw [split_stars_star (plainAny part (by simp)),
        ih fun other member => plainAny other (by simp [member])]
      simp

theorem item_node_no_star {value : Bytes} (noStar : chr '*' ∉ value) (name : Bytes) :
    itemNode name value = { type := .equality, attributeName := name, value := value } := by
  have other : value ≠ text "*" := by
    rintro rfl
    exact noStar (by decide)
  rw [itemNode, if_neg other, split_stars_whole [] value noStar]
  rfl

theorem item_node_parts {initial : Bytes} {any : List Bytes} {final : Bytes}
    (plainInitial : PlainValue initial) (plainAny : ∀ part ∈ any, PlainValue part ∧ part ≠ [])
    (plainFinal : PlainValue final) (some : initial ≠ [] ∨ any ≠ [] ∨ final ≠ [])
    (name : Bytes) :
    itemNode name
        (initial ++ text "*" ++ any.flatMap (fun part => part ++ text "*") ++ final) =
      { type := .substring, attributeName := name, initial := initial, any := any
        final := final } := by
  have parts : splitStars []
      (initial ++ text "*" ++ any.flatMap (fun part => part ++ text "*") ++ final) =
      initial :: (any ++ [final]) := by
    rw [List.append_assoc, List.append_assoc]
    change splitStars [] (initial ++ chr '*' :: (_ ++ final)) = _
    rw [split_stars_star plainInitial,
      split_stars_parts (fun part member => (plainAny part member).1) plainFinal]
    rfl
  have noStar : initial ++ text "*" ++ any.flatMap (fun part => part ++ text "*") ++ final ≠
      text "*" := by
    intro alone
    have size := congrArg List.length alone
    simp only [List.length_append, List.length_flatMap] at size
    have one : (text "*").length = 1 := by decide
    rcases some with present | present | present
    · have positive := List.length_pos_iff.mpr present
      omega
    · obtain ⟨part, rest, rfl⟩ := List.exists_cons_of_ne_nil present
      simp only [List.map_cons, List.sum_cons] at size
      omega
    · have positive := List.length_pos_iff.mpr present
      omega
  have kept : any.filter (· ≠ []) = any := by
    rw [List.filter_eq_self]
    intro part member
    simpa using (plainAny part member).2
  rw [itemNode, if_neg noStar, parts, if_neg (by simp)]
  simp only [List.headD_cons, List.tail_cons, List.dropLast_concat, kept]
  rw [← List.cons_append, List.getLastD_concat]

theorem PlainName.not_ends {name : Bytes} (plain : PlainName name) :
    ∀ byte ∈ name, endsName byte = false := by
  have ends : ∀ byte : Byte, endsName byte = true → byte ∈ text "=()" := by
    intro byte stop
    have marks : text "=()" = [chr '=', chr '(', chr ')'] := by decide
    simp only [endsName, Bool.or_eq_true, decide_eq_true_eq] at stop
    rcases stop with (equals | closing) | opening
    · simp [marks, equals]
    · simp [marks, closing]
    · simp [marks, opening]
  intro byte member
  by_contra stop
  exact plain.unbroken byte member (ends byte (by simpa using stop))

theorem PlainName.trim_right {name : Bytes} (plain : PlainName name) : trimRight name = name := by
  obtain ⟨byte, last, solid⟩ := plain.last
  obtain ⟨front, rfl⟩ := List.getLast?_eq_some_iff.mp last
  simp [trimRight, solid]

theorem plain_name {name : Bytes} (nonempty : name ≠ [])
    (solid : ∀ byte ∈ name, isSpace byte = false ∧ byte ∉ text "=()&|!") : PlainName name := by
  have listed : ∀ byte : Byte, byte ∉ text "=()&|!" → byte ∉ text "=()" ∧ byte ∉ text "&|!" := by
    intro byte outside
    have marks : text "=()&|!" = text "=()" ++ text "&|!" := by decide
    rwa [marks, List.mem_append, not_or] at outside
  obtain ⟨firstSolid, firstPlain⟩ := solid _ (List.head_mem nonempty)
  refine ⟨?_, ⟨name.head nonempty, ?_, firstSolid, ?_⟩, name.getLast nonempty, ?_, ?_⟩
  · intro byte member
    exact (listed byte (solid byte member).2).1
  · exact List.head?_eq_some_head nonempty
  · exact (listed _ firstPlain).2
  · exact List.getLast?_eq_some_getLast nonempty
  · exact (solid _ (List.getLast_mem nonempty)).1

theorem opens_here {operator : Byte} (solid : isSpace operator = false) (operands : Bytes) :
    Opens (chr '(' :: operator :: operands) operator operands := by
  refine ⟨operator :: operands, ?_, ?_⟩
  · exact List.dropWhile_cons_of_neg (by decide)
  · exact List.dropWhile_cons_of_neg (by simp [solid])

theorem closes_here (after : Bytes) : Closes (chr ')' :: after) after :=
  List.dropWhile_cons_of_neg (by decide)

theorem parses_plain_item {name value : Bytes} (plain : PlainName name) (closed : chr ')' ∉ value)
    (after : Bytes) :
    Parses (text "(" ++ name ++ text "=" ++ value ++ text ")" ++ after) (itemNode name value)
      after := by
  obtain ⟨first, head, solid, noOperator⟩ := plain.first
  obtain ⟨rest, rfl⟩ := List.head?_eq_some_iff.mp head
  have named := plain.trim_right
  have read : parseItem (first :: (rest ++ chr '=' :: (value ++ chr ')' :: after))) =
      some (itemNode (first :: rest) value, chr ')' :: after) := by
    apply parse_item_iff.mpr
    refine ⟨first :: rest, value, rfl, plain.not_ends, closed, Or.inr rfl, ?_, ?_⟩
    · rw [named]
      exact List.cons_ne_nil first rest
    · rw [named]
  have item := parses_item (opens_here solid _) (list_type_none.mpr ⟨?_, ?_⟩) ?_ read
    (closes_here after)
  · simpa [text] using item
  · rintro rfl
    exact noOperator (by decide)
  · rintro rfl
    exact noOperator (by decide)
  · rintro rfl
    exact noOperator (by decide)

theorem render_head (node : FilterNode) (after : Bytes) :
    (render node ++ after).head? = some (chr '(') := by
  rcases node with ⟨type, name, value, children, initial, any, final⟩
  cases type <;> rfl

theorem parses_render_all {children : List FilterNode}
    (each : ∀ child ∈ children, ∀ after, Parses (render child ++ after) child after)
    (after : Bytes) (stopped : after.head? ≠ some (chr '(')) :
    ParsesList (renderAll children ++ after) children after := by
  induction children with
  | nil => exact parses_list_nil stopped
  | cons child rest ih =>
      have first := each child (by simp) (renderAll rest ++ after)
      have later := ih fun other member => each other (by simp [member])
      have progress : (renderAll rest ++ after).length <
          (render child ++ (renderAll rest ++ after)).length := by
        have head := render_head child []
        rw [List.append_nil] at head
        obtain ⟨tail, same⟩ := List.head?_eq_some_iff.mp head
        simp only [same, List.length_append, List.length_cons]
        omega
      rw [renderAll, List.append_assoc]
      exact parses_list_cons (render_head child _) first progress later

theorem parses_rendered_list {operator : Byte} {type : FilterType} {children : List FilterNode}
    (list : listType operator = some type) (solid : isSpace operator = false)
    (nonempty : children ≠ [])
    (each : ∀ child ∈ children, ∀ after, Parses (render child ++ after) child after)
    (after : Bytes) :
    Parses (chr '(' :: operator :: (renderAll children ++ text ")") ++ after)
      { type := type, children := children } after := by
  obtain ⟨child, rest, rfl⟩ := List.exists_cons_of_ne_nil nonempty
  have listed := parses_render_all each (chr ')' :: after) (by simp; decide)
  have parsed := parses_list (opens_here solid _) list listed (closes_here after)
  simpa [text] using parsed

theorem rendered_parts_open {initial : Bytes} {any : List Bytes} {final : Bytes}
    (plainInitial : PlainValue initial) (plainAny : ∀ part ∈ any, PlainValue part)
    (plainFinal : PlainValue final) :
    chr ')' ∉ initial ++ text "*" ++ any.flatMap (fun part => part ++ text "*") ++ final := by
  intro member
  rcases List.mem_append.mp member with front | inFinal
  · rcases List.mem_append.mp front with head | inAny
    · rcases List.mem_append.mp head with inInitial | star
      · exact plainInitial.no_bracket inInitial
      · exact absurd star (by decide)
    · obtain ⟨part, known, inPart⟩ := List.mem_flatMap.mp inAny
      rcases List.mem_append.mp inPart with inside | star
      · exact (plainAny part known).no_bracket inside
      · exact absurd star (by decide)
  · exact plainFinal.no_bracket inFinal

theorem Printable.valid_tree {node : FilterNode} (tree : Printable node) : ValidTree node := by
  induction tree with
  | and children nonempty each ih => exact ValidTree.and children ih
  | or children nonempty each ih => exact ValidTree.or children ih
  | not child only ih => exact ValidTree.not child ih
  | present name named => exact ValidTree.present name
  | equality name value named plain => exact ValidTree.equality name value
  | substring name initial any final named plainInitial plainAny plainFinal some =>
      exact ValidTree.substring name initial any final

theorem parses_render {node : FilterNode} (tree : Printable node) (after : Bytes) :
    Parses (render node ++ after) node after := by
  induction tree generalizing after with
  | and children nonempty each ih => exact parses_rendered_list rfl (by decide) nonempty ih after
  | or children nonempty each ih => exact parses_rendered_list rfl (by decide) nonempty ih after
  | not child only ih =>
      have negated := parses_not (opens_here (by decide) _) (ih (chr ')' :: after))
        (closes_here after)
      simpa [render, renderAll, text] using negated
  | present name named =>
      have item := parses_plain_item named (by decide : chr ')' ∉ text "*") after
      have node : itemNode name (text "*") = { type := .present, attributeName := name } :=
        if_pos rfl
      rw [node] at item
      simpa [render, text] using item
  | equality name value named plain =>
      have item := parses_plain_item named plain.no_bracket after
      rwa [item_node_no_star plain.no_star] at item
  | substring name initial any final named plainInitial plainAny plainFinal some =>
      have item := parses_plain_item named (rendered_parts_open plainInitial
        (fun part member => (plainAny part member).1) plainFinal) after
      rwa [item_node_parts plainInitial plainAny plainFinal some] at item

theorem parse_rendered {node : FilterNode} (tree : Printable node) :
    (parse (render node)).valid = true ∧ (parse (render node)).root = node := by
  have parses := parses_render tree []
  rw [List.append_nil] at parses
  exact parse_valid_iff.mpr ⟨[], parses, rfl⟩

/-- A printed tree is read back by the parser, and its BER form by the decoder. -/
theorem rendered_filter_round_trip {node : FilterNode} (tree : Printable node) :
    (parse (render node)).valid = true ∧ (parse (render node)).root = node ∧
      ((parse (render node)).encodeBer.length < 2 ^ 32 →
        ∃ decoded, Reads SearchFilter.decodeBer (parse (render node)).encodeBer decoded ∧
          decoded.valid = true ∧ decoded.root = node ∧
          ∀ entry, decoded.matchesEntry entry = (parse (render node)).matchesEntry entry) := by
  obtain ⟨valid, root⟩ := parse_rendered tree
  refine ⟨valid, root, ?_⟩
  intro small
  have known : ValidTree (parse (render node)).root := by
    rw [root]
    exact tree.valid_tree
  have read := SearchFilter.reads_filter valid known small
  refine ⟨_, read, rfl, root, ?_⟩
  intro entry
  rw [SearchFilter.matchesEntry, SearchFilter.matchesEntry, valid]

/-- `(&(cn=Ann Lee)(!(mail=*))(sn=a*b*))`. -/
def nestedFilter : FilterNode where
  type := .and
  children :=
    [{ type := .equality, attributeName := text "cn", value := text "Ann Lee" },
      { type := .not, children := [{ type := .present, attributeName := text "mail" }] },
      { type := .substring, attributeName := text "sn", initial := text "a", any := [text "b"] }]

theorem nested_filter_printable : Printable nestedFilter := by
  apply Printable.and _ (by simp)
  intro child member
  simp only [List.mem_cons, List.not_mem_nil, or_false] at member
  rcases member with rfl | rfl | rfl
  · exact Printable.equality _ _ (plain_name (by decide) (by decide +kernel))
      (by unfold PlainValue; decide +kernel)
  · exact Printable.not _ (Printable.present _ (plain_name (by decide) (by decide +kernel)))
  · refine Printable.substring _ _ _ _ (plain_name (by decide) (by decide +kernel)) ?_ ?_ ?_
      (Or.inl (by decide))
    · unfold PlainValue
      decide +kernel
    · unfold PlainValue
      decide +kernel
    · unfold PlainValue
      decide +kernel

theorem nested_filter_round_trip :
    (parse (text "(&(cn=Ann Lee)(!(mail=*))(sn=a*b*))")).root = nestedFilter ∧
      ∃ decoded, Reads SearchFilter.decodeBer (parse (render nestedFilter)).encodeBer decoded ∧
        decoded.root = nestedFilter := by
  obtain ⟨_, root, wire⟩ := rendered_filter_round_trip nested_filter_printable
  obtain ⟨decoded, read, _, same, _⟩ := wire (by decide +kernel)
  exact ⟨root, decoded, read, same⟩

end Render

end SimpleLdapd.Filter
