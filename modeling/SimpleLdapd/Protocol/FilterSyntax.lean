import SimpleLdapd.Protocol.FilterText

/-!
# What the filter parser accepts

`docs/shared/user-guide/search.md` lists the operators the daemon leaves out. The
parser does not look for them: an item is whatever stands in front of the first
`=`, and its value whatever stands in front of the next `)`. `plainItems` reads
the same text byte by byte and says which accepted texts keep to the grammar.
The second part is about escapes, which the parser steps over and never undoes.
-/

namespace SimpleLdapd.Filter

open Dn
open Text (isSpace)

/-- A byte of an attribute description. -/
def isKeyByte (byte : Byte) : Bool :=
  (65 ≤ byte.val && byte.val ≤ 90) || (97 ≤ byte.val && byte.val ≤ 122) || Text.isDigit byte ||
    byte ∈ text "-.;"

def hasBracket (value : Bytes) : Bool := value.any fun byte => byte = chr '(' || byte = chr ')'

mutual

/-- Every attribute is an attribute description, and no assertion value holds a bracket. -/
def wellFormed : FilterNode → Bool
  | ⟨type, name, value, children, initial, any, final⟩ =>
      match type with
      | .and => allWellFormed children
      | .or => allWellFormed children
      | .not => allWellFormed children
      | .present => name.all isKeyByte
      | .equality => name.all isKeyByte && !hasBracket value
      | .substring =>
          name.all isKeyByte && !hasBracket initial && any.all (fun part => !hasBracket part) &&
            !hasBracket final
      | .true => true
      | .false => true

def allWellFormed : List FilterNode → Bool
  | [] => true
  | child :: rest => wellFormed child && allWellFormed rest

end

/-- Where a byte of a filter text stands. -/
inductive TextPlace where
  | outside
  | name
  | blank
  | value

/-- Between items there are brackets, operators and blanks. An item is a run of key bytes,
blanks, `=` and a value without an opening bracket. -/
def cleanFrom : TextPlace → Bytes → Bool
  | _, [] => true
  | .outside, byte :: rest =>
      if byte ∈ text "()&|!" || isSpace byte then cleanFrom .outside rest
      else isKeyByte byte && cleanFrom .name rest
  | .name, byte :: rest =>
      if byte = chr '=' then cleanFrom .value rest
      else if isSpace byte then cleanFrom .blank rest
      else isKeyByte byte && cleanFrom .name rest
  | .blank, byte :: rest =>
      if byte = chr '=' then cleanFrom .value rest
      else isSpace byte && cleanFrom .blank rest
  | .value, byte :: rest =>
      if byte = chr ')' then cleanFrom .outside rest
      else byte ≠ chr '(' && cleanFrom .value rest

def plainItems (source : Bytes) : Bool := cleanFrom .outside source

section Scan

theorem clean_outside_cons (byte : Byte) (rest : Bytes) :
    cleanFrom .outside (byte :: rest) =
      if byte ∈ text "()&|!" || isSpace byte then cleanFrom .outside rest
      else isKeyByte byte && cleanFrom .name rest := rfl

theorem clean_name_cons (byte : Byte) (rest : Bytes) :
    cleanFrom .name (byte :: rest) =
      if byte = chr '=' then cleanFrom .value rest
      else if isSpace byte then cleanFrom .blank rest
      else isKeyByte byte && cleanFrom .name rest := rfl

theorem clean_blank_cons (byte : Byte) (rest : Bytes) :
    cleanFrom .blank (byte :: rest) =
      if byte = chr '=' then cleanFrom .value rest
      else isSpace byte && cleanFrom .blank rest := rfl

theorem clean_value_cons (byte : Byte) (rest : Bytes) :
    cleanFrom .value (byte :: rest) =
      if byte = chr ')' then cleanFrom .outside rest
      else byte ≠ chr '(' && cleanFrom .value rest := rfl

theorem clean_skip_space (source : Bytes) :
    cleanFrom .outside (skipSpace source) = cleanFrom .outside source := by
  induction source with
  | nil => rfl
  | cons byte rest ih =>
      unfold skipSpace at ih ⊢
      by_cases blank : isSpace byte = true
      · rw [List.dropWhile_cons_of_pos blank, ih, clean_outside_cons,
          if_pos (by simp [blank])]
      · rw [List.dropWhile_cons_of_neg blank]

theorem clean_structure {byte : Byte} (known : byte ∈ text "()&|!") (rest : Bytes) :
    cleanFrom .outside (byte :: rest) = cleanFrom .outside rest := by
  rw [clean_outside_cons, if_pos (by simp [known])]

theorem Opens.clean {source operands : Bytes} {operator : Byte}
    (opens : Opens source operator operands) :
    cleanFrom .outside source = cleanFrom .outside (operator :: operands) := by
  obtain ⟨body, opened, inside⟩ := opens
  rw [← clean_skip_space source, opened, clean_structure (by decide), ← clean_skip_space body,
    inside]

theorem Opens.solid {source operands : Bytes} {operator : Byte}
    (opens : Opens source operator operands) : isSpace operator = false := by
  obtain ⟨body, _, inside⟩ := opens
  have present : skipSpace body ≠ [] := by
    rw [inside]
    exact List.cons_ne_nil operator operands
  have solid := List.head_dropWhile_not isSpace present
  unfold skipSpace at inside
  simpa only [inside, List.head_cons] using solid

theorem Closes.clean {inner after : Bytes} (closes : Closes inner after) :
    cleanFrom .outside inner = cleanFrom .outside after := by
  rw [← clean_skip_space inner, closes, clean_structure (by decide)]

theorem not_equals_sign {byte : Byte} (plain : endsName byte = false) : byte ≠ chr '=' := by
  rintro rfl
  exact absurd plain (by decide)

theorem clean_blank {name : Bytes} (plain : ∀ byte ∈ name, endsName byte = false) (tail : Bytes) :
    cleanFrom .blank (name ++ chr '=' :: tail) = (name.all isSpace && cleanFrom .value tail) := by
  induction name with
  | nil => rw [List.nil_append, clean_blank_cons, if_pos rfl, List.all_nil, Bool.true_and]
  | cons byte rest ih =>
      have other := not_equals_sign (plain byte (by simp))
      rw [List.cons_append, clean_blank_cons, if_neg other,
        ih fun later member => plain later (by simp [member]), List.all_cons, Bool.and_assoc]

theorem trim_right_cons (byte : Byte) (rest : Bytes) :
    trimRight (byte :: rest) =
      if isSpace byte && rest.all isSpace then [] else byte :: trimRight rest := by
  unfold trimRight
  rw [List.reverse_cons, List.dropWhile_append]
  cases left : rest.reverse.dropWhile isSpace with
  | nil =>
      have all : rest.all isSpace = true := by
        simpa using List.dropWhile_eq_nil_iff.mp left
      rw [all]
      cases solid : isSpace byte <;> simp [solid]
  | cons other before =>
      have notAll : rest.all isSpace = false := by
        rw [← Bool.not_eq_true]
        intro all
        have none : rest.reverse.dropWhile isSpace = [] :=
          List.dropWhile_eq_nil_iff.mpr (by simpa using all)
        rw [none] at left
        cases left
      rw [notAll]
      simp

theorem blank_not_key : ∀ byte : Byte, isSpace byte = true → isKeyByte byte = false := by
  intro byte blank
  have marks : text "-.;" = [45, 46, 59] := by decide
  simp only [isSpace, isKeyByte, Text.isDigit, marks, Bool.or_eq_true, Bool.and_eq_true,
    decide_eq_true_eq, Bool.or_eq_false_iff, Bool.and_eq_false_iff, decide_eq_false_iff_not,
    List.mem_cons, List.not_mem_nil, or_false, Fin.ext_iff] at blank ⊢
  norm_num
  omega

theorem clean_name {name : Bytes} (plain : ∀ byte ∈ name, endsName byte = false) (tail : Bytes) :
    cleanFrom .name (name ++ chr '=' :: tail) =
      ((trimRight name).all isKeyByte && cleanFrom .value tail) := by
  induction name with
  | nil => simp [clean_name_cons, trimRight]
  | cons byte rest ih =>
      have other := not_equals_sign (plain byte (by simp))
      have later : ∀ byte ∈ rest, endsName byte = false :=
        fun byte member => plain byte (by simp [member])
      rw [List.cons_append, clean_name_cons, if_neg other, trim_right_cons]
      by_cases blank : isSpace byte = true
      · rw [if_pos blank, clean_blank later]
        cases rest.all isSpace <;> simp [blank, blank_not_key byte blank]
      · rw [if_neg blank, ih later]
        simp [blank, Bool.and_assoc]

theorem clean_value {value after : Bytes} (closed : chr ')' ∉ value)
    (ended : after = [] ∨ after.head? = some (chr ')')) :
    cleanFrom .value (value ++ after) = (!hasBracket value && cleanFrom .outside after) := by
  induction value with
  | nil =>
      rcases ended with rfl | ended
      · rfl
      · obtain ⟨rest, rfl⟩ := List.head?_eq_some_iff.mp ended
        simp [clean_value_cons, clean_outside_cons, hasBracket, text]
  | cons byte rest ih =>
      have other : byte ≠ chr ')' := by
        rintro rfl
        exact closed (by simp)
      rw [List.cons_append, clean_value_cons, if_neg other,
        ih fun member => closed (by simp [member])]
      simp [hasBracket, other, Bool.and_assoc]

end Scan

section Soundness

/-- Splitting keeps every byte but the stars. -/
theorem mem_split_stars {byte : Byte} (noStar : byte ≠ chr '*') (current value : Bytes) :
    (∃ part ∈ splitStars current value, byte ∈ part) ↔ byte ∈ current ∨ byte ∈ value := by
  induction current, value using splitStars.induct with
  | case1 current => simp [splitStars]
  | case2 current => simp [splitStars, noStar]
  | case3 current other different => simp [splitStars, different]
  | case4 current next rest ih =>
      rw [splitStars, if_pos rfl, ih]
      simp [or_assoc]
  | case5 current next rest solid ih =>
      rw [splitStars, if_neg solid, if_pos rfl]
      simp only [List.mem_cons, exists_eq_or_imp, ih]
      simp [noStar]
  | case6 current other next rest noEscape different ih =>
      rw [splitStars, if_neg noEscape, if_neg different, ih]
      simp [or_assoc]

theorem has_bracket_iff (value : Bytes) :
    hasBracket value = true ↔ chr '(' ∈ value ∨ chr ')' ∈ value := by
  simp only [hasBracket, List.any_eq_true, Bool.or_eq_true, decide_eq_true_eq]
  constructor
  · rintro ⟨byte, member, rfl | rfl⟩
    · exact Or.inl member
    · exact Or.inr member
  · rintro (member | member)
    · exact ⟨_, member, Or.inl rfl⟩
    · exact ⟨_, member, Or.inr rfl⟩

theorem has_bracket_split (value : Bytes) :
    (splitStars [] value).any hasBracket = hasBracket value := by
  have opening := mem_split_stars (by decide : chr '(' ≠ chr '*') [] value
  have closing := mem_split_stars (by decide : chr ')' ≠ chr '*') [] value
  simp only [List.not_mem_nil, false_or] at opening closing
  rw [Bool.eq_iff_iff, has_bracket_iff, List.any_eq_true, ← opening, ← closing]
  simp only [has_bracket_iff, and_or_left, exists_or]

theorem split_stars_nonempty (current value : Bytes) : splitStars current value ≠ [] := by
  induction current, value using splitStars.induct with
  | case1 current => simp [splitStars]
  | case2 current => simp [splitStars]
  | case3 current other different => simp [splitStars, different]
  | case4 current next rest ih => rwa [splitStars, if_pos rfl]
  | case5 current next rest solid ih =>
      rw [splitStars, if_neg solid, if_pos rfl]
      exact List.cons_ne_nil _ _
  | case6 current other next rest noEscape different ih =>
      rwa [splitStars, if_neg noEscape, if_neg different]

/-- A value with a star has a first and a last part. -/
theorem split_stars_ends {value : Bytes} (several : (splitStars [] value).length ≠ 1) :
    ∃ first middle last, splitStars [] value = first :: (middle ++ [last]) := by
  obtain ⟨first, rest, split⟩ := List.exists_cons_of_ne_nil (split_stars_nonempty [] value)
  have present : rest ≠ [] := by
    rintro rfl
    exact several (by simp [split])
  refine ⟨first, rest.dropLast, rest.getLast present, ?_⟩
  rw [split, List.dropLast_append_getLast]

theorem well_formed_item (name value : Bytes) :
    wellFormed (itemNode name value) = (name.all isKeyByte && !hasBracket value) := by
  unfold itemNode
  split
  · rename_i star
    have free : hasBracket (text "*") = false := by decide
    rw [star, free, wellFormed]
    simp
  · split
    · rfl
    · rename_i several
      obtain ⟨first, middle, last, parts⟩ := split_stars_ends several
      have kept : (middle.filter (· ≠ [])).all (fun part => !hasBracket part) =
          middle.all fun part => !hasBracket part := by
        rw [List.all_filter]
        congr 1
        funext part
        cases part <;> simp [hasBracket]
      rw [← has_bracket_split value, parts, wellFormed]
      simp only [List.headD_cons, List.tail_cons, List.dropLast_concat, kept]
      rw [← List.cons_append, List.getLastD_concat]
      simp only [List.any_append, List.any_cons, List.any_nil, Bool.or_false, Bool.not_or,
        List.not_any_eq_all_not, Bool.and_assoc]

theorem clean_item {operator : Byte} {operands inner : Bytes} {node : FilterNode}
    (noList : listType operator = none) (noNot : operator ≠ chr '!')
    (solid : isSpace operator = false)
    (read : parseItem (operator :: operands) = some (node, inner)) :
    cleanFrom .outside (operator :: operands) =
      (wellFormed node && cleanFrom .outside inner) := by
  obtain ⟨name, value, split, plain, closed, ended, named, rfl⟩ := parse_item_iff.mp read
  obtain ⟨noAnd, noOr⟩ := list_type_none.mp noList
  have same : cleanFrom .outside (operator :: operands) = cleanFrom .name (operator :: operands) := by
    cases name with
    | nil => exact absurd rfl named
    | cons first rest =>
        obtain ⟨rfl, _⟩ := List.cons.inj split
        have other := not_equals_sign (plain operator (by simp))
        have free : ∀ byte : Byte, endsName byte = false → byte ≠ chr '&' → byte ≠ chr '|' →
            byte ≠ chr '!' → byte ∉ text "()&|!" := by
          intro byte inside noAnd noOr noNot
          have marks : text "()&|!" = [chr '(', chr ')', chr '&', chr '|', chr '!'] := by decide
          simp only [endsName, Bool.or_eq_false_iff, decide_eq_false_iff_not] at inside
          simp [marks, inside, noAnd, noOr, noNot]
        have begins := free operator (plain operator (by simp)) noAnd noOr noNot
        rw [clean_outside_cons, clean_name_cons, if_neg (by simp [begins, solid]),
          if_neg other, if_neg (by simp [solid])]
  rw [same, split, clean_name plain, clean_value closed ended, well_formed_item, Bool.and_assoc]

theorem clean_parsed (fuel : Nat) :
    (∀ source node after, parseFilter fuel source = some (node, after) →
        cleanFrom .outside source = (wellFormed node && cleanFrom .outside after)) ∧
      ∀ source children after, parseList fuel source = some (children, after) →
        cleanFrom .outside source = (allWellFormed children && cleanFrom .outside after) := by
  apply parse_rule
  · intro source operator operands type child rest inner after opens list listed closes
    have known : operator ∈ text "()&|!" ∧ wellFormed { type := type, children := child :: rest } =
        allWellFormed (child :: rest) := by
      rcases list_type_cases list with ⟨rfl, rfl⟩ | ⟨rfl, rfl⟩
      · exact ⟨by decide, by rw [wellFormed]⟩
      · exact ⟨by decide, by rw [wellFormed]⟩
    rw [opens.clean, clean_structure known.1, listed, closes.clean, known.2]
  · intro source operands child inner after opens negated closes
    rw [opens.clean, clean_structure (by decide), negated, closes.clean]
    simp [wellFormed, allWellFormed]
  · intro source operator operands node inner after opens noList noNot read closes
    rw [opens.clean, clean_item noList noNot opens.solid read, closes.clean]
  · intro source stopped
    simp [allWellFormed]
  · intro source child rest inner after opened first later
    rw [first, later, allWellFormed, Bool.and_assoc]

/-- An accepted text keeps to the grammar if its items do, byte by byte. -/
theorem accepted_filter_sound_iff {source : Bytes} (accepted : (parse source).valid = true) :
    wellFormed (parse source).root = true ↔ plainItems source = true := by
  obtain ⟨after, parses, blank⟩ := parse_valid_iff.mp ⟨accepted, rfl⟩
  have parsed := parses (2 * source.length) le_rfl
  have clean := (clean_parsed _).1 source _ after parsed
  have rest : cleanFrom .outside after = true := by
    rw [← clean_skip_space, blank]
    rfl
  rw [plainItems, clean, rest, Bool.and_true]

theorem nested_text_sound :
    (parse (text "( &(cn;lang-de =a)(!(sn=b*\\28)))")).valid = true ∧
      wellFormed (parse (text "( &(cn;lang-de =a)(!(sn=b*\\28)))")).root = true :=
  ⟨by decide +kernel, (accepted_filter_sound_iff (by decide +kernel)).mpr (by decide +kernel)⟩

/-- An operator that is not implemented becomes part of the attribute, and a bracket part
of the value. -/
theorem unsupported_operator_accepted :
    (parse (text "(cn>=5)")).valid = true ∧
      (parse (text "(cn>=5)")).root =
        { type := .equality, attributeName := text "cn>", value := text "5" } ∧
      wellFormed (parse (text "(cn>=5)")).root = false ∧
      (parse (text "(cn=a(b)")).valid = true ∧
      wellFormed (parse (text "(cn=a(b)")).root = false := by
  decide +kernel

end Soundness

section Escapes

/-- `\` and two hex digits for a byte that a filter text cannot hold as it is. -/
def escapeByte (byte : Byte) : Bytes :=
  if byte = 0 ∨ byte ∈ text "()*\\" then chr '\\' :: Text.toHex [byte] else [byte]

def escapeValue (value : Bytes) : Bytes := value.flatMap escapeByte

def equalityText (name value : Bytes) : Bytes :=
  text "(" ++ name ++ text "=" ++ escapeValue value ++ text ")"

/-- The filter asks for the value that was escaped. -/
def AsksFor (filter : SearchFilter) (name value : Bytes) : Prop :=
  filter.valid = true ∧ filter.root.type = .equality ∧
    ∀ entry, filter.matchesEntry entry = true ↔ HasValue entry name value

theorem hex_digit_plain (nibble : Nat) :
    Text.hexDigit nibble ≠ chr '*' ∧ Text.hexDigit nibble ≠ chr ')' := by
  unfold Text.hexDigit
  rw [List.getD_eq_getElem?_getD]
  cases found : (text "0123456789abcdef")[nibble]? with
  | none => decide
  | some digit =>
      have each : ∀ digit ∈ text "0123456789abcdef", digit ≠ chr '*' ∧ digit ≠ chr ')' := by
        simp [text, chr]
      exact each digit (List.mem_of_getElem? found)

theorem escape_byte_plain (byte : Byte) :
    ∀ other ∈ escapeByte byte, other ≠ chr '*' ∧ other ≠ chr ')' := by
  intro other member
  unfold escapeByte at member
  split at member
  · simp only [Text.toHex, List.flatMap_cons, List.flatMap_nil, List.append_nil, List.mem_cons,
      List.not_mem_nil, or_false] at member
    rcases member with escape | high | low
    · rw [escape]
      decide
    · rw [high]
      exact hex_digit_plain _
    · rw [low]
      exact hex_digit_plain _
  · rename_i plain
    obtain ⟨_, unmarked⟩ := not_or.mp plain
    rw [List.mem_singleton.mp member]
    exact ⟨fun star => unmarked (star ▸ by decide), fun closed => unmarked (closed ▸ by decide)⟩

theorem escape_byte_length : ∀ byte : Byte,
    (escapeByte byte).length = if byte = 0 ∨ byte ∈ text "()*\\" then 3 else 1 := by
  intro byte
  unfold escapeByte
  split
  · rfl
  · rfl

theorem escape_value_plain (value : Bytes) :
    chr '*' ∉ escapeValue value ∧ chr ')' ∉ escapeValue value := by
  constructor
  · intro member
    obtain ⟨byte, _, inside⟩ := List.mem_flatMap.mp member
    exact (escape_byte_plain byte _ inside).1 rfl
  · intro member
    obtain ⟨byte, _, inside⟩ := List.mem_flatMap.mp member
    exact (escape_byte_plain byte _ inside).2 rfl

theorem escape_value_length (value : Bytes) :
    value.length ≤ (escapeValue value).length ∧
      ((escapeValue value).length = value.length →
        ∀ byte ∈ value, byte ≠ 0 ∧ byte ∉ text "()*\\") := by
  induction value with
  | nil => simp [escapeValue]
  | cons byte rest ih =>
      have size := escape_byte_length byte
      unfold escapeValue at ih ⊢
      rw [List.flatMap_cons, List.length_append, List.length_cons, size]
      split
      · exact ⟨by omega, by omega⟩
      · rename_i plain
        refine ⟨by omega, ?_⟩
        intro same other member
        rcases List.mem_cons.mp member with rfl | later
        · exact not_or.mp plain
        · exact ih.2 (by omega) other later

theorem escape_value_self {value : Bytes}
    (plain : ∀ byte ∈ value, byte ≠ 0 ∧ byte ∉ text "()*\\") : escapeValue value = value := by
  induction value with
  | nil => rfl
  | cons byte rest ih =>
      have head : escapeByte byte = [byte] := if_neg (not_or.mpr (plain byte (by simp)))
      unfold escapeValue at ih ⊢
      rw [List.flatMap_cons, head, ih fun other member => plain other (by simp [member])]
      rfl

theorem key_byte_solid : ∀ byte : Byte, isKeyByte byte = true →
    isSpace byte = false ∧ byte ∉ text "=()&|!" := by
  intro byte key
  have marks : text "-.;" = [45, 46, 59] := by decide
  have others : text "=()&|!" = [61, 40, 41, 38, 124, 33] := by decide
  simp only [isSpace, isKeyByte, Text.isDigit, marks, others, Bool.or_eq_true, Bool.and_eq_true,
    decide_eq_true_eq, Bool.or_eq_false_iff, Bool.and_eq_false_iff, decide_eq_false_iff_not,
    List.mem_cons, List.not_mem_nil, or_false, Fin.ext_iff] at key ⊢
  norm_num at key ⊢
  omega

/-- The escaped value is read as it stands in the text, escapes and all. -/
theorem parse_equality_text {name : Bytes} (named : name ≠ []) (letters : name.all isKeyByte = true)
    (value : Bytes) :
    (parse (equalityText name value)).valid = true ∧
      (parse (equalityText name value)).root =
        { type := .equality, attributeName := name, value := escapeValue value } := by
  obtain ⟨noStar, closed⟩ := escape_value_plain value
  have plain : PlainName name := plain_name named fun byte member =>
    key_byte_solid byte (List.all_eq_true.mp letters byte member)
  have item := parses_plain_item plain closed []
  rw [List.append_nil, item_node_no_star noStar] at item
  exact parse_valid_iff.mpr ⟨[], item, rfl⟩

/-- An escape is never undone, so the value is found only where there is none. -/
theorem escaped_filter_asks_iff {name : Bytes} (named : name ≠ [])
    (letters : name.all isKeyByte = true) (value : Bytes) :
    AsksFor (parse (equalityText name value)) name value ↔
      ∀ byte ∈ value, byte ≠ 0 ∧ byte ∉ text "()*\\" := by
  obtain ⟨valid, root⟩ := parse_equality_text named letters value
  have matched (entry : DirectoryEntry) :
      (parse (equalityText name value)).matchesEntry entry = true ↔
        HasValue entry name (escapeValue value) := by
    rw [SearchFilter.matchesEntry, valid, root, Bool.true_and, node_matches_equality]
  constructor
  · rintro ⟨_, _, asked⟩
    let owner : DirectoryEntry := { attributes := OrderedMap.empty.insert name [value] }
    have found : owner.findAttribute name = some [value] := by
      simp [owner, DirectoryEntry.findAttribute, OrderedMap.findBy, OrderedMap.insert,
        OrderedMap.empty]
    have owns : HasValue owner name value := ⟨[value], found, value, by simp, by simp [iequals]⟩
    obtain ⟨values, stored, other, member, same⟩ := (matched owner).mp ((asked owner).mpr owns)
    rw [found] at stored
    cases stored
    rw [List.mem_singleton.mp member, iequals_iff] at same
    have sizes := congrArg List.length same
    rw [to_lower_length, to_lower_length] at sizes
    exact (escape_value_length value).2 sizes.symm
  · intro plain
    refine ⟨valid, by rw [root], ?_⟩
    intro entry
    rw [matched, escape_value_self plain]

theorem plain_value_asked :
    AsksFor (parse (equalityText (text "cn") (text "Ann Lee"))) (text "cn") (text "Ann Lee") :=
  (escaped_filter_asks_iff (by decide) (by decide +kernel) (text "Ann Lee")).mpr
    (by decide +kernel)

/-- `(cn=a\2ab)` does not find the entry whose `cn` is `a*b`. -/
theorem escaped_star_not_found :
    ¬ AsksFor (parse (equalityText (text "cn") (text "a*b"))) (text "cn") (text "a*b") := by
  rintro ⟨_, _, asked⟩
  let owner : DirectoryEntry :=
    { attributes := OrderedMap.empty.insert (text "cn") [text "a*b"] }
  have missed : (parse (equalityText (text "cn") (text "a*b"))).matchesEntry owner = false := by
    decide +kernel
  have owns : HasValue owner (text "cn") (text "a*b") :=
    ⟨[text "a*b"], by decide +kernel, text "a*b", by simp, by decide⟩
  rw [(asked owner).mpr owns] at missed
  cases missed

end Escapes

end SimpleLdapd.Filter
