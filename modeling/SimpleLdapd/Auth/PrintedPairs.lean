import Mathlib.Algebra.BigOperators.Group.List.Basic
import Mathlib.Algebra.Order.BigOperators.Group.List
import SimpleLdapd.Auth.DigestClient

/-!
# Misread pairs are not made up for

The pairs of a text are written without escapes and read with them: a value ends at
the next quote, and a backslash takes the byte behind it. A pair that is misread at
its own place could still come back from a later one, whose value spells out the same
key. There is no room for it: the parser drops bytes and never makes one, and the
letters of the key that went to the misread pair are missing later on.
-/

namespace SimpleLdapd.Text

open Dn

/-- How often a letter stands in a value, in either case. -/
def letterCount (letter : Byte) (value : Bytes) : Nat := (toLowerAscii value).count letter

section LetterCount

variable (letter : Byte)

@[simp] theorem letter_count_nil : letterCount letter [] = 0 := rfl

@[simp] theorem letter_count_append (left right : Bytes) :
    letterCount letter (left ++ right) = letterCount letter left + letterCount letter right := by
  simp [letterCount, toLowerAscii]

theorem letter_count_cons (byte : Byte) (value : Bytes) :
    letterCount letter (byte :: value) = letterCount letter [byte] + letterCount letter value :=
  letter_count_append letter [byte] value

@[simp] theorem letter_count_lower (value : Bytes) :
    letterCount letter (toLowerAscii value) = letterCount letter value := by
  rw [letterCount, to_lower_idempotent, letterCount]

theorem letter_count_sublist {part whole : Bytes} (sublist : part.Sublist whole) :
    letterCount letter part ≤ letterCount letter whole :=
  (sublist.map toLowerByte).count_le letter

end LetterCount

/-- A letter is none of the bytes that the pair syntax is made of. -/
def Letter (letter : Byte) : Prop := letterCount letter (text "\",\\=") = 0

section Budget

variable {letter : Byte}

theorem Letter.syntax_count (isLetter : Letter letter) :
    letterCount letter [chr '"'] = 0 ∧ letterCount letter [chr ','] = 0 ∧
      letterCount letter [chr '\\'] = 0 ∧ letterCount letter [chr '='] = 0 := by
  have spelled : text "\",\\=" = [chr '"'] ++ [chr ','] ++ [chr '\\'] ++ [chr '='] := by decide
  rw [Letter, spelled, letter_count_append, letter_count_append, letter_count_append] at isLetter
  omega

/-- Un-escaping and cutting at a quote drop quotes and backslashes only. -/
theorem quoted_value_count (isLetter : Letter letter) (source : Bytes) :
    letterCount letter (quotedValue source).1 + letterCount letter (quotedValue source).2 =
      letterCount letter source := by
  obtain ⟨quote, -, escape, -⟩ := isLetter.syntax_count
  fun_induction quotedValue source with
  | case1 => rfl
  | case2 => rw [quote]; rfl
  | case3 byte => rfl
  | case4 next rest => rw [letter_count_cons letter (chr '"') (next :: rest), quote]; rfl
  | case5 next rest value remaining read _ ih =>
      rw [read] at ih
      simp only at ih ⊢
      rw [letter_count_cons letter (chr '\\'), letter_count_cons letter next rest,
        letter_count_cons letter next value, escape, ← ih]
      omega
  | case6 byte next rest _ _ value remaining read ih =>
      rw [read] at ih
      simp only at ih ⊢
      rw [letter_count_cons letter byte (next :: rest), letter_count_cons letter byte value, ← ih]
      omega

def pairCount (letter : Byte) (pair : Bytes × Bytes) : Nat :=
  letterCount letter pair.1 + letterCount letter pair.2

/-- All the letters of the parsed pairs were in the text. -/
theorem parse_budget (isLetter : Letter letter) (fuel : Nat) (source : Bytes) :
    ((parsePairsWith toLowerAscii fuel source).map (pairCount letter)).sum ≤
      letterCount letter source := by
  induction fuel generalizing source with
  | zero => simp [parsePairsWith]
  | succ fuel ih =>
      rw [parsePairsWith]
      have started := letter_count_sublist letter
        (List.dropWhile_sublist (fun byte => byte = chr ',' || isSpace byte) (l := source))
      generalize source.dropWhile (fun byte => byte = chr ',' || isSpace byte) = start at started
      simp only
      split
      · simp
      · rename_i position found
        have keyed : letterCount letter (start.take position) +
            letterCount letter (start.drop position) = letterCount letter start := by
          rw [← letter_count_append, List.take_append_drop]
        have behind := letter_count_sublist letter
          (List.drop_sublist_drop_left start (Nat.le_succ position))
        split
        · simp only [List.map_cons, List.sum_cons, pairCount, letter_count_lower, List.map_nil,
            List.sum_nil, letter_count_nil]
          omega
        · rename_i byte tail shape
          rw [Nat.succ_eq_add_one, shape, letter_count_cons] at behind
          split
          · have read := quoted_value_count isLetter tail
            have later := ih (quotedValue tail).2
            simp only [List.map_cons, List.sum_cons, pairCount, letter_count_lower]
            omega
          · have read : letterCount letter ((byte :: tail).takeWhile (· ≠ chr ',')) +
                letterCount letter ((byte :: tail).dropWhile (· ≠ chr ',')) =
                  letterCount letter (byte :: tail) := by
              rw [← letter_count_append, List.takeWhile_append_dropWhile]
            have later := ih ((byte :: tail).dropWhile (· ≠ chr ','))
            rw [letter_count_cons letter byte tail] at read
            simp only [List.map_cons, List.sum_cons, pairCount, letter_count_lower]
            omega

theorem sum_at_most_once {Key : Type} [DecidableEq Key] (key : Key) (weight : Nat)
    {keys : List Key} (distinct : keys.Nodup) :
    (keys.map fun other => if key = other then weight else 0).sum ≤ weight := by
  induction keys with
  | nil => simp
  | cons head rest ih =>
      obtain ⟨fresh, distinct⟩ := List.nodup_cons.mp distinct
      rw [List.map_cons, List.sum_cons]
      by_cases same : key = head
      · have none : rest.map (fun other => if key = other then weight else 0) =
            rest.map fun _ => 0 := by
          apply List.map_congr_left
          intro other member
          rw [if_neg]
          rintro rfl
          exact fresh (same ▸ member)
        rw [if_pos same, none]
        simp
      · rw [if_neg same, Nat.zero_add]
        exact ih distinct

/-- Distinct keys, each looked up in a list, weigh no more than the list. -/
theorem found_budget {Key Value : Type} [DecidableEq Key] (weight : Key × Value → Nat)
    {keys : List Key} (distinct : keys.Nodup) (pairs : List (Key × Value)) :
    (keys.map fun key => ((pairs.find? (·.1 = key)).map weight).getD 0).sum ≤
      (pairs.map weight).sum := by
  induction pairs with
  | nil => simp
  | cons pair rest ih =>
      have once := sum_at_most_once pair.1 (weight pair) distinct
      have parts : (keys.map fun key =>
            (((pair :: rest).find? (·.1 = key)).map weight).getD 0).sum ≤
          (keys.map fun key => if pair.1 = key then weight pair else 0).sum +
            (keys.map fun key => ((rest.find? (·.1 = key)).map weight).getD 0).sum := by
        rw [← List.sum_map_add]
        apply List.sum_le_sum
        intro key _
        by_cases same : pair.1 = key
        · simp [same]
        · simp [same]
      rw [List.map_cons, List.sum_cons]
      omega

end Budget

section Overrun

variable {plain : Bytes} (free : chr '"' ∉ plain ∧ chr '\\' ∉ plain)

theorem quoted_escape (next : Byte) (rest : Bytes) :
    (quotedValue (chr '\\' :: next :: rest)).1 = next :: (quotedValue rest).1 := by
  rw [quotedValue, if_neg (by decide), if_pos rfl]

theorem quoted_byte {byte : Byte} (quote : byte ≠ chr '"') (escape : byte ≠ chr '\\') (next : Byte)
    (rest : Bytes) :
    (quotedValue (byte :: next :: rest)).1 = byte :: (quotedValue (next :: rest)).1 := by
  rw [quotedValue, if_neg quote, if_neg escape]

theorem quoted_end (rest : Bytes) : (quotedValue (chr '"' :: rest)).1 = [] := by
  cases rest with
  | nil => rfl
  | cons next others => rfl

/-- A byte that is read as it stands counts on both sides. -/
theorem letters_kept (letter byte : Byte) {rest taken : Bytes} {more : Nat}
    (counted : letterCount letter rest + more ≤ letterCount letter taken) :
    letterCount letter (byte :: rest) + more ≤ letterCount letter (byte :: taken) := by
  rw [letter_count_cons letter byte rest, letter_count_cons letter byte taken]
  omega

/-- The escape in front of a byte is not a letter. -/
theorem letters_escaped {letter : Byte} (isLetter : Letter letter) (next : Byte)
    {rest taken : Bytes} {more : Nat}
    (counted : letterCount letter rest + more ≤ letterCount letter taken) :
    letterCount letter (chr '\\' :: next :: rest) + more ≤ letterCount letter (next :: taken) := by
  obtain ⟨-, -, none, -⟩ := isLetter.syntax_count
  rw [letter_count_cons letter (chr '\\'), none, Nat.zero_add]
  exact letters_kept letter next counted

include free

theorem quoted_skips (more : Bytes) :
    quotedValue (plain ++ more) = (plain ++ (quotedValue more).1, (quotedValue more).2) := by
  induction plain with
  | nil => rfl
  | cons byte tail ih =>
      have later := ih ⟨fun member => free.1 (by simp [member]),
        fun member => free.2 (by simp [member])⟩
      have noQuote : byte ≠ chr '"' := fun same => free.1 (by simp [same])
      have noEscape : byte ≠ chr '\\' := fun same => free.2 (by simp [same])
      cases shape : tail ++ more with
      | nil =>
          obtain ⟨noTail, noMore⟩ := List.append_eq_nil_iff.mp shape
          simp [noTail, noMore, quotedValue, noQuote]
      | cons next others =>
          rw [List.cons_append, shape, quotedValue, if_neg noQuote, if_neg noEscape, ← shape, later]
          rfl

/-- A value that does not end at its own closing quote has an escape in front of it, and
takes in what stands behind. -/
theorem quoted_value_cases (more : Bytes) : ∀ value : Bytes,
    (chr '"' ∉ value ∧ chr '\\' ∉ value) ∨
      (quotedValue (value ++ chr '"' :: (plain ++ more))).1.length < value.length ∨
        ∀ letter, Letter letter → letterCount letter value + letterCount letter plain ≤
          letterCount letter (quotedValue (value ++ chr '"' :: (plain ++ more))).1
  | [] => by simp
  | [byte] => by
      by_cases quote : byte = chr '"'
      · right; left
        simp [quote, quotedValue]
      by_cases escape : byte = chr '\\'
      · right; right
        intro letter isLetter
        obtain ⟨-, -, none, -⟩ := isLetter.syntax_count
        have read : (quotedValue ([byte] ++ chr '"' :: (plain ++ more))).1 =
            chr '"' :: (plain ++ (quotedValue more).1) := by
          rw [escape, List.cons_append, List.nil_append, quoted_escape, quoted_skips free]
        rw [read, letter_count_cons letter (chr '"'), letter_count_append, escape, none]
        omega
      · left
        simp [Ne.symm quote, Ne.symm escape]
  | byte :: next :: rest => by
      by_cases quote : byte = chr '"'
      · right; left
        simp [quote, quotedValue]
      by_cases escape : byte = chr '\\'
      · have read : (quotedValue (byte :: next :: rest ++ chr '"' :: (plain ++ more))).1 =
            next :: (quotedValue (rest ++ chr '"' :: (plain ++ more))).1 := by
          rw [escape, List.cons_append, List.cons_append, quoted_escape]
        rw [read]
        right
        rcases quoted_value_cases more rest with clear | short | overrun
        · left
          rw [quoted_value_plain clear.1 clear.2]
          simp
        · left
          simp only [List.length_cons]
          omega
        · right
          intro letter isLetter
          rw [escape]
          exact letters_escaped isLetter next (overrun letter isLetter)
      · have read : (quotedValue (byte :: next :: rest ++ chr '"' :: (plain ++ more))).1 =
            byte :: (quotedValue (next :: rest ++ chr '"' :: (plain ++ more))).1 := by
          rw [List.cons_append, List.cons_append, quoted_byte quote escape]
        rw [read]
        rcases quoted_value_cases more (next :: rest) with clear | short | overrun
        · left
          simp only [List.mem_cons, not_or] at clear ⊢
          exact ⟨⟨Ne.symm quote, clear.1⟩, Ne.symm escape, clear.2⟩
        · right; left
          simp only [List.length_cons] at short ⊢
          omega
        · right; right
          intro letter isLetter
          exact letters_kept letter byte (overrun letter isLetter)

/-- A quoted value without a closing quote of its own ends inside, or takes in what stands
behind. -/
theorem open_value_cases (nonempty : plain ≠ []) (more : Bytes) : ∀ value : Bytes,
    (quotedValue (value ++ (plain ++ more))).1.length ≤ value.length ∨
      ∀ letter, Letter letter → letterCount letter value + letterCount letter plain ≤
        letterCount letter (quotedValue (value ++ (plain ++ more))).1
  | [] => by
      right
      intro letter _
      rw [List.nil_append, quoted_skips free, letter_count_append, letter_count_nil]
      omega
  | [byte] => by
      by_cases quote : byte = chr '"'
      · left
        rw [quote, List.cons_append, quoted_end]
        simp
      right
      intro letter isLetter
      obtain ⟨-, -, none, -⟩ := isLetter.syntax_count
      obtain ⟨first, tail, rfl⟩ := List.exists_cons_of_ne_nil nonempty
      by_cases escape : byte = chr '\\'
      · have later : chr '"' ∉ tail ∧ chr '\\' ∉ tail :=
          ⟨fun member => free.1 (by simp [member]), fun member => free.2 (by simp [member])⟩
        rw [escape, List.cons_append, List.nil_append, List.cons_append, quoted_escape,
          quoted_skips later, letter_count_cons letter first tail,
          letter_count_cons letter first (tail ++ _), letter_count_append, none]
        omega
      · rw [List.cons_append, List.nil_append, List.cons_append, quoted_byte quote escape,
          ← List.cons_append, quoted_skips free, letter_count_cons letter byte (_ ++ _),
          letter_count_append]
        omega
  | byte :: next :: rest => by
      by_cases quote : byte = chr '"'
      · left
        rw [quote, List.cons_append, quoted_end]
        simp
      by_cases escape : byte = chr '\\'
      · have read : (quotedValue (byte :: next :: rest ++ (plain ++ more))).1 =
            next :: (quotedValue (rest ++ (plain ++ more))).1 := by
          rw [escape, List.cons_append, List.cons_append, quoted_escape]
        rw [read]
        rcases open_value_cases nonempty more rest with short | overrun
        · left
          simp only [List.length_cons]
          omega
        · right
          intro letter isLetter
          rw [escape]
          exact letters_escaped isLetter next (overrun letter isLetter)
      · have read : (quotedValue (byte :: next :: rest ++ (plain ++ more))).1 =
            byte :: (quotedValue (next :: rest ++ (plain ++ more))).1 := by
          rw [List.cons_append, List.cons_append, quoted_byte quote escape]
        rw [read]
        rcases open_value_cases nonempty more (next :: rest) with short | overrun
        · left
          simp only [List.length_cons] at short ⊢
          omega
        · right
          intro letter isLetter
          exact letters_kept letter byte (overrun letter isLetter)

end Overrun

section Reread

theorem unquote_cases (value : Bytes) :
    unquote value = value ∨ value = chr '"' :: (unquote value ++ [chr '"']) := by
  unfold unquote
  split
  · rename_i quotes
    obtain ⟨long, first, last⟩ := quotes
    right
    obtain ⟨tail, rfl⟩ := List.head?_eq_some_iff.mp first
    cases tail with
    | nil => simp at long
    | cons next rest =>
        rw [List.getLast?_cons_cons] at last
        obtain ⟨middle, same⟩ := List.getLast?_eq_some_iff.mp last
        simp [same, substr]
  · exact Or.inl rfl

theorem unquote_length (value : Bytes) : (unquote value).length ≤ value.length := by
  rcases unquote_cases value with same | quoted
  · rw [same]
  · have length := congrArg List.length quoted
    simp only [List.length_cons, List.length_append, List.length_nil] at length
    omega

theorem unquote_count {letter : Byte} (isLetter : Letter letter) (value : Bytes) :
    letterCount letter (unquote value) = letterCount letter value := by
  rcases unquote_cases value with same | quoted
  · rw [same]
  · obtain ⟨quote, -⟩ := isLetter.syntax_count
    have counted := congrArg (letterCount letter) quoted
    rw [letter_count_cons, letter_count_append, quote] at counted
    omega

/-- A key that a value cannot run into without taking up letters. -/
def Spelled (key : Bytes) : Prop :=
  (chr '"' ∉ key ∧ chr '\\' ∉ key) ∧ ∃ letter, Letter letter ∧ letterCount letter key ≠ 0

theorem continued_cons (pair : PrintedPair) (others : List PrintedPair) :
    ∃ more, continued (pair :: others) = chr ',' :: (pair.key ++ [chr '=']) ++ more := by
  cases pair with
  | quoted key value => exact ⟨_, by simp [continued, PrintedPair.bytes, PrintedPair.key]; rfl⟩
  | plain key value => exact ⟨_, by simp [continued, PrintedPair.bytes, PrintedPair.key]; rfl⟩

theorem Spelled.free {key : Bytes} (spelled : Spelled key) :
    chr '"' ∉ chr ',' :: (key ++ [chr '=']) ∧ chr '\\' ∉ chr ',' :: (key ++ [chr '=']) := by
  obtain ⟨⟨quote, escape⟩, -⟩ := spelled
  simp only [List.mem_cons, List.mem_append, List.not_mem_nil, or_false, not_or]
  exact ⟨⟨by decide, quote, by decide⟩, by decide, escape, by decide⟩

/-- A value that took in the next key is not the value that was written. -/
theorem Spelled.not_overrun {key value read : Bytes} (spelled : Spelled key)
    (overrun : ∀ letter, Letter letter → letterCount letter value +
      letterCount letter (chr ',' :: (key ++ [chr '='])) ≤ letterCount letter read) :
    unquote read ≠ value := by
  intro same
  obtain ⟨-, letter, isLetter, counted⟩ := spelled
  have more := overrun letter isLetter
  rw [letter_count_cons, letter_count_append, ← unquote_count isLetter read, same] at more
  omega

theorem take_while_shorter {value : Bytes} (comma : chr ',' ∈ value) (rest : Bytes) :
    ((value ++ rest).takeWhile (· ≠ chr ',')).length < value.length := by
  induction value with
  | nil => cases comma
  | cons byte tail ih =>
      rw [List.cons_append, List.takeWhile_cons]
      split
      · rename_i different
        have later : chr ',' ∈ tail := by
          rcases List.mem_cons.mp comma with same | member
          · simp [← same] at different
          · exact member
        simpa using ih later
      · simp

section Faithful

variable {next : PrintedPair} (spelled : Spelled next.key) (others : List PrintedPair)

include spelled

theorem quoted_faithful {value : Bytes}
    (same : unquote (quotedValue (value ++ chr '"' :: continued (next :: others))).1 = value) :
    chr '"' ∉ value ∧ chr '\\' ∉ value := by
  obtain ⟨more, behind⟩ := continued_cons next others
  rw [behind] at same
  rcases quoted_value_cases spelled.free more value with clear | short | overrun
  · exact clear
  · have bound := unquote_length
      (quotedValue (value ++ chr '"' :: (chr ',' :: (next.key ++ [chr '=']) ++ more))).1
    rw [same] at bound
    exact absurd short (Nat.not_lt.mpr bound)
  · exact absurd same (spelled.not_overrun overrun)

theorem open_unfaithful (tail : Bytes) :
    unquote (quotedValue (tail ++ continued (next :: others))).1 ≠ chr '"' :: tail := by
  intro same
  obtain ⟨more, behind⟩ := continued_cons next others
  rw [behind] at same
  rcases open_value_cases spelled.free (List.cons_ne_nil _ _) more tail with short | overrun
  · have bound := unquote_length
      (quotedValue (tail ++ (chr ',' :: (next.key ++ [chr '=']) ++ more))).1
    rw [same, List.length_cons] at bound
    omega
  · refine absurd same (spelled.not_overrun fun letter isLetter => ?_)
    have counted := overrun letter isLetter
    obtain ⟨quote, -⟩ := isLetter.syntax_count
    rw [letter_count_cons letter (chr '"'), quote]
    omega

end Faithful

theorem unquoted_faithful {value rest : Bytes}
    (same : unquote ((value ++ rest).takeWhile (· ≠ chr ',')) = value) : chr ',' ∉ value := by
  intro comma
  have bound := unquote_length ((value ++ rest).takeWhile (· ≠ chr ','))
  have shorter := take_while_shorter comma rest
  rw [same] at bound
  exact absurd shorter (Nat.not_lt.mpr bound)

section Place

variable {between : Bytes} (separates : ∀ byte ∈ between, byte = chr ',') {pair next : PrintedPair}
  (keyed : pairKey pair.key = true) (spelled : Spelled next.key) (others : List PrintedPair)
  (fuel : Nat)

include separates keyed spelled

/-- A pair at its place: what is read there has the letters that were written, and if it is
the value itself, then the value needs no escape. -/
theorem parse_place :
    ∃ read remaining,
      parsePairsWith toLowerAscii (fuel + 1)
          (between ++ (pair.bytes ++ continued (next :: others))) =
        (toLowerAscii pair.key, read) :: parsePairsWith toLowerAscii fuel remaining ∧
      (∀ letter, Letter letter → letterCount letter read + letterCount letter remaining =
        letterCount letter pair.value + letterCount letter (continued (next :: others))) ∧
      (unquote read = pair.value → pair.Verbatim) := by
  cases pair with
  | quoted key value =>
      have named : pairKey key = true := keyed
      have shape : (PrintedPair.quoted key value).bytes ++ continued (next :: others) =
          key ++ chr '=' :: chr '"' :: (value ++ chr '"' :: continued (next :: others)) := by
        simp [PrintedPair.bytes]
      rw [shape, parse_quoted toLowerAscii separates named fuel]
      refine ⟨_, _, rfl, ?_, quoted_faithful spelled others⟩
      intro letter isLetter
      obtain ⟨quote, -⟩ := isLetter.syntax_count
      rw [quoted_value_count isLetter, letter_count_append, letter_count_cons letter (chr '"'),
        quote, Nat.zero_add]
      rfl
  | plain key value =>
      have named : pairKey key = true := keyed
      have shape : (PrintedPair.plain key value).bytes ++ continued (next :: others) =
          key ++ chr '=' :: (value ++ continued (next :: others)) := by
        simp [PrintedPair.bytes]
      rw [shape]
      by_cases quoted : value.head? = some (chr '"')
      · obtain ⟨tail, rfl⟩ := List.head?_eq_some_iff.mp quoted
        rw [List.cons_append, parse_quoted toLowerAscii separates named fuel]
        refine ⟨_, _, rfl, ?_, fun same => absurd same (open_unfaithful spelled others tail)⟩
        intro letter isLetter
        obtain ⟨quote, -⟩ := isLetter.syntax_count
        rw [quoted_value_count isLetter, letter_count_append, PrintedPair.value,
          letter_count_cons letter (chr '"'), quote, Nat.zero_add]
      · have unquoted : (value ++ continued (next :: others)).head? ≠ some (chr '"') := by
          cases value with
          | nil =>
              obtain ⟨more, behind⟩ := continued_cons next others
              rw [behind, List.nil_append, List.cons_append, List.head?_cons]
              decide
          | cons first rest => exact quoted
        rw [parse_unquoted toLowerAscii separates named fuel unquoted]
        refine ⟨_, _, rfl, ?_, fun same => ⟨quoted, unquoted_faithful same⟩⟩
        intro letter _
        rw [← letter_count_append, List.takeWhile_append_dropWhile, letter_count_append]
        rfl

end Place

/-- The last pair with the key, as the map of the source keeps it. -/
def lastValue (pairs : List (Bytes × Bytes)) (key : Bytes) : Option Bytes :=
  (pairs.reverse.find? (·.1 = key)).map Prod.snd

theorem pair_value_eq (pairs : List (Bytes × Bytes)) (key fallback : Bytes) :
    pairValue pairs key fallback = (lastValue pairs key).getD fallback := rfl

theorem last_value_append (front back : List (Bytes × Bytes)) (key : Bytes) :
    lastValue (front ++ back) key = (lastValue back key).or (lastValue front key) := by
  unfold lastValue
  rw [List.reverse_append, List.find?_append, Option.map_or]

theorem last_value_absent {pairs : List (Bytes × Bytes)} {key : Bytes}
    (absent : key ∉ pairs.map Prod.fst) : lastValue pairs key = none := by
  unfold lastValue
  rw [Option.map_eq_none_iff, List.find?_eq_none]
  intro pair member same
  exact absent (List.mem_map.mpr ⟨pair, List.mem_reverse.mp member, by simpa using same⟩)

/-- The pair is read back: its key is found, with its value. -/
def ReadBack (pairs : List (Bytes × Bytes)) (pair : PrintedPair) : Prop :=
  ∃ read, lastValue pairs pair.key = some read ∧ unquote read = pair.value

def Weightless (letter : Byte) (pair : PrintedPair) : Prop :=
  letterCount letter pair.key = 0 ∧ letterCount letter pair.value = 0

def printedCount (letter : Byte) (pair : PrintedPair) : Nat :=
  letterCount letter pair.key + letterCount letter pair.value

section Letters

variable {letter : Byte} (isLetter : Letter letter)

include isLetter

theorem continued_count (pairs : List PrintedPair) :
    letterCount letter (continued pairs) = (pairs.map (printedCount letter)).sum := by
  obtain ⟨quote, comma, -, equals⟩ := isLetter.syntax_count
  induction pairs with
  | nil => rfl
  | cons pair rest ih =>
      have here : letterCount letter pair.bytes = printedCount letter pair := by
        cases pair with
        | quoted key value =>
            change letterCount letter
              (key ++ ([chr '='] ++ ([chr '"'] ++ (value ++ [chr '"'])))) = _
            simp only [letter_count_append, quote, equals, Nat.zero_add, Nat.add_zero]
            rfl
        | plain key value =>
            change letterCount letter (key ++ ([chr '='] ++ value)) = _
            simp only [letter_count_append, equals, Nat.zero_add]
            rfl
      have shape : continued (pair :: rest) = chr ',' :: (pair.bytes ++ continued rest) := by
        simp [continued]
      rw [shape, letter_count_cons, comma, letter_count_append, here, ih, List.map_cons,
        List.sum_cons, Nat.zero_add]

/-- Pairs that are read back from a list have no more letters than the list. -/
theorem read_back_budget {wanted : List PrintedPair} (distinct : (wanted.map (·.key)).Nodup)
    {pairs : List (Bytes × Bytes)}
    (found : ∀ pair ∈ wanted, ReadBack pairs pair ∨ Weightless letter pair) :
    (wanted.map (printedCount letter)).sum ≤ (pairs.map (pairCount letter)).sum := by
  have looked := found_budget (pairCount letter) distinct pairs.reverse
  rw [List.map_reverse, List.sum_reverse, List.map_map] at looked
  refine le_trans (List.sum_le_sum ?_) looked
  intro pair member
  rcases found pair member with ⟨read, last, same⟩ | ⟨noKey, noValue⟩
  · obtain ⟨⟨key, value⟩, located, rfl⟩ := Option.map_eq_some_iff.mp last
    have keyed : key = pair.key := by simpa using List.find?_some located
    simp only [Function.comp_apply, located, Option.map_some, Option.getD_some, pairCount,
      printedCount, keyed, ← same, unquote_count isLetter]
    exact le_refl _
  · simp [printedCount, noKey, noValue]

/-- A pair that is misread at its place is not read back later: its key takes up letters. -/
theorem misread_stays {front : List (Bytes × Bytes)} {pair : PrintedPair}
    {after : List PrintedPair} {read remaining : Bytes} {fuel : Nat}
    (counted : letterCount letter read + letterCount letter remaining =
      letterCount letter pair.value + letterCount letter (continued after))
    (distinct : ((pair :: after).map (·.key)).Nodup)
    (fresh : ∀ other ∈ pair :: after, other.key ∉ front.map Prod.fst)
    (lettered : letterCount letter pair.key ≠ 0) (misread : unquote read ≠ pair.value)
    (found : ∀ other ∈ pair :: after, ReadBack (front ++ (pair.key, read) ::
      parsePairsWith toLowerAscii fuel remaining) other ∨ Weightless letter other) : False := by
  have later : ∀ other ∈ pair :: after,
      ReadBack (parsePairsWith toLowerAscii fuel remaining) other ∨ Weightless letter other := by
    intro other member
    refine (found other member).imp_left ?_
    rintro ⟨value, last, same⟩
    rw [last_value_append, last_value_absent (fresh other member), Option.or_none,
      ← List.singleton_append, last_value_append] at last
    cases behind : lastValue (parsePairsWith toLowerAscii fuel remaining) other.key with
    | some found =>
        rw [behind] at last
        cases last
        exact ⟨value, behind, same⟩
    | none =>
        rw [behind, Option.none_or] at last
        obtain ⟨only, located, rfl⟩ := Option.map_eq_some_iff.mp last
        have only_mem := List.mem_reverse.mp (List.mem_of_find?_eq_some located)
        obtain rfl := List.mem_singleton.mp only_mem
        have keyed : pair.key = other.key := by simpa using List.find?_some located
        rcases List.mem_cons.mp member with here | behind
        · exact absurd (here ▸ same) misread
        · have unique := (List.nodup_cons.mp distinct).1
          exact absurd (List.mem_map.mpr ⟨other, behind, keyed.symm⟩) unique
  have budget := read_back_budget isLetter distinct later
  have bound := parse_budget isLetter fuel remaining
  rw [continued_count isLetter] at counted
  rw [List.map_cons, List.sum_cons, printedCount] at budget
  omega

end Letters

def printed : List PrintedPair → Bytes
  | [] => []
  | pair :: rest => pair.bytes ++ continued rest

theorem continued_append (front back : List PrintedPair) :
    continued (front ++ back) = continued front ++ continued back :=
  List.flatMap_append

/-- The parser comes to a pair at its place if the pairs in front are read as they stand. -/
theorem parse_printed_before {before : List PrintedPair}
    (verbatim : ∀ pair ∈ before, pairKey pair.key = true ∧ pair.Verbatim) (pair : PrintedPair)
    (after : List PrintedPair) :
    ∃ between fuel, (∀ byte ∈ between, byte = chr ',') ∧
      parsePairs toLowerAscii (printed (before ++ pair :: after)) =
        before.map (·.parsed toLowerAscii) ++
          parsePairsWith toLowerAscii (fuel + 1) (between ++ (pair.bytes ++ continued after)) := by
  cases before with
  | nil => exact ⟨[], _, by simp, rfl⟩
  | cons first middle =>
      obtain ⟨keyed, free⟩ := verbatim first (by simp)
      have others : ∀ other ∈ middle, pairKey other.key = true ∧ other.Verbatim :=
        fun other member => verbatim other (by simp [member])
      have nothing : ∀ byte ∈ ([] : Bytes), byte = chr ',' := by simp
      have whole : printed (first :: middle ++ pair :: after) =
          [] ++ (first.bytes ++ (continued middle ++ continued (pair :: after))) := by
        rw [List.nil_append, ← continued_append]
        rfl
      have boundary : continued middle ++ continued (pair :: after) = [] ∨
          (continued middle ++ continued (pair :: after)).head? = some (chr ',') := by
        rw [← continued_append]
        exact continued_head _
      have front := continued_length middle
      have back := continued_length (pair :: after)
      have long : middle.length + 1 ≤ (printed (first :: middle ++ pair :: after)).length := by
        rw [whole, List.length_append, List.length_append, List.length_append]
        rw [List.length_cons] at back
        omega
      obtain ⟨spare, enough⟩ := Nat.exists_eq_add_of_le long
      rw [Nat.add_assoc, Nat.add_comm 1 spare] at enough
      refine ⟨[chr ','], spare, by simp, ?_⟩
      rw [parsePairs, enough, whole, parse_pair toLowerAscii nothing keyed free boundary,
        parse_continued toLowerAscii others (continued_head _)]
      simp [continued]

section Decide

variable (before others : List PrintedPair) (pair next : PrintedPair)

/-- A pair whose value the parser does get back is read at its place, as it stands. -/
theorem verbatim_of_read_back (letter : Byte) (isLetter : Letter letter)
    (keyed : ∀ other ∈ before ++ pair :: next :: others,
      pairKey other.key = true ∧ toLowerAscii other.key = other.key)
    (distinct : ((before ++ pair :: next :: others).map (·.key)).Nodup)
    (verbatim : ∀ other ∈ before, other.Verbatim) (spelled : Spelled next.key)
    (lettered : letterCount letter pair.key ≠ 0)
    (found : ∀ other ∈ before ++ pair :: next :: others,
      ReadBack (parsePairs toLowerAscii (printed (before ++ pair :: next :: others))) other ∨
        Weightless letter other) : pair.Verbatim := by
  have front : ∀ other ∈ before, pairKey other.key = true ∧ other.Verbatim :=
    fun other member => ⟨(keyed other (by simp [member])).1, verbatim other member⟩
  obtain ⟨between, fuel, separates, parsed⟩ :=
    parse_printed_before front pair (next :: others)
  obtain ⟨read, remaining, place, counted, own⟩ :=
    parse_place separates (keyed pair (by simp)).1 spelled others fuel
  rw [place, (keyed pair (by simp)).2] at parsed
  rw [parsed] at found
  rw [List.map_append, List.nodup_append] at distinct
  obtain ⟨-, behind, apart⟩ := distinct
  have fresh : ∀ other ∈ pair :: next :: others,
      other.key ∉ (before.map (·.parsed toLowerAscii)).map Prod.fst := by
    intro other member earlier
    rw [List.map_map, List.mem_map] at earlier
    obtain ⟨first, inside, same⟩ := earlier
    have lower : (first.parsed toLowerAscii).1 = first.key := by
      have folded := (keyed first (by simp [inside])).2
      cases first with
      | quoted key value => exact folded
      | plain key value => exact folded
    rw [Function.comp_apply, lower] at same
    exact apart _ (List.mem_map_of_mem inside) _ (List.mem_map_of_mem member) same
  by_contra escaped
  exact misread_stays isLetter (counted letter isLetter) behind fresh lettered
    (fun same => escaped (own same)) fun other member => found other (by simp [member])

end Decide

end Reread

end SimpleLdapd.Text
