import SimpleLdapd.Library.Scanning
import SimpleLdapd.Schema.Registry

/-!
# Schema file parser (`stripComments`, `Parser`, `parseAttribute`, `parseObjectClass`)

The parser of `schema/registry.cpp` with the rest of its text as its state. `peek`
skips blanks and stands for the end of the text with a NUL, so a NUL in the text
ends a list or a definition, too, and the closing parenthesis is then missed. Each
definition may give a field several times; the last one counts.
-/

namespace SimpleLdapd.Schema

open Dn Scanning

/-- The apostrophe. -/
def quoteMark : Byte := 0x27

/-- The loop of `stripComments`: a comment goes up to its line break. -/
def stripFrom (inQuote : Bool) : Bytes → Bytes
  | [] => []
  | byte :: rest =>
      if byte = quoteMark then byte :: stripFrom (!inQuote) rest
      else if inQuote = false ∧ byte = chr '#' then
        match _stripped : rest.dropWhile (· ≠ chr '\n') with
        | [] => []
        | _ :: behind => chr '\n' :: stripFrom inQuote behind
      else byte :: stripFrom inQuote rest
  termination_by source => source.length
  decreasing_by
  · simp
  · have shorter := (List.dropWhile_sublist (· ≠ chr '\n') (l := rest)).length_le
    rw [_stripped, List.length_cons] at shorter
    simp only [List.length_cons]
    omega
  · simp

def stripComments (source : Bytes) : Bytes := stripFrom false source

abbrev Parser := Scanner Byte

namespace Parser

def skip (source : Bytes) : Bytes := source.dropWhile Text.isSpace

def peek (source : Bytes) : Byte := (skip source).headD 0

def consume (expected : Byte) : Parser Unit := fun source =>
  if peek source ≠ expected then none else some ((), (skip source).tail)

/-- `std::isalnum` in the "C" locale. -/
def isAlnum (byte : Byte) : Bool :=
  Text.isDigit byte || (65 ≤ byte.val && byte.val ≤ 90) || (97 ≤ byte.val && byte.val ≤ 122)

def startsWord (byte : Byte) : Bool :=
  isAlnum byte || byte = chr '.' || byte = chr '-' || byte = chr '{'

def isWordByte (byte : Byte) : Bool := startsWord byte || byte = chr '}' || byte = chr '_'

def readQuoted : Parser Bytes := fun source =>
  match skip source with
  | [] => none
  | byte :: rest =>
      if byte ≠ quoteMark then none
      else
        match rest.dropWhile (· ≠ quoteMark) with
        | [] => none
        | _ :: behind => some (rest.takeWhile (· ≠ quoteMark), behind)

def readWord : Parser Bytes := fun source =>
  match skip source with
  | [] => none
  | first :: rest =>
      if !startsWord first then none
      else
        let word := (first :: rest).takeWhile isWordByte
        if word = [] then none else some (word, (first :: rest).dropWhile isWordByte)

/-- The branch on the next byte that is no blank. -/
def ifPeek {Value : Type} (byte : Byte) (yes no : Parser Value) : Parser Value := fun source =>
  if peek source = byte then yes.run source else no.run source

def readName : Parser Bytes := ifPeek quoteMark readQuoted readWord

section Progress

variable {Value : Type}

theorem skip_length (source : Bytes) : (skip source).length ≤ source.length :=
  (List.dropWhile_sublist _).length_le

theorem consumes_consume {expected : Byte} (printed : expected ≠ 0) :
    Consumes (consume expected) := by
  intro source value rest scanned
  have bound := skip_length source
  change (if peek source ≠ expected then none else some ((), (skip source).tail)) = _ at scanned
  split at scanned
  · cases scanned
  · rename_i found
    rw [not_not, peek] at found
    cases scanned
    cases skipped : skip source with
    | nil =>
        rw [skipped] at found
        exact absurd found.symm printed
    | cons byte behind =>
        rw [skipped, List.length_cons] at bound
        exact bound

theorem consumes_quoted : Consumes readQuoted := by
  intro source value rest scanned
  have bound := skip_length source
  unfold readQuoted StateT.run at scanned
  beta_reduce at scanned
  split at scanned
  · cases scanned
  · rename_i byte inner skipped
    rw [skipped, List.length_cons] at bound
    split at scanned
    · cases scanned
    · split at scanned
      · cases scanned
      · rename_i mark behind found
        cases scanned
        have shorter := (List.dropWhile_sublist (· ≠ quoteMark) (l := inner)).length_le
        rw [found, List.length_cons] at shorter
        omega

theorem consumes_word : Consumes readWord := by
  intro source value rest scanned
  have bound := skip_length source
  unfold readWord StateT.run at scanned
  beta_reduce at scanned
  split at scanned
  · cases scanned
  · rename_i first inner skipped
    rw [skipped, List.length_cons] at bound
    split at scanned
    · cases scanned
    · rename_i starts
      have wordByte : isWordByte first = true := by
        simp only [Bool.not_eq_true', Bool.not_eq_false] at starts
        simp [isWordByte, starts]
      simp only at scanned
      split at scanned
      · cases scanned
      · cases scanned
        have shorter := (List.dropWhile_sublist isWordByte (l := inner)).length_le
        rw [List.dropWhile_cons_of_pos wordByte]
        omega

theorem consumes_if_peek {byte : Byte} {yes no : Parser Value} (consumesYes : Consumes yes)
    (consumesNo : Consumes no) : Consumes (ifPeek byte yes no) := by
  intro source value rest scanned
  unfold ifPeek at scanned
  change (if peek source = byte then yes.run source else no.run source) = _ at scanned
  split at scanned
  · exact consumesYes source value rest scanned
  · exact consumesNo source value rest scanned

theorem consumes_name : Consumes readName := consumes_if_peek consumes_quoted consumes_word

end Progress

def atClosing (source : Bytes) : Bool := peek source = chr ')' || peek source = 0

/-- The loops over `peek() != ')' && peek() != '\0'` with the `consume(')')` behind them. -/
def closedLoop {State : Type} (item : Item Byte State) :
    Loop Byte State (Option (State × Bytes)) :=
  Loop.items atClosing (consume (chr ')')) item

def untilClosed {State : Type} (item : Item Byte State) (state : State) : Parser State :=
  fun source => (closedLoop item).run state source

def nameItem : Item Byte (List Bytes) where
  read names := do
    let name ← readName
    pure (names ++ [name])
  consumes _ := consumes_name.bind fun _ => shortens_pure _

/-- A `$` between two names is passed over wherever it stands. -/
def dollarItem : Item Byte (List Bytes) where
  read names :=
    ifPeek (chr '$')
      (do
        consume (chr '$')
        pure names)
      (nameItem.read names)
  consumes names := by
    apply consumes_if_peek
    · exact (consumes_consume (by decide)).bind fun _ => shortens_pure names
    · exact nameItem.consumes names

/-- A list in parentheses, or a single name. -/
def readList (item : Item Byte (List Bytes)) : Parser (List Bytes) :=
  ifPeek (chr '(')
    (do
      consume (chr '(')
      untilClosed item [])
    (do
      let name ← readName
      pure [name])

def readNameList : Parser (List Bytes) := readList nameItem

def readDollarList : Parser (List Bytes) := readList dollarItem

theorem shortens_until_closed {State : Type} (item : Item Byte State) (state : State) :
    Shortens (untilClosed item state) :=
  shortens_items (consumes_consume (by decide)).shortens state

theorem consumes_list (item : Item Byte (List Bytes)) : Consumes (readList item) := by
  apply consumes_if_peek
  · exact (consumes_consume (by decide)).bind fun _ => shortens_until_closed item []
  · exact consumes_name.bind fun name => shortens_pure [name]

end Parser

open SimpleLdapd.Schema.Parser

section Definitions

/-- `SchemaAttribute` with the fields that are parsed and never looked at again. -/
structure AttributeDefinition extends SchemaAttribute where
  oid : Bytes := []
  equality : Bytes := []

structure ObjectClassDefinition extends SchemaObjectClass where
  oid : Bytes := []

/-- What stands behind a keyword of an attribute definition. -/
def attributeClause (key : Bytes) (definition : AttributeDefinition) :
    Parser AttributeDefinition :=
  if iequals key (text "NAME") then do
    let names ← readNameList
    pure { definition with names := names }
  else if iequals key (text "DESC") then do
    let _ ← readQuoted
    pure definition
  else if iequals key (text "SUP") then do
    let superior ← readName
    pure { definition with superior := superior }
  else if iequals key (text "EQUALITY") then do
    let equality ← readWord
    pure { definition with equality := equality }
  else if iequals key (text "ORDERING") || iequals key (text "SUBSTR") ||
      iequals key (text "USAGE") then do
    let _ ← readWord
    pure definition
  else if iequals key (text "SYNTAX") then do
    let valueSyntax ← readWord
    pure { definition with valueSyntax := valueSyntax }
  else if iequals key (text "SINGLE-VALUE") then pure { definition with singleValue := true }
  else if iequals key (text "COLLECTIVE") || iequals key (text "NO-USER-MODIFICATION") ||
      iequals key (text "OBSOLETE") then
    pure definition
  else failure

def objectClassClause (key : Bytes) (objectClass : ObjectClassDefinition) :
    Parser ObjectClassDefinition :=
  if iequals key (text "NAME") then do
    let names ← readNameList
    pure { objectClass with names := names }
  else if iequals key (text "DESC") then do
    let _ ← readQuoted
    pure objectClass
  else if iequals key (text "SUP") then do
    let superiors ← readDollarList
    pure { objectClass with superiors := superiors }
  else if iequals key (text "MUST") then do
    let must ← readDollarList
    pure { objectClass with must := must }
  else if iequals key (text "MAY") then do
    let may ← readDollarList
    pure { objectClass with may := may }
  else if iequals key (text "ABSTRACT") then pure { objectClass with kind := .abstract }
  else if iequals key (text "STRUCTURAL") then pure { objectClass with kind := .structural }
  else if iequals key (text "AUXILIARY") then pure { objectClass with kind := .auxiliary }
  else if iequals key (text "OBSOLETE") then pure objectClass
  else failure

/-- A clause that reads one thing. -/
theorem shortens_clause {Value Definition : Type} {scanner : Parser Value}
    (consumes : Consumes scanner) (change : Value → Definition) :
    Shortens (do
      let value ← scanner
      pure (change value) : Parser Definition) :=
  consumes.shortens.bind fun value => shortens_pure (change value)

theorem shortens_attribute_clause (key : Bytes) (definition : AttributeDefinition) :
    Shortens (attributeClause key definition) := by
  unfold attributeClause
  apply Shortens.ite (shortens_clause (consumes_list _) _)
  apply Shortens.ite (shortens_clause consumes_quoted _)
  apply Shortens.ite (shortens_clause consumes_name _)
  apply Shortens.ite (shortens_clause consumes_word _)
  apply Shortens.ite (shortens_clause consumes_word _)
  apply Shortens.ite (shortens_clause consumes_word _)
  apply Shortens.ite (shortens_pure _)
  apply Shortens.ite (shortens_pure _)
  exact shortens_failure

theorem shortens_object_class_clause (key : Bytes) (objectClass : ObjectClassDefinition) :
    Shortens (objectClassClause key objectClass) := by
  unfold objectClassClause
  apply Shortens.ite (shortens_clause (consumes_list _) _)
  apply Shortens.ite (shortens_clause consumes_quoted _)
  apply Shortens.ite (shortens_clause (consumes_list _) _)
  apply Shortens.ite (shortens_clause (consumes_list _) _)
  apply Shortens.ite (shortens_clause (consumes_list _) _)
  apply Shortens.ite (shortens_pure _)
  apply Shortens.ite (shortens_pure _)
  apply Shortens.ite (shortens_pure _)
  apply Shortens.ite (shortens_pure _)
  exact shortens_failure

/-- A keyword and what stands behind it. -/
def clauseItem {Definition : Type} (clause : Bytes → Definition → Parser Definition)
    (shortens : ∀ key definition, Shortens (clause key definition)) : Item Byte Definition where
  read definition := do
    let key ← readWord
    clause key definition
  consumes definition := consumes_word.bind fun key => shortens key definition

def attributeItem : Item Byte AttributeDefinition :=
  clauseItem attributeClause shortens_attribute_clause

def objectClassItem : Item Byte ObjectClassDefinition :=
  clauseItem objectClassClause shortens_object_class_clause

/-- An OID and clauses in parentheses; without a name it is no definition. -/
def parseDefinition {Definition : Type} (item : Item Byte Definition)
    (start : Bytes → Definition) (names : Definition → List Bytes) : Parser Definition := do
  consume (chr '(')
  let oid ← readWord
  let definition ← untilClosed item (start oid)
  if names definition = [] then failure else pure definition

def parseAttribute : Parser AttributeDefinition :=
  parseDefinition attributeItem (fun oid => { oid := oid }) fun definition => definition.names

def parseObjectClass : Parser ObjectClassDefinition :=
  parseDefinition objectClassItem (fun oid => { oid := oid }) fun definition => definition.names

section Definition

variable {Definition : Type} (item : Item Byte Definition) (start : Bytes → Definition)
  (names : Definition → List Bytes)

theorem consumes_parse_definition : Consumes (parseDefinition item start names) := by
  apply (consumes_consume (by decide)).bind
  intro _
  apply consumes_word.shortens.bind
  intro oid
  apply (shortens_until_closed item (start oid)).bind
  intro definition
  exact Shortens.ite shortens_failure (shortens_pure definition)

/-- Every parsed definition has a name. -/
theorem parse_definition_named {source rest : Bytes} {definition : Definition}
    (parsed : (parseDefinition item start names).run source = some (definition, rest)) :
    names definition ≠ [] := by
  unfold parseDefinition at parsed
  obtain ⟨_, opened, _, parsed⟩ := bind_scanned parsed
  obtain ⟨oid, behind, _, parsed⟩ := bind_scanned parsed
  obtain ⟨last, closed, _, parsed⟩ := bind_scanned parsed
  split at parsed
  · cases parsed
  · rename_i named
    cases parsed
    exact named

end Definition

end Definitions

end SimpleLdapd.Schema
