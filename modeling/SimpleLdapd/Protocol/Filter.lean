import SimpleLdapd.Backend.Modify
import SimpleLdapd.Protocol.Ber
import SimpleLdapd.Utils.Text

/-!
# LDAP search filters (`protocol/filter.hpp`, `protocol/filter.cpp`)

The string parser, the matcher and the BER codec of a filter tree. A node keeps
the fields of the source's `FilterNode` whether its type uses them or not. The
parser walks the text as the suffix that `pos` points at.
-/

namespace SimpleLdapd

open Dn Ber
open Text (isSpace)

inductive FilterType where
  | and
  | or
  | not
  | equality
  | present
  | substring
  | true
  | false
  deriving DecidableEq

structure FilterNode where
  type : FilterType := .true
  attributeName : Bytes := []
  value : Bytes := []
  children : List FilterNode := []
  initial : Bytes := []
  any : List Bytes := []
  final : Bytes := []

namespace FilterNode

mutual

def decideEq : (left right : FilterNode) → Decidable (left = right)
  | ⟨type, name, value, children, initial, any, final⟩,
      ⟨type', name', value', children', initial', any', final'⟩ =>
      match decideEqList children children' with
      | isTrue same =>
          decidable_of_iff
            (type = type' ∧ name = name' ∧ value = value' ∧ initial = initial' ∧
              any = any' ∧ final = final')
            (by simp [same])
      | isFalse different => isFalse (by intro same; cases same; exact different rfl)

def decideEqList : (left right : List FilterNode) → Decidable (left = right)
  | [], [] => isTrue rfl
  | [], _ :: _ => isFalse (by simp)
  | _ :: _, [] => isFalse (by simp)
  | node :: rest, node' :: rest' =>
      match decideEq node node', decideEqList rest rest' with
      | isTrue head, isTrue tail => isTrue (by rw [head, tail])
      | isFalse head, _ => isFalse (by intro same; exact head (List.cons.inj same).1)
      | _, isFalse tail => isFalse (by intro same; exact tail (List.cons.inj same).2)

end

instance : DecidableEq FilterNode := decideEq

end FilterNode

/-- `text_`, `valid_` and `root_`. -/
structure SearchFilter where
  text : Bytes := []
  valid : Bool := false
  root : FilterNode := {}
  deriving DecidableEq

namespace Filter

def skipSpace (rest : Bytes) : Bytes := rest.dropWhile isSpace

def trimRight (value : Bytes) : Bytes := (value.reverse.dropWhile isSpace).reverse

/-- Splits at each `*` that no backslash precedes; the escape stays in the part. -/
def splitStars (current : Bytes) : Bytes → List Bytes
  | [] => [current]
  | [byte] => if byte = chr '*' then [current, []] else [current ++ [byte]]
  | byte :: next :: rest =>
      if byte = chr '\\' then splitStars (current ++ [byte, next]) rest
      else if byte = chr '*' then current :: splitStars [] (next :: rest)
      else splitStars (current ++ [byte]) (next :: rest)

def parseItem (rest : Bytes) : Option (FilterNode × Bytes) :=
  let stop : Byte → Bool := fun byte =>
    byte = chr '=' || byte = chr ')' || byte = chr '('
  let name := trimRight (rest.takeWhile fun byte => !stop byte)
  match rest.dropWhile fun byte => !stop byte with
  | [] => none
  | byte :: tail =>
      if byte ≠ chr '=' then none
      else
        let value := tail.takeWhile (· ≠ chr ')')
        let after := tail.dropWhile (· ≠ chr ')')
        if name = [] then none
        else if value = text "*" then some ({ type := .present, attributeName := name }, after)
        else
          let parts := splitStars [] value
          if parts.length = 1 then
            some ({ type := .equality, attributeName := name, value := value }, after)
          else
            some ({ type := .substring
                    attributeName := name
                    initial := parts.headD []
                    any := (parts.tail.dropLast).filter (· ≠ [])
                    final := parts.getLastD [] }, after)

mutual

/-- `parseFilter` at the suffix `rest`; the fuel bounds the nesting and the lists. -/
def parseFilter : Nat → Bytes → Option (FilterNode × Bytes)
  | 0, _ => none
  | fuel + 1, rest =>
      match skipSpace rest with
      | [] => none
      | opening :: body =>
          if opening ≠ chr '(' then none
          else
            match skipSpace body with
            | [] => none
            | operator :: operands =>
                let parsed :=
                  if operator = chr '&' then
                    match parseList fuel operands with
                    | some (child :: children, after) =>
                        some ({ type := .and, children := child :: children }, after)
                    | _ => none
                  else if operator = chr '|' then
                    match parseList fuel operands with
                    | some (child :: children, after) =>
                        some ({ type := .or, children := child :: children }, after)
                    | _ => none
                  else if operator = chr '!' then
                    match parseFilter fuel operands with
                    | some (child, after) => some ({ type := .not, children := [child] }, after)
                    | none => none
                  else parseItem (operator :: operands)
                match parsed with
                | none => none
                | some (node, after) =>
                    match skipSpace after with
                    | [] => none
                    | closing :: remaining =>
                        if closing ≠ chr ')' then none else some (node, remaining)

/-- The loop of `parseList`: children as long as the text goes on with `(`. -/
def parseList : Nat → Bytes → Option (List FilterNode × Bytes)
  | 0, _ => none
  | fuel + 1, rest =>
      if rest.head? ≠ some (chr '(') then some ([], rest)
      else
        match parseFilter fuel rest with
        | none => none
        | some (child, after) =>
            match parseList fuel after with
            | none => none
            | some (children, remaining) => some (child :: children, remaining)

end

/-- `SearchFilter::parse`. -/
def parse (source : Bytes) : SearchFilter :=
  match parseFilter (2 * source.length + 2) source with
  | none => { text := source }
  | some (root, rest) => { text := source, valid := skipSpace rest = [], root := root }

def present (name : Bytes) : SearchFilter where
  text := text "(" ++ name ++ text "=*)"
  valid := true
  root := { type := .present, attributeName := name }

def equality (name value : Bytes) : SearchFilter where
  text := text "(" ++ name ++ text "=" ++ value ++ text ")"
  valid := true
  root := { type := .equality, attributeName := name, value := value }

def all : SearchFilter where
  text := text "(objectClass=*)"
  valid := true
  root := { type := .true }

/-- `std::string::find(needle, position)`. -/
def findFrom (hay needle : Bytes) (position : Nat) : Option Nat :=
  (List.range (hay.length + 1)).find? fun index =>
    position ≤ index && needle.isPrefixOf (hay.drop index)

/-- The loop over `node.any`: the position after the last component found. -/
def findParts (hay : Bytes) : List Bytes → Nat → Option Nat
  | [], position => some position
  | part :: parts, position =>
      let needle := toLowerAscii part
      match findFrom hay needle position with
      | none => none
      | some found => findParts hay parts (found + needle.length)

def substringMatches (haystack : Bytes) (node : FilterNode) : Bool :=
  let hay := toLowerAscii haystack
  let initial := toLowerAscii node.initial
  if node.initial ≠ [] && !initial.isPrefixOf hay then false
  else
    match findParts hay node.any (if node.initial ≠ [] then initial.length else 0) with
    | none => false
    | some position =>
        let final := toLowerAscii node.final
        if node.final = [] then true
        else if hay.length < position + final.length then false
        else hay.drop (hay.length - final.length) = final

mutual

def nodeMatches (entry : DirectoryEntry) : FilterNode → Bool
  | ⟨type, name, value, children, initial, any, final⟩ =>
      match type with
      | .true => true
      | .false => false
      | .and => allMatch entry children
      | .or => anyMatches entry children
      | .not => children.length = 1 && !allMatch entry children
      | .present => (entry.findAttribute name).isSome
      | .equality =>
          match entry.findAttribute name with
          | none => false
          | some values => values.any fun stored => iequals stored value
      | .substring =>
          match entry.findAttribute name with
          | none => false
          | some values => values.any fun stored =>
              substringMatches stored ⟨type, name, value, children, initial, any, final⟩

/-- The loop of the `And` case. The `Not` case asks its only child through it. -/
def allMatch (entry : DirectoryEntry) : List FilterNode → Bool
  | [] => true
  | child :: rest => nodeMatches entry child && allMatch entry rest

def anyMatches (entry : DirectoryEntry) : List FilterNode → Bool
  | [] => false
  | child :: rest => nodeMatches entry child || anyMatches entry rest

end

section Congruence

variable {left right : DirectoryEntry}

mutual

/-- A filter sees an entry only through `findAttribute`. -/
theorem node_matches_congr (same : ∀ name, left.findAttribute name = right.findAttribute name) :
    (node : FilterNode) → nodeMatches left node = nodeMatches right node
  | ⟨type, name, value, children, initial, any, final⟩ => by
      have all := all_match_congr same children
      have some := any_matches_congr same children
      cases type <;> simp only [nodeMatches, same, all, some]

theorem all_match_congr (same : ∀ name, left.findAttribute name = right.findAttribute name) :
    (children : List FilterNode) → allMatch left children = allMatch right children
  | [] => rfl
  | child :: rest => by
      rw [allMatch, allMatch, node_matches_congr same child, all_match_congr same rest]

theorem any_matches_congr (same : ∀ name, left.findAttribute name = right.findAttribute name) :
    (children : List FilterNode) → anyMatches left children = anyMatches right children
  | [] => rfl
  | child :: rest => by
      rw [anyMatches, anyMatches, node_matches_congr same child, any_matches_congr same rest]

end

end Congruence

/-- The first attribute with this name has the value, both up to case. -/
def HasValue (entry : DirectoryEntry) (name value : Bytes) : Prop :=
  ∃ values, entry.findAttribute name = some values ∧
    ∃ stored ∈ values, iequals stored value = true

theorem node_matches_equality (entry : DirectoryEntry) (name value : Bytes) :
    nodeMatches entry { type := .equality, attributeName := name, value := value } = true ↔
      HasValue entry name value := by
  unfold HasValue
  rw [nodeMatches]
  cases entry.findAttribute name <;> simp

mutual

/-- The bytes `encodeNode` appends to its writer. -/
def encodeNode : FilterNode → Bytes
  | ⟨type, name, value, children, initial, any, final⟩ =>
      match type with
      | .and => writeConstructed kBerFilterAnd (encodeNodes children)
      | .or => writeConstructed kBerFilterOr (encodeNodes children)
      | .not => writeConstructed kBerFilterNot (encodeFront children)
      | .present => writeOctetStringAs kBerFilterPresent name
      | .equality =>
          writeConstructed kBerFilterEquality (writeOctetString name ++ writeOctetString value)
      | .substring =>
          let parts :=
            (if initial ≠ [] then writeOctetStringAs kBerSubstringInitial initial else []) ++
              any.flatMap (writeOctetStringAs kBerSubstringAny) ++
              (if final ≠ [] then writeOctetStringAs kBerSubstringFinal final else [])
          writeConstructed kBerFilterSubstrings
            (writeOctetString name ++ writeConstructed kBerSequence parts)
      | .true => writeOctetStringAs kBerFilterPresent (text "objectClass")
      | .false =>
          writeConstructed kBerFilterNot
            (writeOctetStringAs kBerFilterPresent (text "objectClass"))

def encodeNodes : List FilterNode → Bytes
  | [] => []
  | child :: rest => encodeNode child ++ encodeNodes rest

def encodeFront : List FilterNode → Bytes
  | [] => []
  | child :: _ => encodeNode child

end

/-- One turn of the component loop of `decodeNode`. -/
inductive SubstringPart where
  | initial (component : Bytes)
  | any (component : Bytes)
  | final (component : Bytes)
  | unknown

def readPart : Read SubstringPart := do
  let tag ← Read.peekTag
  if tag = kBerSubstringInitial then do
    let component ← readOctetStringAs kBerSubstringInitial
    pure (.initial component)
  else if tag = kBerSubstringAny then do
    let component ← readOctetStringAs kBerSubstringAny
    pure (.any component)
  else if tag = kBerSubstringFinal then do
    let component ← readOctetStringAs kBerSubstringFinal
    pure (.final component)
  else do
    skip
    pure .unknown

def assignPart (node : FilterNode) : SubstringPart → FilterNode
  | .initial component => { node with initial := component }
  | .any component => { node with any := node.any ++ [component] }
  | .final component => { node with final := component }
  | .unknown => node

def decodeNodeWith : Nat → Read FilterNode
  | 0 => Read.refuse
  | fuel + 1 => do
      let tag ← Read.peekTag
      if tag = kBerFilterAnd ∨ tag = kBerFilterOr then do
        let inner ← readConstructed tag
        let children ← Read.within inner do
          let children ← Read.whileMore (decodeNodeWith fuel)
          Read.requireOk
          pure children
        pure { type := if tag = kBerFilterAnd then .and else .or, children := children }
      else if tag = kBerFilterNot then do
        let inner ← readConstructed tag
        let child ← Read.within inner do
          let child ← decodeNodeWith fuel
          Read.requireOk
          pure child
        pure { type := .not, children := [child] }
      else if tag = kBerFilterPresent then do
        let name ← readOctetStringAs kBerFilterPresent
        pure { type := .present, attributeName := name }
      else if tag = kBerFilterEquality then do
        let inner ← readConstructed tag
        Read.within inner do
          let name ← readOctetString
          let value ← readOctetString
          Read.requireOk
          pure { type := .equality, attributeName := name, value := value }
      else if tag = kBerFilterSubstrings then do
        let inner ← readConstructed tag
        Read.within inner do
          let name ← readOctetString
          let parts ← readConstructed kBerSequence
          let components ← Read.within parts do
            let components ← Read.whileMore readPart
            Read.requireOk
            pure components
          Read.requireOk
          pure (components.foldl assignPart { type := .substring, attributeName := name })
      else Read.refuse

/-- `decodeNode`. A nested node lies in a shorter buffer, so the buffer bounds the depth. -/
def decodeNode : Read FilterNode :=
  ⟨fun reader => (decodeNodeWith (reader.data.length + 1)).run reader⟩

/-- The trees the BER codec is meant for; a field its type does not use is empty. -/
inductive ValidTree : FilterNode → Prop where
  | and (children : List FilterNode) (each : ∀ child ∈ children, ValidTree child) :
      ValidTree { type := .and, children := children }
  | or (children : List FilterNode) (each : ∀ child ∈ children, ValidTree child) :
      ValidTree { type := .or, children := children }
  | not (child : FilterNode) (only : ValidTree child) :
      ValidTree { type := .not, children := [child] }
  | present (name : Bytes) : ValidTree { type := .present, attributeName := name }
  | equality (name value : Bytes) :
      ValidTree { type := .equality, attributeName := name, value := value }
  | substring (name initial : Bytes) (any : List Bytes) (final : Bytes) :
      ValidTree { type := .substring, attributeName := name, initial := initial, any := any
                  final := final }

theorem encode_nodes_flat (children : List FilterNode) :
    encodeNodes children = children.flatMap encodeNode := by
  induction children with
  | nil => rfl
  | cons child rest ih => rw [encodeNodes, List.flatMap_cons, ih]

theorem encode_node_nonempty (node : FilterNode) : encodeNode node ≠ [] := by
  rcases node with ⟨type, name, value, children, initial, any, final⟩
  cases type <;>
    simp [encodeNode, writeConstructed, writeOctetStringAs, write_tagged_cons]

/-- The components of a substring node in the order `encodeNode` writes them. -/
def substringParts (initial : Bytes) (any : List Bytes) (final : Bytes) : List SubstringPart :=
  (if initial ≠ [] then [.initial initial] else []) ++ any.map .any ++
    (if final ≠ [] then [.final final] else [])

def encodePart : SubstringPart → Bytes
  | .initial component => writeOctetStringAs kBerSubstringInitial component
  | .any component => writeOctetStringAs kBerSubstringAny component
  | .final component => writeOctetStringAs kBerSubstringFinal component
  | .unknown => []

theorem encode_parts_flat (initial : Bytes) (any : List Bytes) (final : Bytes) :
    (if initial ≠ [] then writeOctetStringAs kBerSubstringInitial initial else []) ++
        any.flatMap (writeOctetStringAs kBerSubstringAny) ++
        (if final ≠ [] then writeOctetStringAs kBerSubstringFinal final else []) =
      (substringParts initial any final).flatMap encodePart := by
  have middle : (any.map SubstringPart.any).flatMap encodePart =
      any.flatMap (writeOctetStringAs kBerSubstringAny) := by
    rw [List.flatMap_map]
    rfl
  unfold substringParts
  rw [List.flatMap_append, List.flatMap_append, middle]
  by_cases noInitial : initial = [] <;> by_cases noFinal : final = [] <;>
    simp [noInitial, noFinal, encodePart]

theorem assign_any (node : FilterNode) (any : List Bytes) :
    (any.map SubstringPart.any).foldl assignPart node = { node with any := node.any ++ any } := by
  induction any generalizing node with
  | nil =>
      cases node
      simp
  | cons component rest ih => simp [assignPart, ih]

theorem assign_parts (name initial : Bytes) (any : List Bytes) (final : Bytes) :
    (substringParts initial any final).foldl assignPart
        { type := .substring, attributeName := name } =
      { type := .substring, attributeName := name, initial := initial, any := any
        final := final } := by
  unfold substringParts
  rw [List.foldl_append, List.foldl_append, assign_any]
  by_cases noInitial : initial = [] <;> by_cases noFinal : final = [] <;>
    simp [noInitial, noFinal, assignPart]

theorem reads_part (part : SubstringPart) (known : part ≠ .unknown)
    (bound : (encodePart part).length < 2 ^ 32) :
    Reads readPart (encodePart part) part ∧ encodePart part ≠ [] := by
  have content (tag : Byte) (component : Bytes)
      (small : (writeOctetStringAs tag component).length < 2 ^ 32) :
      Reads (readOctetStringAs tag) (writeOctetStringAs tag component) component :=
    reads_octet_string tag component (lt_trans (write_tagged_length tag component) small)
  cases part with
  | unknown => exact absurd rfl known
  | initial component =>
      refine ⟨?_, by simp [encodePart, writeOctetStringAs, write_tagged_cons]⟩
      apply reads_peek
      rw [if_pos rfl]
      exact reads_map (content _ _ bound) (reads_pure _)
  | any component =>
      refine ⟨?_, by simp [encodePart, writeOctetStringAs, write_tagged_cons]⟩
      apply reads_peek
      rw [if_neg (by decide), if_pos rfl]
      exact reads_map (content _ _ bound) (reads_pure _)
  | final component =>
      refine ⟨?_, by simp [encodePart, writeOctetStringAs, write_tagged_cons]⟩
      apply reads_peek
      rw [if_neg (by decide), if_neg (by decide), if_pos rfl]
      exact reads_map (content _ _ bound) (reads_pure _)

theorem parts_known {initial : Bytes} {any : List Bytes} {final : Bytes} {part : SubstringPart}
    (member : part ∈ substringParts initial any final) : part ≠ .unknown := by
  intro unknown
  subst unknown
  unfold substringParts at member
  by_cases noInitial : initial = [] <;> by_cases noFinal : final = [] <;>
    simp [noInitial, noFinal] at member

/-- A tagged block leaves fuel for its content. -/
theorem tagged_fuel {tag : Byte} {content : Bytes} {fuel : Nat}
    (enough : (writeTagged tag content).length ≤ fuel) :
    ∃ rest, fuel = rest + 1 ∧ content.length ≤ rest := by
  have inside := write_tagged_length tag content
  exact ⟨fuel - 1, by omega, by omega⟩

/-- The two list nodes share their layout; only the tag differs. -/
theorem reads_list_node {fuel : Nat} {children : List FilterNode} {tag : Byte}
    (kind : tag = kBerFilterAnd ∨ tag = kBerFilterOr)
    (enough : (writeTagged tag (encodeNodes children)).length ≤ fuel)
    (bound : (writeTagged tag (encodeNodes children)).length < 2 ^ 32)
    (each : ∀ child ∈ children, ∀ fuel, (encodeNode child).length ≤ fuel →
      (encodeNode child).length < 2 ^ 32 →
      Reads (decodeNodeWith fuel) (encodeNode child) child) :
    Reads (decodeNodeWith fuel) (writeConstructed tag (encodeNodes children))
      { type := if tag = kBerFilterAnd then .and else .or, children := children } := by
  have shorter := write_tagged_length tag (encodeNodes children)
  obtain ⟨fuel, rfl, inside⟩ := tagged_fuel enough
  have block : Finishes (Read.whileMore (decodeNodeWith fuel)) (encodeNodes children) children := by
    rw [encode_nodes_flat]
    apply while_more_finishes children
    intro child member
    have part := flat_map_length_le encodeNode member
    rw [← encode_nodes_flat] at part
    exact ⟨each child member fuel (by omega) (by omega), encode_node_nonempty child⟩
  apply reads_peek
  rw [if_pos kind]
  apply reads_map (reads_constructed tag _ (by omega))
  apply reads_map (reads_within (finishes_checked block))
  exact reads_pure _

theorem reads_equality_node (name value : Bytes)
    (bound : (writeOctetString name ++ writeOctetString value).length < 2 ^ 32) :
    Reads (do
        let inner ← readConstructed kBerFilterEquality
        Read.within inner do
          let name ← readOctetString
          let value ← readOctetString
          Read.requireOk
          pure ({ type := .equality, attributeName := name, value := value } : FilterNode))
      (writeConstructed kBerFilterEquality (writeOctetString name ++ writeOctetString value))
      { type := .equality, attributeName := name, value := value } := by
  have first := write_tagged_length kBerOctetString name
  have second := write_tagged_length kBerOctetString value
  have total := bound
  simp only [List.length_append, writeOctetString, writeOctetStringAs] at total
  apply reads_map (reads_constructed kBerFilterEquality _ bound)
  apply reads_within
  apply finishes_bind (reads_octet_string kBerOctetString name (by omega))
  apply finishes_then (reads_octet_string kBerOctetString value (by omega)).finishes
  apply finishes_then finishes_require_ok
  exact (reads_pure _).finishes

theorem reads_substring_node (name initial : Bytes) (any : List Bytes) (final : Bytes)
    (bound : (writeOctetString name ++ writeConstructed kBerSequence
      ((substringParts initial any final).flatMap encodePart)).length < 2 ^ 32) :
    Reads (do
        let inner ← readConstructed kBerFilterSubstrings
        Read.within inner do
          let name ← readOctetString
          let parts ← readConstructed kBerSequence
          let components ← Read.within parts do
            let components ← Read.whileMore readPart
            Read.requireOk
            pure components
          Read.requireOk
          pure (components.foldl assignPart { type := .substring, attributeName := name }))
      (writeConstructed kBerFilterSubstrings (writeOctetString name ++
        writeConstructed kBerSequence ((substringParts initial any final).flatMap encodePart)))
      { type := .substring, attributeName := name, initial := initial, any := any
        final := final } := by
  have first := write_tagged_length kBerOctetString name
  have second := write_tagged_length kBerSequence
    ((substringParts initial any final).flatMap encodePart)
  have total := bound
  simp only [List.length_append, writeOctetString, writeOctetStringAs, writeConstructed] at total
  have components : Finishes (Read.whileMore readPart)
      ((substringParts initial any final).flatMap encodePart)
      (substringParts initial any final) := by
    apply while_more_finishes
    intro part member
    have small := flat_map_length_le encodePart member
    exact reads_part part (parts_known member) (by omega)
  apply reads_map (reads_constructed kBerFilterSubstrings _ bound)
  apply reads_within
  apply finishes_bind (reads_octet_string kBerOctetString name (by omega))
  apply finishes_then (reads_constructed kBerSequence _ (by omega)).finishes
  apply finishes_then (reads_within (finishes_checked components)).finishes
  apply finishes_then finishes_require_ok
  rw [assign_parts]
  exact (reads_pure _).finishes

theorem decode_node_with_encode {node : FilterNode} (tree : ValidTree node) (fuel : Nat)
    (enough : (encodeNode node).length ≤ fuel) (bound : (encodeNode node).length < 2 ^ 32) :
    Reads (decodeNodeWith fuel) (encodeNode node) node := by
  induction tree generalizing fuel with
  | and children each ih => exact reads_list_node (Or.inl rfl) enough bound ih
  | or children each ih => exact reads_list_node (Or.inr rfl) enough bound ih
  | not child only ih =>
      have shorter := write_tagged_length kBerFilterNot (encodeNode child)
      change (writeTagged kBerFilterNot (encodeNode child)).length < 2 ^ 32 at bound
      obtain ⟨fuel, rfl, inside⟩ := tagged_fuel enough
      apply reads_peek
      rw [if_neg (by decide), if_pos rfl]
      apply reads_map (reads_constructed kBerFilterNot (encodeNode child) (by omega))
      apply reads_map (reads_within (finishes_checked (ih fuel inside (by omega)).finishes))
      exact reads_pure _
  | present name =>
      have shorter := write_tagged_length kBerFilterPresent name
      change (writeTagged kBerFilterPresent name).length < 2 ^ 32 at bound
      obtain ⟨fuel, rfl, _⟩ := tagged_fuel enough
      apply reads_peek
      rw [if_neg (by decide), if_neg (by decide), if_pos rfl]
      apply reads_map (reads_octet_string kBerFilterPresent name (by omega))
      exact reads_pure _
  | equality name value =>
      have shorter := write_tagged_length kBerFilterEquality
        (writeOctetString name ++ writeOctetString value)
      change (writeTagged kBerFilterEquality _).length < 2 ^ 32 at bound
      obtain ⟨fuel, rfl, _⟩ := tagged_fuel enough
      apply reads_peek
      rw [if_neg (by decide), if_neg (by decide), if_neg (by decide), if_pos rfl]
      exact reads_equality_node name value (by omega)
  | substring name initial any final =>
      have shorter := write_tagged_length kBerFilterSubstrings
        (writeOctetString name ++
          writeConstructed kBerSequence ((substringParts initial any final).flatMap encodePart))
      change (writeTagged kBerFilterSubstrings _).length < 2 ^ 32 at bound
      obtain ⟨fuel, rfl, _⟩ := tagged_fuel enough
      apply reads_peek
      rw [if_neg (by decide), if_neg (by decide), if_neg (by decide), if_neg (by decide),
        if_pos rfl]
      rw [encode_parts_flat] at bound
      have content := reads_substring_node name initial any final (by omega)
      rw [← encode_parts_flat] at content
      exact content

/-- `decodeNode` takes back exactly the bytes that `encodeNode` wrote. -/
theorem reads_node {node : FilterNode} (tree : ValidTree node)
    (bound : (encodeNode node).length < 2 ^ 32) : Reads decodeNode (encodeNode node) node := by
  intro before after
  have enough : (encodeNode node).length ≤
      (reading before (encodeNode node ++ after)).data.length + 1 := by
    simp only [reading, List.length_append]
    omega
  exact decode_node_with_encode tree _ enough bound before after

end Filter

namespace SearchFilter

/-- `SearchFilter::matches`. -/
def matchesEntry (filter : SearchFilter) (entry : DirectoryEntry) : Bool :=
  filter.valid && Filter.nodeMatches entry filter.root

theorem matches_congr (filter : SearchFilter) {left right : DirectoryEntry}
    (same : ∀ name, left.findAttribute name = right.findAttribute name) :
    filter.matchesEntry left = filter.matchesEntry right := by
  rw [matchesEntry, matchesEntry, Filter.node_matches_congr same]

def encodeBer (filter : SearchFilter) : Bytes :=
  if filter.valid then Filter.encodeNode filter.root
  else
    Filter.encodeNode { type := .present, attributeName := SimpleLdapd.text "objectClass" }

def decodeBer : Read SearchFilter := do
  let root ← Filter.decodeNode
  Read.requireOk
  pure { text := SimpleLdapd.text "(decoded)", valid := true, root := root }

theorem reads_filter {filter : SearchFilter} (valid : filter.valid = true)
    (tree : Filter.ValidTree filter.root) (bound : filter.encodeBer.length < 2 ^ 32) :
    Reads decodeBer filter.encodeBer
      { text := SimpleLdapd.text "(decoded)", valid := true, root := filter.root } := by
  rw [encodeBer, if_pos valid] at bound ⊢
  apply reads_map (Filter.reads_node tree bound)
  apply reads_map reads_require_ok
  exact reads_pure _

end SearchFilter

end SimpleLdapd
