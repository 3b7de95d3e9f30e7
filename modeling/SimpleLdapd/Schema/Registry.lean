import Mathlib.Algebra.Order.BigOperators.Group.List
import Mathlib.Algebra.Order.Group.Nat
import SimpleLdapd.Backend.Modify
import SimpleLdapd.Utils.Text

/-!
# Schema registry (`schema/registry.hpp`, `schema/registry.cpp`)

The registry as loading leaves it: the definitions in file order and the two
indexes from lower-case names to positions. A `std::set` of strings is a sorted
map without values, so the loops over one run in the order of the source. Of the
loader this module has what it does with a definition that is parsed.
-/

namespace SimpleLdapd

open Dn

inductive ObjectClassKind where
  | abstract
  | structural
  | auxiliary
  deriving DecidableEq

structure SchemaAttribute where
  names : List Bytes := []
  superior : Bytes := []
  valueSyntax : Bytes := []
  singleValue : Bool := false
  deriving DecidableEq

structure SchemaObjectClass where
  names : List Bytes := []
  superiors : List Bytes := []
  kind : ObjectClassKind := .structural
  must : List Bytes := []
  may : List Bytes := []
  deriving DecidableEq

structure SchemaRegistry where
  attributes : List SchemaAttribute := []
  objectClasses : List SchemaObjectClass := []
  attributeIndex : OrderedMap Bytes Nat := OrderedMap.empty
  objectClassIndex : OrderedMap Bytes Nat := OrderedMap.empty

abbrev StringSet := OrderedMap Bytes Unit

namespace Schema

def hasNonEmpty (entry : DirectoryEntry) (name : Bytes) : Bool :=
  match entry.findAttribute name with
  | none => false
  | some values => values.any fun value => value ≠ []

def syntaxOid (valueSyntax : Bytes) : Bytes := valueSyntax.takeWhile (· ≠ chr '{')

def isDigits (value : Bytes) (start : Nat) : Bool :=
  start < value.length && (value.drop start).all Text.isDigit

/-- `value.find("..") != std::string::npos`. -/
def hasDoubleDot : Bytes → Bool
  | first :: second :: rest =>
      (first = chr '.' && second = chr '.') || hasDoubleDot (second :: rest)
  | _ => false

def valueMatchesSyntax (valueSyntax value : Bytes) : Bool :=
  let oid := syntaxOid valueSyntax
  if oid = text "1.3.6.1.4.1.1466.115.121.1.27" then
    isDigits value (if value.head? = some (chr '-') then 1 else 0)
  else if oid = text "1.3.6.1.4.1.1466.115.121.1.7" then
    value = text "TRUE" || value = text "FALSE"
  else if oid = text "1.3.6.1.4.1.1466.115.121.1.12" then (findByte (chr '=') value).isSome
  else if oid = text "1.3.6.1.4.1.1466.115.121.1.38" then
    value ≠ [] && !hasDoubleDot value &&
      value.all fun byte => Text.isDigit byte || byte = chr '.'
  else if oid = text "1.3.6.1.4.1.1466.115.121.1.26" then value.all fun byte => byte.val ≤ 127
  else true

end Schema

namespace StringSet

def add (set : StringSet) (name : Bytes) : StringSet := set.insert name ()

def contains (set : StringSet) (name : Bytes) : Bool := (set.get? name).isSome

def addAll (set : StringSet) (names : List Bytes) : StringSet :=
  names.foldl (fun built name => built.add (toLowerAscii name)) set

def items (set : StringSet) : List Bytes := set.entries.map Prod.fst

end StringSet

namespace SchemaRegistry

open Schema

variable (registry : SchemaRegistry)

def loaded : Bool := registry.objectClasses ≠ []

def findAttribute (name : Bytes) : Option SchemaAttribute :=
  (registry.attributeIndex.get? (toLowerAscii name)).bind fun index => registry.attributes[index]?

def findObjectClass (name : Bytes) : Option SchemaObjectClass :=
  (registry.objectClassIndex.get? (toLowerAscii name)).bind fun index =>
    registry.objectClasses[index]?

/-- The loop of `attributeSyntax` with `turns` turns left before `depth` reaches 32. -/
def attributeSyntaxFrom : Nat → SchemaAttribute → Option SchemaAttribute
  | 0, current => some current
  | turns + 1, current =>
      if current.valueSyntax = [] ∧ current.superior ≠ [] then
        match registry.findAttribute current.superior with
        | none => none
        | some superior => attributeSyntaxFrom turns superior
      else some current

def attributeSyntax (definition : SchemaAttribute) : Option SchemaAttribute :=
  registry.attributeSyntaxFrom 32 definition

/-- `indexAttribute` and `indexObjectClass`. -/
def indexNames (index : OrderedMap Bytes Nat) (position : Nat) (names : List Bytes) :
    OrderedMap Bytes Nat :=
  names.foldl (fun built name => built.insert (toLowerAscii name) position) index

/-- What `loadFile` does with a parsed attribute definition. -/
def addAttribute (definition : SchemaAttribute) : SchemaRegistry :=
  { registry with
    attributes := registry.attributes ++ [definition]
    attributeIndex :=
      indexNames registry.attributeIndex registry.attributes.length definition.names }

def addObjectClass (objectClass : SchemaObjectClass) : SchemaRegistry :=
  { registry with
    objectClasses := registry.objectClasses ++ [objectClass]
    objectClassIndex :=
      indexNames registry.objectClassIndex registry.objectClasses.length objectClass.names }

/-- The registries that loading definitions one after the other leaves. -/
inductive Built : SchemaRegistry → Prop where
  | empty : Built {}
  | addAttribute {registry : SchemaRegistry} (built : Built registry)
      (definition : SchemaAttribute) : Built (registry.addAttribute definition)
  | addObjectClass {registry : SchemaRegistry} (built : Built registry)
      (objectClass : SchemaObjectClass) : Built (registry.addObjectClass objectClass)

def superiorCount (index : Nat) : Nat :=
  (registry.objectClasses[index]?.map fun objectClass => objectClass.superiors.length).getD 0

/-- The superiors that the classes not seen yet could still push. -/
def pushable (seen : List Bytes) : Nat :=
  ((registry.objectClassIndex.entries.filter fun pair => pair.1 ∉ seen).map fun pair =>
    registry.superiorCount pair.2).sum

theorem pushable_visit {seen : List Bytes} {name : Bytes} {objectClass : SchemaObjectClass}
    (unseen : toLowerAscii name ∉ seen)
    (found : registry.findObjectClass name = some objectClass) :
    registry.pushable (toLowerAscii name :: seen) + objectClass.superiors.length ≤
      registry.pushable seen := by
  obtain ⟨index, indexed, stored⟩ := Option.bind_eq_some_iff.mp found
  have member := (OrderedMap.get_eq_some_iff _ _ _).mp indexed
  obtain ⟨before, after, split⟩ := List.append_of_mem member
  unfold pushable
  rw [split]
  simp only [List.filter_append, List.filter_cons, List.map_append, List.sum_append]
  have fewer (pairs : List (Bytes × Nat)) (weight : Bytes × Nat → Nat) :
      ((pairs.filter fun pair => pair.1 ∉ toLowerAscii name :: seen).map weight).sum ≤
        ((pairs.filter fun pair => pair.1 ∉ seen).map weight).sum := by
    apply List.Sublist.sum_le_sum
    · apply List.Sublist.map
      apply List.monotone_filter_right
      intro pair kept
      simp only [List.mem_cons, not_or, decide_eq_true_eq] at kept ⊢
      exact kept.2
    · intro value _
      exact Nat.zero_le value
  have fresh : decide (toLowerAscii name ∉ seen) = true := by simp [unseen]
  have counted : registry.superiorCount index = objectClass.superiors.length := by
    simp [superiorCount, stored]
  rw [if_neg (by simp), if_pos fresh, List.map_cons, List.sum_cons, counted]
  have left := fewer before fun pair => registry.superiorCount pair.2
  have right := fewer after fun pair => registry.superiorCount pair.2
  omega

/-- The loop of `collectObjectClasses`; the top of the stack `pending` is its
head. The answer is the classes, or the diagnostic. -/
def collectFrom (pending seen : List Bytes) (classes : List SchemaObjectClass) :
    Except Bytes (List SchemaObjectClass) :=
  match pending with
  | [] => .ok classes
  | name :: rest =>
      if _visited : toLowerAscii name ∈ seen then collectFrom rest seen classes
      else
        match _found : registry.findObjectClass name with
        | none => .error (text "unknown object class " ++ name)
        | some objectClass =>
            collectFrom (objectClass.superiors.reverse ++ rest) (toLowerAscii name :: seen)
              (classes ++ [objectClass])
  termination_by pending.length + registry.pushable seen
  decreasing_by
  · simp
  · have spent := registry.pushable_visit _visited _found
    simp only [List.length_append, List.length_reverse, List.length_cons]
    omega

def collectObjectClasses (names : List Bytes) : Except Bytes (List SchemaObjectClass) :=
  registry.collectFrom names.reverse [] []

/-- The sets that `validateEntry` fills from the classes of an entry. -/
structure ClassSets where
  structural : StringSet := OrderedMap.empty
  structuralSuperiors : StringSet := OrderedMap.empty
  allowed : StringSet := OrderedMap.empty
  required : StringSet := OrderedMap.empty

def primaryName (objectClass : SchemaObjectClass) : Bytes :=
  toLowerAscii (objectClass.names.headD [])

/-- The primary names of the structural direct superiors. -/
def structuralParents (objectClass : SchemaObjectClass) : List Bytes :=
  objectClass.superiors.filterMap fun superior =>
    match registry.findObjectClass superior with
    | some parent => if parent.kind = .structural then some (primaryName parent) else none
    | none => none

def collectSets (sets : ClassSets) (objectClass : SchemaObjectClass) : ClassSets :=
  let isStructural := objectClass.kind = .structural
  { structural :=
      if isStructural then sets.structural.add (primaryName objectClass) else sets.structural
    structuralSuperiors :=
      if isStructural then
        (registry.structuralParents objectClass).foldl StringSet.add sets.structuralSuperiors
      else sets.structuralSuperiors
    allowed := (sets.allowed.addAll objectClass.must).addAll objectClass.may
    required := sets.required.addAll objectClass.must }

def leaves (sets : ClassSets) : List Bytes :=
  sets.structural.items.filter fun name => !sets.structuralSuperiors.contains name

/-- The body of the loop over `entry.attributes`; `none` goes on to the next attribute. -/
def checkAttribute (allowed : StringSet) (name : Bytes) (values : List Bytes) :
    Option (ResultCode × Bytes) :=
  let key := toLowerAscii name
  if key = text "objectclass" then none
  else
    match registry.findAttribute name with
    | none => some (.undefinedAttributeType, text "undefined attribute type " ++ name)
    | some definition =>
        if !allowed.contains key then
          some (.objectClassViolation,
            text "attribute " ++ name ++ text " is not allowed by object class")
        else if definition.singleValue ∧ 1 < values.length then
          some (.constraintViolation, text "attribute " ++ name ++ text " is single-valued")
        else
          let source := (registry.attributeSyntax definition).getD definition
          if source.valueSyntax ≠ [] ∧
              values.any fun value => !valueMatchesSyntax source.valueSyntax value then
            some (.invalidAttributeSyntax, text "invalid syntax for " ++ name)
          else none

/-- The code and the diagnostic, which a success leaves empty. -/
def validateEntry (entry : DirectoryEntry) : ResultCode × Bytes :=
  if !registry.loaded then (.success, [])
  else
    match entry.findAttribute (text "objectClass") with
    | none | some [] => (.objectClassViolation, text "objectClass is required")
    | some names =>
        match registry.collectObjectClasses names with
        | .error diagnostic => (.objectClassViolation, diagnostic)
        | .ok classes =>
            let sets := classes.foldl registry.collectSets
              { allowed := StringSet.add OrderedMap.empty (text "objectclass") }
            if (leaves sets).length ≠ 1 then
              (.objectClassViolation,
                text "entry must have exactly one structural object class")
            else
              match sets.required.items.find? fun name => !hasNonEmpty entry name with
              | some name => (.objectClassViolation, text "missing required attribute " ++ name)
              | none =>
                  (entry.attributes.entries.findSome? fun pair =>
                    registry.checkAttribute sets.allowed pair.1 pair.2).getD (.success, [])

theorem check_attribute_codes (allowed : StringSet) (name : Bytes) (values : List Bytes)
    {result : ResultCode × Bytes}
    (refused : registry.checkAttribute allowed name values = some result) :
    result.1 ∈ ResultCode.contentCodes := by
  unfold checkAttribute at refused
  simp only at refused
  repeat' split at refused
  all_goals cases refused
  all_goals dsimp only
  all_goals decide

theorem check_attributes_codes (allowed : StringSet) (pairs : List (Bytes × List Bytes)) :
    ((pairs.findSome? fun pair => registry.checkAttribute allowed pair.1 pair.2).getD
      (.success, [])).1 ∈ ResultCode.contentCodes := by
  cases result : pairs.findSome? fun pair => registry.checkAttribute allowed pair.1 pair.2 with
  | none => exact (by decide : ResultCode.success ∈ ResultCode.contentCodes)
  | some refusal =>
      obtain ⟨pair, _, refused⟩ := List.exists_of_findSome?_eq_some result
      exact registry.check_attribute_codes allowed pair.1 pair.2 refused

/-- Validation reports on the entry and nothing else. -/
theorem validate_entry_codes (entry : DirectoryEntry) :
    (registry.validateEntry entry).1 ∈ ResultCode.contentCodes := by
  have violation : ResultCode.objectClassViolation ∈ ResultCode.contentCodes := by decide
  unfold validateEntry
  split
  · exact (by decide : ResultCode.success ∈ ResultCode.contentCodes)
  · split
    · exact violation
    · exact violation
    · split
      · exact violation
      · simp only
        split
        · exact violation
        · split
          · exact violation
          · exact registry.check_attributes_codes _ _

/-- Validation reads the attributes only. -/
theorem validate_entry_dn (entry : DirectoryEntry) (dn : Bytes) :
    registry.validateEntry { entry with dn := dn } = registry.validateEntry entry := rfl

end SchemaRegistry

end SimpleLdapd
