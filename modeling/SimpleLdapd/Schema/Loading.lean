import SimpleLdapd.Schema.Aliases
import SimpleLdapd.Schema.Parser

/-!
# Loading schema files (`loadFile`, `loadDirectory` in `schema/registry.cpp`)

Definitions are added to the registry as soon as they are parsed, so a file with a
malformed definition leaves those in front of it. What is not the keyword of a
definition is passed over, word by word or byte by byte. Whatever the files hold,
loading ends, and the registry it leaves is one that definitions were added to one
by one.
-/

namespace SimpleLdapd.SchemaRegistry

open Dn Schema Scanning SimpleLdapd.Schema.Parser

section Loading

/-- A turn of the loop of `loadFile`. -/
def loadTurn (registry : SchemaRegistry) (source : Bytes) :
    Turn Byte SchemaRegistry (Bool × SchemaRegistry) :=
  match skip source with
  | [] => .leave (true, registry)
  | byte :: rest =>
      match readWord.run (byte :: rest) with
      | none => .again registry rest
      | some (keyword, behind) =>
          if iequals keyword (text "attributetype") ||
              iequals keyword (text "attributetypes") then
            match parseAttribute.run behind with
            | none => .leave (false, registry)
            | some (definition, after) =>
                .again (registry.addAttribute definition.toSchemaAttribute) after
          else if iequals keyword (text "objectclass") ||
              iequals keyword (text "objectclasses") then
            match parseObjectClass.run behind with
            | none => .leave (false, registry)
            | some (definition, after) =>
                .again (registry.addObjectClass definition.toSchemaObjectClass) after
          else .again registry behind

variable {registry next : SchemaRegistry} {source rest : Bytes}

/-- What a turn can do to the registry. -/
inductive Extends (registry : SchemaRegistry) : SchemaRegistry → Prop where
  | same : Extends registry registry
  | attributeAdded (definition : SchemaAttribute) (named : definition.names ≠ []) :
      Extends registry (registry.addAttribute definition)
  | classAdded (definition : SchemaObjectClass) (named : definition.names ≠ []) :
      Extends registry (registry.addObjectClass definition)

theorem load_turn_again (taken : loadTurn registry source = .again next rest) :
    Extends registry next ∧ rest.length < source.length := by
  have bound := skip_length source
  unfold loadTurn at taken
  split at taken
  · cases taken
  · rename_i byte tail skipped
    rw [skipped] at bound
    split at taken
    · cases taken
      exact ⟨.same, bound⟩
    · rename_i keyword behind scanned
      have shorter := consumes_word _ _ _ scanned
      split at taken
      · split at taken
        · cases taken
        · rename_i definition after parsed
          cases taken
          have consumed := consumes_parse_definition _ _ _ _ _ _ parsed
          have named := parse_definition_named _ _ _ parsed
          exact ⟨.attributeAdded _ named, by omega⟩
      · split at taken
        · split at taken
          · cases taken
          · rename_i definition after parsed
            cases taken
            have consumed := consumes_parse_definition _ _ _ _ _ _ parsed
            have named := parse_definition_named _ _ _ parsed
            exact ⟨.classAdded _ named, by omega⟩
        · cases taken
          exact ⟨.same, by omega⟩

theorem load_turn_leave {outcome : Bool × SchemaRegistry}
    (taken : loadTurn registry source = .leave outcome) : outcome.2 = registry := by
  unfold loadTurn at taken
  repeat' split at taken
  all_goals cases taken
  all_goals rfl

def loadLoop : Loop Byte SchemaRegistry (Bool × SchemaRegistry) where
  turn := loadTurn
  consumes taken := (load_turn_again taken).2

/-- `loadFile` on the content of the file, which is missing if it cannot be opened. -/
def loadFile (registry : SchemaRegistry) (file : Option Bytes) : Bool × SchemaRegistry :=
  match file with
  | none => (false, registry)
  | some content => loadLoop.run registry (stripComments content)

/-- The calls of `loadFile` one after the other. -/
def loadFiles (registry : SchemaRegistry) (files : List (Option Bytes)) : SchemaRegistry :=
  files.foldl (fun registry file => (registry.loadFile file).2) registry

/-- `loadDirectory` on the contents of the files that it finds, in their order. -/
def loadDirectory (registry : SchemaRegistry) (files : List (Option Bytes)) :
    Bool × SchemaRegistry :=
  if files = [] then (false, registry)
  else
    files.foldl (fun state file =>
      let (loaded, registry) := state.2.loadFile file
      (loaded && state.1, registry)) (true, registry)

end Loading

section Soundness

variable {registry next : SchemaRegistry}

/-- What additions keep, loading keeps. -/
theorem load_file_keeps (Kept : SchemaRegistry → Prop)
    (step : ∀ registry next, Kept registry → Extends registry next → Kept next)
    (start : Kept registry) (file : Option Bytes) : Kept (registry.loadFile file).2 := by
  cases file with
  | none => exact start
  | some content =>
      apply loadLoop.run_keeps (fun registry _ => Kept registry) fun outcome => Kept outcome.2
      · intro registry source outcome taken kept
        rw [load_turn_leave taken]
        exact kept
      · intro registry source next rest taken kept
        exact step registry next kept (load_turn_again taken).1
      · exact start

theorem load_files_keeps (Kept : SchemaRegistry → Prop)
    (step : ∀ registry next, Kept registry → Extends registry next → Kept next)
    (start : Kept registry) (files : List (Option Bytes)) : Kept (registry.loadFiles files) := by
  induction files generalizing registry with
  | nil => exact start
  | cons file rest ih => exact ih (load_file_keeps Kept step start file)

/-- A definition that breaks off fails the load and leaves the one in front of it. -/
example : let file := text "attributetype ( 1 NAME 'cn' ) attributetype ( 2 NAME";
    (loadFile {} (some file)).1 = false ∧
      (loadFile {} (some file)).2.attributes = [{ names := [text "cn"] }] := by
  decide +kernel

theorem Built.extends (built : Built registry) (extended : Extends registry next) :
    Built next := by
  cases extended with
  | same => exact built
  | attributeAdded definition _ => exact built.addAttribute definition
  | classAdded definition _ => exact built.addObjectClass definition

/-- A registry that files were loaded into is built of definitions. -/
theorem load_files_built (files : List (Option Bytes)) : Built (loadFiles {} files) :=
  load_files_keeps Built (fun _ _ => Built.extends) .empty files

/-- Every definition has a name. -/
structure Named (registry : SchemaRegistry) : Prop where
  attributes : ∀ definition ∈ registry.attributes, definition.names ≠ []
  objectClasses : ∀ definition ∈ registry.objectClasses, definition.names ≠ []

theorem Named.extends (named : Named registry) (extended : Extends registry next) :
    Named next := by
  cases extended with
  | same => exact named
  | attributeAdded definition filled =>
      refine ⟨?_, named.objectClasses⟩
      exact List.forall_mem_append.mpr ⟨named.attributes, List.forall_mem_singleton.mpr filled⟩
  | classAdded definition filled =>
      refine ⟨named.attributes, ?_⟩
      exact List.forall_mem_append.mpr
        ⟨named.objectClasses, List.forall_mem_singleton.mpr filled⟩

theorem load_files_named (files : List (Option Bytes)) : Named (loadFiles {} files) :=
  load_files_keeps Named (fun _ _ => Named.extends) ⟨by simp, by simp⟩ files

end Soundness

section Positions

/-- Each position in an index is inside its vector, and the definition there has the key of
the position among its names. -/
def PositionsValid {Definition : Type} (names : Definition → List Bytes)
    (index : OrderedMap Bytes Nat) (definitions : List Definition) : Prop :=
  ∀ key position, index.get? key = some position →
    ∃ inside : position < definitions.length,
      names definitions[position] ≠ [] ∧ ∃ name ∈ names definitions[position],
        toLowerAscii name = key

theorem IndexSound.positions_valid {Definition : Type} {names : Definition → List Bytes}
    {index : OrderedMap Bytes Nat} {definitions : List Definition}
    (sound : IndexSound names index definitions) : PositionsValid names index definitions := by
  intro key position indexed
  obtain ⟨definition, stored, named⟩ := sound indexed
  obtain ⟨inside, rfl⟩ := List.getElem?_eq_some_iff.mp stored
  obtain ⟨name, listed, same⟩ := List.mem_map.mp named
  exact ⟨inside, List.ne_nil_of_mem listed, name, listed, same⟩

/-- What a lookup reads at a position of the index is there. -/
theorem IndexSound.lookup_none_iff {Definition : Type} {names : Definition → List Bytes}
    {index : OrderedMap Bytes Nat} {definitions : List Definition}
    (sound : IndexSound names index definitions) (key : Bytes) :
    ((index.get? key).bind fun position => definitions[position]?) = none ↔
      index.get? key = none := by
  cases indexed : index.get? key with
  | none => simp
  | some position =>
      obtain ⟨definition, stored, _⟩ := sound indexed
      simp [stored]

variable (registry : SchemaRegistry)

/-- No lookup reads outside the vectors, and `names.front()` is there wherever
`validateEntry` takes it. -/
structure LookupsInside : Prop where
  attributeIndex :
    PositionsValid SchemaAttribute.names registry.attributeIndex registry.attributes
  objectClassIndex :
    PositionsValid SchemaObjectClass.names registry.objectClassIndex registry.objectClasses
  findAttribute : ∀ name, registry.findAttribute name = none ↔
    registry.attributeIndex.get? (toLowerAscii name) = none
  findObjectClass : ∀ name, registry.findObjectClass name = none ↔
    registry.objectClassIndex.get? (toLowerAscii name) = none
  classFront : ∀ values classes, registry.collectObjectClasses values = .ok classes →
    ∀ objectClass ∈ classes, objectClass.names ≠ []
  parentFront : ∀ superior parent, registry.findObjectClass superior = some parent →
    parent.names ≠ []

variable {registry}

theorem Built.found_named (built : Built registry) {name : Bytes} {found : SchemaObjectClass}
    (located : registry.findObjectClass name = some found) : found.names ≠ [] := by
  obtain ⟨position, indexed, stored⟩ := Option.bind_eq_some_iff.mp located
  obtain ⟨definition, there, named⟩ := built.object_classes_indexed indexed
  rw [there] at stored
  cases stored
  obtain ⟨listed, member, _⟩ := List.mem_map.mp named
  exact List.ne_nil_of_mem member

theorem Built.lookups_inside (built : Built registry) : LookupsInside registry where
  attributeIndex := built.attributes_indexed.positions_valid
  objectClassIndex := built.object_classes_indexed.positions_valid
  findAttribute name := built.attributes_indexed.lookup_none_iff (toLowerAscii name)
  findObjectClass name := built.object_classes_indexed.lookup_none_iff (toLowerAscii name)
  classFront values classes collected objectClass listed := by
    obtain ⟨name, _, located⟩ := (mem_collected collected objectClass).mp listed
    exact built.found_named located
  parentFront _ _ located := built.found_named located

/-- The loops of the loader and of its parser end on every text, that of `loadFile` with the
outcome of the load. -/
structure LoadingEnds : Prop where
  nameList : (closedLoop nameItem).Terminates
  dollarList : (closedLoop dollarItem).Terminates
  parseAttribute : (closedLoop attributeItem).Terminates
  parseObjectClass : (closedLoop objectClassItem).Terminates
  loadFile : ∀ (registry : SchemaRegistry) (content : Bytes),
    ∃ turns ≤ (stripComments content).length + 1,
      loadLoop.Ends turns registry (stripComments content) (registry.loadFile (some content))

theorem loading_ends : LoadingEnds where
  nameList := (closedLoop nameItem).terminates
  dollarList := (closedLoop dollarItem).terminates
  parseAttribute := (closedLoop attributeItem).terminates
  parseObjectClass := (closedLoop objectClassItem).terminates
  loadFile registry content := loadLoop.ends registry (stripComments content)

/-- Loading files of any content, one after the other, ends and leaves sound indexes. -/
theorem loading_is_sound (files : List (Option Bytes)) :
    LoadingEnds ∧ LookupsInside (loadFiles {} files) ∧ Named (loadFiles {} files) :=
  ⟨loading_ends, (load_files_built files).lookups_inside, load_files_named files⟩

end Positions

end SimpleLdapd.SchemaRegistry
