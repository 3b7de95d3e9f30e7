import SimpleLdapd.Library.LeastClosure
import SimpleLdapd.Schema.Registry

/-!
# What validation means

The declarative reading of `validateEntry`: the classes of an entry are the least
set of names that holds its `objectClass` values and is closed under SUP, and the
checks speak about that set. The worklist of `collectObjectClasses` computes it in
some order, and the sets built from its classes do not depend on the order.
-/

namespace SimpleLdapd

open Dn

namespace SchemaRegistry

open Schema LeastClosure

variable (registry : SchemaRegistry)

section Meaning

/-- `superior` is named in the SUP of the class that `name` is defined as. -/
def Superior (name superior : Bytes) : Prop :=
  ∃ objectClass, registry.findObjectClass name = some objectClass ∧
    superior ∈ objectClass.superiors

/-- The least set of names that holds the values and is closed under SUP. -/
def NamedClass (values : List Bytes) : Bytes → Prop :=
  Generated registry.Superior fun name => name ∈ values

def ClassOf (values : List Bytes) (objectClass : SchemaObjectClass) : Prop :=
  ∃ name, registry.NamedClass values name ∧ registry.findObjectClass name = some objectClass

/-- `name` is the first NAME of a structural class of the set. -/
def StructuralName (values : List Bytes) (name : Bytes) : Prop :=
  ∃ objectClass, registry.ClassOf values objectClass ∧ objectClass.kind = .structural ∧
    primaryName objectClass = name

/-- `name` is the first NAME of a structural direct superior of such a class. -/
def SuperiorName (values : List Bytes) (name : Bytes) : Prop :=
  ∃ objectClass, registry.ClassOf values objectClass ∧ objectClass.kind = .structural ∧
    ∃ superior ∈ objectClass.superiors, ∃ parent,
      registry.findObjectClass superior = some parent ∧ parent.kind = .structural ∧
        primaryName parent = name

/-- `source` is the nearest definition on the SUP chain of `definition` that declares a
syntax, `links` links above it. -/
inductive DeclaresSyntax : Nat → SchemaAttribute → SchemaAttribute → Prop where
  | own {definition : SchemaAttribute} (declared : definition.valueSyntax ≠ []) :
      DeclaresSyntax 0 definition definition
  | above {links : Nat} {definition superior source : SchemaAttribute}
      (silent : definition.valueSyntax = []) (named : definition.superior ≠ [])
      (found : registry.findAttribute definition.superior = some superior)
      (rest : DeclaresSyntax links superior source) :
      DeclaresSyntax (links + 1) definition source

/-- No definition has to look further than `limit` links for its syntax. -/
def SyntaxWithin (limit : Nat) : Prop :=
  ∀ name definition links source, registry.findAttribute name = some definition →
    registry.DeclaresSyntax links definition source → links ≤ limit

/-- What an attribute other than `objectClass` has to satisfy. -/
structure AttributeFits (values : List Bytes) (name : Bytes) (stored : List Bytes)
    (definition : SchemaAttribute) : Prop where
  listed : ∃ objectClass, registry.ClassOf values objectClass ∧
    ∃ wanted ∈ objectClass.must ++ objectClass.may, toLowerAscii wanted = toLowerAscii name
  single : definition.singleValue = true → stored.length ≤ 1
  typed : ∀ links source, registry.DeclaresSyntax links definition source →
    ∀ value ∈ stored, valueMatchesSyntax source.valueSyntax value = true

/-- The entry satisfies the classes that the values name. -/
structure Satisfies (entry : DirectoryEntry) (values : List Bytes) : Prop where
  defined : ∀ name, registry.NamedClass values name →
    ∃ objectClass, registry.findObjectClass name = some objectClass
  structural : ∃! name, registry.StructuralName values name ∧ ¬registry.SuperiorName values name
  required : ∀ objectClass, registry.ClassOf values objectClass →
    ∀ wanted ∈ objectClass.must, ∃ pair ∈ entry.attributes.entries,
      toLowerAscii pair.1 = toLowerAscii wanted ∧ ∃ value ∈ pair.2, value ≠ []
  attributes : ∀ pair ∈ entry.attributes.entries, toLowerAscii pair.1 ≠ text "objectclass" →
    ∃ definition, registry.findAttribute pair.1 = some definition ∧
      registry.AttributeFits values pair.1 pair.2 definition

/-- The entry has an `objectClass` value and satisfies the classes its values name. -/
def Valid (entry : DirectoryEntry) : Prop :=
  ∃ pair ∈ entry.attributes.entries, toLowerAscii pair.1 = text "objectclass" ∧
    pair.2 ≠ [] ∧ registry.Satisfies entry pair.2

end Meaning

section Worklist

theorem find_object_class_congr {name other : Bytes}
    (same : toLowerAscii name = toLowerAscii other) :
    registry.findObjectClass name = registry.findObjectClass other := by
  unfold findObjectClass
  rw [same]

/-- The loop invariant of `collectObjectClasses`: what it holds belongs to the set, and
the visited names and the stack cover the set. -/
structure Progress (values pending seen : List Bytes) (classes : List SchemaObjectClass) :
    Prop where
  pendingNamed : ∀ name ∈ pending, registry.NamedClass values name
  classesNamed : ∀ objectClass ∈ classes, registry.ClassOf values objectClass
  visited : ∀ name, toLowerAscii name ∈ seen →
    ∃ objectClass ∈ classes, registry.findObjectClass name = some objectClass
  covers : Covers registry.Superior (fun name => name ∈ values)
    (fun name => toLowerAscii name ∈ seen) pending

variable {registry} {values pending seen : List Bytes} {classes : List SchemaObjectClass}

theorem progress_start (values : List Bytes) : registry.Progress values values.reverse [] [] where
  pendingNamed := fun _ listed => .seed (List.mem_reverse.mp listed)
  classesNamed := by simp
  visited := by simp
  covers := ⟨fun _ listed => Or.inr (List.mem_reverse.mpr listed), by simp⟩

theorem Progress.skip {name : Bytes}
    (progress : registry.Progress values (name :: pending) seen classes)
    (visited : toLowerAscii name ∈ seen) : registry.Progress values pending seen classes where
  pendingNamed := fun other listed =>
    progress.pendingNamed other (List.mem_cons_of_mem name listed)
  classesNamed := progress.classesNamed
  visited := progress.visited
  covers := progress.covers.skip visited

theorem Progress.visit {name : Bytes} {objectClass : SchemaObjectClass}
    (progress : registry.Progress values (name :: pending) seen classes)
    (found : registry.findObjectClass name = some objectClass) :
    registry.Progress values (objectClass.superiors.reverse ++ pending)
      (toLowerAscii name :: seen) (classes ++ [objectClass]) where
  pendingNamed := by
    intro other listed
    rcases List.mem_append.mp listed with superior | later
    · exact .step (progress.pendingNamed name List.mem_cons_self)
        ⟨objectClass, found, List.mem_reverse.mp superior⟩
    · exact progress.pendingNamed other (List.mem_cons_of_mem name later)
  classesNamed := by
    intro other listed
    rcases List.mem_append.mp listed with older | here
    · exact progress.classesNamed other older
    · rw [List.mem_singleton.mp here]
      exact ⟨name, progress.pendingNamed name List.mem_cons_self, found⟩
  visited := by
    intro other covered
    rcases List.mem_cons.mp covered with same | older
    · exact ⟨objectClass, by simp, by rw [registry.find_object_class_congr same, found]⟩
    · obtain ⟨earlier, listed, defined⟩ := progress.visited other older
      exact ⟨earlier, List.mem_append_left _ listed, defined⟩
  covers := by
    apply progress.covers.visit
    · intro other older
      exact List.mem_cons_of_mem _ older
    · exact List.mem_cons_self
    · intro origin target covered edge
      rcases List.mem_cons.mp covered with same | older
      · obtain ⟨other, defined, superior⟩ := edge
        rw [registry.find_object_class_congr same, found] at defined
        cases defined
        exact Or.inr (List.mem_reverse.mpr superior)
      · exact Or.inl older

/-- A result of the loop: the classes of the set, or a sign that one is undefined. -/
def Collects (registry : SchemaRegistry) (values : List Bytes) :
    Except Bytes (List SchemaObjectClass) → Prop
  | .ok classes =>
      (∀ name, registry.NamedClass values name →
        ∃ objectClass ∈ classes, registry.findObjectClass name = some objectClass) ∧
      ∀ objectClass ∈ classes, registry.ClassOf values objectClass
  | .error _ => ∃ name, registry.NamedClass values name ∧ registry.findObjectClass name = none

theorem collect_from_collects (progress : registry.Progress values pending seen classes) :
    registry.Collects values (registry.collectFrom pending seen classes) := by
  induction pending, seen, classes using SchemaRegistry.collectFrom.induct registry with
  | case1 seen classes =>
      rw [collectFrom]
      exact ⟨fun name named => progress.visited name (progress.covers.complete named),
        progress.classesNamed⟩
  | case2 seen classes name rest visited ih =>
      rw [collectFrom, dif_pos visited]
      exact ih (progress.skip visited)
  | case3 seen classes name rest fresh undefined =>
      rw [collectFrom, dif_neg fresh]
      split
      · exact ⟨name, progress.pendingNamed name List.mem_cons_self, undefined⟩
      · rename_i objectClass found
        rw [undefined] at found
        cases found
  | case4 seen classes name rest fresh objectClass found ih =>
      rw [collectFrom, dif_neg fresh]
      split
      · rename_i undefined
        rw [found] at undefined
        cases undefined
      · rename_i other again
        rw [found] at again
        cases again
        exact ih (progress.visit found)

theorem collects (registry : SchemaRegistry) (values : List Bytes) :
    registry.Collects values (registry.collectObjectClasses values) :=
  collect_from_collects (progress_start values)

theorem mem_collected (collected : registry.collectObjectClasses values = .ok classes)
    (objectClass : SchemaObjectClass) :
    objectClass ∈ classes ↔ registry.ClassOf values objectClass := by
  have result := registry.collects values
  rw [collected] at result
  constructor
  · exact result.2 objectClass
  · rintro ⟨name, named, found⟩
    obtain ⟨other, listed, again⟩ := result.1 name named
    rw [found] at again
    cases again
    exact listed

theorem collect_defined_iff (registry : SchemaRegistry) (values : List Bytes) :
    (∃ classes, registry.collectObjectClasses values = .ok classes) ↔
      ∀ name, registry.NamedClass values name →
        ∃ objectClass, registry.findObjectClass name = some objectClass := by
  have result := registry.collects values
  constructor
  · rintro ⟨classes, collected⟩ name named
    rw [collected] at result
    obtain ⟨objectClass, _, found⟩ := result.1 name named
    exact ⟨objectClass, found⟩
  · intro defined
    cases collected : registry.collectObjectClasses values with
    | ok classes => exact ⟨classes, rfl⟩
    | error diagnostic =>
        rw [collected] at result
        obtain ⟨name, named, undefined⟩ := result
        obtain ⟨objectClass, found⟩ := defined name named
        rw [undefined] at found
        cases found

end Worklist

section Sets

theorem contains_iff (set : StringSet) (name : Bytes) :
    set.contains name = true ↔ name ∈ set.items := by
  unfold StringSet.contains StringSet.items
  rw [Option.isSome_iff_exists, List.mem_map]
  constructor
  · rintro ⟨value, found⟩
    exact ⟨(name, value), (OrderedMap.get_eq_some_iff _ _ _).mp found, rfl⟩
  · rintro ⟨pair, member, same⟩
    exact ⟨pair.2, (OrderedMap.get_eq_some_iff _ _ _).mpr (same ▸ member)⟩

theorem ext_contains {left right : StringSet}
    (same : ∀ name, left.contains name = true ↔ right.contains name = true) : left = right := by
  apply OrderedMap.ext_mem
  intro ⟨name, _⟩
  have equal := same name
  simp only [contains_iff, StringSet.items, List.mem_map, Prod.exists, exists_and_right,
    exists_eq_right] at equal
  constructor
  · intro member
    obtain ⟨_, found⟩ := equal.mp ⟨_, member⟩
    exact found
  · intro member
    obtain ⟨_, found⟩ := equal.mpr ⟨_, member⟩
    exact found

theorem contains_empty (name : Bytes) :
    StringSet.contains OrderedMap.empty name = true ↔ False := by
  simp [contains_iff, StringSet.items, OrderedMap.empty]

theorem contains_add (set : StringSet) (name other : Bytes) :
    (set.add name).contains other = true ↔ set.contains other = true ∨ other = name := by
  unfold StringSet.contains StringSet.add
  rw [OrderedMap.get_insert]
  split
  · rename_i same
    simp [same]
  · rename_i different
    simp [different]

theorem contains_add_each (names : List Bytes) (set : StringSet) (other : Bytes) :
    (names.foldl StringSet.add set).contains other = true ↔
      set.contains other = true ∨ other ∈ names := by
  induction names generalizing set with
  | nil => simp
  | cons name rest ih => rw [List.foldl_cons, ih, contains_add, List.mem_cons, or_assoc]

theorem contains_add_all (names : List Bytes) (set : StringSet) (other : Bytes) :
    (set.addAll names).contains other = true ↔
      set.contains other = true ∨ ∃ name ∈ names, toLowerAscii name = other := by
  have folded : set.addAll names = (names.map toLowerAscii).foldl StringSet.add set := by
    rw [StringSet.addAll, List.foldl_map]
  rw [folded, contains_add_each, List.mem_map]

theorem mem_structural_parents (objectClass : SchemaObjectClass) (name : Bytes) :
    name ∈ registry.structuralParents objectClass ↔ ∃ superior ∈ objectClass.superiors,
      ∃ parent, registry.findObjectClass superior = some parent ∧ parent.kind = .structural ∧
        primaryName parent = name := by
  unfold structuralParents
  rw [List.mem_filterMap]
  apply exists_congr
  intro superior
  apply and_congr_right
  intro _
  cases registry.findObjectClass superior with
  | none => simp
  | some parent => by_cases structural : parent.kind = .structural <;> simp [structural]

/-- One of the sets, after the loop over the classes. -/
theorem contains_collected (read : ClassSets → StringSet) (adds : SchemaObjectClass → Bytes → Prop)
    (step : ∀ sets objectClass name,
      (read (registry.collectSets sets objectClass)).contains name = true ↔
        (read sets).contains name = true ∨ adds objectClass name)
    (classes : List SchemaObjectClass) (sets : ClassSets) (name : Bytes) :
    (read (classes.foldl registry.collectSets sets)).contains name = true ↔
      (read sets).contains name = true ∨ ∃ objectClass ∈ classes, adds objectClass name := by
  induction classes generalizing sets with
  | nil => simp
  | cons objectClass rest ih =>
      rw [List.foldl_cons, ih, step, List.exists_mem_cons_iff, or_assoc]

/-- The sets in front of the loop over the classes, and behind it. -/
def noSets : ClassSets := { allowed := StringSet.add OrderedMap.empty (text "objectclass") }

def setsOf (classes : List SchemaObjectClass) : ClassSets :=
  classes.foldl registry.collectSets noSets

variable (classes : List SchemaObjectClass) (name : Bytes)

theorem structural_contains : (registry.setsOf classes).structural.contains name = true ↔
    ∃ objectClass ∈ classes, objectClass.kind = .structural ∧ primaryName objectClass = name := by
  have collected := registry.contains_collected ClassSets.structural
    (fun objectClass name => objectClass.kind = .structural ∧
      primaryName objectClass = name)
  rw [setsOf, collected, noSets, contains_empty]
  · simp
  · intro sets objectClass name
    by_cases structural : objectClass.kind = .structural
    · simp [collectSets, structural, contains_add, @eq_comm _ name]
    · simp [collectSets, structural]

theorem superiors_contain : (registry.setsOf classes).structuralSuperiors.contains name = true ↔
    ∃ objectClass ∈ classes, objectClass.kind = .structural ∧
      name ∈ registry.structuralParents objectClass := by
  have collected := registry.contains_collected ClassSets.structuralSuperiors
    (fun objectClass name => objectClass.kind = .structural ∧
      name ∈ registry.structuralParents objectClass)
  rw [setsOf, collected, noSets, contains_empty]
  · simp
  · intro sets objectClass name
    by_cases structural : objectClass.kind = .structural
    · simp [collectSets, structural, contains_add_each]
    · simp [collectSets, structural]

theorem required_contains : (registry.setsOf classes).required.contains name = true ↔
    ∃ objectClass ∈ classes, ∃ wanted ∈ objectClass.must, toLowerAscii wanted = name := by
  have collected := registry.contains_collected ClassSets.required
    (fun objectClass name => ∃ wanted ∈ objectClass.must, toLowerAscii wanted = name)
  rw [setsOf, collected, noSets, contains_empty]
  · simp
  · intro sets objectClass name
    exact contains_add_all objectClass.must sets.required name

theorem allowed_contains : (registry.setsOf classes).allowed.contains name = true ↔
    name = text "objectclass" ∨ ∃ objectClass ∈ classes,
      ∃ wanted ∈ objectClass.must ++ objectClass.may, toLowerAscii wanted = name := by
  have collected := registry.contains_collected ClassSets.allowed
    (fun objectClass name => ∃ wanted ∈ objectClass.must ++ objectClass.may,
      toLowerAscii wanted = name)
  rw [setsOf, collected, noSets, contains_add, contains_empty]
  · simp
  · intro sets objectClass name
    rw [collectSets, contains_add_all, contains_add_all, or_assoc]
    simp only [List.mem_append, or_and_right, exists_or]

/-- The loop over the classes sees them as a set. -/
theorem sets_of_congr {classes others : List SchemaObjectClass}
    (same : ∀ objectClass, objectClass ∈ classes ↔ objectClass ∈ others) :
    registry.setsOf classes = registry.setsOf others := by
  have equal (read : ClassSets → StringSet)
      (contained : ∀ name, (read (registry.setsOf classes)).contains name = true ↔
        (read (registry.setsOf others)).contains name = true) :
      read (registry.setsOf classes) = read (registry.setsOf others) := ext_contains contained
  have structural := equal ClassSets.structural fun name => by
    simp only [structural_contains, same]
  have superiors := equal ClassSets.structuralSuperiors fun name => by
    simp only [superiors_contain, same]
  have allowed := equal ClassSets.allowed fun name => by simp only [allowed_contains, same]
  have required := equal ClassSets.required fun name => by simp only [required_contains, same]
  calc registry.setsOf classes
      = ⟨(registry.setsOf classes).structural, (registry.setsOf classes).structuralSuperiors,
          (registry.setsOf classes).allowed, (registry.setsOf classes).required⟩ := rfl
    _ = registry.setsOf others := by rw [structural, superiors, allowed, required]

theorem items_nodup (set : StringSet) : set.items.Nodup := by
  rw [StringSet.items, List.Nodup, List.pairwise_map]
  exact set.keys_apart

theorem leaves_nodup (sets : ClassSets) : (leaves sets).Nodup := (items_nodup sets.structural).filter _

theorem length_one_iff {names : List Bytes} (nodup : names.Nodup) :
    names.length = 1 ↔ ∃! name, name ∈ names := by
  rw [List.length_eq_one_iff]
  constructor
  · rintro ⟨name, rfl⟩
    exact ⟨name, by simp, by simp⟩
  · rintro ⟨name, member, only⟩
    refine ⟨name, List.perm_singleton.mp ?_⟩
    rw [List.perm_ext_iff_of_nodup nodup (List.nodup_singleton name)]
    intro other
    rw [List.mem_singleton]
    exact ⟨only other, fun same => same ▸ member⟩

end Sets

section Syntax

theorem syntax_from_some {turns links : Nat} {definition source : SchemaAttribute}
    (declares : registry.DeclaresSyntax links definition source) (near : links ≤ turns) :
    registry.attributeSyntaxFrom turns definition = some source := by
  induction declares generalizing turns with
  | own declared =>
      cases turns with
      | zero => rfl
      | succ turns => simp [attributeSyntaxFrom, declared]
  | above silent named found _ ih =>
      obtain ⟨fewer, rfl⟩ := Nat.exists_eq_add_of_lt near
      rw [show ∀ links, links + fewer + 1 = (links + fewer) + 1 from fun _ => rfl,
        attributeSyntaxFrom, if_pos ⟨silent, named⟩, found]
      exact ih (by omega)

/-- A chain without a declared syntax ends in a definition without one, or in nothing. -/
theorem syntax_from_silent (turns : Nat) {definition : SchemaAttribute}
    (silent : ¬∃ links source, registry.DeclaresSyntax links definition source) :
    ∀ source, registry.attributeSyntaxFrom turns definition = some source →
      source.valueSyntax = [] := by
  induction turns generalizing definition with
  | zero =>
      intro source same
      cases Option.some.inj same
      by_contra declared
      exact silent ⟨0, _, .own declared⟩
  | succ turns ih =>
      intro source found
      rw [attributeSyntaxFrom] at found
      split at found
      · rename_i climbs
        split at found
        · cases found
        · rename_i superior defined
          apply ih _ source found
          rintro ⟨links, declaring, declares⟩
          exact silent ⟨links + 1, declaring, .above climbs.1 climbs.2 defined declares⟩
      · cases Option.some.inj found
        by_contra declared
        exact silent ⟨0, _, .own declared⟩

/-- The syntax that the attribute loop checks against, read along the SUP chain. -/
theorem syntax_fits_iff (within : registry.SyntaxWithin 32) {name : Bytes}
    {definition : SchemaAttribute} (found : registry.findAttribute name = some definition)
    (stored : List Bytes) :
    ¬(((registry.attributeSyntax definition).getD definition).valueSyntax ≠ [] ∧
        (stored.any fun value => !valueMatchesSyntax
          ((registry.attributeSyntax definition).getD definition).valueSyntax value) = true) ↔
      ∀ links source, registry.DeclaresSyntax links definition source →
        ∀ value ∈ stored, valueMatchesSyntax source.valueSyntax value = true := by
  by_cases declares : ∃ links source, registry.DeclaresSyntax links definition source
  · obtain ⟨links, source, declares⟩ := declares
    have reached (links : Nat) (source : SchemaAttribute)
        (declares : registry.DeclaresSyntax links definition source) :
        registry.attributeSyntax definition = some source :=
      registry.syntax_from_some declares (within name definition links source found declares)
    have declared : source.valueSyntax ≠ [] := by
      clear reached found
      induction declares with
      | own declared => exact declared
      | above _ _ _ _ ih => exact ih
    rw [reached links source declares]
    simp only [Option.getD_some, ne_eq, declared, not_false_eq_true, true_and, List.any_eq_true,
      Bool.not_eq_true', not_exists, not_and, Bool.not_eq_false]
    constructor
    · intro fits otherLinks other declaresOther value member
      have same := reached otherLinks other declaresOther
      rw [reached links source declares] at same
      cases same
      exact fits value member
    · intro fits value member
      exact fits links source declares value member
  · have silent : ((registry.attributeSyntax definition).getD definition).valueSyntax = [] := by
      cases reached : registry.attributeSyntax definition with
      | none =>
          by_contra declared
          exact declares ⟨0, definition, .own declared⟩
      | some source => exact registry.syntax_from_silent 32 declares source reached
    simp only [silent, ne_eq, not_true_eq_false, false_and, not_false_eq_true, true_iff]
    intro links source declaring
    exact absurd ⟨links, source, declaring⟩ declares

end Syntax

section Stages

/-- The part of `validateEntry` behind the sets. -/
def judge (sets : ClassSets) (entry : DirectoryEntry) : ResultCode × Bytes :=
  if (leaves sets).length ≠ 1 then
    (.objectClassViolation, text "entry must have exactly one structural object class")
  else
    match sets.required.items.find? fun name => !hasNonEmpty entry name with
    | some name => (.objectClassViolation, text "missing required attribute " ++ name)
    | none =>
        (entry.attributes.entries.findSome? fun pair =>
          registry.checkAttribute sets.allowed pair.1 pair.2).getD (.success, [])

variable {registry} {entry : DirectoryEntry} {values : List Bytes}
  {classes : List SchemaObjectClass} (loaded : registry.objectClasses ≠ [])

include loaded

theorem validate_no_class
    (none : ∀ values, entry.findAttribute (text "objectClass") = some values → values = []) :
    (registry.validateEntry entry).1 = .objectClassViolation := by
  have isLoaded : ¬(!registry.loaded) = true := by simp [SchemaRegistry.loaded, loaded]
  unfold validateEntry
  rw [if_neg isLoaded]
  split
  · rfl
  · rfl
  · rename_i names nonempty located
    exact absurd (none names located) nonempty

theorem validate_undefined (located : entry.findAttribute (text "objectClass") = some values)
    {diagnostic : Bytes} (failed : registry.collectObjectClasses values = .error diagnostic) :
    (registry.validateEntry entry).1 = .objectClassViolation := by
  have isLoaded : ¬(!registry.loaded) = true := by simp [SchemaRegistry.loaded, loaded]
  unfold validateEntry
  rw [if_neg isLoaded, located]
  cases values with
  | nil => rfl
  | cons name rest => simp only [failed]

theorem validate_collected (located : entry.findAttribute (text "objectClass") = some values)
    (filled : values ≠ []) (collected : registry.collectObjectClasses values = .ok classes) :
    registry.validateEntry entry = registry.judge (registry.setsOf classes) entry := by
  have isLoaded : ¬(!registry.loaded) = true := by simp [SchemaRegistry.loaded, loaded]
  unfold validateEntry
  rw [if_neg isLoaded, located]
  cases values with
  | nil => exact absurd rfl filled
  | cons name rest =>
      simp only [collected]
      rfl

end Stages

section Validity

variable {entry : DirectoryEntry} (unique : entry.attributes.DistinctBy toLowerAscii)

include unique

theorem find_attribute_iff (name : Bytes) (stored : List Bytes) :
    entry.findAttribute name = some stored ↔
      ∃ key, (key, stored) ∈ entry.attributes.entries ∧ toLowerAscii key = toLowerAscii name := by
  unfold DirectoryEntry.findAttribute
  rw [Option.map_eq_some_iff]
  constructor
  · rintro ⟨pair, found, rfl⟩
    obtain ⟨member, same⟩ := (unique.findBy_eq_some_iff name pair).mp found
    exact ⟨pair.1, member, same⟩
  · rintro ⟨key, member, same⟩
    exact ⟨(key, stored), (unique.findBy_eq_some_iff name _).mpr ⟨member, same⟩, rfl⟩

theorem has_non_empty_iff (name : Bytes) :
    hasNonEmpty entry name = true ↔ ∃ pair ∈ entry.attributes.entries,
      toLowerAscii pair.1 = toLowerAscii name ∧ ∃ value ∈ pair.2, value ≠ [] := by
  have found := find_attribute_iff unique name
  unfold hasNonEmpty
  constructor
  · intro holds
    split at holds
    · cases holds
    · rename_i stored located
      obtain ⟨key, member, same⟩ := (found stored).mp located
      obtain ⟨value, listed, filled⟩ := List.any_eq_true.mp holds
      exact ⟨(key, stored), member, same, value, listed, of_decide_eq_true filled⟩
  · rintro ⟨pair, member, same, value, listed, filled⟩
    rw [(found pair.2).mpr ⟨pair.1, member, same⟩]
    exact List.any_eq_true.mpr ⟨value, listed, decide_eq_true filled⟩

omit unique

variable {registry}

/-- The checks of the attribute loop pass exactly where the attribute fits. -/
theorem check_attribute_none_iff (within : registry.SyntaxWithin 32)
    {classes : List SchemaObjectClass} {values : List Bytes}
    (collected : ∀ objectClass, objectClass ∈ classes ↔ registry.ClassOf values objectClass)
    (name : Bytes) (stored : List Bytes) :
    registry.checkAttribute (registry.setsOf classes).allowed name stored = none ↔
      (toLowerAscii name ≠ text "objectclass" → ∃ definition,
        registry.findAttribute name = some definition ∧
          registry.AttributeFits values name stored definition) := by
  unfold checkAttribute
  simp only
  split
  · rename_i isClass
    simp [isClass]
  · rename_i other
    simp only [ne_eq, other, not_false_eq_true, true_implies]
    cases found : registry.findAttribute name with
    | none => simp
    | some definition =>
        have listed : (registry.setsOf classes).allowed.contains (toLowerAscii name) = true ↔
            ∃ objectClass, registry.ClassOf values objectClass ∧
              ∃ wanted ∈ objectClass.must ++ objectClass.may,
                toLowerAscii wanted = toLowerAscii name := by
          rw [allowed_contains]
          simp only [other, false_or, collected]
        have typed := registry.syntax_fits_iff within found stored
        simp only [Option.some.injEq, exists_eq_left']
        constructor
        · intro passed
          split at passed
          · cases passed
          · rename_i allowed
            split at passed
            · cases passed
            · rename_i single
              split at passed
              · cases passed
              · rename_i fits
                refine ⟨listed.mp (by simpa using allowed), ?_, typed.mp fits⟩
                intro isSingle
                by_contra several
                exact single ⟨isSingle, by omega⟩
        · intro fits
          rw [if_neg (by rw [listed.mpr fits.listed]; simp), if_neg, if_neg (typed.mpr fits.typed)]
          rintro ⟨isSingle, several⟩
          exact absurd (fits.single isSingle) (by omega)

/-- The checks behind the collected classes. -/
theorem satisfies_iff (within : registry.SyntaxWithin 32)
    (unique : entry.attributes.DistinctBy toLowerAscii) {classes : List SchemaObjectClass}
    {values : List Bytes}
    (defined : ∀ name, registry.NamedClass values name →
      ∃ objectClass, registry.findObjectClass name = some objectClass)
    (collected : ∀ objectClass, objectClass ∈ classes ↔ registry.ClassOf values objectClass) :
    registry.Satisfies entry values ↔
      (leaves (registry.setsOf classes)).length = 1 ∧
        (∀ name ∈ (registry.setsOf classes).required.items, hasNonEmpty entry name = true) ∧
        ∀ pair ∈ entry.attributes.entries,
          registry.checkAttribute (registry.setsOf classes).allowed pair.1 pair.2 = none := by
  have leaf (name : Bytes) : name ∈ leaves (registry.setsOf classes) ↔
      registry.StructuralName values name ∧ ¬registry.SuperiorName values name := by
    unfold leaves StructuralName SuperiorName
    rw [List.mem_filter, ← contains_iff, structural_contains, Bool.not_eq_true', ← Bool.not_eq_true,
      superiors_contain]
    simp only [collected, mem_structural_parents]
  have structural : (leaves (registry.setsOf classes)).length = 1 ↔
      ∃! name, registry.StructuralName values name ∧ ¬registry.SuperiorName values name := by
    rw [length_one_iff (leaves_nodup _)]
    simp only [leaf]
  have required : (∀ name ∈ (registry.setsOf classes).required.items,
      hasNonEmpty entry name = true) ↔ ∀ objectClass, registry.ClassOf values objectClass →
        ∀ wanted ∈ objectClass.must, ∃ pair ∈ entry.attributes.entries,
          toLowerAscii pair.1 = toLowerAscii wanted ∧ ∃ value ∈ pair.2, value ≠ [] := by
    simp only [← contains_iff, required_contains, has_non_empty_iff unique, collected]
    constructor
    · intro all objectClass isClass wanted listed
      have found := all (toLowerAscii wanted) ⟨objectClass, isClass, wanted, listed, rfl⟩
      rwa [to_lower_idempotent] at found
    · rintro all name ⟨objectClass, isClass, wanted, listed, rfl⟩
      rw [to_lower_idempotent]
      exact all objectClass isClass wanted listed
  rw [structural, required]
  simp only [check_attribute_none_iff within collected]
  exact ⟨fun satisfies => ⟨satisfies.structural, satisfies.required, satisfies.attributes⟩,
    fun ⟨one, complete, fitting⟩ => ⟨defined, one, complete, fitting⟩⟩

theorem violation_ne_success : ResultCode.objectClassViolation ≠ .success := by decide

theorem refusal_ne_success {allowed : StringSet} {name : Bytes} {stored : List Bytes}
    {result : ResultCode × Bytes}
    (refused : registry.checkAttribute allowed name stored = some result) :
    result.1 ≠ .success := by
  unfold checkAttribute at refused
  simp only at refused
  repeat' split at refused
  all_goals cases refused
  all_goals dsimp only
  all_goals decide

theorem judge_success_iff (sets : ClassSets) :
    (registry.judge sets entry).1 = .success ↔ (leaves sets).length = 1 ∧
      (∀ name ∈ sets.required.items, hasNonEmpty entry name = true) ∧
      ∀ pair ∈ entry.attributes.entries,
        registry.checkAttribute sets.allowed pair.1 pair.2 = none := by
  unfold judge
  split
  · rename_i several
    exact iff_of_false violation_ne_success fun valid => several valid.1
  · rename_i one
    rw [not_not] at one
    split
    · rename_i name missing
      apply iff_of_false violation_ne_success
      rintro ⟨_, complete, _⟩
      have absent := List.find?_some missing
      rw [complete name (List.mem_of_find?_eq_some missing)] at absent
      cases absent
    · rename_i noneMissing
      have complete : ∀ name ∈ sets.required.items, hasNonEmpty entry name = true := by
        intro name listed
        simpa using List.find?_eq_none.mp noneMissing name listed
      cases checked : entry.attributes.entries.findSome? fun pair =>
          registry.checkAttribute sets.allowed pair.1 pair.2 with
      | none => exact iff_of_true rfl ⟨one, complete, List.findSome?_eq_none_iff.mp checked⟩
      | some refusal =>
          obtain ⟨pair, member, refused⟩ := List.exists_of_findSome?_eq_some checked
          apply iff_of_false (refusal_ne_success refused)
          rintro ⟨_, _, passed⟩
          rw [passed pair member] at refused
          cases refused

theorem object_class_found (unique : entry.attributes.DistinctBy toLowerAscii)
    (values : List Bytes) :
    entry.findAttribute (text "objectClass") = some values ↔
      ∃ key, (key, values) ∈ entry.attributes.entries ∧
        toLowerAscii key = text "objectclass" := by
  rw [find_attribute_iff unique, show toLowerAscii (text "objectClass") = text "objectclass" by
    decide]

theorem validate_success_iff (loaded : registry.objectClasses ≠ [])
    (within : registry.SyntaxWithin 32) (unique : entry.attributes.DistinctBy toLowerAscii) :
    (registry.validateEntry entry).1 = .success ↔ registry.Valid entry := by
  have found := object_class_found unique
  have valid : registry.Valid entry ↔ ∃ values, entry.findAttribute (text "objectClass") =
      some values ∧ values ≠ [] ∧ registry.Satisfies entry values := by
    constructor
    · rintro ⟨pair, member, isClass, filled, satisfies⟩
      exact ⟨pair.2, (found pair.2).mpr ⟨pair.1, member, isClass⟩, filled, satisfies⟩
    · rintro ⟨values, located, filled, satisfies⟩
      obtain ⟨key, member, isClass⟩ := (found values).mp located
      exact ⟨(key, values), member, isClass, filled, satisfies⟩
  rw [valid]
  by_cases named : ∃ values, entry.findAttribute (text "objectClass") = some values ∧ values ≠ []
  · obtain ⟨values, located, filled⟩ := named
    simp only [located, Option.some.injEq, exists_eq_left', ne_eq, filled, not_false_eq_true,
      true_and]
    cases collected : registry.collectObjectClasses values with
    | error diagnostic =>
        rw [validate_undefined loaded located collected]
        apply iff_of_false violation_ne_success
        intro satisfies
        obtain ⟨classes, succeeded⟩ :=
          (registry.collect_defined_iff values).mpr satisfies.defined
        rw [collected] at succeeded
        cases succeeded
    | ok classes =>
        have defined := (registry.collect_defined_iff values).mp ⟨classes, collected⟩
        rw [validate_collected loaded located filled collected, judge_success_iff,
          satisfies_iff within unique defined (mem_collected collected)]
  · push Not at named
    rw [validate_no_class loaded named]
    apply iff_of_false violation_ne_success
    rintro ⟨values, located, filled, _⟩
    exact filled (named values located)

end Validity

section Order

/-- The values agree as sets of names, whatever their order, repetitions and case. -/
def SameNames (values others : List Bytes) : Prop :=
  ∀ name, name ∈ values.map toLowerAscii ↔ name ∈ others.map toLowerAscii

theorem SameNames.symm {values others : List Bytes} (same : SameNames values others) :
    SameNames others values := fun name => (same name).symm

theorem SameNames.mem {values others : List Bytes} (same : SameNames values others) {name : Bytes}
    (listed : name ∈ values) : ∃ other ∈ others, toLowerAscii other = toLowerAscii name :=
  List.mem_map.mp ((same _).mp (List.mem_map.mpr ⟨name, listed, rfl⟩))

theorem SameNames.nil_iff {values others : List Bytes} (same : SameNames values others) :
    values = [] ↔ others = [] := by
  constructor
  · rintro rfl
    apply List.eq_nil_iff_forall_not_mem.mpr
    intro other listed
    obtain ⟨name, member, _⟩ := same.symm.mem listed
    cases member
  · rintro rfl
    apply List.eq_nil_iff_forall_not_mem.mpr
    intro name listed
    obtain ⟨other, member, _⟩ := same.mem listed
    cases member

variable {registry} {values others : List Bytes}

theorem named_class_congr (same : SameNames values others) {name : Bytes}
    (named : registry.NamedClass values name) :
    ∃ other, registry.NamedClass others other ∧ toLowerAscii name = toLowerAscii other := by
  have congruent (left right : Bytes) (equal : toLowerAscii left = toLowerAscii right)
      (other : Bytes) (edge : registry.Superior left other) : registry.Superior right other := by
    obtain ⟨objectClass, found, listed⟩ := edge
    exact ⟨objectClass, registry.find_object_class_congr equal ▸ found, listed⟩
  have seeded (start : Bytes) (listed : start ∈ values) :
      ∃ other, other ∈ others ∧ toLowerAscii start = toLowerAscii other := by
    obtain ⟨other, member, equal⟩ := same.mem listed
    exact ⟨other, member, equal.symm⟩
  exact Generated.transport congruent (fun _ => rfl) seeded named

theorem class_of_congr (same : SameNames values others) {objectClass : SchemaObjectClass}
    (isClass : registry.ClassOf values objectClass) : registry.ClassOf others objectClass := by
  obtain ⟨name, named, found⟩ := isClass
  obtain ⟨other, otherNamed, equal⟩ := named_class_congr same named
  exact ⟨other, otherNamed, registry.find_object_class_congr equal ▸ found⟩

/-- The worklist fails on both lists or collects the same classes from both. -/
theorem collected_congr (same : SameNames values others) {classes : List SchemaObjectClass}
    (collected : registry.collectObjectClasses values = .ok classes) :
    ∃ again, registry.collectObjectClasses others = .ok again ∧
      registry.setsOf again = registry.setsOf classes := by
  have defined := (registry.collect_defined_iff values).mp ⟨classes, collected⟩
  have otherDefined (name : Bytes) (named : registry.NamedClass others name) :
      ∃ objectClass, registry.findObjectClass name = some objectClass := by
    obtain ⟨other, otherNamed, equal⟩ := named_class_congr same.symm named
    rw [registry.find_object_class_congr equal]
    exact defined other otherNamed
  obtain ⟨again, succeeded⟩ := (registry.collect_defined_iff others).mpr otherDefined
  refine ⟨again, succeeded, registry.sets_of_congr ?_⟩
  intro objectClass
  rw [mem_collected succeeded, mem_collected collected]
  exact ⟨class_of_congr same.symm, class_of_congr same⟩

variable {entry : DirectoryEntry} {key : Bytes}

/-- The entry with other values of `objectClass`. -/
def withClasses (entry : DirectoryEntry) (key : Bytes) (values : List Bytes) : DirectoryEntry :=
  { entry with attributes := entry.attributes.insert key values }

theorem with_classes_unique (unique : entry.attributes.DistinctBy toLowerAscii)
    (stored : (key, values) ∈ entry.attributes.entries) (others : List Bytes) :
    (withClasses entry key others).attributes.DistinctBy toLowerAscii :=
  unique.insert (unique.owns_stored stored) others

theorem with_classes_non_empty (unique : entry.attributes.DistinctBy toLowerAscii)
    (stored : (key, values) ∈ entry.attributes.entries) (same : SameNames values others)
    (name : Bytes) : hasNonEmpty (withClasses entry key others) name = hasNonEmpty entry name := by
  have filled {left right : List Bytes} (equal : SameNames left right)
      (some : ∃ value ∈ left, value ≠ []) : ∃ value ∈ right, value ≠ [] := by
    obtain ⟨value, listed, nonempty⟩ := some
    obtain ⟨other, member, lower⟩ := equal.mem listed
    refine ⟨other, member, ?_⟩
    rintro rfl
    exact nonempty ((to_lower_eq_nil value).mp lower.symm)
  rw [Bool.eq_iff_iff, has_non_empty_iff (with_classes_unique unique stored others),
    has_non_empty_iff unique]
  constructor
  · rintro ⟨pair, member, named, some⟩
    rcases (OrderedMap.mem_insert _ _ _ _).mp member with rfl | ⟨older, _⟩
    · exact ⟨(key, values), stored, named, filled same.symm some⟩
    · exact ⟨pair, older, named, some⟩
  · rintro ⟨pair, member, named, some⟩
    by_cases here : pair.1 = key
    · have owner := entry.attributes.entry_unique member stored here
      rw [owner] at named some
      exact ⟨(key, others), (OrderedMap.mem_insert _ _ _ _).mpr (Or.inl rfl), named,
        filled same some⟩
    · exact ⟨pair, (OrderedMap.mem_insert _ _ _ _).mpr (Or.inr ⟨member, here⟩), named, some⟩

theorem with_classes_judge (unique : entry.attributes.DistinctBy toLowerAscii)
    (stored : (key, values) ∈ entry.attributes.entries)
    (isClass : toLowerAscii key = text "objectclass") (same : SameNames values others)
    (sets : ClassSets) :
    registry.judge sets (withClasses entry key others) = registry.judge sets entry := by
  have checks : ((withClasses entry key others).attributes.entries.findSome? fun pair =>
      registry.checkAttribute sets.allowed pair.1 pair.2) =
      entry.attributes.entries.findSome? fun pair =>
        registry.checkAttribute sets.allowed pair.1 pair.2 := by
    rw [withClasses, OrderedMap.insert_stored stored others, OrderedMap.mapValues,
      List.findSome?_map]
    congr 1
    funext pair
    by_cases here : pair.1 = key
    · have skipped (list : List Bytes) :
          registry.checkAttribute sets.allowed key list = none := by
        simp [checkAttribute, isClass]
      simp only [Function.comp_apply, here, if_true, skipped]
    · simp only [Function.comp_apply, if_neg here]
  unfold judge
  simp only [with_classes_non_empty unique stored same, checks]

theorem class_order_irrelevant (loaded : registry.objectClasses ≠ [])
    (unique : entry.attributes.DistinctBy toLowerAscii)
    (stored : (key, values) ∈ entry.attributes.entries)
    (isClass : toLowerAscii key = text "objectclass") (same : SameNames values others) :
    (registry.validateEntry (withClasses entry key others)).1 =
      (registry.validateEntry entry).1 := by
  have located := (object_class_found unique values).mpr ⟨key, stored, isClass⟩
  have relocated := (object_class_found (with_classes_unique unique stored others) others).mpr
    ⟨key, (OrderedMap.mem_insert _ _ _ _).mpr (Or.inl rfl), isClass⟩
  by_cases filled : values = []
  · have empty := same.nil_iff.mp filled
    rw [validate_no_class loaded, validate_no_class loaded]
    · intro found again
      rw [located] at again
      exact (Option.some.inj again) ▸ filled
    · intro found again
      rw [relocated] at again
      exact (Option.some.inj again) ▸ empty
  · have refilled : others ≠ [] := fun empty => filled (same.nil_iff.mpr empty)
    cases collected : registry.collectObjectClasses values with
    | ok classes =>
        obtain ⟨again, recollected, sets⟩ := collected_congr same collected
        rw [validate_collected loaded located filled collected,
          validate_collected loaded relocated refilled recollected, sets,
          with_classes_judge unique stored isClass same]
    | error diagnostic =>
        rw [validate_undefined loaded located collected]
        cases recollected : registry.collectObjectClasses others with
        | error other => rw [validate_undefined loaded relocated recollected]
        | ok again =>
            obtain ⟨classes, succeeded, _⟩ := collected_congr same.symm recollected
            rw [collected] at succeeded
            cases succeeded

/-- Validation succeeds exactly on the entries that satisfy the declarative reading of the
schema, and its code depends on the `objectClass` values as a set of names only. -/
theorem validation_meaning (registry : SchemaRegistry) (loaded : registry.objectClasses ≠ [])
    (within : registry.SyntaxWithin 32) (entry : DirectoryEntry)
    (unique : entry.attributes.DistinctBy toLowerAscii) :
    ((registry.validateEntry entry).1 = .success ↔ registry.Valid entry) ∧
      ∀ key values others, (key, values) ∈ entry.attributes.entries →
        toLowerAscii key = text "objectclass" → SameNames values others →
          (registry.validateEntry (withClasses entry key others)).1 =
            (registry.validateEntry entry).1 :=
  ⟨validate_success_iff loaded within unique, fun _ _ _ stored isClass same =>
    class_order_irrelevant loaded unique stored isClass same⟩

/-- Every definition declares its syntax, has no SUP, or finds it one link above. -/
theorem syntax_within_one_link
    (near : ∀ definition ∈ registry.attributes, definition.valueSyntax = [] →
      definition.superior ≠ [] → ∀ superior,
        registry.findAttribute definition.superior = some superior → superior.valueSyntax ≠ []) :
    registry.SyntaxWithin 32 := by
  intro name definition links source found declares
  obtain ⟨index, _, stored⟩ := Option.bind_eq_some_iff.mp found
  cases declares with
  | own _ => exact Nat.zero_le 32
  | above silent named above rest =>
      have declared := near definition (List.mem_of_getElem? stored) silent named _ above
      cases rest with
      | own _ => decide
      | above silentAgain _ _ _ => exact absurd silentAgain declared

/-- A person is a human and a human a person; `cn` inherits the syntax of `name`. -/
def cyclicSchema : SchemaRegistry :=
  (((({} : SchemaRegistry).addAttribute
        { names := [text "name"], valueSyntax := text "1.3.6.1.4.1.1466.115.121.1.26" }).addAttribute
      { names := [text "cn", text "commonName"], superior := text "name" }).addObjectClass
    { names := [text "human"], superiors := [text "person"], kind := .abstract }).addObjectClass
  { names := [text "person"], superiors := [text "human", text "HUMAN"], must := [text "cn"] }

def cyclicEntry : DirectoryEntry :=
  { dn := text "cn=a"
    attributes := (OrderedMap.empty.insert (text "cn") [text "a"]).insert (text "objectClass")
      [text "person"] }

theorem cyclic_schema_meaning :
    ((cyclicSchema.validateEntry cyclicEntry).1 = .success ↔ cyclicSchema.Valid cyclicEntry) ∧
      ∀ key values others, (key, values) ∈ cyclicEntry.attributes.entries →
        toLowerAscii key = text "objectclass" → SameNames values others →
          (cyclicSchema.validateEntry (withClasses cyclicEntry key others)).1 =
            (cyclicSchema.validateEntry cyclicEntry).1 :=
  validation_meaning cyclicSchema (by decide)
    (syntax_within_one_link (by decide +kernel)) cyclicEntry
    (by unfold OrderedMap.DistinctBy; decide +kernel)

example : (cyclicSchema.validateEntry cyclicEntry).1 = .success := by
  decide +kernel

end Order

end SchemaRegistry

end SimpleLdapd
