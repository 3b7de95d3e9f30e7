import SimpleLdapd.Schema.Meaning

/-!
# Attribute aliases in validation

The index of the registry knows every NAME of a definition, so both names of an
attribute reach the same definition and the same checks of its values. The sets of
MUST and MAY, the test for a required attribute and the lookup of `objectClass`
compare names literally, and the attribute loop runs in the order of the names. An
entry whose attribute goes by one name or another is two entries that share all
other attributes.
-/

namespace SimpleLdapd.SchemaRegistry

open Dn Schema

variable {registry : SchemaRegistry}

section Index

theorem get_index_names (names : List Bytes) (index : OrderedMap Bytes Nat) (position : Nat)
    (key : Bytes) :
    (indexNames index position names).get? key =
      if key ∈ names.map toLowerAscii then some position else index.get? key := by
  unfold indexNames
  induction names generalizing index with
  | nil => rfl
  | cons name rest ih =>
      rw [List.foldl_cons, ih, OrderedMap.get_insert, List.map_cons]
      by_cases later : key ∈ rest.map toLowerAscii
      · simp only [if_pos later, if_pos (List.mem_cons_of_mem _ later)]
      · by_cases here : key = toLowerAscii name
        · simp [here]
        · simp [later, here]

/-- A position in the index is that of a definition with the name. -/
def IndexSound {Definition : Type} (names : Definition → List Bytes)
    (index : OrderedMap Bytes Nat) (definitions : List Definition) : Prop :=
  ∀ ⦃key position⦄, index.get? key = some position →
    ∃ definition, definitions[position]? = some definition ∧
      key ∈ (names definition).map toLowerAscii

theorem IndexSound.add {Definition : Type} {names : Definition → List Bytes}
    {index : OrderedMap Bytes Nat} {definitions : List Definition}
    (sound : IndexSound names index definitions) (added : Definition) :
    IndexSound names (indexNames index definitions.length (names added))
      (definitions ++ [added]) := by
  intro key position indexed
  rw [get_index_names] at indexed
  split at indexed
  · rename_i named
    cases indexed
    exact ⟨added, by simp, named⟩
  · obtain ⟨definition, stored, named⟩ := sound indexed
    obtain ⟨inside, _⟩ := List.getElem?_eq_some_iff.mp stored
    exact ⟨definition, by rw [List.getElem?_append_left inside, stored], named⟩

theorem Built.attributes_indexed (built : Built registry) :
    IndexSound SchemaAttribute.names registry.attributeIndex registry.attributes := by
  induction built with
  | empty =>
      intro key position indexed
      cases indexed
  | addAttribute _ added ih => exact ih.add added
  | addObjectClass _ _ ih => exact ih

theorem Built.object_classes_indexed (built : Built registry) :
    IndexSound SchemaObjectClass.names registry.objectClassIndex registry.objectClasses := by
  induction built with
  | empty =>
      intro key position indexed
      cases indexed
  | addAttribute _ _ ih => exact ih
  | addObjectClass _ added ih => exact ih.add added

theorem Built.index_complete (built : Built registry) {definition : SchemaAttribute}
    (defined : definition ∈ registry.attributes) {name : Bytes} (named : name ∈ definition.names) :
    ∃ position, registry.attributeIndex.get? (toLowerAscii name) = some position := by
  induction built with
  | empty => cases defined
  | addObjectClass _ _ ih => exact ih defined
  | @addAttribute earlier _ added ih =>
      rw [SchemaRegistry.addAttribute] at defined ⊢
      simp only [get_index_names]
      split
      · exact ⟨_, rfl⟩
      · rename_i unnamed
        rcases List.mem_append.mp defined with older | here
        · exact ih older
        · rw [List.mem_singleton.mp here] at named
          exact absurd (List.mem_map.mpr ⟨name, named, rfl⟩) unnamed

/-- No name belongs to two attribute definitions. -/
def NamesOnce (registry : SchemaRegistry) : Prop :=
  registry.attributes.Pairwise fun left right =>
    ∀ name ∈ left.names, ∀ other ∈ right.names, toLowerAscii name ≠ toLowerAscii other

/-- Every NAME of a definition resolves to it. -/
theorem find_alias (built : Built registry) (once : registry.NamesOnce)
    {definition : SchemaAttribute} (defined : definition ∈ registry.attributes) {name : Bytes}
    (named : name ∈ definition.names) : registry.findAttribute name = some definition := by
  obtain ⟨position, indexed⟩ := built.index_complete defined named
  obtain ⟨found, stored, foundNamed⟩ := built.attributes_indexed indexed
  obtain ⟨other, otherNamed, same⟩ := List.mem_map.mp foundNamed
  have owner : found = definition := by
    by_contra different
    have symmetric : Std.Symm fun left right : SchemaAttribute =>
        ∀ name ∈ left.names, ∀ other ∈ right.names, toLowerAscii name ≠ toLowerAscii other :=
      ⟨fun _ _ apart name listed other otherListed =>
        (apart other otherListed name listed).symm⟩
    exact List.Pairwise.forall once (List.mem_of_getElem? stored) defined different other
      otherNamed name named same
  rw [findAttribute, indexed]
  exact owner ▸ stored

end Index

section Attributes

variable {others : Attributes} {name other : Bytes} {stored : List Bytes}

/-- The entry of the other attributes and of this one. -/
def withAttribute (entry : DirectoryEntry) (name : Bytes) (stored : List Bytes) : DirectoryEntry :=
  { entry with attributes := entry.attributes.insert name stored }

variable {entry : DirectoryEntry}

/-- No attribute of the entry goes by the name. -/
def Lacks (entry : DirectoryEntry) (name : Bytes) : Prop :=
  ∀ pair ∈ entry.attributes.entries, toLowerAscii pair.1 ≠ toLowerAscii name

theorem Lacks.find_attribute (lacks : Lacks entry name) : entry.findAttribute name = none := by
  rw [DirectoryEntry.findAttribute,
    (OrderedMap.findBy_eq_none_iff toLowerAscii entry.attributes name).mpr lacks]
  rfl

theorem find_with_attribute (lacks : Lacks entry name) (wanted : Bytes) :
    (withAttribute entry name stored).findAttribute wanted =
      if toLowerAscii name = toLowerAscii wanted then some stored
      else entry.findAttribute wanted := by
  have leads := OrderedMap.leads_fresh toLowerAscii
    ((OrderedMap.findBy_eq_none_iff toLowerAscii entry.attributes name).mpr lacks)
  rw [DirectoryEntry.findAttribute, withAttribute,
    OrderedMap.findBy_insert_leading toLowerAscii leads]
  split
  · rfl
  · rfl

/-- The values hold one that is not empty. -/
def Filled (stored : List Bytes) : Prop := ∃ value ∈ stored, value ≠ []

instance (stored : List Bytes) : Decidable (Filled stored) :=
  inferInstanceAs (Decidable (∃ value ∈ stored, value ≠ []))

theorem non_empty_with_attribute (lacks : Lacks entry name) (wanted : Bytes) :
    hasNonEmpty (withAttribute entry name stored) wanted =
      if toLowerAscii name = toLowerAscii wanted then decide (Filled stored)
      else hasNonEmpty entry wanted := by
  unfold hasNonEmpty
  rw [find_with_attribute lacks]
  by_cases same : toLowerAscii name = toLowerAscii wanted
  · rw [if_pos same, if_pos same, Bool.eq_iff_iff, decide_eq_true_iff]
    simp only [List.any_eq_true, decide_eq_true_eq, Filled]
  · rw [if_neg same, if_neg same]

end Attributes

section Loop

variable {entry : DirectoryEntry} {name : Bytes} {stored : List Bytes} (sets : ClassSets)

/-- The first attribute that the loop refuses, with the code. -/
def firstRefused (registry : SchemaRegistry) (sets : ClassSets) (entry : DirectoryEntry) :
    Option (Bytes × ResultCode) :=
  entry.attributes.firstHit fun pair =>
    (registry.checkAttribute sets.allowed pair.1 pair.2).map Prod.fst

/-- The code for values that do not fit the definition. -/
def valuesRefusal (registry : SchemaRegistry) (definition : SchemaAttribute)
    (stored : List Bytes) : Option ResultCode :=
  let source := (registry.attributeSyntax definition).getD definition
  if definition.singleValue ∧ 1 < stored.length then some .constraintViolation
  else if source.valueSyntax ≠ [] ∧
      stored.any fun value => !valueMatchesSyntax source.valueSyntax value then
    some .invalidAttributeSyntax
  else none

/-- The code that an attribute is refused with, once its definition is found: it is not
allowed, or its values do not fit. -/
def ownRefusal (registry : SchemaRegistry) (sets : ClassSets) (definition : SchemaAttribute)
    (name : Bytes) (stored : List Bytes) : Option ResultCode :=
  if sets.allowed.contains (toLowerAscii name) then registry.valuesRefusal definition stored
  else some .objectClassViolation

/-- What the loop reports with the attribute under `name` among others: its own refusal
counts if no other attribute is refused in front of it. -/
def reported (name : Bytes) (own : Option ResultCode) (other : Option (Bytes × ResultCode)) :
    Option ResultCode :=
  (OrderedMap.earlierHit name own other).map Prod.snd

theorem check_code {definition : SchemaAttribute}
    (found : registry.findAttribute name = some definition)
    (plain : toLowerAscii name ≠ text "objectclass") :
    (registry.checkAttribute sets.allowed name stored).map Prod.fst =
      registry.ownRefusal sets definition name stored := by
  unfold checkAttribute ownRefusal valuesRefusal
  simp only [if_neg plain, found]
  cases sets.allowed.contains (toLowerAscii name) with
  | false => rfl
  | true =>
      simp only [Bool.not_true, Bool.false_eq_true, if_false, if_true]
      split
      · rfl
      · split
        · rfl
        · rfl

theorem check_object_class (isClass : toLowerAscii name = text "objectclass") :
    registry.checkAttribute sets.allowed name stored = none := by
  simp [checkAttribute, isClass]

theorem loop_code (entry : DirectoryEntry) :
    (entry.attributes.entries.findSome? fun pair =>
      registry.checkAttribute sets.allowed pair.1 pair.2).map Prod.fst =
      (registry.firstRefused sets entry).map Prod.snd := by
  unfold firstRefused OrderedMap.firstHit
  rw [List.map_findSome?, List.map_findSome?]
  congr 1
  funext pair
  simp only [Function.comp_apply]
  cases registry.checkAttribute sets.allowed pair.1 pair.2 <;> rfl

/-- The loop over an entry with one more attribute, from the loop over the others. -/
theorem first_refused_with (lacks : Lacks entry name) :
    (registry.firstRefused sets (withAttribute entry name stored)).map Prod.snd =
      reported name ((registry.checkAttribute sets.allowed name stored).map Prod.fst)
        (registry.firstRefused sets entry) := by
  have absent : ∀ pair ∈ entry.attributes.entries, pair.1 ≠ name := by
    intro pair member same
    exact lacks pair member (congrArg toLowerAscii same)
  unfold firstRefused withAttribute reported
  rw [OrderedMap.firstHit_insert absent]

theorem first_refused_ne_success (entry : DirectoryEntry) :
    (registry.firstRefused sets entry).map Prod.snd ≠ some .success := by
  intro succeeded
  rw [← loop_code] at succeeded
  obtain ⟨refusal, found, code⟩ := Option.map_eq_some_iff.mp succeeded
  obtain ⟨pair, _, refused⟩ := List.exists_of_findSome?_eq_some found
  exact refusal_ne_success refused code

end Loop

section Stages

variable (entry : DirectoryEntry)

/-- A required attribute has no value that is not empty. -/
def Incomplete (sets : ClassSets) (entry : DirectoryEntry) : Prop :=
  ∃ name ∈ sets.required.items, hasNonEmpty entry name = false

instance (sets : ClassSets) (entry : DirectoryEntry) : Decidable (Incomplete sets entry) :=
  inferInstanceAs (Decidable (∃ name ∈ sets.required.items, hasNonEmpty entry name = false))

/-- The sets of the classes that these values name, if the classes are all defined and leave
one structural class. -/
def setsNamed (registry : SchemaRegistry) (names : List Bytes) : Option ClassSets :=
  if names = [] then none
  else
    match registry.collectObjectClasses names with
    | .error _ => none
    | .ok classes =>
        if (leaves (registry.setsOf classes)).length = 1 then some (registry.setsOf classes)
        else none

def classSets (registry : SchemaRegistry) (entry : DirectoryEntry) : Option ClassSets :=
  (entry.findAttribute (text "objectClass")).bind registry.setsNamed

theorem judge_code (sets : ClassSets) : (registry.judge sets entry).1 =
    if (leaves sets).length = 1 ∧ ¬Incomplete sets entry then
      ((registry.firstRefused sets entry).map Prod.snd).getD .success
    else .objectClassViolation := by
  unfold judge
  split
  · rename_i several
    rw [if_neg (fun both => several both.1)]
  · rename_i one
    rw [not_not] at one
    split
    · rename_i name missing
      have incomplete : Incomplete sets entry :=
        ⟨name, List.mem_of_find?_eq_some missing, by simpa using List.find?_some missing⟩
      rw [if_neg (fun both => both.2 incomplete)]
    · rename_i noneMissing
      have complete : ¬Incomplete sets entry := by
        intro missing
        rcases missing with ⟨name, listed, empty⟩
        simpa [empty] using List.find?_eq_none.mp noneMissing name listed
      rw [if_pos ⟨one, complete⟩, ← loop_code]
      cases entry.attributes.entries.findSome? fun pair =>
          registry.checkAttribute sets.allowed pair.1 pair.2 with
      | none => rfl
      | some refusal => rfl

variable {entry} (loaded : registry.objectClasses ≠ [])

include loaded

theorem code_without_sets (none : registry.classSets entry = none) :
    (registry.validateEntry entry).1 = .objectClassViolation := by
  unfold classSets at none
  cases located : entry.findAttribute (text "objectClass") with
  | none => exact validate_no_class loaded (by simp [located])
  | some names =>
      rw [located, Option.bind_some, setsNamed] at none
      split at none
      · rename_i empty
        exact validate_no_class loaded (by simp [located, empty])
      · rename_i filled
        cases collected : registry.collectObjectClasses names with
        | error diagnostic => exact validate_undefined loaded located collected
        | ok classes =>
            simp only [collected] at none
            split at none
            · cases none
            · rename_i several
              rw [validate_collected loaded located filled collected, judge_code,
                if_neg (fun both => several both.1)]

theorem code_with_sets {sets : ClassSets} (found : registry.classSets entry = some sets) :
    (registry.validateEntry entry).1 =
      if Incomplete sets entry then .objectClassViolation
      else ((registry.firstRefused sets entry).map Prod.snd).getD .success := by
  unfold classSets at found
  obtain ⟨names, located, named⟩ := Option.bind_eq_some_iff.mp found
  rw [setsNamed] at named
  split at named
  · cases named
  · rename_i filled
    cases collected : registry.collectObjectClasses names with
    | error diagnostic => simp [collected] at named
    | ok classes =>
        simp only [collected] at named
        split at named
        · rename_i one
          rw [validate_collected loaded located filled collected, judge_code,
            Option.some.inj named]
          rw [Option.some.inj named] at one
          by_cases incomplete : Incomplete sets entry
          · rw [if_pos incomplete, if_neg (fun both => both.2 incomplete)]
          · rw [if_neg incomplete, if_pos ⟨one, incomplete⟩]
        · cases named

end Stages

section Condition

variable (registry) (definition : SchemaAttribute) (others : DirectoryEntry)
  (stored : List Bytes) (old new : Bytes) (sets : ClassSets)

/-- MUST names the attribute as `name`. -/
def Requires (name : Bytes) : Prop :=
  sets.required.contains (toLowerAscii name) = true

/-- MUST or MAY names the attribute as `name`. -/
def Lists (name : Bytes) : Prop :=
  sets.allowed.contains (toLowerAscii name) = true

/-- The attribute is one that the entry cannot have, with the code for it: no definition has
its name, no class lists it, or its values do not fit the definition. -/
inductive Faulty (pair : Bytes × List Bytes) : ResultCode → Prop where
  | undefined (plain : toLowerAscii pair.1 ≠ text "objectclass")
      (unknown : registry.findAttribute pair.1 = none) : Faulty pair .undefinedAttributeType
  | unlisted (plain : toLowerAscii pair.1 ≠ text "objectclass")
      (known : registry.findAttribute pair.1 ≠ none) (unlisted : ¬Lists sets pair.1) :
      Faulty pair .objectClassViolation
  | values (plain : toLowerAscii pair.1 ≠ text "objectclass") {found : SchemaAttribute}
      (known : registry.findAttribute pair.1 = some found) (listed : Lists sets pair.1)
      {code : ResultCode} (unfit : registry.valuesRefusal found pair.2 = some code) :
      Faulty pair code

/-- Another attribute is faulty and comes in front of the name. -/
def FaultBefore (name : Bytes) : Prop :=
  ∃ pair ∈ others.attributes.entries, pair.1 < name ∧ ∃ code, Faulty registry sets pair code

/-- The first faulty one of the other attributes is faulty with this code. -/
def FirstFault (code : ResultCode) : Prop :=
  ∃ pair ∈ others.attributes.entries, Faulty registry sets pair code ∧
    ¬FaultBefore registry others sets pair.1

/-- The entry lacks another required attribute. -/
def OtherMissing : Prop :=
  ∃ name ∈ sets.required.items, name ≠ toLowerAscii old ∧ name ≠ toLowerAscii new ∧
    hasNonEmpty others name = false

/-- The attribute goes unnoticed as `name`: a faulty one comes in front of it, it has no
fault, or the first faulty one among the others has the same. -/
inductive Unnoticed (name : Bytes) : Prop where
  | behind (earlier : FaultBefore registry others sets name)
  | admitted (listed : Lists sets name) (fit : registry.valuesRefusal definition stored = none)
  | sameValues (listed : Lists sets name) (code : ResultCode)
      (unfit : registry.valuesRefusal definition stored = some code)
      (first : FirstFault registry others sets code)
  | sameListing (unlisted : ¬Lists sets name)
      (first : FirstFault registry others sets .objectClassViolation)

/-- An attribute that MUST names as `name` may be missing without a difference: it is empty,
or without it the entry is refused for an attribute that no class lists. -/
def MayBeMissing (name : Bytes) : Prop :=
  ¬Filled stored ∨ (FirstFault registry others sets .objectClassViolation ∧
    (FaultBefore registry others sets name ∨ registry.valuesRefusal definition stored = none))

/-- The classes see no difference between the two names of the attribute, or a difference
that another fault of the entry hides. -/
inductive NamesAgree : Prop where
  | otherMissing (missing : OtherMissing others old new sets)
  | bothRequired (asOld : Requires sets old) (asNew : Requires sets new)
  | oldRequired (asOld : Requires sets old) (notNew : ¬Requires sets new)
      (hidden : MayBeMissing registry definition others stored sets old)
  | newRequired (notOld : ¬Requires sets old) (asNew : Requires sets new)
      (hidden : MayBeMissing registry definition others stored sets new)
  | sameListing (notOld : ¬Requires sets old) (notNew : ¬Requires sets new)
      (listed : Lists sets old ↔ Lists sets new)
      (place : FaultBefore registry others sets old ↔ FaultBefore registry others sets new)
  | unnoticed (notOld : ¬Requires sets old) (notNew : ¬Requires sets new)
      (asOld : Unnoticed registry definition others stored sets old)
      (asNew : Unnoticed registry definition others stored sets new)

/-- The entry is refused for its classes though it has an `objectClass`. -/
def ClassRefused (entry : DirectoryEntry) : Prop :=
  ∀ sets, registry.classSets entry = some sets → Incomplete sets entry ∨
    FirstFault registry others sets .objectClassViolation

/-- When validation answers the same under both names. -/
inductive AliasesAgree : Prop where
  | unloaded (empty : registry.objectClasses = [])
  | oldClass (isClass : toLowerAscii old = text "objectclass")
      (refused : ClassRefused registry others (withAttribute others old stored))
  | newClass (isClass : toLowerAscii new = text "objectclass")
      (refused : ClassRefused registry others (withAttribute others new stored))
  | plain (notOld : toLowerAscii old ≠ text "objectclass")
      (notNew : toLowerAscii new ≠ text "objectclass")
      (agree : ∀ sets, registry.classSets others = some sets →
        NamesAgree registry definition others stored old new sets)

end Condition

section Faults

variable {definition : SchemaAttribute} {others : DirectoryEntry} {stored : List Bytes}
  {sets : ClassSets} {name : Bytes}

theorem own_refusal_listed (listed : Lists sets name) :
    registry.ownRefusal sets definition name stored = registry.valuesRefusal definition stored :=
  if_pos listed

theorem own_refusal_unlisted (unlisted : ¬Lists sets name) :
    registry.ownRefusal sets definition name stored = some .objectClassViolation :=
  if_neg unlisted

/-- The body of the attribute loop refuses what is faulty. -/
theorem check_faulty_iff (pair : Bytes × List Bytes) (code : ResultCode) :
    (registry.checkAttribute sets.allowed pair.1 pair.2).map Prod.fst = some code ↔
      Faulty registry sets pair code := by
  by_cases plain : toLowerAscii pair.1 = text "objectclass"
  · rw [check_object_class sets plain]
    constructor
    · exact nofun
    · intro faulty
      cases faulty with
      | undefined other _ => exact absurd plain other
      | unlisted other _ _ => exact absurd plain other
      | values other _ _ _ => exact absurd plain other
  cases known : registry.findAttribute pair.1 with
  | none =>
      unfold checkAttribute
      simp only [if_neg plain, known, Option.map_some, Option.some.injEq]
      constructor
      · intro same
        cases same
        exact .undefined plain known
      · intro faulty
        cases faulty with
        | undefined _ _ => rfl
        | unlisted _ defined _ => exact absurd known defined
        | values _ defined _ _ => rw [known] at defined; cases defined
  | some found =>
      rw [check_code sets known plain]
      by_cases listed : Lists sets pair.1
      · rw [own_refusal_listed listed]
        constructor
        · exact .values plain known listed
        · intro faulty
          cases faulty with
          | undefined _ unknown => rw [known] at unknown; cases unknown
          | unlisted _ _ unlisted => exact absurd listed unlisted
          | values _ defined _ unfit =>
              rw [known] at defined
              cases defined
              exact unfit
      · rw [own_refusal_unlisted listed, Option.some.injEq]
        constructor
        · intro same
          cases same
          exact .unlisted plain (by simp [known]) listed
        · intro faulty
          cases faulty with
          | undefined _ unknown => rw [known] at unknown; cases unknown
          | unlisted _ _ _ => rfl
          | values _ _ other _ => exact absurd other listed

theorem check_sound_iff (pair : Bytes × List Bytes) :
    (registry.checkAttribute sets.allowed pair.1 pair.2).map Prod.fst = none ↔
      ∀ code, ¬Faulty registry sets pair code := by
  rw [Option.eq_none_iff_forall_ne_some]
  exact forall_congr' fun code => not_congr (check_faulty_iff pair code)

/-- The loop over the other attributes finds their first fault. -/
theorem first_refused_iff (hit : Bytes × ResultCode) :
    registry.firstRefused sets others = some hit ↔
      ∃ pair ∈ others.attributes.entries, pair.1 = hit.1 ∧ Faulty registry sets pair hit.2 ∧
        ¬FaultBefore registry others sets pair.1 := by
  rw [firstRefused, OrderedMap.firstHit_eq_some_iff]
  apply exists_congr
  intro pair
  apply and_congr_right
  intro _
  apply and_congr_right
  intro _
  rw [check_faulty_iff]
  apply and_congr_right
  intro _
  simp only [check_sound_iff, FaultBefore, not_exists, not_and]

theorem first_fault_iff (code : ResultCode) :
    (registry.firstRefused sets others).map Prod.snd = some code ↔
      FirstFault registry others sets code := by
  rw [Option.map_eq_some_iff]
  constructor
  · intro refused
    rcases refused with ⟨hit, found, same⟩
    rcases (first_refused_iff hit).mp found with ⟨pair, member, _, faulty, first⟩
    exact ⟨pair, member, same ▸ faulty, first⟩
  · intro fault
    rcases fault with ⟨pair, member, faulty, first⟩
    exact ⟨(pair.1, code), (first_refused_iff _).mpr ⟨pair, member, rfl, faulty, first⟩, rfl⟩

/-- A fault in front of the name is there exactly when the first one is. -/
theorem fault_before_iff (name : Bytes) :
    FaultBefore registry others sets name ↔
      ∃ hit, registry.firstRefused sets others = some hit ∧ hit.1 < name := by
  constructor
  · intro earlier
    rcases earlier with ⟨pair, member, less, code, faulty⟩
    cases found : registry.firstRefused sets others with
    | none =>
        have missed := List.findSome?_eq_none_iff.mp found pair member
        rw [Option.map_eq_none_iff, check_sound_iff] at missed
        exact absurd faulty (missed code)
    | some hit =>
        refine ⟨hit, rfl, ?_⟩
        rcases (first_refused_iff hit).mp found with ⟨first, _, same, _, unpreceded⟩
        rw [← same]
        have notLess : ¬pair.1 < first.1 :=
          fun before => unpreceded ⟨pair, member, before, code, faulty⟩
        exact lt_of_le_of_lt (not_lt.mp notLess) less
  · intro refused
    rcases refused with ⟨hit, found, less⟩
    rcases (first_refused_iff hit).mp found with ⟨pair, member, same, faulty, _⟩
    exact ⟨pair, member, same ▸ less, hit.2, faulty⟩

/-- What the loop reports of the entry if the attribute goes by `name`. -/
def reportedUnder (registry : SchemaRegistry) (definition : SchemaAttribute)
    (others : DirectoryEntry) (stored : List Bytes) (sets : ClassSets) (name : Bytes) :
    Option ResultCode :=
  reported name (registry.ownRefusal sets definition name stored)
    (registry.firstRefused sets others)

theorem reported_behind (earlier : FaultBefore registry others sets name) :
    reportedUnder registry definition others stored sets name =
      (registry.firstRefused sets others).map Prod.snd := by
  rcases (fault_before_iff name).mp earlier with ⟨hit, found, less⟩
  rw [reportedUnder, reported, found]
  cases registry.ownRefusal sets definition name stored with
  | none => rfl
  | some own => rw [OrderedMap.earlierHit, if_neg less.not_gt]

theorem reported_ahead (lacks : Lacks others name)
    (first : ¬FaultBefore registry others sets name) :
    reportedUnder registry definition others stored sets name =
      (registry.ownRefusal sets definition name stored).or
        ((registry.firstRefused sets others).map Prod.snd) := by
  rw [reportedUnder, reported]
  cases registry.ownRefusal sets definition name stored with
  | none => rfl
  | some own =>
      cases found : registry.firstRefused sets others with
      | none => rfl
      | some hit =>
          rcases (first_refused_iff hit).mp found with ⟨pair, member, same, _, _⟩
          have notLess : ¬hit.1 < name :=
            fun less => first ((fault_before_iff name).mpr ⟨hit, found, less⟩)
          have other : hit.1 ≠ name :=
            fun equal => lacks pair member (congrArg toLowerAscii (same.trans equal))
          rw [OrderedMap.earlierHit, if_pos (lt_of_le_of_ne (not_lt.mp notLess) other.symm)]
          rfl

/-- The attribute goes unnoticed when the loop reports what it reports of the others. -/
theorem unnoticed_iff (lacks : Lacks others name) :
    Unnoticed registry definition others stored sets name ↔
      reportedUnder registry definition others stored sets name =
        (registry.firstRefused sets others).map Prod.snd := by
  constructor
  · intro unnoticed
    by_cases earlier : FaultBefore registry others sets name
    · exact reported_behind earlier
    rw [reported_ahead lacks earlier]
    cases unnoticed with
    | behind before => exact absurd before earlier
    | admitted listed fit => rw [own_refusal_listed listed, fit, Option.none_or]
    | sameValues listed code unfit first =>
        rw [own_refusal_listed listed, unfit, Option.some_or, (first_fault_iff code).mpr first]
    | sameListing unlisted first =>
        rw [own_refusal_unlisted unlisted, Option.some_or, (first_fault_iff _).mpr first]
  · intro same
    by_cases earlier : FaultBefore registry others sets name
    · exact .behind earlier
    rw [reported_ahead lacks earlier] at same
    by_cases listed : Lists sets name
    · rw [own_refusal_listed listed] at same
      cases unfit : registry.valuesRefusal definition stored with
      | none => exact .admitted listed unfit
      | some code =>
          rw [unfit, Option.some_or] at same
          exact .sameValues listed code unfit ((first_fault_iff code).mp same.symm)
    · rw [own_refusal_unlisted listed, Option.some_or] at same
      exact .sameListing listed ((first_fault_iff _).mp same.symm)

theorem values_refusal_ne_violation (definition : SchemaAttribute) (stored : List Bytes) :
    registry.valuesRefusal definition stored ≠ some .objectClassViolation := by
  unfold valuesRefusal
  dsimp only
  split_ifs
  · decide
  · decide
  · exact nofun

/-- The loop reports the same under two names. -/
theorem same_report_iff {old new : Bytes} (lacksOld : Lacks others old)
    (lacksNew : Lacks others new) :
    reportedUnder registry definition others stored sets old =
        reportedUnder registry definition others stored sets new ↔
      ((Lists sets old ↔ Lists sets new) ∧
        (FaultBefore registry others sets old ↔ FaultBefore registry others sets new)) ∨
      (Unnoticed registry definition others stored sets old ∧
        Unnoticed registry definition others stored sets new) := by
  rw [unnoticed_iff lacksOld, unnoticed_iff lacksNew]
  constructor
  · intro same
    by_cases unnoticed : reportedUnder registry definition others stored sets old =
        (registry.firstRefused sets others).map Prod.snd
    · exact Or.inr ⟨unnoticed, same.symm.trans unnoticed⟩
    -- both refusals are the attribute's own, and its two faults have different codes
    have aheadOld : ¬FaultBefore registry others sets old :=
      fun earlier => unnoticed (reported_behind earlier)
    have aheadNew : ¬FaultBefore registry others sets new :=
      fun earlier => unnoticed (same.trans (reported_behind earlier))
    refine Or.inl ⟨?_, iff_of_false aheadOld aheadNew⟩
    have different : registry.valuesRefusal definition stored ≠ some .objectClassViolation :=
      values_refusal_ne_violation definition stored
    rw [reported_ahead lacksOld aheadOld] at same unnoticed
    rw [reported_ahead lacksNew aheadNew] at same
    by_cases asOld : Lists sets old
    · by_cases asNew : Lists sets new
      · exact iff_of_true asOld asNew
      · rw [own_refusal_listed asOld] at same unnoticed
        rw [own_refusal_unlisted asNew, Option.some_or] at same
        cases unfit : registry.valuesRefusal definition stored with
        | none => rw [unfit, Option.none_or] at unnoticed; exact absurd rfl unnoticed
        | some code =>
            rw [unfit, Option.some_or] at same
            exact absurd (unfit.trans same) different
    · by_cases asNew : Lists sets new
      · rw [own_refusal_unlisted asOld, Option.some_or] at same unnoticed
        rw [own_refusal_listed asNew] at same
        cases unfit : registry.valuesRefusal definition stored with
        | none => rw [unfit, Option.none_or] at same; exact absurd same unnoticed
        | some code =>
            rw [unfit, Option.some_or] at same
            exact absurd (unfit.trans same.symm) different
      · exact iff_of_false asOld asNew
  · intro agree
    rcases agree with ⟨listed, place⟩ | ⟨asOld, asNew⟩
    · have own : registry.ownRefusal sets definition old stored =
          registry.ownRefusal sets definition new stored := by
        unfold ownRefusal
        exact if_congr listed rfl rfl
      by_cases earlier : FaultBefore registry others sets old
      · rw [reported_behind earlier, reported_behind (place.mp earlier)]
      · have ahead : ¬FaultBefore registry others sets new := fun before =>
          earlier (place.mpr before)
        rw [reported_ahead lacksOld earlier, reported_ahead lacksNew ahead, own]
    · exact asOld.trans asNew.symm

/-- A listed attribute that leaves the loop with an attribute that no class lists. -/
theorem violation_reported_iff (lacks : Lacks others name) (listed : Lists sets name) :
    reportedUnder registry definition others stored sets name = some .objectClassViolation ↔
      FirstFault registry others sets .objectClassViolation ∧
        (FaultBefore registry others sets name ∨
          registry.valuesRefusal definition stored = none) := by
  rw [← first_fault_iff]
  by_cases earlier : FaultBefore registry others sets name
  · simp [reported_behind earlier, earlier]
  rw [reported_ahead lacks earlier, own_refusal_listed listed]
  have different : registry.valuesRefusal definition stored ≠ some .objectClassViolation :=
    values_refusal_ne_violation definition stored
  cases unfit : registry.valuesRefusal definition stored with
  | none => simp
  | some code =>
      rw [unfit, Ne, Option.some.injEq] at different
      simp [earlier, different]

end Faults

section Agreement

variable {definition : SchemaAttribute} {others : DirectoryEntry} {stored : List Bytes}
  {old new : Bytes} {sets : ClassSets}

theorem required_lower (found : registry.classSets others = some sets) {name : Bytes}
    (listed : name ∈ sets.required.items) : toLowerAscii name = name := by
  obtain ⟨names, _, named⟩ := Option.bind_eq_some_iff.mp found
  rw [setsNamed] at named
  split at named
  · cases named
  · split at named
    · cases named
    · rename_i classes _
      split at named
      · rw [← Option.some.inj named, ← contains_iff, required_contains] at listed
        obtain ⟨_, _, wanted, _, lower⟩ := listed
        rw [← lower, to_lower_idempotent]
      · cases named

theorem class_sets_with (registry : SchemaRegistry) (stored : List Bytes)
    (lacks : Lacks others old) (plain : toLowerAscii old ≠ text "objectclass") :
    registry.classSets (withAttribute others old stored) = registry.classSets others := by
  have different : toLowerAscii old ≠ toLowerAscii (text "objectClass") := by
    rw [show toLowerAscii (text "objectClass") = text "objectclass" by decide]
    exact plain
  rw [classSets, find_with_attribute lacks, if_neg different, classSets]

/-- With the attribute under `old`, a name of MUST is missing if it is another one the entry
lacks, if it is `new`, or if it is `old` and no value is filled. -/
theorem incomplete_iff (found : registry.classSets others = some sets)
    (lacksOld : Lacks others old) (lacksNew : Lacks others new)
    (different : toLowerAscii old ≠ toLowerAscii new) :
    Incomplete sets (withAttribute others old stored) ↔ OtherMissing others old new sets ∨
      Requires sets new ∨ (Requires sets old ∧ ¬Filled stored) := by
  have missingNew : hasNonEmpty others (toLowerAscii new) = false := by
    unfold hasNonEmpty
    rw [Lacks.find_attribute (fun pair member => by
      rw [to_lower_idempotent]
      exact lacksNew pair member)]
  unfold Incomplete OtherMissing Requires
  simp only [non_empty_with_attribute lacksOld, contains_iff]
  constructor
  · intro missing
    rcases missing with ⟨name, listed, empty⟩
    have lower := required_lower found listed
    rw [lower] at empty
    split at empty
    · rename_i isOld
      exact Or.inr (Or.inr ⟨isOld ▸ listed, of_decide_eq_false empty⟩)
    · rename_i notOld
      by_cases isNew : name = toLowerAscii new
      · exact Or.inr (Or.inl (isNew ▸ listed))
      · exact Or.inl ⟨name, listed, fun same => notOld same.symm, isNew, empty⟩
  · intro missing
    rcases missing with ⟨name, listed, notOld, notNew, empty⟩ | listed | ⟨listed, unfilled⟩
    · refine ⟨name, listed, ?_⟩
      rw [required_lower found listed, if_neg (fun same => notOld same.symm)]
      exact empty
    · refine ⟨_, listed, ?_⟩
      rw [to_lower_idempotent, if_neg different]
      exact missingNew
    · refine ⟨_, listed, ?_⟩
      rw [to_lower_idempotent, if_pos rfl]
      exact decide_eq_false unfilled

/-- Two codes of the form that validation answers with are equal. -/
theorem staged_codes_iff {first second : Prop} [Decidable first] [Decidable second]
    {early late : Option ResultCode} (earlyFails : early ≠ some .success)
    (lateFails : late ≠ some .success) :
    ((if second then ResultCode.objectClassViolation else late.getD .success) =
        if first then ResultCode.objectClassViolation else early.getD .success) ↔
      (first ∧ second) ∨ (first ∧ ¬second ∧ late = some .objectClassViolation) ∨
        (¬first ∧ second ∧ early = some .objectClassViolation) ∨
          (¬first ∧ ¬second ∧ early = late) := by
  have violation (code : Option ResultCode) :
      code.getD .success = .objectClassViolation ↔ code = some .objectClassViolation := by
    cases code with
    | none => exact iff_of_false violation_ne_success.symm (by simp)
    | some code => simp
  by_cases isFirst : first
  · by_cases isSecond : second
    · simp [isFirst, isSecond]
    · simp [isFirst, isSecond, violation]
  · by_cases isSecond : second
    · simp only [isFirst, isSecond, if_true, if_false, false_and, not_false_eq_true, true_and,
        not_true_eq_false, false_or, or_false]
      rw [eq_comm, violation]
    · simp only [isFirst, isSecond, if_false, false_and, not_false_eq_true, true_and, false_or]
      cases early with
      | none =>
          cases late with
          | none => simp
          | some code =>
              simp only [Option.getD_some, Option.getD_none, reduceCtorEq, iff_false]
              exact fun succeeds => lateFails (congrArg some succeeds)
      | some code =>
          cases late with
          | none =>
              simp only [Option.getD_some, Option.getD_none, reduceCtorEq, iff_false]
              exact fun succeeds => earlyFails (congrArg some succeeds.symm)
          | some other =>
              simp only [Option.getD_some, Option.some.injEq]
              exact eq_comm

/-- The code under a name that is not `objectClass`, once the class checks pass. -/
theorem code_under (loaded : registry.objectClasses ≠ [])
    (found : registry.classSets others = some sets) {name : Bytes} (lacks : Lacks others name)
    (plain : toLowerAscii name ≠ text "objectclass")
    (resolved : registry.findAttribute name = some definition) :
    (registry.validateEntry (withAttribute others name stored)).1 =
      if Incomplete sets (withAttribute others name stored) then .objectClassViolation
      else (reportedUnder registry definition others stored sets name).getD .success := by
  have same := class_sets_with registry stored lacks plain
  rw [found] at same
  rw [code_with_sets loaded same, first_refused_with sets lacks, check_code sets resolved plain]
  rfl

theorem reported_ne_success {name : Bytes} (lacks : Lacks others name)
    (plain : toLowerAscii name ≠ text "objectclass")
    (resolved : registry.findAttribute name = some definition) :
    reportedUnder registry definition others stored sets name ≠ some .success := by
  rw [reportedUnder, ← check_code sets resolved plain, ← first_refused_with sets lacks]
  exact first_refused_ne_success sets _

/-- The cases of `NamesAgree`, from what is missing under either name. -/
theorem agreement_cases {missing asOld asNew filled oldHidden newHidden same : Prop} :
    ((missing ∨ asNew ∨ (asOld ∧ ¬filled)) ∧ (missing ∨ asOld ∨ (asNew ∧ ¬filled)) ∨
        (missing ∨ asNew ∨ (asOld ∧ ¬filled)) ∧ ¬(missing ∨ asOld ∨ (asNew ∧ ¬filled)) ∧
          newHidden ∨
        ¬(missing ∨ asNew ∨ (asOld ∧ ¬filled)) ∧ (missing ∨ asOld ∨ (asNew ∧ ¬filled)) ∧
          oldHidden ∨
        ¬(missing ∨ asNew ∨ (asOld ∧ ¬filled)) ∧ ¬(missing ∨ asOld ∨ (asNew ∧ ¬filled)) ∧
          same) ↔
      missing ∨ (asOld ∧ asNew) ∨ (asOld ∧ ¬asNew ∧ (¬filled ∨ oldHidden)) ∨
        (¬asOld ∧ asNew ∧ (¬filled ∨ newHidden)) ∨ (¬asOld ∧ ¬asNew ∧ same) := by
  by_cases isMissing : missing
  · simp [isMissing]
  · by_cases isOld : asOld
    · by_cases isNew : asNew
      · simp [isMissing, isOld, isNew]
      · by_cases isFilled : filled <;> simp [isMissing, isOld, isNew, isFilled]
    · by_cases isNew : asNew
      · by_cases isFilled : filled <;> simp [isMissing, isOld, isNew, isFilled]
      · simp [isMissing, isOld, isNew]

/-- A name of MUST is one that the classes list. -/
theorem lists_required (found : registry.classSets others = some sets) {name : Bytes}
    (required : Requires sets name) : Lists sets name := by
  obtain ⟨names, _, named⟩ := Option.bind_eq_some_iff.mp found
  rw [setsNamed] at named
  split_ifs at named
  split at named
  · cases named
  · rename_i classes _
    split_ifs at named
    rw [Requires, ← Option.some.inj named, required_contains] at required
    rw [Lists, ← Option.some.inj named, allowed_contains]
    obtain ⟨objectClass, member, wanted, inMust, lower⟩ := required
    exact Or.inr ⟨objectClass, member, wanted, List.mem_append_left _ inMust, lower⟩

/-- `MayBeMissing`, in the words of the loop. -/
theorem may_be_missing_iff (found : registry.classSets others = some sets) {name : Bytes}
    (lacks : Lacks others name) (required : Requires sets name) :
    MayBeMissing registry definition others stored sets name ↔ ¬Filled stored ∨
      reportedUnder registry definition others stored sets name = some .objectClassViolation := by
  rw [MayBeMissing, violation_reported_iff lacks (lists_required found required)]

theorem names_agree_iff (found : registry.classSets others = some sets)
    (lacksOld : Lacks others old) (lacksNew : Lacks others new) :
    NamesAgree registry definition others stored old new sets ↔
    OtherMissing others old new sets ∨ (Requires sets old ∧ Requires sets new) ∨
      (Requires sets old ∧ ¬Requires sets new ∧ (¬Filled stored ∨
        reportedUnder registry definition others stored sets old = some .objectClassViolation)) ∨
      (¬Requires sets old ∧ Requires sets new ∧ (¬Filled stored ∨
        reportedUnder registry definition others stored sets new = some .objectClassViolation)) ∨
      (¬Requires sets old ∧ ¬Requires sets new ∧
        reportedUnder registry definition others stored sets old =
          reportedUnder registry definition others stored sets new) := by
  rw [same_report_iff lacksOld lacksNew]
  constructor
  · intro agree
    cases agree with
    | otherMissing missing => exact Or.inl missing
    | bothRequired asOld asNew => exact Or.inr (Or.inl ⟨asOld, asNew⟩)
    | oldRequired asOld notNew hidden =>
        have reported := (may_be_missing_iff found lacksOld asOld).mp hidden
        exact Or.inr (Or.inr (Or.inl ⟨asOld, notNew, reported⟩))
    | newRequired notOld asNew hidden =>
        have reported := (may_be_missing_iff found lacksNew asNew).mp hidden
        exact Or.inr (Or.inr (Or.inr (Or.inl ⟨notOld, asNew, reported⟩)))
    | sameListing notOld notNew listed place =>
        exact Or.inr (Or.inr (Or.inr (Or.inr ⟨notOld, notNew, Or.inl ⟨listed, place⟩⟩)))
    | unnoticed notOld notNew asOld asNew =>
        exact Or.inr (Or.inr (Or.inr (Or.inr ⟨notOld, notNew, Or.inr ⟨asOld, asNew⟩⟩)))
  · intro agree
    rcases agree with missing | ⟨asOld, asNew⟩ | ⟨asOld, notNew, hidden⟩ |
      ⟨notOld, asNew, hidden⟩ | ⟨notOld, notNew, ⟨listed, place⟩ | ⟨asOld, asNew⟩⟩
    · exact .otherMissing missing
    · exact .bothRequired asOld asNew
    · exact .oldRequired asOld notNew ((may_be_missing_iff found lacksOld asOld).mpr hidden)
    · exact .newRequired notOld asNew ((may_be_missing_iff found lacksNew asNew).mpr hidden)
    · exact .sameListing notOld notNew listed place
    · exact .unnoticed notOld notNew asOld asNew

/-- Neither name is `objectClass`: the classes are the same for both. -/
theorem plain_names_iff (loaded : registry.objectClasses ≠ []) (lacksOld : Lacks others old)
    (lacksNew : Lacks others new) (different : toLowerAscii old ≠ toLowerAscii new)
    (notOld : toLowerAscii old ≠ text "objectclass")
    (notNew : toLowerAscii new ≠ text "objectclass")
    (resolvedOld : registry.findAttribute old = some definition)
    (resolvedNew : registry.findAttribute new = some definition) :
    (registry.validateEntry (withAttribute others new stored)).1 =
        (registry.validateEntry (withAttribute others old stored)).1 ↔
      ∀ sets, registry.classSets others = some sets →
        NamesAgree registry definition others stored old new sets := by
  cases found : registry.classSets others with
  | none =>
      have absentOld := class_sets_with registry stored lacksOld notOld
      have absentNew := class_sets_with registry stored lacksNew notNew
      rw [found] at absentOld absentNew
      rw [code_without_sets loaded absentOld, code_without_sets loaded absentNew]
      simp
  | some sets =>
      simp only [Option.some.injEq, forall_eq']
      rw [code_under loaded found lacksOld notOld resolvedOld,
        code_under loaded found lacksNew notNew resolvedNew,
        staged_codes_iff (reported_ne_success lacksOld notOld resolvedOld)
          (reported_ne_success lacksNew notNew resolvedNew),
        incomplete_iff found lacksOld lacksNew different,
        incomplete_iff found lacksNew lacksOld different.symm]
      have swapped : OtherMissing others new old sets ↔ OtherMissing others old new sets := by
        unfold OtherMissing
        simp only [and_left_comm, and_comm]
      rw [swapped, names_agree_iff found lacksOld lacksNew]
      exact agreement_cases

/-- One of the names is `objectClass`: under the other one the entry has no class. -/
theorem class_name_iff (loaded : registry.objectClasses ≠ []) (lacksOld : Lacks others old)
    (lacksNew : Lacks others new) (different : toLowerAscii old ≠ toLowerAscii new)
    (isClass : toLowerAscii old = text "objectclass") :
    (registry.validateEntry (withAttribute others new stored)).1 =
        (registry.validateEntry (withAttribute others old stored)).1 ↔
      ClassRefused registry others (withAttribute others old stored) := by
  have lower : toLowerAscii (text "objectClass") = text "objectclass" := by decide
  have lacksClass : others.findAttribute (text "objectClass") = none := by
    apply Lacks.find_attribute
    intro pair member
    rw [lower, ← isClass]
    exact lacksOld pair member
  have absent : registry.classSets (withAttribute others new stored) = none := by
    rw [classSets, find_with_attribute lacksNew, lower, if_neg (isClass ▸ different.symm),
      lacksClass]
    rfl
  rw [code_without_sets loaded absent]
  unfold ClassRefused
  cases found : registry.classSets (withAttribute others old stored) with
  | none =>
      rw [code_without_sets loaded found]
      simp
  | some sets =>
      have skipped : (registry.firstRefused sets (withAttribute others old stored)).map Prod.snd =
          (registry.firstRefused sets others).map Prod.snd := by
        rw [first_refused_with sets lacksOld, check_object_class sets isClass]
        rfl
      simp only [Option.some.injEq, forall_eq', ← first_fault_iff]
      rw [code_with_sets loaded found, skipped]
      split
      · rename_i incomplete
        simp [incomplete]
      · rename_i complete
        simp only [complete, false_or]
        cases (registry.firstRefused sets others).map Prod.snd with
        | none => exact iff_of_false violation_ne_success (by simp)
        | some code =>
            simp only [Option.getD_some, Option.some.injEq]
            exact eq_comm

end Agreement

section Renaming

/-- The attribute stored under `old` goes by `new` instead, and the entry uses one of the two
names before and after. -/
structure Renaming (entry : DirectoryEntry) (old new : Bytes) (stored : List Bytes) : Prop where
  held : (old, stored) ∈ entry.attributes.entries
  onlyOld : ∀ pair ∈ entry.attributes.entries,
    toLowerAscii pair.1 = toLowerAscii old → pair.1 = old
  noNew : Lacks entry new

def without (entry : DirectoryEntry) (name : Bytes) : DirectoryEntry :=
  { entry with attributes := entry.attributes.erase name }

def renameAttribute (entry : DirectoryEntry) (old new : Bytes) (stored : List Bytes) :
    DirectoryEntry :=
  { entry with attributes := (entry.attributes.erase old).insert new stored }

variable {entry : DirectoryEntry} {old new : Bytes} {stored : List Bytes}

theorem Renaming.different (moved : Renaming entry old new stored) :
    toLowerAscii old ≠ toLowerAscii new := moved.noNew _ moved.held

theorem Renaming.lacks_old (moved : Renaming entry old new stored) :
    Lacks (without entry old) old := by
  intro pair member same
  obtain ⟨older, different⟩ := (OrderedMap.mem_erase _ _ _).mp member
  exact different (moved.onlyOld pair older same)

theorem Renaming.lacks_new (moved : Renaming entry old new stored) :
    Lacks (without entry old) new := by
  intro pair member
  exact moved.noNew pair ((OrderedMap.mem_erase _ _ _).mp member).1

theorem Renaming.restored (moved : Renaming entry old new stored) :
    withAttribute (without entry old) old stored = entry := by
  have same : (entry.attributes.erase old).insert old stored = entry.attributes := by
    apply OrderedMap.ext_mem
    intro pair
    rw [OrderedMap.mem_insert, OrderedMap.mem_erase]
    constructor
    · intro inside
      rcases inside with here | ⟨⟨older, _⟩, _⟩
      · rw [here]
        exact moved.held
      · exact older
    · intro older
      by_cases here : pair.1 = old
      · exact Or.inl (entry.attributes.entry_unique older moved.held here)
      · exact Or.inr ⟨⟨older, here⟩, here⟩
  unfold withAttribute without
  rw [same]

/-- Validation answers the same under two names of one attribute exactly when its literal
comparisons of the names come to the same. -/
theorem aliases_agree_iff (built : Built registry) (once : registry.NamesOnce)
    {definition : SchemaAttribute} (defined : definition ∈ registry.attributes)
    (oldNamed : toLowerAscii old ∈ definition.names.map toLowerAscii)
    (newNamed : toLowerAscii new ∈ definition.names.map toLowerAscii)
    (moved : Renaming entry old new stored) :
    (registry.validateEntry (renameAttribute entry old new stored)).1 =
        (registry.validateEntry entry).1 ↔
      AliasesAgree registry definition (without entry old) stored old new := by
  have resolves {name : Bytes} (named : toLowerAscii name ∈ definition.names.map toLowerAscii) :
      registry.findAttribute name = some definition := by
    obtain ⟨listed, member, same⟩ := List.mem_map.mp named
    have found := find_alias built once defined member
    rwa [findAttribute, same] at found
  have lacksOld := moved.lacks_old
  have lacksNew := moved.lacks_new
  have renamed : renameAttribute entry old new stored =
      withAttribute (without entry old) new stored := rfl
  rw [renamed]
  nth_rewrite 2 [← moved.restored]
  by_cases loaded : registry.objectClasses = []
  · have valid (entry : DirectoryEntry) : registry.validateEntry entry = (.success, []) := by
      simp [validateEntry, SchemaRegistry.loaded, loaded]
    rw [valid, valid]
    exact iff_of_true rfl (.unloaded loaded)
  by_cases oldClass : toLowerAscii old = text "objectclass"
  · rw [class_name_iff loaded lacksOld lacksNew moved.different oldClass]
    constructor
    · exact .oldClass oldClass
    · intro agree
      cases agree with
      | unloaded empty => exact absurd empty loaded
      | oldClass _ refused => exact refused
      | newClass isClass _ => exact absurd (oldClass.trans isClass.symm) moved.different
      | plain notOld _ _ => exact absurd oldClass notOld
  by_cases newClass : toLowerAscii new = text "objectclass"
  · rw [eq_comm, class_name_iff loaded lacksNew lacksOld moved.different.symm newClass]
    constructor
    · exact .newClass newClass
    · intro agree
      cases agree with
      | unloaded empty => exact absurd empty loaded
      | oldClass isClass _ => exact absurd isClass oldClass
      | newClass _ refused => exact refused
      | plain _ notNew _ => exact absurd newClass notNew
  rw [plain_names_iff loaded lacksOld lacksNew moved.different oldClass newClass
    (resolves oldNamed) (resolves newNamed)]
  constructor
  · exact .plain oldClass newClass
  · intro agree
    cases agree with
    | unloaded empty => exact absurd empty loaded
    | oldClass isClass _ => exact absurd isClass oldClass
    | newClass isClass _ => exact absurd isClass newClass
    | plain _ _ agree => exact agree

theorem cyclic_schema_built : Built cyclicSchema :=
  (((Built.empty.addAttribute _).addAttribute _).addObjectClass _).addObjectClass _

theorem cyclic_names_once : cyclicSchema.NamesOnce := by
  unfold NamesOnce
  decide +kernel

theorem cn_renamed : Renaming cyclicEntry (text "cn") (text "commonName") [text "a"] where
  held := by decide +kernel
  onlyOld := by decide +kernel
  noNew := by
    unfold Lacks
    decide +kernel

/-- The entry is valid with `cn`; with `commonName` it lacks a required attribute. -/
theorem common_name_refused :
    (Built cyclicSchema ∧ cyclicSchema.NamesOnce ∧
      (∃ definition ∈ cyclicSchema.attributes,
        text "cn" ∈ definition.names ∧ text "commonName" ∈ definition.names) ∧
      Renaming cyclicEntry (text "cn") (text "commonName") [text "a"]) ∧
    (cyclicSchema.validateEntry
      (renameAttribute cyclicEntry (text "cn") (text "commonName") [text "a"])).1 ≠
      (cyclicSchema.validateEntry cyclicEntry).1 :=
  ⟨⟨cyclic_schema_built, cyclic_names_once, by decide +kernel, cn_renamed⟩, by decide +kernel⟩

theorem common_name_agreement :
    (cyclicSchema.validateEntry
        (renameAttribute cyclicEntry (text "cn") (text "commonName") [text "a"])).1 =
      (cyclicSchema.validateEntry cyclicEntry).1 ↔
    AliasesAgree cyclicSchema { names := [text "cn", text "commonName"], superior := text "name" }
      (without cyclicEntry (text "cn")) [text "a"] (text "cn") (text "commonName") :=
  aliases_agree_iff cyclic_schema_built cyclic_names_once (by decide +kernel) (by decide +kernel)
    (by decide +kernel) cn_renamed

end Renaming

end SimpleLdapd.SchemaRegistry
