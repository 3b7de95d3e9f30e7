import Mathlib.Data.List.Sort
import Mathlib.Data.List.Pairwise

/-!
# Ordered maps searched by a normal form of their keys

An ordered map is a strictly sorted association list; the order is a field, so
a map with a repeated or misplaced key cannot be built. Besides exact lookup,
the map can be scanned for the first key with a given normal form (`findBy`).
The scan is a function of the normal form alone once no two keys share one
(`DistinctBy`), and the update laws below are stated for that case.
-/

namespace SimpleLdapd

universe u v w

structure OrderedMap (Key : Type u) (Value : Type v) [LinearOrder Key] where
  entries : List (Key × Value)
  sorted : entries.Pairwise fun left right => left.1 < right.1

namespace OrderedMap

variable {Key : Type u} {Value : Type v} {Class : Type w}
variable [LinearOrder Key] [DecidableEq Class]

@[ext] theorem ext {left right : OrderedMap Key Value}
    (same : left.entries = right.entries) : left = right := by
  cases left
  cases right
  cases same
  rfl

instance [DecidableEq Value] : DecidableEq (OrderedMap Key Value) := fun left right =>
  decidable_of_iff (left.entries = right.entries) ⟨ext, fun same => same ▸ rfl⟩

def empty : OrderedMap Key Value where
  entries := []
  sorted := List.Pairwise.nil

instance : Inhabited (OrderedMap Key Value) := ⟨empty⟩

/-- Assignment through the key: an existing value is replaced in place. -/
def insert (map : OrderedMap Key Value) (key : Key) (value : Value) :
    OrderedMap Key Value where
  entries := map.entries.filter (·.1 < key) ++
    (key, value) :: map.entries.filter (key < ·.1)
  sorted := by
    rw [List.pairwise_append]
    refine ⟨map.sorted.filter _, ?_, ?_⟩
    · refine List.Pairwise.cons ?_ (map.sorted.filter _)
      intro later member
      simpa using (List.mem_filter.mp member).2
    · intro earlier before later after
      have low : earlier.1 < key := by simpa using (List.mem_filter.mp before).2
      rcases List.mem_cons.mp after with same | high
      · rw [same]
        exact low
      · exact low.trans (by simpa using (List.mem_filter.mp high).2)

def erase (map : OrderedMap Key Value) (key : Key) : OrderedMap Key Value where
  entries := map.entries.filter (·.1 ≠ key)
  sorted := map.sorted.filter _

def get? (map : OrderedMap Key Value) (key : Key) : Option Value :=
  (map.entries.find? (·.1 = key)).map Prod.snd

def mapValues (map : OrderedMap Key Value) (f : Key → Value → Value) :
    OrderedMap Key Value where
  entries := map.entries.map fun entry => (entry.1, f entry.1 entry.2)
  sorted := by
    rw [List.pairwise_map]
    exact map.sorted

/-- The entries whose value passes the test. -/
def keep (map : OrderedMap Key Value) (test : Value → Bool) : OrderedMap Key Value where
  entries := map.entries.filter fun entry => test entry.2
  sorted := map.sorted.filter _

/-- The first entry, in key order, whose key has the normal form of `key`. -/
def findBy (normal : Key → Class) (map : OrderedMap Key Value) (key : Key) :
    Option (Key × Value) :=
  map.entries.find? fun entry => normal entry.1 = normal key

def DistinctBy (normal : Key → Class) (map : OrderedMap Key Value) : Prop :=
  map.entries.Pairwise fun left right => normal left.1 ≠ normal right.1

@[simp] theorem mem_empty (entry : Key × Value) :
    entry ∈ (empty : OrderedMap Key Value).entries ↔ False := by
  simp [empty]

@[simp] theorem mem_insert (map : OrderedMap Key Value) (key : Key) (value : Value)
    (entry : Key × Value) :
    entry ∈ (map.insert key value).entries ↔
      entry = (key, value) ∨ (entry ∈ map.entries ∧ entry.1 ≠ key) := by
  simp only [insert, List.mem_append, List.mem_filter, List.mem_cons, decide_eq_true_eq]
  constructor
  · rintro (⟨member, low⟩ | same | ⟨member, high⟩)
    · exact Or.inr ⟨member, ne_of_lt low⟩
    · exact Or.inl same
    · exact Or.inr ⟨member, (ne_of_lt high).symm⟩
  · rintro (same | ⟨member, different⟩)
    · exact Or.inr (Or.inl same)
    · rcases lt_or_gt_of_ne different with low | high
      · exact Or.inl ⟨member, low⟩
      · exact Or.inr (Or.inr ⟨member, high⟩)

@[simp] theorem mem_erase (map : OrderedMap Key Value) (key : Key) (entry : Key × Value) :
    entry ∈ (map.erase key).entries ↔ entry ∈ map.entries ∧ entry.1 ≠ key := by
  simp [erase]

theorem eq_of_pairwise_apart {Item : Type*} {Image : Type*} (image : Item → Image)
    {items : List Item} (apart : items.Pairwise fun left right => image left ≠ image right)
    {left right : Item} (leftMember : left ∈ items) (rightMember : right ∈ items)
    (same : image left = image right) : left = right := by
  by_contra different
  have symmetric : Std.Symm fun left right : Item => image left ≠ image right :=
    ⟨fun _ _ unequal => unequal.symm⟩
  exact apart.forall leftMember rightMember different same

theorem keys_apart (map : OrderedMap Key Value) :
    map.entries.Pairwise fun left right => left.1 ≠ right.1 :=
  map.sorted.imp fun less => ne_of_lt less

theorem entry_unique (map : OrderedMap Key Value) {left right : Key × Value}
    (leftMember : left ∈ map.entries) (rightMember : right ∈ map.entries)
    (same : left.1 = right.1) : left = right :=
  eq_of_pairwise_apart Prod.fst map.keys_apart leftMember rightMember same

theorem get_eq_some_iff (map : OrderedMap Key Value) (key : Key) (value : Value) :
    map.get? key = some value ↔ (key, value) ∈ map.entries := by
  constructor
  · intro found
    obtain ⟨entry, located, rfl⟩ := Option.map_eq_some_iff.mp found
    have same : entry.1 = key := by simpa using List.find?_some located
    have member := List.mem_of_find?_eq_some located
    rwa [← same]
  · intro member
    cases located : map.entries.find? (·.1 = key) with
    | none =>
        have absent := List.find?_eq_none.mp located (key, value) member
        simp at absent
    | some entry =>
        have same : entry.1 = key := by simpa using List.find?_some located
        have owner := map.entry_unique (List.mem_of_find?_eq_some located) member same
        simp [get?, located, owner]

theorem get_eq_none_iff (map : OrderedMap Key Value) (key : Key) :
    map.get? key = none ↔ ∀ entry ∈ map.entries, entry.1 ≠ key := by
  simp [get?]

/-- Two maps with the same members are the same map: the order decides the list. -/
theorem ext_mem {left right : OrderedMap Key Value}
    (same : ∀ entry, entry ∈ left.entries ↔ entry ∈ right.entries) : left = right := by
  have nodup (map : OrderedMap Key Value) : map.entries.Nodup :=
    map.sorted.imp fun less equal => by simp [equal] at less
  apply ext
  refine List.Perm.eq_of_pairwise ?_ left.sorted right.sorted
    ((List.perm_ext_iff_of_nodup (nodup left) (nodup right)).mpr same)
  intro first second _ _ less greater
  exact absurd (less.trans greater) (lt_irrefl _)

theorem get_insert (map : OrderedMap Key Value) (key other : Key) (value : Value) :
    (map.insert key value).get? other = if other = key then some value else map.get? other := by
  apply Option.ext
  intro found
  rw [get_eq_some_iff, mem_insert]
  by_cases same : other = key
  · simp [same, eq_comm]
  · simp [same, get_eq_some_iff]

theorem get_erase_other (map : OrderedMap Key Value) {key other : Key} (different : other ≠ key) :
    (map.erase key).get? other = map.get? other := by
  apply Option.ext
  intro found
  rw [get_eq_some_iff, get_eq_some_iff, mem_erase]
  exact and_iff_left different

theorem get_erase_self (map : OrderedMap Key Value) (key : Key) : (map.erase key).get? key = none := by
  rw [get_eq_none_iff]
  intro entry member
  exact ((mem_erase map key entry).mp member).2

theorem get_keep (map : OrderedMap Key Value) (test : Value → Bool) (key : Key) :
    (map.keep test).get? key = (map.get? key).filter test := by
  apply Option.ext
  intro found
  rw [get_eq_some_iff, Option.filter_eq_some_iff, get_eq_some_iff]
  exact List.mem_filter

theorem get_empty (key : Key) : (empty : OrderedMap Key Value).get? key = none := rfl

theorem ext_get {left right : OrderedMap Key Value}
    (same : ∀ key, left.get? key = right.get? key) : left = right := by
  apply ext_mem
  intro entry
  rw [← get_eq_some_iff, ← get_eq_some_iff, same]

theorem insert_insert (map : OrderedMap Key Value) (key : Key) (first second : Value) :
    (map.insert key first).insert key second = map.insert key second := by
  apply ext_mem
  intro entry
  simp only [mem_insert]
  constructor
  · intro member
    rcases member with here | ⟨same | older, different⟩
    · exact Or.inl here
    · rw [same] at different
      exact absurd rfl different
    · exact Or.inr older
  · intro member
    rcases member with here | ⟨older, different⟩
    · exact Or.inl here
    · exact Or.inr ⟨Or.inr ⟨older, different⟩, different⟩

section Size

theorem erase_insert (map : OrderedMap Key Value) (key : Key) (value : Value) :
    (map.insert key value).erase key = map.erase key := by
  apply ext_mem
  intro entry
  rw [mem_erase, mem_erase, mem_insert]
  constructor
  · rintro ⟨here | older, different⟩
    · rw [here] at different
      exact absurd rfl different
    · exact older
  · intro older
    exact ⟨Or.inr older, older.2⟩

theorem erase_absent {map : OrderedMap Key Value} {key : Key}
    (absent : ∀ entry ∈ map.entries, entry.1 ≠ key) : map.erase key = map := by
  apply ext_mem
  intro entry
  rw [mem_erase]
  exact and_iff_left_of_imp (absent entry)

theorem length_erase {map : OrderedMap Key Value} {entry : Key × Value}
    (stored : entry ∈ map.entries) :
    (map.erase entry.1).entries.length + 1 = map.entries.length := by
  rcases List.append_of_mem stored with ⟨before, after, split⟩
  have apart := map.keys_apart
  rw [split, List.pairwise_append, List.pairwise_cons] at apart
  rcases apart with ⟨_, ⟨above, _⟩, below⟩
  have keptBefore : before.filter (·.1 ≠ entry.1) = before := by
    rw [List.filter_eq_self]
    intro other member
    simpa using below other member entry List.mem_cons_self
  have keptAfter : after.filter (·.1 ≠ entry.1) = after := by
    rw [List.filter_eq_self]
    intro other member
    simpa using (above other member).symm
  unfold erase
  simp only
  rw [split, List.filter_append, keptBefore, List.filter_cons_of_neg (by simp), keptAfter]
  simp only [List.length_append, List.length_cons]
  omega

theorem length_insert (map : OrderedMap Key Value) (key : Key) (value : Value) :
    (map.insert key value).entries.length = (map.erase key).entries.length + 1 := by
  have inserted : (key, value) ∈ (map.insert key value).entries :=
    (mem_insert map key value _).mpr (Or.inl rfl)
  rw [← length_erase inserted, erase_insert]

end Size

section Assignments

variable {Item : Type*} (key : Item → Key)

/-- The item is listed, and no later item has its key. -/
def LastWith : List Item → Item → Prop
  | [], _ => False
  | head :: rest, item =>
      LastWith rest item ∨ (item = head ∧ ∀ later ∈ rest, key later ≠ key head)

def decideLastWith [DecidableEq Item] (items : List Item) (item : Item) :
    Decidable (LastWith key items item) :=
  match items with
  | [] => isFalse id
  | head :: rest =>
      have := decideLastWith rest item
      inferInstanceAs (Decidable
        (LastWith key rest item ∨ (item = head ∧ ∀ later ∈ rest, key later ≠ key head)))

instance [DecidableEq Item] (items : List Item) (item : Item) :
    Decidable (LastWith key items item) := decideLastWith key items item

variable {key}

omit [LinearOrder Key] in
theorem LastWith.mem {items : List Item} {item : Item} (last : LastWith key items item) :
    item ∈ items := by
  induction items with
  | nil => cases last
  | cons head rest ih =>
      rcases last with later | ⟨here, _⟩
      · exact List.mem_cons_of_mem head (ih later)
      · rw [here]
        exact List.mem_cons_self

omit [LinearOrder Key] in
theorem last_with_of_apart {items : List Item}
    (apart : items.Pairwise fun left right => key left ≠ key right) {item : Item}
    (member : item ∈ items) : LastWith key items item := by
  induction items with
  | nil => cases member
  | cons head rest ih =>
      obtain ⟨fresh, restApart⟩ := List.pairwise_cons.mp apart
      rcases List.mem_cons.mp member with here | later
      · exact Or.inr ⟨here, fun other otherMember => (fresh other otherMember).symm⟩
      · exact Or.inl (ih restApart later)

theorem exists_last_with {items : List Item} {wanted : Key}
    (listed : ∃ item ∈ items, key item = wanted) :
    ∃ last, LastWith key items last ∧ key last = wanted := by
  induction items with
  | nil =>
      obtain ⟨item, member, _⟩ := listed
      cases member
  | cons head rest ih =>
      by_cases repeated : ∃ later ∈ rest, key later = wanted
      · obtain ⟨last, isLast, same⟩ := ih repeated
        exact ⟨last, Or.inl isLast, same⟩
      · push Not at repeated
        obtain ⟨item, member, same⟩ := listed
        rcases List.mem_cons.mp member with here | later
        · rw [here] at same
          refine ⟨head, Or.inr ⟨rfl, ?_⟩, same⟩
          rw [same]
          exact repeated
        · exact absurd same (repeated item later)

variable (key)

/-- A list of assignments leaves the last one of every key. -/
theorem mem_foldl_assign (value : Item → Value) (items : List Item)
    (map : OrderedMap Key Value) (entry : Key × Value) :
    entry ∈ (items.foldl (fun map item => map.insert (key item) (value item)) map).entries ↔
      (∃ item, LastWith key items item ∧ entry = (key item, value item)) ∨
        (entry ∈ map.entries ∧ ∀ item ∈ items, key item ≠ entry.1) := by
  induction items generalizing map with
  | nil => simp [LastWith]
  | cons head rest ih =>
      rw [List.foldl_cons, ih, mem_insert, List.forall_mem_cons]
      constructor
      · rintro (⟨item, last, same⟩ | ⟨here | ⟨older, different⟩, others⟩)
        · exact Or.inl ⟨item, Or.inl last, same⟩
        · rw [here] at others
          exact Or.inl ⟨head, Or.inr ⟨rfl, others⟩, here⟩
        · exact Or.inr ⟨older, Ne.symm different, others⟩
      · rintro (⟨item, last | ⟨here, others⟩, same⟩ | ⟨older, different, others⟩)
        · exact Or.inl ⟨item, last, same⟩
        · rw [here] at same
          rw [same]
          exact Or.inr ⟨Or.inl rfl, others⟩
        · exact Or.inr ⟨Or.inr ⟨older, Ne.symm different⟩, others⟩

end Assignments

theorem mem_foldl_insert (added : List (Key × Value))
    (apart : added.Pairwise fun left right => left.1 ≠ right.1) (map : OrderedMap Key Value)
    (entry : Key × Value) :
    entry ∈ (added.foldl (fun map pair => map.insert pair.1 pair.2) map).entries ↔
      entry ∈ added ∨ (entry ∈ map.entries ∧ ∀ pair ∈ added, pair.1 ≠ entry.1) := by
  rw [mem_foldl_assign Prod.fst Prod.snd]
  apply or_congr_left
  constructor
  · rintro ⟨pair, last, same⟩
    rw [same]
    exact last.mem
  · intro member
    exact ⟨entry, last_with_of_apart apart member, rfl⟩

/-- A map is rebuilt by inserting its entries one by one. -/
theorem foldl_insert_entries (map : OrderedMap Key Value) :
    map.entries.foldl (fun built pair => built.insert pair.1 pair.2) empty = map := by
  apply ext_mem
  intro entry
  rw [mem_foldl_insert map.entries map.keys_apart]
  simp

theorem mem_mapValues (map : OrderedMap Key Value) (f : Key → Value → Value)
    (entry : Key × Value) :
    entry ∈ (map.mapValues f).entries ↔
      ∃ value, (entry.1, value) ∈ map.entries ∧ entry.2 = f entry.1 value := by
  simp only [mapValues, List.mem_map]
  constructor
  · rintro ⟨old, member, same⟩
    rw [← same]
    exact ⟨old.2, member, rfl⟩
  · rintro ⟨value, member, same⟩
    exact ⟨(entry.1, value), member, Prod.ext rfl same.symm⟩

/-- Assignment through a stored key changes one value and moves nothing. -/
theorem insert_stored {map : OrderedMap Key Value} {key : Key} {old : Value}
    (stored : (key, old) ∈ map.entries) (value : Value) :
    map.insert key value = map.mapValues fun other kept => if other = key then value else kept := by
  apply ext_mem
  rintro ⟨other, kept⟩
  rw [mem_insert, mem_mapValues]
  constructor
  · rintro (here | ⟨member, different⟩)
    · cases here
      exact ⟨old, stored, by simp⟩
    · exact ⟨kept, member, (if_neg different).symm⟩
  · rintro ⟨before, member, same⟩
    by_cases here : other = key
    · left
      simp only [here, if_true] at same
      rw [here, same]
    · simp only [if_neg here] at same
      exact Or.inr ⟨same ▸ member, here⟩

/-- Writing the value that is stored already changes nothing. -/
theorem insert_again {map : OrderedMap Key Value} {key : Key} {value : Value}
    (stored : (key, value) ∈ map.entries) : map.insert key value = map := by
  apply ext_mem
  intro entry
  rw [mem_insert]
  constructor
  · rintro (here | ⟨member, _⟩)
    · exact here ▸ stored
    · exact member
  · intro member
    by_cases same : entry.1 = key
    · exact Or.inl (map.entry_unique member stored same)
    · exact Or.inr ⟨member, same⟩

theorem get_mapValues (map : OrderedMap Key Value) (f : Key → Value → Value) (key : Key) :
    (map.mapValues f).get? key = (map.get? key).map (f key) := by
  simp only [get?, mapValues, List.find?_map, Option.map_map]
  cases located : map.entries.find? ((fun entry => decide (entry.1 = key)) ∘
      fun entry => (entry.1, f entry.1 entry.2)) with
  | none =>
      have absent : map.entries.find? (fun entry => decide (entry.1 = key)) = none := located
      rw [absent]
      rfl
  | some entry =>
      have present : map.entries.find? (fun entry => decide (entry.1 = key)) = some entry := located
      have same : entry.1 = key := by simpa using List.find?_some present
      rw [present]
      simp [same]

section Scan

variable (normal : Key → Class)

theorem findBy_some {map : OrderedMap Key Value} {key : Key} {entry : Key × Value}
    (found : map.findBy normal key = some entry) :
    entry ∈ map.entries ∧ normal entry.1 = normal key :=
  ⟨List.mem_of_find?_eq_some found, by simpa using List.find?_some found⟩

theorem findBy_eq_none_iff (map : OrderedMap Key Value) (key : Key) :
    map.findBy normal key = none ↔ ∀ entry ∈ map.entries, normal entry.1 ≠ normal key := by
  simp [findBy]

theorem findBy_congr (map : OrderedMap Key Value) {key other : Key}
    (same : normal key = normal other) : map.findBy normal key = map.findBy normal other := by
  simp only [findBy, same]

/-- Around a key the entries are those below it, the one under it and those above it. -/
theorem entries_around (map : OrderedMap Key Value) (key : Key) :
    map.entries = map.entries.filter (·.1 < key) ++
      (map.entries.filter (·.1 = key) ++ map.entries.filter (key < ·.1)) := by
  have split (entries : List (Key × Value))
      (sorted : entries.Pairwise fun left right => left.1 < right.1) :
      entries = entries.filter (·.1 < key) ++
        (entries.filter (·.1 = key) ++ entries.filter (key < ·.1)) := by
    induction entries with
    | nil => rfl
    | cons entry rest ih =>
        rcases List.pairwise_cons.mp sorted with ⟨above, restSorted⟩
        have later := ih restSorted
        have none (low : ¬ entry.1 < key) : rest.filter (·.1 < key) = [] := by
          simp only [List.filter_eq_nil_iff, decide_eq_true_eq]
          intro other member less
          exact low ((above other member).trans less)
        rcases lt_trichotomy entry.1 key with low | same | high
        · simp only [List.filter_cons, low, low.ne, low.not_gt, decide_true, decide_false,
            if_true, Bool.false_eq_true, if_false, List.cons_append]
          rw [← later]
        · have empty := none (by simp [same])
          rw [empty, List.nil_append] at later
          simp only [List.filter_cons, same, lt_irrefl, decide_true, decide_false, if_true,
            Bool.false_eq_true, if_false, empty, List.nil_append, List.cons_append]
          rw [← later]
        · have empty := none high.not_gt
          have unequal : rest.filter (·.1 = key) = [] := by
            simp only [List.filter_eq_nil_iff, decide_eq_true_eq]
            intro other member equal
            exact lt_asymm high (equal ▸ above other member)
          rw [empty, unequal, List.nil_append, List.nil_append] at later
          simp only [List.filter_cons, high, high.ne', high.not_gt, decide_true, decide_false,
            if_true, Bool.false_eq_true, if_false, empty, unequal, List.nil_append]
          rw [← later]
  exact split map.entries map.sorted

theorem entries_around_absent {map : OrderedMap Key Value} {key : Key}
    (absent : ∀ entry ∈ map.entries, entry.1 ≠ key) :
    map.entries = map.entries.filter (·.1 < key) ++ map.entries.filter (key < ·.1) := by
  have none : map.entries.filter (·.1 = key) = [] := by
    simp only [List.filter_eq_nil_iff, decide_eq_true_eq]
    exact absent
  have around := map.entries_around key
  rwa [none, List.nil_append] at around

/-- The first hit of a search in key order, with the key. -/
def firstHit {Result : Type*} (map : OrderedMap Key Value) (search : Key × Value → Option Result) :
    Option (Key × Result) :=
  map.entries.findSome? fun entry => (search entry).map fun result => (entry.1, result)

/-- The earlier one of a result at `key` and a hit elsewhere. -/
def earlierHit {Result : Type*} (key : Key) (own : Option Result) (other : Option (Key × Result)) :
    Option (Key × Result) :=
  match own, other with
  | none, hit => hit
  | some result, none => some (key, result)
  | some result, some hit => if key < hit.1 then some (key, result) else some hit

omit [LinearOrder Key] in
theorem hit_key {Result : Type*} {search : Key × Value → Option Result}
    {entries : List (Key × Value)} {hit : Key × Result}
    (found : entries.findSome? (fun entry => (search entry).map fun result => (entry.1, result)) =
      some hit) : ∃ entry ∈ entries, entry.1 = hit.1 := by
  obtain ⟨entry, member, here⟩ := List.exists_of_findSome?_eq_some found
  obtain ⟨result, _, same⟩ := Option.map_eq_some_iff.mp here
  exact ⟨entry, member, congrArg Prod.fst same⟩

/-- The first hit is at the least key where the search finds something. -/
theorem firstHit_eq_some_iff {Result : Type*} (map : OrderedMap Key Value)
    (search : Key × Value → Option Result) (hit : Key × Result) :
    map.firstHit search = some hit ↔
      ∃ entry ∈ map.entries, entry.1 = hit.1 ∧ search entry = some hit.2 ∧
        ∀ earlier ∈ map.entries, earlier.1 < entry.1 → search earlier = none := by
  unfold firstHit
  rw [List.findSome?_eq_some_iff]
  constructor
  · rintro ⟨before, entry, after, split, found, missed⟩
    obtain ⟨result, searched, same⟩ := Option.map_eq_some_iff.mp found
    refine ⟨entry, by simp [split], congrArg Prod.fst same, ?_, ?_⟩
    · rw [searched, ← same]
    · intro earlier member less
      have sorted := map.sorted
      rw [split] at sorted member
      rcases List.mem_append.mp member with inFront | behind
      · simpa using missed earlier inFront
      · rcases List.mem_cons.mp behind with here | later
        · exact absurd (here ▸ less) (lt_irrefl _)
        · have greater := (List.pairwise_cons.mp (List.pairwise_append.mp sorted).2.1).1 _ later
          exact absurd (less.trans greater) (lt_irrefl _)
  · rintro ⟨entry, member, same, searched, missed⟩
    obtain ⟨before, after, split⟩ := List.append_of_mem member
    refine ⟨before, entry, after, split, by rw [searched, Option.map_some, same], ?_⟩
    intro earlier inFront
    have sorted := map.sorted
    rw [split, List.pairwise_append] at sorted
    have less := sorted.2.2 earlier inFront entry (by simp)
    rw [missed earlier (by simp [split, inFront]) less, Option.map_none]

/-- The search after an insertion under a new key. -/
theorem firstHit_insert {Result : Type*} {map : OrderedMap Key Value} {key : Key}
    (absent : ∀ entry ∈ map.entries, entry.1 ≠ key) (value : Value)
    (search : Key × Value → Option Result) :
    (map.insert key value).firstHit search =
      earlierHit key (search (key, value)) (map.firstHit search) := by
  let scan (entries : List (Key × Value)) : Option (Key × Result) :=
    entries.findSome? fun entry => (search entry).map fun result => (entry.1, result)
  have split : map.firstHit search =
      (scan (map.entries.filter (·.1 < key))).or (scan (map.entries.filter (key < ·.1))) := by
    exact (congrArg scan (entries_around_absent absent)).trans List.findSome?_append
  have inserted : (map.insert key value).firstHit search =
      (scan (map.entries.filter (·.1 < key))).or
        (((search (key, value)).map fun result => (key, result)).or
          (scan (map.entries.filter (key < ·.1)))) := by
    rw [firstHit, insert, List.findSome?_append, List.findSome?_cons]
    congr 1
    cases search (key, value) <;> rfl
  rw [split, inserted]
  cases below : scan (map.entries.filter (·.1 < key)) with
  | some hit =>
      obtain ⟨entry, member, same⟩ := hit_key below
      have less : hit.1 < key := by
        rw [← same]
        simpa using (List.mem_filter.mp member).2
      cases search (key, value) with
      | none => rfl
      | some result => simp [earlierHit, less.not_gt]
  | none =>
      cases search (key, value) with
      | none => rfl
      | some result =>
          cases above : scan (map.entries.filter (key < ·.1)) with
          | none => rfl
          | some hit =>
              obtain ⟨entry, member, same⟩ := hit_key above
              have less : key < hit.1 := by
                rw [← same]
                simpa using (List.mem_filter.mp member).2
              simp [earlierHit, less]

/-- No key below `key` has its normal form, so a scan meets `key` first. -/
def Leads (normal : Key → Class) (map : OrderedMap Key Value) (key : Key) : Prop :=
  ∀ entry ∈ map.entries, entry.1 < key → normal entry.1 ≠ normal key

theorem leads_found {map : OrderedMap Key Value} {key : Key} {entry : Key × Value}
    (found : map.findBy normal key = some entry) : map.Leads normal entry.1 := by
  rcases findBy_some normal found with ⟨stored, same⟩
  intro other member less equal
  rcases List.find?_eq_some_iff_append.mp found with ⟨_, before, after, split, passed⟩
  have sorted := map.sorted
  rw [split, List.pairwise_append] at sorted
  rw [split] at member
  rcases List.mem_append.mp member with earlier | later
  · have unequal := passed other earlier
    simp only [Bool.not_eq_true', decide_eq_false_iff_not] at unequal
    exact unequal (equal.trans same)
  · rcases List.mem_cons.mp later with here | later
    · rw [here] at less
      exact lt_irrefl _ less
    · exact lt_asymm less ((List.pairwise_cons.mp sorted.2.1).1 other later)

theorem leads_fresh {map : OrderedMap Key Value} {key : Key}
    (fresh : map.findBy normal key = none) : map.Leads normal key := by
  intro entry member _
  exact (findBy_eq_none_iff normal map key).mp fresh entry member

theorem findBy_insert_leading {map : OrderedMap Key Value} {key : Key}
    (leads : map.Leads normal key) (value : Value) (other : Key) :
    (map.insert key value).findBy normal other =
      if normal key = normal other then some (key, value) else map.findBy normal other := by
  unfold findBy
  split_ifs with same
  · have below : (map.entries.filter (·.1 < key)).find?
        (fun entry => normal entry.1 = normal other) = none := by
      simp only [List.find?_eq_none, List.mem_filter, decide_eq_true_eq]
      intro entry low equal
      exact leads entry low.1 low.2 (equal.trans same.symm)
    simp only [insert, List.find?_append, below, Option.none_or, List.find?_cons, same, decide_true]
  · have under : (map.entries.filter (·.1 = key)).find?
        (fun entry => normal entry.1 = normal other) = none := by
      simp only [List.find?_eq_none, List.mem_filter, decide_eq_true_eq]
      intro entry here equal
      exact same (here.2 ▸ equal)
    have scan := congrArg (List.find? fun entry => normal entry.1 = normal other)
      (map.entries_around key)
    simp only [List.find?_append, under, Option.none_or] at scan
    simp only [insert, List.find?_append, List.find?_cons, same, decide_false]
    exact scan.symm

theorem findBy_erase_other (map : OrderedMap Key Value) {key other : Key}
    (different : normal key ≠ normal other) :
    (map.erase key).findBy normal other = map.findBy normal other := by
  unfold findBy erase
  rw [List.find?_filter]
  congr 1
  funext entry
  by_cases same : normal entry.1 = normal other
  · have apart : entry.1 ≠ key := by
      intro here
      exact different (here ▸ same)
    simp [same, apart]
  · simp [same]

variable {normal}

omit [DecidableEq Class] in
theorem DistinctBy.entry_eq {map : OrderedMap Key Value} (distinct : map.DistinctBy normal)
    {left right : Key × Value} (leftMember : left ∈ map.entries)
    (rightMember : right ∈ map.entries) (same : normal left.1 = normal right.1) :
    left = right :=
  eq_of_pairwise_apart (fun entry : Key × Value => normal entry.1) distinct leftMember rightMember same

theorem DistinctBy.findBy_eq_some_iff {map : OrderedMap Key Value}
    (distinct : map.DistinctBy normal) (key : Key) (entry : Key × Value) :
    map.findBy normal key = some entry ↔
      entry ∈ map.entries ∧ normal entry.1 = normal key := by
  refine ⟨findBy_some normal, ?_⟩
  rintro ⟨member, same⟩
  cases located : map.findBy normal key with
  | none => exact absurd same ((findBy_eq_none_iff normal map key).mp located entry member)
  | some other =>
      obtain ⟨otherMember, otherSame⟩ := findBy_some normal located
      rw [distinct.entry_eq otherMember member (otherSame.trans same.symm)]

/-- Scanning for every key of a class finds what the first hit finds. -/
theorem DistinctBy.filter_class {map : OrderedMap Key Value} (distinct : map.DistinctBy normal)
    (key : Key) :
    (map.entries.filter fun entry => normal entry.1 = normal key) =
      (map.findBy normal key).toList := by
  unfold findBy
  unfold DistinctBy at distinct
  generalize map.entries = entries at distinct ⊢
  induction entries with
  | nil => rfl
  | cons entry rest ih =>
      obtain ⟨apart, restDistinct⟩ := List.pairwise_cons.mp distinct
      by_cases same : normal entry.1 = normal key
      · have noOther : (rest.filter fun other => normal other.1 = normal key) = [] := by
          rw [List.filter_eq_nil_iff]
          intro other member equal
          exact apart other member (same.trans (of_decide_eq_true equal).symm)
        simp [same, noOther]
      · simp only [List.filter_cons, List.find?_cons, same, decide_false]
        exact ih restDistinct

omit [DecidableEq Class] in
theorem distinct_empty : (empty : OrderedMap Key Value).DistinctBy normal :=
  List.Pairwise.nil

/-- The key written to is the only one of its class: it is fresh, or it is
already the stored spelling. -/
def Owns (normal : Key → Class) (map : OrderedMap Key Value) (key : Key) : Prop :=
  ∀ entry ∈ map.entries, normal entry.1 = normal key → entry.1 = key

omit [DecidableEq Class] in
theorem DistinctBy.owns_stored {map : OrderedMap Key Value} (distinct : map.DistinctBy normal)
    {entry : Key × Value} (stored : entry ∈ map.entries) : map.Owns normal entry.1 := by
  intro other member same
  rw [distinct.entry_eq member stored same]

theorem owns_fresh {map : OrderedMap Key Value} {key : Key}
    (fresh : map.findBy normal key = none) : map.Owns normal key := by
  intro entry member same
  exact absurd same ((findBy_eq_none_iff normal map key).mp fresh entry member)

omit [DecidableEq Class] in
theorem Owns.leads {map : OrderedMap Key Value} {key : Key} (owns : map.Owns normal key) :
    map.Leads normal key := by
  intro entry member less same
  rw [owns entry member same] at less
  exact lt_irrefl key less

omit [DecidableEq Class] in
theorem DistinctBy.insert {map : OrderedMap Key Value} (distinct : map.DistinctBy normal)
    {key : Key} (owns : map.Owns normal key) (value : Value) :
    (map.insert key value).DistinctBy normal := by
  have apart : ∀ entry ∈ map.entries, entry.1 ≠ key → normal entry.1 ≠ normal key :=
    fun entry member different same => different (owns entry member same)
  unfold DistinctBy OrderedMap.insert
  rw [List.pairwise_append]
  refine ⟨distinct.filter _, ?_, ?_⟩
  · refine List.Pairwise.cons ?_ (distinct.filter _)
    intro later after
    have high := List.mem_filter.mp after
    exact (apart later high.1 (ne_of_gt (by simpa using high.2))).symm
  · intro earlier before later after
    have low := List.mem_filter.mp before
    have lowLess : earlier.1 < key := by simpa using low.2
    rcases List.mem_cons.mp after with same | high
    · rw [same]
      exact apart earlier low.1 (ne_of_lt lowLess)
    · have above := List.mem_filter.mp high
      have highLess : key < later.1 := by simpa using above.2
      intro equal
      have merged := distinct.entry_eq low.1 above.1 equal
      rw [merged] at lowLess
      exact lt_asymm lowLess highLess

omit [DecidableEq Class] in
theorem DistinctBy.erase {map : OrderedMap Key Value} (distinct : map.DistinctBy normal)
    (key : Key) : (map.erase key).DistinctBy normal :=
  distinct.filter _

theorem DistinctBy.findBy_erase {map : OrderedMap Key Value}
    (distinct : map.DistinctBy normal) {entry : Key × Value} (stored : entry ∈ map.entries)
    (other : Key) :
    (map.erase entry.1).findBy normal other =
      if normal entry.1 = normal other then none else map.findBy normal other := by
  apply Option.ext
  intro found
  rw [(distinct.erase entry.1).findBy_eq_some_iff, mem_erase]
  split_ifs with same
  · simp only [iff_false, not_and]
    rintro ⟨member, different⟩ equal
    exact different (distinct.owns_stored stored found member (equal.trans same.symm))
  · rw [distinct.findBy_eq_some_iff]
    constructor
    · rintro ⟨⟨member, _⟩, equal⟩
      exact ⟨member, equal⟩
    · rintro ⟨member, equal⟩
      refine ⟨⟨member, ?_⟩, equal⟩
      intro here
      exact same (here ▸ equal)

end Scan

end OrderedMap

end SimpleLdapd
