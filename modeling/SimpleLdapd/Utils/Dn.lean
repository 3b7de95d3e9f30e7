import Mathlib.Algebra.Ring.Nat
import Mathlib.Data.Fin.Basic
import Mathlib.Data.List.Lex

/-!
# DN and attribute-name helpers (`utils/dn.cpp`)

A `std::string` is a list of bytes. Folding is ASCII only: the daemon never
calls `setlocale`, so `std::tolower` acts in the "C" locale. A DN is split at
its first comma, escaped or not, exactly as the source does it.
-/

namespace SimpleLdapd

abbrev Byte := Fin 256

abbrev Bytes := List Byte

-- What literals and comparisons of bytes rest on, named once for the whole development.
instance byteCountPositive : NeZero 256 := ⟨Nat.succ_ne_zero 255⟩

instance byteLawful : LawfulBEq Byte := inferInstance

instance bytesLawful : LawfulBEq Bytes := inferInstance

def chr (char : Char) : Byte := Fin.ofNat 256 char.toNat

/-- The bytes of a string literal of the source. -/
def text (literal : String) : Bytes := literal.toList.map chr

namespace Dn

def toLowerByte (byte : Byte) : Byte :=
  if 65 ≤ byte.val ∧ byte.val ≤ 90 then byte + 32 else byte

def toLowerAscii (value : Bytes) : Bytes := value.map toLowerByte

def iequals (left right : Bytes) : Bool := toLowerAscii left = toLowerAscii right

def dnEquals (left right : Bytes) : Bool := iequals left right

/-- `std::string::find` for one character. -/
def findByte (byte : Byte) (value : Bytes) : Option Nat := value.findIdx? (· = byte)

/-- `std::string::substr(position, count)` within the bounds the callers keep. -/
def substr (value : Bytes) (position count : Nat) : Bytes := (value.drop position).take count

def dnEndsWith (dn base : Bytes) : Bool :=
  if base = [] then true
  else
    let hay := toLowerAscii dn
    let needle := toLowerAscii base
    if hay = needle then true
    else
      hay.length > needle.length &&
        substr hay (hay.length - needle.length) needle.length = needle &&
        hay[hay.length - needle.length - 1]? = some (chr ',')

def dnIsOneLevelChild (dn base : Bytes) : Bool :=
  if base = [] then findByte (chr ',') dn = none && dn ≠ []
  else if !dnEndsWith dn base || dnEquals dn base then false
  else
    let hay := toLowerAscii dn
    let needle := toLowerAscii base
    let rdn := substr hay 0 (hay.length - needle.length - 1)
    findByte (chr ',') rdn = none

def dnParent (dn : Bytes) : Bytes :=
  match findByte (chr ',') dn with
  | none => []
  | some position => dn.drop (position + 1)

def dnRdn (dn : Bytes) : Bytes :=
  match findByte (chr ',') dn with
  | none => dn
  | some position => substr dn 0 position

def composeDn (rdn parent : Bytes) : Bytes :=
  if parent = [] then rdn
  else if rdn = [] then parent
  else rdn ++ text "," ++ parent

/-- The type and the value of an RDN; `none` where the source returns `false`. -/
def parseRdn (rdn : Bytes) : Option (Bytes × Bytes) :=
  match findByte (chr '=') rdn with
  | none => none
  | some position =>
      if position = 0 ∨ rdn.length ≤ position + 1 then none
      else some (substr rdn 0 position, rdn.drop (position + 1))

theorem iequals_iff (left right : Bytes) :
    iequals left right = true ↔ toLowerAscii left = toLowerAscii right := by
  simp [iequals]

theorem dn_equals_iff (left right : Bytes) :
    dnEquals left right = true ↔ toLowerAscii left = toLowerAscii right :=
  iequals_iff left right

theorem lower_byte_idempotent :
    ∀ byte : Byte, toLowerByte (toLowerByte byte) = toLowerByte byte := by
  decide +kernel

theorem lower_byte_comma :
    ∀ byte : Byte, toLowerByte byte = chr ',' ↔ byte = chr ',' := by
  decide +kernel

theorem lower_byte_equals_sign :
    ∀ byte : Byte, toLowerByte byte = chr '=' ↔ byte = chr '=' := by
  decide +kernel

theorem lower_byte_zero : ∀ byte : Byte, toLowerByte byte = 0 ↔ byte = 0 := by
  decide +kernel

theorem to_lower_idempotent (value : Bytes) :
    toLowerAscii (toLowerAscii value) = toLowerAscii value := by
  simp only [toLowerAscii, List.map_map]
  congr 1
  funext byte
  exact lower_byte_idempotent byte

@[simp] theorem to_lower_length (value : Bytes) :
    (toLowerAscii value).length = value.length := by
  simp [toLowerAscii]

@[simp] theorem to_lower_eq_nil (value : Bytes) : toLowerAscii value = [] ↔ value = [] := by
  simp [toLowerAscii]

theorem comma_mem_to_lower (value : Bytes) :
    chr ',' ∈ toLowerAscii value ↔ chr ',' ∈ value := by
  simp [toLowerAscii, lower_byte_comma]

theorem zero_mem_to_lower (value : Bytes) : 0 ∈ toLowerAscii value ↔ 0 ∈ value := by
  simp [toLowerAscii, lower_byte_zero]

theorem equals_sign_mem_to_lower (value : Bytes) :
    chr '=' ∈ toLowerAscii value ↔ chr '=' ∈ value := by
  simp [toLowerAscii, lower_byte_equals_sign]

theorem find_byte_lower {byte : Byte} (caseless : ∀ other, toLowerByte other = byte ↔ other = byte)
    (value : Bytes) : findByte byte (toLowerAscii value) = findByte byte value := by
  unfold findByte toLowerAscii
  rw [List.findIdx?_map]
  congr 1
  funext other
  exact decide_eq_decide.mpr (caseless other)

theorem find_byte_none (byte : Byte) (value : Bytes) :
    findByte byte value = none ↔ byte ∉ value := by
  simp only [findByte, List.findIdx?_eq_none_iff, decide_eq_false_iff_not]
  constructor
  · intro absent member
    exact absent byte member rfl
  · intro absent other member same
    exact absent (same ▸ member)

theorem find_byte_append {byte : Byte} {before : Bytes} (absent : byte ∉ before)
    (after : Bytes) : findByte byte (before ++ byte :: after) = some before.length := by
  have skipped : before.findIdx? (· = byte) = none := (find_byte_none byte before).mpr absent
  simp [findByte, List.findIdx?_append, skipped, List.findIdx?_cons]

theorem find_byte_some {byte : Byte} {value : Bytes} {position : Nat}
    (found : findByte byte value = some position) :
    ∃ before after, value = before ++ byte :: after ∧ before.length = position ∧
      byte ∉ before := by
  have present : byte ∈ value := by
    by_contra absent
    rw [(find_byte_none byte value).mpr absent] at found
    cases found
  obtain ⟨before, after, split, absent⟩ := List.eq_append_cons_of_mem present
  rw [split, find_byte_append absent] at found
  exact ⟨before, after, split, Option.some.inj found, absent⟩

theorem dn_parent_append {rdn : Bytes} (absent : chr ',' ∉ rdn) (parent : Bytes) :
    dnParent (rdn ++ chr ',' :: parent) = parent := by
  simp [dnParent, find_byte_append absent, List.drop_append]

theorem dn_parent_of_no_comma {dn : Bytes} (absent : chr ',' ∉ dn) : dnParent dn = [] := by
  simp [dnParent, (find_byte_none _ _).mpr absent]

/-- A DN is a single RDN or splits at its first comma. -/
theorem dn_split (dn : Bytes) :
    chr ',' ∉ dn ∨ ∃ rdn parent, dn = rdn ++ chr ',' :: parent ∧ chr ',' ∉ rdn := by
  by_cases present : chr ',' ∈ dn
  · exact Or.inr (List.eq_append_cons_of_mem present)
  · exact Or.inl present

theorem to_lower_split (rdn parent : Bytes) :
    toLowerAscii (rdn ++ chr ',' :: parent) =
      toLowerAscii rdn ++ chr ',' :: toLowerAscii parent := by
  simp [toLowerAscii, (lower_byte_comma (chr ',')).mpr rfl]

theorem dn_parent_to_lower (dn : Bytes) :
    dnParent (toLowerAscii dn) = toLowerAscii (dnParent dn) := by
  rcases dn_split dn with absent | ⟨rdn, parent, split, absent⟩
  · have lowerAbsent : chr ',' ∉ toLowerAscii dn := by rwa [comma_mem_to_lower]
    rw [dn_parent_of_no_comma lowerAbsent, dn_parent_of_no_comma absent]
    rfl
  · have lowerAbsent : chr ',' ∉ toLowerAscii rdn := by rwa [comma_mem_to_lower]
    rw [split, to_lower_split, dn_parent_append lowerAbsent, dn_parent_append absent]

theorem dn_rdn_to_lower (dn : Bytes) : dnRdn (toLowerAscii dn) = toLowerAscii (dnRdn dn) := by
  unfold dnRdn
  rw [find_byte_lower lower_byte_comma]
  split
  · rfl
  · simp [substr, toLowerAscii]

theorem dn_parent_length (dn : Bytes) : (dnParent dn).length ≤ dn.length - 1 := by
  rcases dn_split dn with absent | ⟨rdn, parent, split, absent⟩
  · simp [dn_parent_of_no_comma absent]
  · rw [split, dn_parent_append absent]
    simp only [List.length_append, List.length_cons]
    omega

/-- No DN is its own parent, in any spelling. -/
theorem dn_parent_ne_self {dn : Bytes} (nonempty : dn ≠ []) :
    toLowerAscii (dnParent dn) ≠ toLowerAscii dn := by
  intro same
  have lengths := congrArg List.length same
  have shorter := dn_parent_length dn
  have positive := List.length_pos_iff.mpr nonempty
  simp only [to_lower_length] at lengths
  omega

theorem dn_ends_with_iff (dn : Bytes) {base : Bytes} (nonempty : base ≠ []) :
    dnEndsWith dn base = true ↔
      toLowerAscii dn = toLowerAscii base ∨
        ∃ front, toLowerAscii dn = front ++ chr ',' :: toLowerAscii base := by
  unfold dnEndsWith
  rw [if_neg nonempty]
  simp only
  generalize toLowerAscii dn = hay
  generalize toLowerAscii base = needle
  split_ifs with same
  · simp [same]
  · simp only [same, false_or, Bool.and_eq_true, decide_eq_true_eq, gt_iff_lt]
    constructor
    · rintro ⟨⟨longer, tail⟩, separator⟩
      have tailEq : hay.drop (hay.length - needle.length) = needle := by
        rw [substr, List.take_of_length_le (by rw [List.length_drop]; omega)] at tail
        exact tail
      have bound : hay.length - needle.length - 1 < hay.length := by omega
      rw [List.getElem?_eq_getElem bound, Option.some.injEq] at separator
      refine ⟨hay.take (hay.length - needle.length - 1), ?_⟩
      have rest := List.drop_eq_getElem_cons bound
      rw [separator, show hay.length - needle.length - 1 + 1 = hay.length - needle.length by omega,
        tailEq] at rest
      rw [← rest, List.take_append_drop]
    · rintro ⟨front, split⟩
      subst split
      have size : (front ++ chr ',' :: needle).length - needle.length = front.length + 1 := by
        simp
        omega
      rw [size]
      refine ⟨⟨by simp; omega, ?_⟩, ?_⟩
      · have emptied : List.drop (front.length + 1) front = [] := by simp
        simp [substr, List.drop_append, emptied]
      · simp

theorem dn_ends_with_congr {left right base other : Bytes}
    (sameDn : toLowerAscii left = toLowerAscii right)
    (sameBase : toLowerAscii base = toLowerAscii other) :
    dnEndsWith left base = dnEndsWith right other := by
  by_cases empty : base = []
  · have otherEmpty : other = [] := by
      rw [← to_lower_eq_nil, ← sameBase, to_lower_eq_nil]
      exact empty
    simp [dnEndsWith, empty, otherEmpty]
  · have otherNonempty : other ≠ [] := by
      intro blank
      rw [blank] at sameBase
      exact empty ((to_lower_eq_nil base).mp sameBase)
    rw [Bool.eq_iff_iff, dn_ends_with_iff left empty, dn_ends_with_iff right otherNonempty,
      sameDn, sameBase]

/-- The suffix test on component boundaries is transitive. -/
theorem dn_ends_with_trans {dn middle base : Bytes} (nonempty : middle ≠ [])
    (inner : dnEndsWith dn middle = true) (outer : dnEndsWith middle base = true) :
    dnEndsWith dn base = true := by
  by_cases whole : base = []
  · simp [dnEndsWith, whole]
  · rw [dn_ends_with_iff _ nonempty] at inner
    rw [dn_ends_with_iff _ whole] at outer ⊢
    rcases inner with same | ⟨front, split⟩
    · rw [same]
      exact outer
    · rcases outer with same | ⟨between, tail⟩
      · exact Or.inr ⟨front, by rw [split, same]⟩
      · exact Or.inr ⟨front ++ chr ',' :: between, by rw [split, tail]; simp⟩

/-- One-level scope below a named base is exactly the parent function. -/
theorem one_level_child_iff (dn : Bytes) {base : Bytes} (nonempty : base ≠ []) :
    dnIsOneLevelChild dn base = true ↔
      chr ',' ∈ dn ∧ toLowerAscii (dnParent dn) = toLowerAscii base := by
  unfold dnIsOneLevelChild
  rw [if_neg nonempty]
  split_ifs with outside
  · simp only [false_iff, not_and]
    intro present same
    rcases dn_split dn with absent | ⟨rdn, parent, split, absent⟩
    · exact absent present
    · rw [split, dn_parent_append absent] at same
      have lower : toLowerAscii dn = toLowerAscii rdn ++ chr ',' :: toLowerAscii base := by
        rw [split, to_lower_split, same]
      have ends : dnEndsWith dn base = true :=
        (dn_ends_with_iff dn nonempty).mpr (Or.inr ⟨_, lower⟩)
      have different : dnEquals dn base = false := by
        rw [Bool.eq_false_iff, Ne, dn_equals_iff, lower]
        intro equal
        have lengths := congrArg List.length equal
        simp only [List.length_append, List.length_cons] at lengths
        omega
      simp [ends, different] at outside
  · simp only [Bool.or_eq_true, Bool.not_eq_true', not_or, Bool.not_eq_false,
      Bool.not_eq_true] at outside
    have different : toLowerAscii dn ≠ toLowerAscii base := by
      rw [Ne, ← dn_equals_iff, outside.2]
      simp
    rcases (dn_ends_with_iff dn nonempty).mp outside.1 with same | ⟨front, lower⟩
    · exact absurd same different
    · have size : (toLowerAscii dn).length - (toLowerAscii base).length - 1 = front.length := by
        rw [lower]
        simp
        omega
      simp only [size, decide_eq_true_eq, find_byte_none, substr, List.drop_zero]
      rw [lower, List.take_left', ← dn_parent_to_lower, lower]
      · constructor
        · intro absent
          refine ⟨?_, dn_parent_append absent _⟩
          rw [← comma_mem_to_lower, lower]
          simp
        · rintro ⟨-, parent⟩ present
          obtain ⟨before, after, split, absent⟩ := List.eq_append_cons_of_mem present
          rw [split, List.append_assoc, List.cons_append, dn_parent_append absent] at parent
          have lengths := congrArg List.length parent
          simp at lengths
          omega
      · rfl

/-- The parent of a composed DN is the chosen parent when the RDN is one RDN. -/
theorem dn_parent_compose {rdn : Bytes} (absent : chr ',' ∉ rdn) (named : rdn ≠ [])
    (parent : Bytes) : dnParent (composeDn rdn parent) = parent := by
  unfold composeDn
  split_ifs with noParent
  · rw [dn_parent_of_no_comma absent, noParent]
  · rw [List.append_assoc]
    exact dn_parent_append absent parent

theorem dn_rdn_subset (dn : Bytes) : dnRdn dn ⊆ dn := by
  unfold dnRdn
  split
  · exact List.Subset.refl dn
  · intro byte member
    exact List.mem_of_mem_drop (List.mem_of_mem_take member)

theorem parse_rdn_some {rdn type value : Bytes} (parsed : parseRdn rdn = some (type, value)) :
    rdn = type ++ chr '=' :: value ∧ type ≠ [] ∧ value ≠ [] := by
  unfold parseRdn at parsed
  split at parsed
  · cases parsed
  · rename_i position found
    rcases find_byte_some found with ⟨before, after, split, size, _⟩
    split at parsed
    · cases parsed
    · rename_i inside
      push Not at inside
      rw [split, List.length_append, List.length_cons] at inside
      rw [split, substr, List.drop_zero, List.take_left' size, List.drop_append, ← size] at parsed
      cases parsed
      refine ⟨by simp [split], ?_, ?_⟩
      · rw [← List.length_pos_iff, size]
        omega
      · rw [← List.length_pos_iff]
        simp only [List.drop_eq_nil_of_le, Nat.le_succ, List.nil_append,
          Nat.add_sub_cancel_left, List.drop_succ_cons, List.drop_zero]
        omega

theorem parse_rdn_to_lower (rdn : Bytes) :
    parseRdn (toLowerAscii rdn) = (parseRdn rdn).map (Prod.map toLowerAscii toLowerAscii) := by
  unfold parseRdn
  rw [find_byte_lower lower_byte_equals_sign, to_lower_length]
  split
  · rfl
  · split
    · rfl
    · simp [substr, toLowerAscii]

/-- A name with a parsable RDN contains an equals sign. -/
theorem equals_sign_of_parse {dn type value : Bytes}
    (parsed : parseRdn (dnRdn dn) = some (type, value)) : chr '=' ∈ dn := by
  apply dn_rdn_subset dn
  rw [(parse_rdn_some parsed).1]
  simp

end Dn

end SimpleLdapd
