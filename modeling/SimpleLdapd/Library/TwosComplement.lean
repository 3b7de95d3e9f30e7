import SimpleLdapd.Library.BigEndian

/-!
# Two's complement numerals of any length

A byte string read as a signed number, most significant byte first, and the
strings that are the shortest of their number. A first byte that only repeats
the sign bit of the second can go; if there is none, the number is out of reach
of any shorter string, and no other string of this length has it.
-/

namespace SimpleLdapd.BigEndian

theorem value_cons (byte : Fin 256) (rest : List (Fin 256)) :
    value (byte :: rest) = byte.val * 256 ^ rest.length + value rest := by
  unfold value
  rw [List.foldl_cons, fold_value]
  simp [value]

theorem value_lt (bytes : List (Fin 256)) : value bytes < 256 ^ bytes.length := by
  induction bytes with
  | nil => simp [value]
  | cons byte rest ih =>
      have small := byte.isLt
      have whole : (byte.val + 1) * 256 ^ rest.length ≤ 256 * 256 ^ rest.length :=
        Nat.mul_le_mul_right _ small
      rw [value_cons, List.length_cons, pow_succ]
      rw [Nat.add_mul] at whole
      omega

theorem value_int_bounds (bytes : List (Fin 256)) :
    (0 : Int) ≤ value bytes ∧ (value bytes : Int) < 256 ^ bytes.length := by
  refine ⟨Int.natCast_nonneg _, ?_⟩
  exact_mod_cast value_lt bytes

/-- A leading digit and what stands below it are determined by their sum. -/
theorem digit_unique {scale digit other low rest : Int} (positive : 0 ≤ low) (below : low < scale)
    (natural : 0 ≤ rest) (beyond : rest < scale)
    (same : digit * scale + low = other * scale + rest) : digit = other ∧ low = rest := by
  rcases Int.lt_trichotomy digit other with less | equal | more
  · nlinarith
  · rw [equal] at same
    exact ⟨equal, by omega⟩
  · nlinarith

/-- Numerals of one length are told apart by their values. -/
theorem value_injective {left right : List (Fin 256)} (size : left.length = right.length)
    (same : value left = value right) : left = right := by
  induction left generalizing right with
  | nil => exact (List.length_eq_zero_iff.mp size.symm).symm
  | cons byte rest ih =>
      cases right with
      | nil => cases size
      | cons other later =>
          have sizes : rest.length = later.length := by simpa using size
          obtain ⟨positive, below⟩ := value_int_bounds rest
          obtain ⟨natural, beyond⟩ := value_int_bounds later
          rw [value_cons, value_cons, ← sizes] at same
          rw [← sizes] at beyond
          have sums : (byte.val : Int) * 256 ^ rest.length + value rest =
              other.val * 256 ^ rest.length + value later := by exact_mod_cast same
          obtain ⟨digits, tails⟩ := digit_unique positive below natural beyond sums
          have bytes : byte = other := Fin.ext (by exact_mod_cast digits)
          rw [bytes, ih sizes (by exact_mod_cast tails)]

/-- The first byte as a signed digit. -/
def signedByte (byte : Fin 256) : Int := if 128 ≤ byte.val then byte.val - 256 else byte.val

def signed : List (Fin 256) → Int
  | [] => 0
  | byte :: rest => signedByte byte * 256 ^ rest.length + value rest

theorem signed_cons (byte : Fin 256) (rest : List (Fin 256)) :
    signed (byte :: rest) = signedByte byte * 256 ^ rest.length + value rest := rfl

/-- The first byte is needed: the second does not carry its sign bit on. -/
def Shortest : List (Fin 256) → Prop
  | [] => False
  | [_] => True
  | first :: second :: _ =>
      ¬((first.val = 0 ∧ second.val < 128) ∨ (first.val = 255 ∧ 128 ≤ second.val))

instance (bytes : List (Fin 256)) : Decidable (Shortest bytes) :=
  match bytes with
  | [] => inferInstanceAs (Decidable False)
  | [_] => inferInstanceAs (Decidable True)
  | _ :: _ :: _ => inferInstanceAs (Decidable (¬_))

theorem Shortest.ne_nil {bytes : List (Fin 256)} (shortest : Shortest bytes) : bytes ≠ [] := by
  intro empty
  rw [empty] at shortest
  exact shortest

theorem signed_byte_cases (byte : Fin 256) :
    (128 ≤ byte.val ∧ signedByte byte = byte.val - 256) ∨
      (byte.val < 128 ∧ signedByte byte = byte.val) := by
  unfold signedByte
  split
  · rename_i high
    exact Or.inl ⟨high, rfl⟩
  · rename_i low
    exact Or.inr ⟨Nat.not_le.mp low, rfl⟩

/-- What a string of this length can denote. -/
theorem signed_range (byte : Fin 256) (rest : List (Fin 256)) :
    -(128 * 256 ^ rest.length) ≤ signed (byte :: rest) ∧
      signed (byte :: rest) < 128 * 256 ^ rest.length := by
  obtain ⟨natural, below⟩ := value_int_bounds rest
  have small := byte.isLt
  rw [signed_cons]
  have digit : -128 ≤ signedByte byte ∧ signedByte byte ≤ 127 := by
    rcases signed_byte_cases byte with ⟨high, is⟩ | ⟨low, is⟩
    · rw [is]
      omega
    · rw [is]
      omega
  constructor
  · nlinarith [digit.1]
  · nlinarith [digit.2]

/-- What strings of at most this length can denote. -/
theorem signed_range_le {bytes : List (Fin 256)} {count : Nat} (few : bytes.length ≤ count + 1) :
    -(128 * 256 ^ count) ≤ signed bytes ∧ signed bytes < 128 * 256 ^ count := by
  cases bytes with
  | nil =>
      have positive : (0 : Int) < 256 ^ count := pow_pos (by norm_num) _
      rw [signed]
      omega
  | cons byte rest =>
      obtain ⟨above, below⟩ := signed_range byte rest
      rw [List.length_cons] at few
      have grows : (256 : Int) ^ rest.length ≤ 256 ^ count :=
        pow_le_pow_right₀ (by norm_num) (by omega)
      omega

/-- The unsigned and the signed reading of a string. -/
theorem value_of_signed (bytes : List (Fin 256)) :
    (value bytes : Int) =
      signed bytes + if 128 ≤ (bytes.headD 0).val then 256 ^ bytes.length else 0 := by
  cases bytes with
  | nil => rfl
  | cons byte rest =>
      rw [signed_cons, value_cons, List.headD_cons, List.length_cons, pow_succ]
      push_cast
      rcases signed_byte_cases byte with ⟨high, is⟩ | ⟨low, is⟩
      · rw [if_pos high, is]
        ring
      · rw [if_neg (Nat.not_le.mpr low), is]
        ring

/-- The first byte carries the sign. -/
theorem first_byte_iff (bytes : List (Fin 256)) :
    (bytes.headD 0).val < 128 ↔ 0 ≤ signed bytes := by
  obtain ⟨natural, below⟩ := value_int_bounds bytes
  have readings := value_of_signed bytes
  by_cases high : 128 ≤ (bytes.headD 0).val
  · rw [if_pos high] at readings
    omega
  · rw [if_neg high] at readings
    omega

/-- Strings of one length are told apart by the numbers they denote. -/
theorem signed_injective {left right : List (Fin 256)} (size : left.length = right.length)
    (same : signed left = signed right) : left = right := by
  cases left with
  | nil => exact (List.length_eq_zero_iff.mp size.symm).symm
  | cons byte rest =>
      cases right with
      | nil => cases size
      | cons other later =>
          have sizes : rest.length = later.length := by simpa using size
          obtain ⟨natural, below⟩ := value_int_bounds rest
          obtain ⟨positive, beyond⟩ := value_int_bounds later
          rw [signed_cons, signed_cons, ← sizes] at same
          rw [← sizes] at beyond
          obtain ⟨digits, tails⟩ := digit_unique natural below positive beyond same
          have bytes : byte = other := by
            have small := byte.isLt
            have little := other.isLt
            apply Fin.ext
            rcases signed_byte_cases byte with ⟨_, is⟩ | ⟨_, is⟩ <;>
              rcases signed_byte_cases other with ⟨_, equals⟩ | ⟨_, equals⟩ <;>
                rw [is, equals] at digits <;> omega
          rw [bytes, value_injective sizes (by exact_mod_cast tails)]

/-- A needed first byte takes the number out of the range of the shorter strings. -/
theorem Shortest.out_of_range {first second : Fin 256} {rest : List (Fin 256)}
    (shortest : Shortest (first :: second :: rest)) :
    signed (first :: second :: rest) < -(128 * 256 ^ rest.length) ∨
      128 * 256 ^ rest.length ≤ signed (first :: second :: rest) := by
  obtain ⟨natural, below⟩ := value_int_bounds rest
  have positive : (0 : Int) < 256 ^ rest.length := pow_pos (by norm_num) _
  have small := first.isLt
  have little := second.isLt
  have spelled : signed (first :: second :: rest) =
      (signedByte first * 256 + second.val) * 256 ^ rest.length + value rest := by
    rw [signed_cons, value_cons, List.length_cons, pow_succ]
    push_cast
    ring
  unfold Shortest at shortest
  rw [spelled]
  rcases signed_byte_cases first with ⟨high, is⟩ | ⟨low, is⟩
  · left
    have digits : signedByte first * 256 + second.val ≤ -129 := by
      rw [is]
      omega
    nlinarith
  · right
    have digits : 128 ≤ signedByte first * 256 + second.val := by
      rw [is]
      omega
    nlinarith

theorem Shortest.length_le {bytes other : List (Fin 256)} (shortest : Shortest bytes)
    (nonempty : other ≠ []) (same : signed other = signed bytes) :
    bytes.length ≤ other.length := by
  obtain ⟨byte, later, rfl⟩ := List.exists_cons_of_ne_nil nonempty
  match bytes, shortest with
  | [_], _ => simp
  | first :: second :: rest, shortest =>
      by_contra longer
      have fewer : later.length ≤ rest.length := by
        simp only [List.length_cons] at longer
        omega
      have grows : (256 : Int) ^ later.length ≤ 256 ^ rest.length :=
        pow_le_pow_right₀ (by norm_num) fewer
      obtain ⟨above, under⟩ := signed_range byte later
      rcases shortest.out_of_range with negative | positive
      · omega
      · omega

/-- Every number has one shortest string. -/
theorem shortest_unique {left right : List (Fin 256)} (first : Shortest left)
    (second : Shortest right) (same : signed left = signed right) : left = right := by
  have forward := first.length_le second.ne_nil same.symm
  have back := second.length_le first.ne_nil same
  exact signed_injective (Nat.le_antisymm forward back) same

end SimpleLdapd.BigEndian
