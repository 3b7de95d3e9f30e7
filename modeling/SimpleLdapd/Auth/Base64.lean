import Mathlib.Data.Nat.Digits.Lemmas
import SimpleLdapd.Auth.PasswordRoundTrip
import SimpleLdapd.Library.TwosComplement

/-!
# The base64 decoder (`base64Decode` in `auth/password.cpp`)

The decoder passes over padding and line breaks, so only the other characters
count. Its accumulator takes in six bits for each of them and is never reduced.
The bytes that are cut out of it depend on its low bits alone, but the integer
that the expression `(val << 6) + digit` stands for grows with the text.
-/

namespace SimpleLdapd.Password

open Dn

/-- The characters that the loop goes past. -/
def Ignored (byte : Byte) : Prop :=
  byte = chr '=' ∨ byte = chr '\n' ∨ byte = chr '\r' ∨ byte = chr ' '

instance (byte : Byte) : Decidable (Ignored byte) := inferInstanceAs (Decidable (_ ∨ _))

def significant (source : Bytes) : Bytes := source.filter fun byte => ¬Ignored byte

section Skipping

theorem decode_from_ignored {byte : Byte} (ignored : Ignored byte) (value : Int32) (bits : Int)
    (out rest : Bytes) :
    base64DecodeFrom value bits out (byte :: rest) = base64DecodeFrom value bits out rest := by
  unfold Ignored at ignored
  rw [base64DecodeFrom, if_pos ignored]

theorem decode_from_significant (source : Bytes) (value : Int32) (bits : Int) (out : Bytes) :
    base64DecodeFrom value bits out (significant source) =
      base64DecodeFrom value bits out source := by
  induction source generalizing value bits out with
  | nil => rfl
  | cons byte rest ih =>
      unfold significant at ih ⊢
      by_cases ignored : Ignored byte
      · rw [List.filter_cons_of_neg (by simpa using ignored), decode_from_ignored ignored, ih]
      · have kept := ignored
        unfold Ignored at kept
        rw [List.filter_cons_of_pos (by simpa using ignored), base64DecodeFrom, base64DecodeFrom,
          if_neg kept, if_neg kept]
        cases base64Value byte with
        | none => rfl
        | some digit => simp only [ih]

theorem significant_ignored {inserted : Bytes} (ignored : ∀ byte ∈ inserted, Ignored byte) :
    significant inserted = [] := by
  unfold significant
  rw [List.filter_eq_nil_iff]
  intro byte member
  simpa using ignored byte member

/-- The decoder inverts the encoder, and padding, blanks and line breaks make no difference
wherever they stand in a text. -/
theorem base64_coding :
    (∀ data, base64Decode (base64Encode data) = data) ∧
      (∀ source, base64Decode (significant source) = base64Decode source) ∧
      ∀ before inserted after, (∀ byte ∈ inserted, Ignored byte) →
        base64Decode (before ++ inserted ++ after) = base64Decode (before ++ after) := by
  have filtered (source : Bytes) : base64Decode (significant source) = base64Decode source :=
    decode_from_significant source 0 (-8) []
  refine ⟨base64_round_trip, filtered, ?_⟩
  intro before inserted after ignored
  rw [← filtered (before ++ inserted ++ after), ← filtered (before ++ after)]
  congr 1
  have gone := significant_ignored ignored
  unfold significant at gone ⊢
  rw [List.filter_append, List.filter_append, List.filter_append, gone, List.append_nil]

end Skipping

section Range

/-- What an `int` can hold. -/
def FitsInt (number : Int) : Prop := -2 ^ 31 ≤ number ∧ number < 2 ^ 31

instance (number : Int) : Decidable (FitsInt number) := inferInstanceAs (Decidable (_ ∧ _))

/-- The integers that `(val << 6) + digit` stands for in the turns of the loop of
`base64Decode`, before they are stored in the `int`. -/
def accumulated (value : Int32) : Bytes → List Int
  | [] => []
  | byte :: rest =>
      if Ignored byte then accumulated value rest
      else
        match base64Value byte with
        | none => []
        | some digit =>
            (value.toInt * 64 + digit) :: accumulated ((value <<< 6) + Int32.ofNat digit) rest

/-- The base64 characters in front of the first character that is invalid. -/
def spelling (source : Bytes) : Bytes :=
  (significant source).takeWhile fun byte => (base64Value byte).isSome

/-- Behind the leading `A`s, which stand for zero, are at most five characters, or six of
which the first is the `B` of one. -/
def SpellsInt (source : Bytes) : Prop :=
  let core := (spelling source).dropWhile (· = chr 'A')
  core.length ≤ 5 ∨ (core.length = 6 ∧ core.head? = some (chr 'B'))

instance (source : Bytes) : Decidable (SpellsInt source) :=
  inferInstanceAs (Decidable (_ ∨ _))

/-- The values of these characters. -/
def digitsOf (source : Bytes) : List Nat := (spelling source).filterMap base64Value

def turns (value : Int32) : List Nat → List Int
  | [] => []
  | digit :: rest =>
      (value.toInt * 64 + digit) :: turns ((value <<< 6) + Int32.ofNat digit) rest

theorem digits_of_ignored {byte : Byte} (ignored : Ignored byte) (rest : Bytes) :
    digitsOf (byte :: rest) = digitsOf rest := by
  unfold digitsOf spelling significant
  rw [List.filter_cons_of_neg (by simpa using ignored)]

theorem digits_of_significant {byte : Byte} (kept : ¬Ignored byte) (rest : Bytes) :
    digitsOf (byte :: rest) =
      match base64Value byte with
      | none => []
      | some digit => digit :: digitsOf rest := by
  unfold digitsOf spelling significant
  rw [List.filter_cons_of_pos (by simpa using kept), List.takeWhile_cons]
  cases valued : base64Value byte with
  | none => rfl
  | some digit => simp [valued]

/-- Only the values of the characters count. -/
theorem accumulated_turns (source : Bytes) (value : Int32) :
    accumulated value source = turns value (digitsOf source) := by
  induction source generalizing value with
  | nil => rfl
  | cons byte rest ih =>
      rw [accumulated]
      by_cases ignored : Ignored byte
      · rw [if_pos ignored, digits_of_ignored ignored, ih]
      · rw [if_neg ignored, digits_of_significant ignored]
        cases base64Value byte with
        | none => rfl
        | some digit => simp only [turns, ih]

/-- What a turn stores is its integer, cut to the word. -/
theorem stored_integer (value : Int32) {digit : Nat} (small : digit < 64) :
    (value <<< 6) + Int32.ofNat digit = Int32.ofInt (value.toInt * 64 + digit) := by
  have word : value.toInt = (value.toBitVec.toNat : Int).bmod (2 ^ 32) := by
    rw [Int32.toInt, BitVec.toInt_eq_toNat_bmod]
  have integer : (value.toInt * 64 + digit).bmod (2 ^ 32) =
      ((value.toBitVec.toNat * 64 + digit : Nat) : Int).bmod (2 ^ 32) := by
    rw [word, ← Int.bmod_add_bmod, Int.bmod_mul_bmod, Int.bmod_add_bmod]
    push_cast
    rfl
  have taken := shifted_in_value value small
  have size : Int32.size = 2 ^ 32 := rfl
  rw [← Int32.toInt_inj, Int32.toInt_ofInt, size, integer, Int32.toInt,
    BitVec.toInt_eq_toNat_bmod, taken, Int.natCast_mod, Int.emod_bmod]

/-- An accumulator that is not negative holds the next integer if it can. -/
theorem next_value {value : Int32} {digit : Nat} (natural : 0 ≤ value.toInt) (small : digit < 64)
    (fits : value.toInt * 64 + digit < 2 ^ 31) :
    ((value <<< 6) + Int32.ofNat digit).toInt = value.toInt * 64 + digit := by
  rw [stored_integer value small]
  exact Int32.toInt_ofInt_of_le (by omega) fits

/-- The number that digits spell in base 64 behind what was read before. -/
def spelled (start : Nat) (digits : List Nat) : Nat :=
  digits.foldl (fun total digit => total * 64 + digit) start

theorem spelled_cons (start digit : Nat) (rest : List Nat) :
    spelled start (digit :: rest) = spelled (start * 64 + digit) rest := rfl

variable {digits : List Nat} (small : ∀ digit ∈ digits, digit < 64)

include small

theorem spelled_range (start : Nat) :
    start * 64 ^ digits.length ≤ spelled start digits ∧
      spelled start digits < (start + 1) * 64 ^ digits.length := by
  induction digits generalizing start with
  | nil => simp [spelled]
  | cons digit rest ih =>
      obtain ⟨first, later⟩ := List.forall_mem_cons.mp small
      obtain ⟨above, below⟩ := ih later (start * 64 + digit)
      rw [spelled_cons, List.length_cons, pow_succ]
      have least : start * (64 ^ rest.length * 64) ≤ (start * 64 + digit) * 64 ^ rest.length := by
        nlinarith
      have most : (start * 64 + digit + 1) * 64 ^ rest.length ≤
          (start + 1) * (64 ^ rest.length * 64) := by
        have step : start * 64 + digit + 1 ≤ (start + 1) * 64 := by omega
        calc (start * 64 + digit + 1) * 64 ^ rest.length
            ≤ (start + 1) * 64 * 64 ^ rest.length := Nat.mul_le_mul_right _ step
          _ = (start + 1) * (64 ^ rest.length * 64) := by ring
      omega

/-- No turn leaves the range if the whole number is within it. -/
theorem turns_fit_iff {value : Int32} {start : Nat} (held : value.toInt = start) :
    (∀ number ∈ turns value digits, FitsInt number) ↔ spelled start digits < 2 ^ 31 := by
  induction digits generalizing value start with
  | nil =>
      have bound := Int32.toInt_lt value
      rw [held] at bound
      refine iff_of_true ?_ (by exact_mod_cast bound)
      intro number member
      cases member
  | cons digit rest ih =>
      obtain ⟨first, later⟩ := List.forall_mem_cons.mp small
      obtain ⟨least, _⟩ := spelled_range later (start * 64 + digit)
      have grown : start * 64 + digit ≤ spelled (start * 64 + digit) rest :=
        le_trans (Nat.le_mul_of_pos_right _ (by positivity)) least
      rw [turns, List.forall_mem_cons, spelled_cons]
      by_cases fits : start * 64 + digit < 2 ^ 31
      · have inside : value.toInt * 64 + digit < 2 ^ 31 := by
          rw [held]
          exact_mod_cast fits
        have next := next_value (by omega) first inside
        rw [ih later (by rw [next, held]; norm_cast)]
        have head : FitsInt (value.toInt * 64 + digit) := ⟨by omega, inside⟩
        rw [and_iff_right head]
      · have outside : ¬FitsInt (value.toInt * 64 + digit) := by
          rintro ⟨_, inside⟩
          rw [held] at inside
          exact fits (by exact_mod_cast inside)
        exact iff_of_false (fun both => outside both.1) (by omega)

omit small

theorem spelled_leading_zeros (digits : List Nat) :
    spelled 0 (digits.dropWhile (· = 0)) = spelled 0 digits := by
  induction digits with
  | nil => rfl
  | cons digit rest ih =>
      rw [List.dropWhile_cons]
      by_cases zero : digit = 0
      · rw [if_pos (by simpa using zero), ih, zero, spelled_cons]
      · rw [if_neg (by simpa using zero)]

/-- Numbers without leading zeros below twice the fifth power. -/
theorem spelled_fits_iff {digit : Nat} {rest : List Nat} (first : digit < 64)
    (later : ∀ digit ∈ rest, digit < 64) (nonzero : digit ≠ 0) :
    spelled 0 (digit :: rest) < 2 ^ 31 ↔
      rest.length ≤ 4 ∨ (rest.length = 5 ∧ digit = 1) := by
  obtain ⟨above, below⟩ := spelled_range later digit
  rw [spelled_cons, Nat.zero_mul, Nat.zero_add]
  have counts : rest.length ≤ 4 ∨ rest.length = 5 ∨ 6 ≤ rest.length := by omega
  rcases counts with few | five | many
  · have power : 64 ^ rest.length ≤ 64 ^ 4 := Nat.pow_le_pow_right (by norm_num) few
    have top : (digit + 1) * 64 ^ rest.length ≤ 64 * 64 ^ 4 := Nat.mul_le_mul first power
    refine iff_of_true ?_ (Or.inl few)
    norm_num at top ⊢
    omega
  · rw [five] at above below ⊢
    norm_num at above below ⊢
    omega
  · have power : 64 ^ 6 ≤ 64 ^ rest.length := Nat.pow_le_pow_right (by norm_num) many
    have bottom : 1 * 64 ^ 6 ≤ digit * 64 ^ rest.length :=
      Nat.mul_le_mul (Nat.one_le_iff_ne_zero.mpr nonzero) power
    refine iff_of_false ?_ (by omega)
    norm_num at bottom ⊢
    omega

theorem value_small : ∀ (byte : Byte), ∀ digit ∈ base64Value byte, digit < 64 := by
  decide +kernel

theorem value_zero_iff : ∀ byte : Byte, base64Value byte = some 0 ↔ byte = chr 'A' := by
  decide +kernel

theorem value_one_iff : ∀ byte : Byte, base64Value byte = some 1 ↔ byte = chr 'B' := by
  decide +kernel

theorem values_small (chars : Bytes) : ∀ digit ∈ chars.filterMap base64Value, digit < 64 := by
  intro digit member
  obtain ⟨byte, _, valued⟩ := List.mem_filterMap.mp member
  exact value_small byte digit valued

theorem spelling_valued {source : Bytes} {byte : Byte} (member : byte ∈ spelling source) :
    ∃ digit, base64Value byte = some digit := by
  have valid := List.mem_takeWhile_imp member
  exact Option.isSome_iff_exists.mp valid

variable {chars : Bytes} (valued : ∀ byte ∈ chars, ∃ digit, base64Value byte = some digit)

include valued

theorem values_length : (chars.filterMap base64Value).length = chars.length := by
  induction chars with
  | nil => rfl
  | cons byte rest ih =>
      obtain ⟨⟨digit, here⟩, later⟩ := List.forall_mem_cons.mp valued
      rw [List.filterMap_cons_some here, List.length_cons, List.length_cons, ih later]

/-- The leading zeros are the leading `A`s. -/
theorem values_leading_zeros :
    (chars.filterMap base64Value).dropWhile (· = 0) =
      (chars.dropWhile (· = chr 'A')).filterMap base64Value := by
  induction chars with
  | nil => rfl
  | cons byte rest ih =>
      obtain ⟨⟨digit, here⟩, later⟩ := List.forall_mem_cons.mp valued
      have zero := value_zero_iff byte
      rw [here, Option.some_inj] at zero
      rw [List.filterMap_cons_some here, List.dropWhile_cons, List.dropWhile_cons]
      by_cases leading : digit = 0
      · rw [if_pos (by simpa using leading), if_pos (by simpa using zero.mp leading), ih later]
      · rw [if_neg (by simpa using leading), if_neg (by simpa using mt zero.mpr leading),
          List.filterMap_cons_some here]

omit valued

/-- The texts in range, by the number that their characters spell. -/
theorem spells_int_iff (source : Bytes) :
    SpellsInt source ↔ spelled 0 (digitsOf source) < 2 ^ 31 := by
  have valued : ∀ byte ∈ spelling source, ∃ digit, base64Value byte = some digit :=
    fun _ => spelling_valued
  rw [← spelled_leading_zeros, digitsOf, values_leading_zeros valued, SpellsInt]
  cases core : (spelling source).dropWhile (· = chr 'A') with
  | nil => exact iff_of_true (Or.inl (by simp)) (by decide)
  | cons byte rest =>
      have inside : ∀ other ∈ byte :: rest, ∃ digit, base64Value other = some digit := by
        intro other member
        rw [← core] at member
        exact valued other ((List.dropWhile_sublist _).subset member)
      obtain ⟨⟨digit, here⟩, later⟩ := List.forall_mem_cons.mp inside
      have leads : byte ≠ chr 'A' := by
        have filled : (spelling source).dropWhile (· = chr 'A') ≠ [] := by simp [core]
        have head := List.head_dropWhile_not _ filled
        simpa [core] using head
      have nonzero : digit ≠ 0 := by
        rintro rfl
        exact leads ((value_zero_iff byte).mp here)
      have one := value_one_iff byte
      rw [here, Option.some_inj] at one
      rw [List.filterMap_cons_some here, spelled_fits_iff (value_small byte digit here)
        (values_small rest) nonzero, values_length later, List.length_cons, List.head?_cons,
        Option.some_inj, ← one]
      omega

/-- The accumulator keeps within an `int` exactly on the texts that spell one. -/
theorem base64_int_fits_iff (source : Bytes) :
    (∀ number ∈ accumulated 0 source, FitsInt number) ↔ SpellsInt source := by
  have start : (0 : Int32).toInt = (0 : Nat) := rfl
  rw [accumulated_turns, spells_int_iff]
  exact turns_fit_iff (values_small _) start

/-- Six characters with a `C` in front reach past the largest `int`. -/
theorem six_characters_overflow :
    accumulated 0 (text "CAAAAA") = [2, 128, 8192, 524288, 33554432, 2 ^ 31] ∧
      ¬∀ number ∈ accumulated 0 (text "CAAAAA"), FitsInt number := by
  decide +kernel

end Range

section Encoded

theorem digits_of_table {digit : Nat} (small : digit < 64) (rest : Bytes) :
    digitsOf (base64Table.getD digit 0 :: rest) = digit :: digitsOf rest := by
  obtain ⟨known, kept⟩ := table_digit ⟨digit, small⟩
  rw [digits_of_significant kept, known]

theorem digits_of_padding (rest : Bytes) : digitsOf (chr '=' :: rest) = digitsOf rest :=
  digits_of_ignored (Or.inl rfl) rest

/-- Four digits stand for three bytes. -/
theorem four_digits {number : Nat} (start : Nat) (bound : number < 2 ^ 24) :
    (((start * 64 + (number >>> 18) % 64) * 64 + (number >>> 12) % 64) * 64 +
      (number >>> 6) % 64) * 64 + number % 64 = start * 2 ^ 24 + number := by
  simp only [Nat.shiftRight_eq_div_pow]
  omega

/-- An encoded string spells its number, with zeros behind it that fill the last digit. -/
theorem spelled_encode (data : Bytes) (start : Nat) :
    start * 256 ^ data.length + BigEndian.value data ≤
      spelled start (digitsOf (base64Encode data)) := by
  have small (number : Nat) : number % 64 < 64 := Nat.mod_lt _ (by decide)
  have nothing : BigEndian.value [] = 0 := rfl
  have finished (total : Nat) : spelled total (digitsOf []) = total := rfl
  induction data using base64Encode.induct generalizing start with
  | case1 =>
      rw [base64Encode, finished, nothing, List.length_nil]
      omega
  | case2 first =>
      have bits := packed_bytes first 0 0
      simp only [Fin.val_zero, Nat.zero_shiftLeft, Nat.or_zero, Nat.zero_mul, Nat.add_zero] at bits
      have bound := first.isLt
      simp only [base64Encode, low_six_bits, bits]
      rw [digits_of_table (small _), digits_of_table (small _), digits_of_padding,
        digits_of_padding, spelled_cons, spelled_cons, finished, BigEndian.value_cons, nothing]
      simp only [Nat.shiftRight_eq_div_pow, List.length_cons, List.length_nil]
      omega
  | case3 first second =>
      have bits := packed_bytes first second 0
      simp only [Fin.val_zero, Nat.or_zero, Nat.add_zero] at bits
      have bound := first.isLt
      have secondBound := second.isLt
      simp only [base64Encode, low_six_bits, bits]
      rw [digits_of_table (small _), digits_of_table (small _), digits_of_table (small _),
        digits_of_padding, spelled_cons, spelled_cons, spelled_cons, finished,
        BigEndian.value_cons, BigEndian.value_cons, nothing]
      simp only [Nat.shiftRight_eq_div_pow, List.length_cons, List.length_nil]
      omega
  | case4 first second third rest ih =>
      have bound := first.isLt
      have secondBound := second.isLt
      have thirdBound := third.isLt
      simp only [base64Encode, low_six_bits, packed_bytes]
      rw [digits_of_table (small _), digits_of_table (small _), digits_of_table (small _),
        digits_of_table (small _), spelled_cons, spelled_cons, spelled_cons, spelled_cons,
        four_digits start (by omega)]
      refine le_trans (le_of_eq ?_) (ih _)
      rw [BigEndian.value_cons, BigEndian.value_cons, BigEndian.value_cons]
      simp only [List.length_cons, pow_succ]
      ring

/-- What is hashed and encoded is out of range unless it starts with a zero byte. -/
theorem encoded_overflows {data : Bytes} (long : 5 ≤ data.length) (nonzero : data.headD 0 ≠ 0) :
    ¬SpellsInt (base64Encode data) := by
  have least := spelled_encode data 0
  rw [spells_int_iff, Nat.not_lt]
  cases data with
  | nil => cases long
  | cons first rest =>
      rw [List.length_cons] at long
      have grows : 256 ^ 4 ≤ 256 ^ rest.length := Nat.pow_le_pow_right (by norm_num) (by omega)
      have leading : 1 ≤ first.val := Nat.one_le_iff_ne_zero.mpr fun zero => nonzero (Fin.ext zero)
      have scaled : 1 * 256 ^ 4 ≤ first.val * 256 ^ rest.length := Nat.mul_le_mul leading grows
      rw [BigEndian.value_cons] at least
      omega

end Encoded

end SimpleLdapd.Password
