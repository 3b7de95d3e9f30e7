import Mathlib.Algebra.Ring.Int.Defs
import Mathlib.Data.List.TakeWhile
import SimpleLdapd.Utils.Dn

/-!
# C library text functions

`strtol`, `std::stoll`, character classes of the "C" locale and the small string
helpers that several source files define for themselves. A C string ends at the
first NUL byte, so `c_str()` may be shorter than the string it comes from.
-/

namespace SimpleLdapd.Text

/-- `std::isspace` in the "C" locale. -/
def isSpace (byte : Byte) : Bool := byte = 32 || (9 ≤ byte.val && byte.val ≤ 13)

def isDigit (byte : Byte) : Bool := 48 ≤ byte.val && byte.val ≤ 57

/-- The bytes in front of the first NUL. -/
def cString (value : Bytes) : Bytes := value.takeWhile (· ≠ 0)

def trim (value : Bytes) : Bytes :=
  ((value.dropWhile isSpace).reverse.dropWhile isSpace).reverse

def toUpperByte (byte : Byte) : Byte :=
  if 97 ≤ byte.val ∧ byte.val ≤ 122 then byte - 32 else byte

def toUpperAscii (value : Bytes) : Bytes := value.map toUpperByte

def digitsValue (digits : Bytes) : Nat :=
  digits.foldl (fun total digit => total * 10 + (digit.val - 48)) 0

/-- A decimal number at the start of the text and the bytes it takes up,
leading blanks included; `none` without a digit. -/
def parseDecimal (value : Bytes) : Option (Int × Nat) :=
  let blanks := (value.takeWhile isSpace).length
  let rest := value.drop blanks
  let sign := rest.head? = some (chr '-') || rest.head? = some (chr '+')
  let digits := (if sign then rest.tail else rest).takeWhile isDigit
  if digits = [] then none
  else
    let magnitude : Int := digitsValue digits
    some (if rest.head? = some (chr '-') then -magnitude else magnitude,
      blanks + (if sign then 1 else 0) + digits.length)

def longMax : Int := 2 ^ 63 - 1

def longMin : Int := -2 ^ 63

/-- `strtol(value.c_str(), &end, 10)`: the saturated number and `end - start`. -/
def strtol (value : Bytes) : Int × Nat :=
  match parseDecimal (cString value) with
  | none => (0, 0)
  | some (number, taken) => (max longMin (min longMax number), taken)

/-- The check after `strtol` at its two call sites: the whole C string is a
number and it is not negative. -/
def wholeNumber (value : Bytes) : Option Int :=
  let (number, taken) := strtol value
  if taken = 0 ∨ taken ≠ (cString value).length ∨ number < 0 then none else some number

/-- `std::stoll`; `none` where it throws. -/
def stoll (value : Bytes) : Option Int :=
  match parseDecimal (cString value) with
  | none => none
  | some (number, _) => if number < longMin ∨ longMax < number then none else some number

def hexDigit (nibble : Nat) : Byte :=
  (text "0123456789abcdef").getD nibble 0

def toHex (data : Bytes) : Bytes :=
  data.flatMap fun byte => [hexDigit (byte.val >>> 4), hexDigit (byte.val &&& 0x0f)]

/-- `std::to_string` of a signed number. -/
def decimal (number : Int) : Bytes := text (toString number)

section Decimal

theorem decimal_digits (number : Nat) :
    decimal number = (Nat.toDigits 10 number).map chr := by
  change (number.repr).toList.map chr = _
  rw [Nat.toList_repr]

theorem chr_digit {char : Char} (digit : char.isDigit = true) :
    (chr char).val = char.toNat ∧ isDigit (chr char) = true := by
  have bounds : 48 ≤ char.toNat ∧ char.toNat ≤ 57 := by
    simpa [Char.isDigit, UInt32.le_iff_toNat_le] using digit
  have value : (chr char).val = char.toNat := by
    simp only [chr, Fin.ofNat]
    omega
  simp [isDigit, value, bounds]

/-- A byte of a printed number is a digit, hence no blank, no sign and no NUL. -/
theorem decimal_digit {number : Nat} {byte : Byte} (member : byte ∈ decimal number) :
    isDigit byte = true := by
  rw [decimal_digits] at member
  obtain ⟨char, digit, rfl⟩ := List.mem_map.mp member
  exact (chr_digit (Nat.isDigit_of_mem_toDigits (by decide) (by decide) digit)).2

theorem digits_value_chars {chars : List Char} (digits : ∀ char ∈ chars, char.isDigit = true) :
    digitsValue (chars.map chr) = Nat.ofDigitChars 10 chars 0 := by
  rw [digitsValue, List.foldl_map, Nat.ofDigitChars_eq_foldl]
  apply List.foldl_ext
  intro total char member
  rw [(chr_digit (digits char member)).1, Nat.mul_comm]
  rfl

theorem decimal_value (number : Nat) : digitsValue (decimal number) = number := by
  rw [decimal_digits, digits_value_chars, Nat.ofDigitChars_ten_toDigits]
  intro char member
  exact Nat.isDigit_of_mem_toDigits (by decide) (by decide) member

theorem decimal_ne_nil (number : Nat) : decimal number ≠ [] := by
  rw [decimal_digits, ne_eq, List.map_eq_nil_iff]
  exact Nat.toDigits_ne_nil

theorem decimal_length_le {number : Nat} (small : number < 2 ^ 31) :
    (decimal number).length ≤ 10 := by
  rw [decimal_digits, List.length_map, Nat.length_toDigits_le_iff (by decide) (by decide)]
  omega

theorem digit_not_space : ∀ byte : Byte, isDigit byte = true →
    isSpace byte = false ∧ byte ≠ chr '-' ∧ byte ≠ chr '+' ∧ byte ≠ 0 := by
  decide +kernel

theorem c_string_digits {digits : Bytes} (all : ∀ byte ∈ digits, isDigit byte = true) :
    cString digits = digits := by
  rw [cString, List.takeWhile_eq_self_iff]
  intro byte member
  simpa using (digit_not_space byte (all byte member)).2.2.2

theorem parse_digits {digits : Bytes} (all : ∀ byte ∈ digits, isDigit byte = true)
    (nonempty : digits ≠ []) :
    parseDecimal digits = some ((digitsValue digits : Int), digits.length) := by
  obtain ⟨first, rest, rfl⟩ := List.exists_cons_of_ne_nil nonempty
  obtain ⟨solid, notMinus, notPlus, _⟩ := digit_not_space first (all first (by simp))
  have whole : (first :: rest).takeWhile isDigit = first :: rest :=
    List.takeWhile_eq_self_iff.mpr all
  simp [parseDecimal, solid, notMinus, notPlus, whole]

/-- `strtol` reads back what `std::to_string` printed. -/
theorem whole_number_decimal {number : Nat} (small : (number : Int) ≤ longMax) :
    wholeNumber (decimal number) = some (number : Int) := by
  have digits : ∀ byte ∈ decimal number, isDigit byte = true := fun byte => decimal_digit
  have nonempty := decimal_ne_nil number
  have read : strtol (decimal number) = ((number : Int), (decimal number).length) := by
    rw [strtol, c_string_digits digits, parse_digits digits nonempty, decimal_value]
    simp only [longMax, longMin] at *
    rw [min_eq_right small, max_eq_right (by omega)]
  rw [wholeNumber, read, c_string_digits digits]
  simp [nonempty]

end Decimal

def unquote (value : Bytes) : Bytes :=
  if 2 ≤ value.length ∧ value.head? = some (chr '"') ∧ value.getLast? = some (chr '"') then
    Dn.substr value 1 (value.length - 2)
  else value

/-- The bytes accumulate in `acc`; a missing byte of the shorter side counts as zero. -/
def constantTimeEqual (left right : Bytes) : Bool :=
  let acc := (List.range (max left.length right.length)).foldl
    (fun acc index => acc ||| ((left.getD index 0).val ^^^ (right.getD index 0).val))
    ((left.length ^^^ right.length) % 256)
  acc = 0

section Pairs

/-- The characters of a quoted value up to its closing quote, and the rest after it. -/
def quotedValue : Bytes → Bytes × Bytes
  | [] => ([], [])
  | [byte] => if byte = chr '"' then ([], []) else ([byte], [])
  | byte :: next :: rest =>
      if byte = chr '"' then ([], next :: rest)
      else if byte = chr '\\' then
        let (value, remaining) := quotedValue rest
        (next :: value, remaining)
      else
        let (value, remaining) := quotedValue (next :: rest)
        (byte :: value, remaining)

/-- `key=value` pairs separated by commas; `normal` is applied to each key. A turn
consumes at least the `=`, so the text bounds the turns. -/
def parsePairsWith (normal : Bytes → Bytes) : Nat → Bytes → List (Bytes × Bytes)
  | 0, _ => []
  | fuel + 1, rest =>
      let start := rest.dropWhile fun byte => byte = chr ',' || isSpace byte
      match Dn.findByte (chr '=') start with
      | none => []
      | some position =>
          let key := normal (start.take position)
          match start.drop (position + 1) with
          | [] => [(key, [])]
          | byte :: tail =>
              if byte = chr '"' then
                let (value, remaining) := quotedValue tail
                (key, value) :: parsePairsWith normal fuel remaining
              else
                let value := (byte :: tail).takeWhile (· ≠ chr ',')
                (key, value) ::
                  parsePairsWith normal fuel ((byte :: tail).dropWhile (· ≠ chr ','))

def parsePairs (normal : Bytes → Bytes) (source : Bytes) : List (Bytes × Bytes) :=
  parsePairsWith normal (source.length + 1) source

/-- `pairs.count(key) ? pairs.at(key) : fallback`; a later pair replaces an earlier one. -/
def pairValue (pairs : List (Bytes × Bytes)) (key fallback : Bytes) : Bytes :=
  ((pairs.reverse.find? (·.1 = key)).map Prod.snd).getD fallback

end Pairs

end SimpleLdapd.Text
