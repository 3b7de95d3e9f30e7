import Mathlib.Data.Fin.Basic
import Mathlib.Data.List.Basic
import Mathlib.Algebra.Order.Ring.Nat
import Mathlib.Tactic.Linarith
import Mathlib.Tactic.Ring

/-!
# Base-256 numerals

Numbers as byte strings with the most significant byte first, the little-endian
digits a shifting loop produces, and the effect of the shift-and-or loop of a
64-bit reader. Nothing here depends on a particular wire format.
-/

namespace SimpleLdapd.BigEndian

def value (bytes : List (Fin 256)) : Nat :=
  bytes.foldl (fun total byte => total * 256 + byte.val) 0

/-- Low bytes first, until the number is used up; at most `fuel` of them. -/
def littleDigits : Nat → Nat → List (Fin 256)
  | 0, _ => []
  | fuel + 1, number =>
      if number = 0 then [] else Fin.ofNat 256 number :: littleDigits fuel (number / 256)

/-- One turn of `bits = (bits << 8) | byte` on 64 bits. -/
def shiftIn (bits : BitVec 64) (byte : Fin 256) : BitVec 64 :=
  bits <<< 8 ||| BitVec.ofNat 64 byte.val

theorem value_append_single (bytes : List (Fin 256)) (byte : Fin 256) :
    value (bytes ++ [byte]) = value bytes * 256 + byte.val := by
  simp [value]

theorem fold_value (bytes : List (Fin 256)) (start : Nat) :
    bytes.foldl (fun total byte => total * 256 + byte.val) start =
      start * 256 ^ bytes.length + value bytes := by
  induction bytes generalizing start with
  | nil => simp [value]
  | cons byte rest ih =>
      simp only [value, List.foldl_cons, List.length_cons]
      rw [ih (start * 256 + byte.val), ih (0 * 256 + byte.val), pow_succ]
      ring

theorem value_little_digits (fuel number : Nat) (bound : number < 256 ^ fuel) :
    value (littleDigits fuel number).reverse = number := by
  induction fuel generalizing number with
  | zero =>
      have zero : number = 0 := by simpa using bound
      simp [littleDigits, value, zero]
  | succ fuel ih =>
      rw [littleDigits]
      by_cases zero : number = 0
      · simp [zero, value]
      · have smaller : number / 256 < 256 ^ fuel := by
          apply Nat.div_lt_of_lt_mul
          rw [pow_succ] at bound
          linarith
        rw [if_neg zero, List.reverse_cons, value_append_single, ih _ smaller]
        simp only [Fin.ofNat_eq_cast, Fin.val_natCast]
        omega

theorem little_digits_length_le (fuel number count : Nat) (bound : number < 256 ^ count) :
    (littleDigits fuel number).length ≤ count := by
  induction fuel generalizing number count with
  | zero => simp [littleDigits]
  | succ fuel ih =>
      rw [littleDigits]
      by_cases zero : number = 0
      · simp [zero]
      · cases count with
        | zero =>
            have emptied : number = 0 := by simpa using bound
            exact absurd emptied zero
        | succ count =>
            have smaller : number / 256 < 256 ^ count := by
              apply Nat.div_lt_of_lt_mul
              rw [pow_succ] at bound
              linarith
            rw [if_neg zero, List.length_cons]
            exact Nat.succ_le_succ (ih _ _ smaller)

theorem little_digits_length_gt (fuel number count : Nat) (room : count < fuel)
    (large : 256 ^ count ≤ number) : count < (littleDigits fuel number).length := by
  induction fuel generalizing number count with
  | zero => omega
  | succ fuel ih =>
      have positive : 0 < 256 ^ count := Nat.pow_pos (by norm_num)
      rw [littleDigits, if_neg (by omega), List.length_cons]
      cases count with
      | zero => omega
      | succ count =>
          have quotient : 256 ^ count ≤ number / 256 := by
            rw [Nat.le_div_iff_mul_le (by norm_num), ← pow_succ]
            exact large
          have shorter := ih (number / 256) count (by omega) quotient
          omega

theorem little_digits_length_le_fuel (fuel number : Nat) :
    (littleDigits fuel number).length ≤ fuel := by
  induction fuel generalizing number with
  | zero => simp [littleDigits]
  | succ fuel ih =>
      rw [littleDigits]
      split
      · simp
      · have shorter := ih (number / 256)
        rw [List.length_cons]
        omega

theorem little_digits_ne_nil (fuel number : Nat) (positive : 0 < number) :
    littleDigits (fuel + 1) number ≠ [] := by
  rw [littleDigits, if_neg (by omega)]
  simp

theorem shift_or_eq (number : Nat) (byte : Fin 256) :
    number <<< 8 ||| byte.val = number * 256 + byte.val := by
  rw [← Nat.shiftLeft_add_eq_or_of_lt byte.isLt, Nat.shiftLeft_eq]

theorem shift_in_to_nat (bits : BitVec 64) (byte : Fin 256) :
    (shiftIn bits byte).toNat = (bits.toNat * 256 + byte.val) % 2 ^ 64 := by
  have small : byte.val < 2 ^ 64 := by
    have bounded := byte.isLt
    omega
  have window : bits.toNat <<< 8 % 2 ^ 64 = (bits.toNat % 2 ^ 56) <<< 8 := by
    simp only [Nat.shiftLeft_eq]
    omega
  rw [shiftIn, BitVec.toNat_or, BitVec.toNat_shiftLeft, BitVec.toNat_ofNat,
    Nat.mod_eq_of_lt small, window, shift_or_eq]
  have bounded := byte.isLt
  omega

/-- The reading loop computes the numeral modulo the word, above its start value. -/
theorem fold_shift_in (bytes : List (Fin 256)) (start : BitVec 64) :
    (bytes.foldl shiftIn start).toNat =
      (start.toNat * 256 ^ bytes.length + value bytes) % 2 ^ 64 := by
  induction bytes generalizing start with
  | nil =>
      have bounded := start.isLt
      simp [value, Nat.mod_eq_of_lt bounded]
  | cons byte rest ih =>
      have split : value (byte :: rest) = byte.val * 256 ^ rest.length + value rest := by
        simp only [value, List.foldl_cons]
        rw [fold_value]
        simp [value]
      rw [List.foldl_cons, ih, shift_in_to_nat, List.length_cons, split, pow_succ,
        Nat.add_mod, Nat.mod_mul_mod, ← Nat.add_mod]
      congr 1
      ring

end SimpleLdapd.BigEndian
