import SimpleLdapd.Protocol.IntegerCoding

/-!
# ENUMERATED content octets (`BerWriter::writeEnumerated`, `BerReader::readEnumerated`)

The writer is the one of INTEGER. The reader has a loop of its own, which starts
from zero, so it sees the octets as an unsigned number and cuts that to the word
of an `int`. For a negative number this is off by a power of 256, which the cut
swallows from four octets on.
-/

namespace SimpleLdapd.Ber

open SimpleLdapd.Dn SimpleLdapd.BigEndian

section Reading

/-- The unsigned number, cut to the word. -/
theorem enumerated_of_value (content : Bytes) :
    (enumeratedOf content).toInt = (value content : Int).bmod (2 ^ 32) := by
  have start : (0 : BitVec 64).toNat = 0 := rfl
  rw [enumeratedOf, Int64.toInt_toInt32, Int64.toInt, Int64.toBitVec_ofBitVec,
    BitVec.toInt_eq_toNat_bmod, fold_shift_in, start, Nat.zero_mul, Nat.zero_add,
    Int.natCast_mod, Int.emod_bmod, Int.bmod_bmod_of_dvd (by decide)]

/-- Up to four octets fit into an `int`. -/
theorem signed_int_range {content : Bytes} (few : content.length ≤ 4) :
    -2 ^ 31 ≤ signed content ∧ signed content < 2 ^ 31 := by
  have range := @signed_range_le content 3 few
  norm_num at range ⊢
  exact range

/-- Up to four octets come out as the number they denote unless their sign is lost. -/
theorem enumerated_of_signed_iff {content : Bytes} (few : content.length ≤ 4) :
    (enumeratedOf content).toInt = signed content ↔
      (content.headD 0).val < 128 ∨ content.length = 4 := by
  obtain ⟨above, below⟩ := signed_int_range few
  have word : ((2 ^ 32 : Nat) : Int) = 256 ^ 4 := by norm_num
  rw [enumerated_of_value, value_of_signed, Int.bmod_eq_iff (by decide), word]
  have range : -(256 ^ 4 / 2) ≤ signed content ∧ signed content < (256 ^ 4 + 1) / 2 := by
    norm_num
    omega
  rw [and_iff_right range.1, and_iff_right range.2]
  by_cases high : 128 ≤ (content.headD 0).val
  · rw [if_pos high, or_iff_right (Nat.not_lt.mpr high), sub_add_cancel_left,
      Int.dvd_neg]
    constructor
    · intro divides
      have least : 4 ≤ content.length :=
        (Nat.pow_dvd_pow_iff_le_right (by norm_num : 1 < 256)).mp (by exact_mod_cast divides)
      exact Nat.le_antisymm few least
    · intro four
      rw [four]
  · rw [if_neg high, add_zero, sub_self]
    exact iff_of_true (dvd_zero _) (Or.inl (Nat.not_le.mp high))

/-- The two readers on the same octets. -/
theorem enumerated_of_integer_iff {content : Bytes} (few : content.length ≤ 4) :
    (enumeratedOf content).toInt = (integerOf content).toInt ↔
      (content.headD 0).val < 128 ∨ content.length = 4 := by
  rw [integer_of_signed (by omega), enumerated_of_signed_iff few]

end Reading

section Writing

variable (number : Int32)

theorem encoded_int_signed : signed (encodeInteger number.toInt64) = number.toInt := by
  rw [encode_integer_signed, Int32.toInt_toInt64]

/-- The shortest octets of an `int` are at most four, and four only outside three octets. -/
theorem encoded_int_length : (encodeInteger number.toInt64).length ≤ 4 ∧
    ((encodeInteger number.toInt64).length = 4 ↔
      number.toInt < -2 ^ 23 ∨ 2 ^ 23 ≤ number.toInt) := by
  have shortest := encode_integer_shortest number.toInt64
  have denotes := encoded_int_signed number
  have above := Int32.le_toInt number
  have below := Int32.toInt_lt number
  rw [← denotes] at above below ⊢
  cases content : encodeInteger number.toInt64 with
  | nil => exact absurd content shortest.ne_nil
  | cons first tail =>
      rw [content] at shortest above below
      cases tail with
      | nil =>
          have range := signed_range first []
          norm_num at range ⊢
          omega
      | cons second rest =>
          have beyond := shortest.out_of_range
          have range := signed_range first (second :: rest)
          rw [List.length_cons] at range
          simp only [List.length_cons]
          have few : rest.length < 3 := by
            apply (Nat.pow_lt_pow_iff_right (by norm_num : 1 < 256)).mp
            have reach : (256 : Int) ^ rest.length < 256 ^ 3 := by
              norm_num at above below ⊢
              omega
            exact_mod_cast reach
          have counts : rest.length = 0 ∨ rest.length = 1 ∨ rest.length = 2 := by omega
          rcases counts with count | count | count
          all_goals
            rw [count] at beyond range ⊢
            norm_num at beyond range ⊢
            omega

/-- A number comes back from its own octets unless they are fewer than four and it is
negative. -/
theorem enumerated_round_trip_iff :
    enumeratedOf (encodeInteger number.toInt64) = number ↔
      0 ≤ number.toInt ∨ number.toInt < -2 ^ 23 := by
  obtain ⟨few, four⟩ := encoded_int_length number
  have sign := first_byte_iff (encodeInteger number.toInt64)
  rw [encoded_int_signed] at sign
  rw [← Int32.toInt_inj, ← encoded_int_signed number, enumerated_of_signed_iff few, four, sign,
    encoded_int_signed]
  omega

/-- At any place the reader delivers what it makes of the octets written there. -/
theorem read_written_enumerated (before after : Bytes) :
    (readEnumerated.run (reading before (writeEnumerated number ++ after))).1 =
      some (enumeratedOf (encodeInteger number.toInt64)) := by
  obtain ⟨few, some⟩ := encode_integer_length number.toInt64
  have reads := reads_enumerated_octets some few before after
  exact congrArg Prod.fst reads

end Writing

/-- A number is read back from where it was written exactly when it is not negative or takes
four octets, and these are the octets on which the readers of the two types agree. -/
theorem enumerated_coding_iff (number : Int32) (before after : Bytes) :
    ((readEnumerated.run (reading before (writeEnumerated number ++ after))).1 = some number ↔
      0 ≤ number.toInt ∨ number.toInt < -2 ^ 23) ∧
      ∀ content : Bytes, 1 ≤ content.length → content.length ≤ 4 →
        ∃ enumerated integer,
          Reads readEnumerated (writeTagged kBerEnumerated content) enumerated ∧
            Reads readInteger (writeTagged kBerInteger content) integer ∧
            (enumerated.toInt = integer.toInt ↔
              (content.headD 0).val < 128 ∨ content.length = 4) := by
  constructor
  · rw [read_written_enumerated, Option.some_inj]
    exact enumerated_round_trip_iff number
  · intro content some few
    have filled := Nat.one_le_iff_ne_zero.mp some
    refine ⟨enumeratedOf content, integerOf content, ?_, ?_, ?_⟩
    · exact reads_enumerated_octets filled (by omega)
    · exact reads_integer_octets filled (by omega)
    · exact enumerated_of_integer_iff few

/-- `-1` is written as one octet of ones, which the reader takes for 255. -/
theorem minus_one_misread :
    writeEnumerated (-1) = [0x0A, 0x01, 0xff] ∧
      (readEnumerated.run (reading [] (writeEnumerated (-1)))).1 = some 255 ∧
      (readEnumerated.run (reading [] (writeEnumerated (-1)))).1 ≠ some (-1) ∧
      (readInteger.run (reading [] (writeTagged kBerInteger [0xff]))).1 = some (-1) := by
  decide +kernel

end SimpleLdapd.Ber
