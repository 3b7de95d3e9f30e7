import SimpleLdapd.Protocol.WireCodes

/-!
# INTEGER content octets (`BerWriter::encodeInteger`, `BerReader::readInteger`)

The writer drops sign bytes from the eight of the machine word, the reader shifts
the octets into a word of sign bits. Both are read here as two's complement of
any length: what is written is the one shortest string of the number, and up to
eight octets are read as the number they denote.
-/

namespace SimpleLdapd.Ber

open SimpleLdapd.Dn SimpleLdapd.BigEndian

theorem is_negative_iff (content : Bytes) :
    isNegative content = true ↔ 128 ≤ (content.headD 0).val := by
  rw [isNegative, decide_eq_true_eq, ne_eq, high_bit_clear_iff, Nat.not_lt]

theorem twos_complement_signed (content : Bytes) : twosComplement content = signed content := by
  have readings := value_of_signed content
  unfold twosComplement
  by_cases high : 128 ≤ (content.headD 0).val
  · rw [if_pos high] at readings
    rw [if_pos ((is_negative_iff content).mpr high)]
    omega
  · rw [if_neg high] at readings
    rw [if_neg (mt (is_negative_iff content).mp high)]
    omega

section Reading

/-- Up to eight octets fit into the word. -/
theorem signed_word_range {content : Bytes} (few : content.length ≤ 8) :
    -2 ^ 63 ≤ signed content ∧ signed content < 2 ^ 63 := by
  have range := @signed_range_le content 7 few
  norm_num at range ⊢
  exact range

/-- The word that the loop leaves, and the number it stands for, differ by whole words. -/
theorem shifted_word (content : Bytes) :
    ∃ words : Int, ((content.foldl shiftIn
        (if isNegative content then BitVec.allOnes 64 else 0)).toNat : Int) =
      signed content + words * 2 ^ 64 := by
  rw [← twos_complement_signed, fold_shift_in, twosComplement]
  have split (total : Nat) :
      ((total % 2 ^ 64 : Nat) : Int) = total - (total / 2 ^ 64 : Nat) * 2 ^ 64 := by
    omega
  rw [split]
  by_cases negative : isNegative content = true
  · rw [if_pos negative, if_pos negative, BitVec.toNat_allOnes]
    refine ⟨256 ^ content.length -
      (((2 ^ 64 - 1) * 256 ^ content.length + value content) / 2 ^ 64 : Nat), ?_⟩
    push_cast
    ring
  · rw [if_neg negative, if_neg negative]
    refine ⟨-(((0#64).toNat * 256 ^ content.length + value content) / 2 ^ 64 : Nat), ?_⟩
    push_cast
    simp
    ring

/-- The reader delivers the number that its octets denote. -/
theorem integer_of_signed {content : Bytes} (few : content.length ≤ 8) :
    (integerOf content).toInt = signed content := by
  obtain ⟨words, same⟩ := shifted_word content
  obtain ⟨above, below⟩ := signed_word_range few
  unfold integerOf
  have word : ((2 ^ 64 : Nat) : Int) = 2 ^ 64 := by norm_num
  rw [Int64.toInt, BitVec.toInt_eq_toNat_bmod, Int64.toBitVec_ofBitVec, same, ← word,
    Int.add_mul_bmod_self_right]
  exact Int.bmod_eq_of_le (by norm_num; omega) (by norm_num; omega)

end Reading

section Writing

theorem redundant_iff (first second : Byte) :
    ((first = 0x00 ∧ second.val &&& 0x80 = 0) ∨ (first = 0xff ∧ second.val &&& 0x80 ≠ 0)) ↔
      (first.val = 0 ∧ second.val < 128) ∨ (first.val = 255 ∧ 128 ≤ second.val) := by
  rw [ne_eq, high_bit_clear_iff, Nat.not_lt, Fin.ext_iff, Fin.ext_iff]
  rfl

theorem trim_sign_shortest {bytes : Bytes} (nonempty : bytes ≠ []) :
    Shortest (trimSign bytes) := by
  induction bytes using trimSign.induct with
  | case1 first second rest redundant ih =>
      rw [trimSign, if_pos redundant]
      exact ih (List.cons_ne_nil _ _)
  | case2 first second rest needed =>
      rw [trimSign, if_neg needed]
      exact fun redundant => needed ((redundant_iff first second).mpr redundant)
  | case3 short shape =>
      rw [trimSign.eq_2 short shape]
      cases short with
      | nil => exact absurd rfl nonempty
      | cons first rest =>
          cases rest with
          | nil => trivial
          | cons second rest => exact absurd rfl (shape first second rest)

theorem encode_integer_shortest (number : Int64) : Shortest (encodeInteger number) :=
  trim_sign_shortest (by simp)

theorem integer_of_encode (number : Int64) : integerOf (encodeInteger number) = number :=
  encode_integer_value number

theorem encode_integer_signed (number : Int64) :
    signed (encodeInteger number) = number.toInt := by
  rw [← integer_of_signed (encode_integer_length number).1, integer_of_encode]

/-- Octets in shortest form are the ones the writer produces for their number. -/
theorem encode_integer_of {content : Bytes} (shortest : Shortest content)
    (few : content.length ≤ 8) : encodeInteger (integerOf content) = content := by
  apply shortest_unique (encode_integer_shortest _) shortest
  rw [encode_integer_signed, integer_of_signed few]

end Writing

section Coding

/-- The octets are the last ones the reader has passed. -/
def PassedLast (content : Bytes) (after : BerReader) : Prop :=
  content.length ≤ after.offset ∧
    substr after.data (after.offset - content.length) content.length = content

theorem consume_some {count : Nat} {reader after : BerReader} {bytes : Bytes}
    (taken : (consume count).run reader = (some bytes, after)) :
    reader.ok = true ∧ reader.offset + count ≤ reader.data.length ∧
      bytes = substr reader.data reader.offset count ∧
      after = { reader with offset := reader.offset + count } := by
  unfold consume at taken
  simp only at taken
  split at taken
  · cases taken
  · rename_i inside
    simp only [Bool.or_eq_true, Bool.not_eq_true', decide_eq_true_eq, not_or, Bool.not_eq_false,
      Nat.not_lt] at inside
    cases taken
    exact ⟨inside.1, inside.2, rfl, rfl⟩

theorem consume_passed {count : Nat} {reader after : BerReader} {bytes : Bytes}
    (taken : (consume count).run reader = (some bytes, after)) :
    bytes.length = count ∧ PassedLast bytes after := by
  obtain ⟨-, inside, rfl, rfl⟩ := consume_some taken
  have size : (substr reader.data reader.offset count).length = count := by
    rw [substr, List.length_take, List.length_drop]
    omega
  refine ⟨size, ?_⟩
  unfold PassedLast
  rw [size]
  exact ⟨Nat.le_add_left _ _, by rw [Nat.add_sub_cancel]⟩

theorem integer_content_some {reader after : BerReader} {content : Bytes}
    (taken : readIntegerContent.run reader = (some content, after)) :
    content.length ≠ 0 ∧ content.length ≤ 8 ∧ PassedLast content after := by
  unfold readIntegerContent at taken
  obtain ⟨⟨tag, length⟩, middle, _, taken⟩ := Read.bind_some taken
  simp only at taken
  split at taken
  · cases taken
  · rename_i accepted
    simp only [not_or, Nat.not_lt] at accepted
    obtain ⟨size, passed⟩ := consume_passed taken
    rw [size]
    exact ⟨accepted.2.1, accepted.2.2, passed⟩

/-- A decoded INTEGER is the number its content octets denote. -/
theorem read_integer_some {reader after : BerReader} {number : Int64}
    (taken : readInteger.run reader = (some number, after)) :
    ∃ content, readIntegerContent.run reader = (some content, after) ∧
      number = integerOf content ∧ number.toInt = signed content := by
  obtain ⟨content, delivered, rfl⟩ := projects_integer.some taken
  exact ⟨content, delivered, rfl, integer_of_signed (integer_content_some delivered).2.1⟩

/-- Every number is written in its shortest two's complement octets and read back at any
place, and what is read from octets in shortest form is written back as these octets. -/
theorem integer_coding :
    (∀ number before after, readInteger.run (reading before (writeInteger number ++ after)) =
        (some number, reading (before ++ writeInteger number) after)) ∧
      (∀ number, writeInteger number = writeTagged kBerInteger (encodeInteger number) ∧
        1 ≤ (encodeInteger number).length ∧ (encodeInteger number).length ≤ 8 ∧
        Shortest (encodeInteger number) ∧ signed (encodeInteger number) = number.toInt ∧
        ∀ other, other ≠ [] → signed other = number.toInt →
          (encodeInteger number).length ≤ other.length) ∧
      ∀ reader number after, readInteger.run reader = (some number, after) →
        ∃ content, readIntegerContent.run reader = (some content, after) ∧
          PassedLast content after ∧ 1 ≤ content.length ∧ content.length ≤ 8 ∧
          signed content = number.toInt ∧
          (Shortest content → encodeInteger number = content) := by
  refine ⟨reads_integer, ?_, ?_⟩
  · intro number
    obtain ⟨few, some⟩ := encode_integer_length number
    have shortest := encode_integer_shortest number
    have denotes := encode_integer_signed number
    refine ⟨rfl, Nat.one_le_iff_ne_zero.mpr some, few, shortest, denotes, ?_⟩
    intro other nonempty same
    exact shortest.length_le nonempty (same.trans denotes.symm)
  · intro reader number after taken
    obtain ⟨content, delivered, rfl, denotes⟩ := read_integer_some taken
    obtain ⟨some, few, passed⟩ := integer_content_some delivered
    refine ⟨content, delivered, passed, Nat.one_le_iff_ne_zero.mpr some, few, denotes.symm, ?_⟩
    intro shortest
    exact encode_integer_of shortest few

end Coding

end SimpleLdapd.Ber
