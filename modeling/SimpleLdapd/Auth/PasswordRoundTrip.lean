import Mathlib.Data.List.GetD
import Mathlib.Data.Nat.Bitwise
import SimpleLdapd.Auth.Password

/-!
# What a stored password value accepts

The comparison of cleartext passwords folds the two lengths into one byte, so a
difference of 256 bytes is lost, and a missing byte counts as NUL. The second part
is about hashed values: the base64 text of digest and salt is read back, and a
value that was hashed accepts the password it was made from.
-/

namespace SimpleLdapd.Password

open Dn

section Comparison

/-- The longer string is the shorter one followed by a multiple of 256 NUL bytes. -/
def PaddedWithNuls (shorter longer : Bytes) : Prop :=
  ∃ blocks, 0 < blocks ∧ longer = shorter ++ List.replicate (256 * blocks) 0

theorem PaddedWithNuls.longer {shorter longer : Bytes} (padded : PaddedWithNuls shorter longer) :
    shorter.length < longer.length := by
  obtain ⟨blocks, some, rfl⟩ := padded
  simp [some]

theorem PaddedWithNuls.different {shorter longer : Bytes}
    (padded : PaddedWithNuls shorter longer) : shorter ≠ longer := by
  rintro rfl
  exact absurd padded.longer (Nat.lt_irrefl _)

theorem fold_or_eq_zero_iff (difference : Nat → Nat) (indices : List Nat) (start : Nat) :
    indices.foldl (fun acc index => acc ||| difference index) start = 0 ↔
      start = 0 ∧ ∀ index ∈ indices, difference index = 0 := by
  induction indices generalizing start with
  | nil => simp
  | cons index rest ih =>
      rw [List.foldl_cons, ih, Nat.or_eq_zero_iff, and_assoc]
      simp

theorem length_byte_eq_zero_iff (left right : Nat) :
    (left ^^^ right) % 256 = 0 ↔ left % 256 = right % 256 := by
  rw [Nat.xor_mod_two_pow (n := 8), Nat.xor_eq_zero_iff]

theorem passwords_equal_iff (left right : Bytes) :
    passwordsEqual left right = true ↔
      left.length % 256 = right.length % 256 ∧
        ∀ index < max left.length right.length, left.getD index 0 = right.getD index 0 := by
  simp only [passwordsEqual, Text.constantTimeEqual, decide_eq_true_eq]
  rw [fold_or_eq_zero_iff, length_byte_eq_zero_iff]
  simp only [List.mem_range, Nat.xor_eq_zero_iff, Fin.val_inj]

theorem passwords_equal_comm (left right : Bytes) :
    passwordsEqual left right = passwordsEqual right left := by
  rw [Bool.eq_iff_iff, passwords_equal_iff, passwords_equal_iff, max_comm]
  simp only [eq_comm]

theorem passwords_equal_self (password : Bytes) : passwordsEqual password password = true :=
  (passwords_equal_iff password password).mpr ⟨rfl, fun _ _ => rfl⟩

/-- Reading NUL behind the end, the longer string is the shorter one padded. -/
theorem get_default_eq_iff {shorter longer : Bytes} (bound : shorter.length ≤ longer.length) :
    (∀ index < longer.length, shorter.getD index 0 = longer.getD index 0) ↔
      longer = shorter ++ List.replicate (longer.length - shorter.length) 0 := by
  constructor
  · intro same
    apply List.ext_getElem
    · simp only [List.length_append, List.length_replicate]
      omega
    · intro index inside _
      have here := same index inside
      rw [List.getD_eq_getElem _ _ inside] at here
      rw [← here]
      by_cases within : index < shorter.length
      · rw [List.getElem_append_left within, List.getD_eq_getElem _ _ within]
      · rw [List.getElem_append_right (Nat.not_lt.mp within), List.getElem_replicate,
          List.getD_eq_default _ _ (Nat.not_lt.mp within)]
  · intro padded index inside
    rw [padded]
    by_cases within : index < shorter.length
    · rw [List.getD_append _ _ _ _ within]
    · rw [List.getD_append_right _ _ _ _ (Nat.not_lt.mp within), List.getD_replicate 0 (by omega),
        List.getD_eq_default _ _ (Nat.not_lt.mp within)]

theorem passwords_equal_padded {shorter longer : Bytes} (bound : shorter.length ≤ longer.length) :
    passwordsEqual shorter longer = true ↔ shorter = longer ∨ PaddedWithNuls shorter longer := by
  rw [passwords_equal_iff, max_eq_right bound, get_default_eq_iff bound]
  constructor
  · rintro ⟨congruent, padded⟩
    obtain ⟨blocks, gap⟩ : ∃ blocks, longer.length - shorter.length = 256 * blocks :=
      ⟨(longer.length - shorter.length) / 256, by omega⟩
    rw [gap] at padded
    rcases Nat.eq_zero_or_pos blocks with none | some
    · left
      rw [padded, none]
      simp
    · exact Or.inr ⟨blocks, some, padded⟩
  · rintro (rfl | ⟨blocks, _, rfl⟩)
    · simp
    · simp [Nat.add_mul_mod_self_left]

/-- What the comparison accepts besides equal strings. -/
theorem passwords_equal_cases (left right : Bytes) :
    passwordsEqual left right = true ↔
      left = right ∨ PaddedWithNuls left right ∨ PaddedWithNuls right left := by
  rcases Nat.le_total left.length right.length with bound | bound
  · have never : ¬ PaddedWithNuls right left := fun padded => absurd padded.longer bound.not_gt
    rw [passwords_equal_padded bound, or_iff_left never]
  · have never : ¬ PaddedWithNuls left right := fun padded => absurd padded.longer bound.not_gt
    rw [passwords_equal_comm, passwords_equal_padded bound, or_iff_right never, eq_comm]

/-- The value is the password itself, or says that it is. -/
def Cleartext (stored password : Bytes) : Prop :=
  (schemePrefix stored = none ∧ stored = password) ∨
    ∃ scheme, schemePrefix stored = some (scheme, password) ∧
      iequals scheme (text "CLEARTEXT") = true

theorem verify_cleartext {stored password : Bytes} (clear : Cleartext stored password)
    (openssl : Option OpenSsl) (provided : Bytes) :
    verifyUserPassword openssl stored provided = passwordsEqual provided password := by
  unfold verifyUserPassword
  rcases clear with ⟨plain, rfl⟩ | ⟨scheme, split, named⟩
  · simp only [plain]
  · simp only [split, named, if_true]

/-- The comparison is equality exactly on the pairs that are not padded. -/
theorem cleartext_equality_iff (left right : Bytes) :
    ((passwordsEqual left right = true ↔ left = right) ↔
        ¬ (PaddedWithNuls left right ∨ PaddedWithNuls right left)) ∧
      ∀ openssl stored, Cleartext stored right →
        ((verifyUserPassword openssl stored left = true ↔ left = right) ↔
          ¬ (PaddedWithNuls left right ∨ PaddedWithNuls right left)) := by
  have exact_when : (passwordsEqual left right = true ↔ left = right) ↔
      ¬ (PaddedWithNuls left right ∨ PaddedWithNuls right left) := by
    rw [passwords_equal_cases]
    constructor
    · rintro equality (padded | padded)
      · exact absurd (equality.mp (Or.inr (Or.inl padded))) padded.different
      · exact absurd (equality.mp (Or.inr (Or.inr padded))).symm padded.different
    · intro unpadded
      rw [or_iff_left unpadded]
  refine ⟨exact_when, ?_⟩
  intro openssl stored clear
  rw [verify_cleartext clear]
  exact exact_when

/-- 256 NUL bytes pass for the empty password, and for a stored `{CLEARTEXT}`. -/
theorem nul_block_equals_empty :
    passwordsEqual (List.replicate 256 0) [] = true ∧ List.replicate 256 (0 : Byte) ≠ [] ∧
      verifyUserPassword none (text "{CLEARTEXT}") (List.replicate 256 0) = true := by
  decide +kernel

end Comparison

section Base64

/-- The accumulator takes in six bits, and what it loses at the top is never read again. -/
theorem shifted_in_value (value : Int32) {digit : Nat} (small : digit < 64) :
    ((value <<< 6) + Int32.ofNat digit).toBitVec.toNat =
      (value.toBitVec.toNat * 64 + digit) % 2 ^ 32 := by
  have shift : (value <<< 6).toBitVec = value.toBitVec <<< 6 := by
    rw [Int32.toBitVec_shiftLeft]
    rfl
  have digitValue : (Int32.ofNat digit).toBitVec.toNat = digit := by
    simp
    omega
  rw [Int32.toBitVec_add, BitVec.toNat_add, shift, BitVec.toNat_shiftLeft, Nat.shiftLeft_eq,
    digitValue]
  omega

/-- The low byte of an arithmetic shift by a few places has nothing of the sign in it. -/
theorem shifted_out_byte (value : Int32) {count : Nat} (small : count ≤ 4) :
    (value >>> Int32.ofInt count).toBitVec.toNat % 256 =
      value.toBitVec.toNat / 2 ^ count % 256 := by
  have amounts : ∀ places : Fin 5,
      ((Int32.ofInt places.val).toBitVec.smod (BitVec.ofNat 32 32)).toNat = places.val := by
    decide
  have amount := amounts ⟨count, by omega⟩
  rw [Int32.toBitVec_shiftRight]
  change (value.toBitVec.sshiftRight
    ((Int32.ofInt count).toBitVec.smod (BitVec.ofNat 32 32)).toNat).toNat % 2 ^ 8 = _ % 2 ^ 8
  rw [amount]
  apply Nat.eq_of_testBit_eq
  intro index
  rw [Nat.testBit_mod_two_pow, Nat.testBit_mod_two_pow, Nat.testBit_div_two_pow]
  by_cases low : index < 8
  · have inside : count + index < 32 := by omega
    have word : ¬ 32 ≤ index := by omega
    rw [BitVec.testBit_toNat, BitVec.getLsbD_sshiftRight, BitVec.testBit_toNat]
    simp [inside, word, Nat.add_comm]
  · simp [low]

theorem table_digit : ∀ digit : Fin 64,
    base64Value (base64Table.getD digit.val 0) = some digit.val ∧
      ¬ (base64Table.getD digit.val 0 = chr '=' ∨ base64Table.getD digit.val 0 = chr '\n' ∨
        base64Table.getD digit.val 0 = chr '\r' ∨ base64Table.getD digit.val 0 = chr ' ') := by
  decide +kernel

variable {value : Int32} {out rest : Bytes} {digit : Nat}

/-- A character that only fills the accumulator. -/
theorem decode_filling {bits : Int} (small : digit < 64) (few : bits + 6 < 0) :
    base64DecodeFrom value bits out (base64Table.getD digit 0 :: rest) =
      base64DecodeFrom ((value <<< 6) + Int32.ofNat digit) (bits + 6) out rest := by
  obtain ⟨known, notSkipped⟩ := table_digit ⟨digit, small⟩
  rw [base64DecodeFrom, if_neg notSkipped, known]
  simp only
  rw [if_neg (by omega)]

/-- A character that completes a byte. -/
theorem decode_emitting {bits : Int} (small : digit < 64) {left : Nat} (few : left ≤ 4)
    (complete : bits + 6 = left) :
    base64DecodeFrom value bits out (base64Table.getD digit 0 :: rest) =
      base64DecodeFrom ((value <<< 6) + Int32.ofNat digit) (bits - 2)
        (out ++ [Fin.ofNat 256
          (((value.toBitVec.toNat * 64 + digit) % 2 ^ 32) / 2 ^ left)]) rest := by
  obtain ⟨known, notSkipped⟩ := table_digit ⟨digit, small⟩
  rw [base64DecodeFrom, if_neg notSkipped, known]
  simp only
  rw [if_pos (by omega), complete]
  have emitted : (Fin.ofNat 256 ((((value <<< 6) + Int32.ofNat digit) >>>
      Int32.ofInt left).toBitVec.toNat) : Byte) =
      Fin.ofNat 256 (((value.toBitVec.toNat * 64 + digit) % 2 ^ 32) / 2 ^ left) := by
    apply Fin.ext
    change _ % 256 = _ % 256
    rw [shifted_out_byte _ few, shifted_in_value value small]
  rw [emitted, (by omega : (left : Int) - 8 = bits - 2)]

theorem decode_padding (bits : Int) :
    base64DecodeFrom value bits out (chr '=' :: rest) = base64DecodeFrom value bits out rest := by
  rw [base64DecodeFrom, if_pos (Or.inl rfl)]

theorem low_digit (value : Int32) (small : digit < 64) :
    ((value <<< 6) + Int32.ofNat digit).toBitVec.toNat % 64 = digit := by
  rw [shifted_in_value value small]
  omega

/-- The byte that a character completes depends on it and on the character before it. -/
theorem emitted_byte {before left : Nat} (previous : value.toBitVec.toNat % 64 = before)
    (few : left ≤ 4) :
    (Fin.ofNat 256 (((value.toBitVec.toNat * 64 + digit) % 2 ^ 32) / 2 ^ left) : Byte) =
      Fin.ofNat 256 ((before * 64 + digit) / 2 ^ left) := by
  apply Fin.ext
  change _ / 2 ^ left % 256 = _ / 2 ^ left % 256
  have counts : left = 0 ∨ left = 1 ∨ left = 2 ∨ left = 3 ∨ left = 4 := by omega
  rcases counts with rfl | rfl | rfl | rfl | rfl <;> omega

variable {first second third fourth : Nat}

theorem decode_two (firstSmall : first < 64) (secondSmall : second < 64) :
    base64DecodeFrom value (-8) out
        (base64Table.getD first 0 :: base64Table.getD second 0 :: rest) =
      base64DecodeFrom ((((value <<< 6) + Int32.ofNat first) <<< 6) + Int32.ofNat second) (-4)
        (out ++ [Fin.ofNat 256 ((first * 64 + second) / 16)]) rest := by
  rw [decode_filling firstSmall (by decide), decode_emitting secondSmall le_rfl (by decide),
    emitted_byte (low_digit value firstSmall) le_rfl]
  rfl

theorem decode_third {before : Nat} (previous : value.toBitVec.toNat % 64 = before)
    (small : digit < 64) :
    base64DecodeFrom value (-4) out (base64Table.getD digit 0 :: rest) =
      base64DecodeFrom ((value <<< 6) + Int32.ofNat digit) (-6)
        (out ++ [Fin.ofNat 256 ((before * 64 + digit) / 4)]) rest := by
  rw [decode_emitting small (by decide : 2 ≤ 4) (by decide), emitted_byte previous (by decide)]
  rfl

theorem decode_fourth {before : Nat} (previous : value.toBitVec.toNat % 64 = before)
    (small : digit < 64) :
    base64DecodeFrom value (-6) out (base64Table.getD digit 0 :: rest) =
      base64DecodeFrom ((value <<< 6) + Int32.ofNat digit) (-8)
        (out ++ [Fin.ofNat 256 (before * 64 + digit)]) rest := by
  rw [decode_emitting small (by decide : 0 ≤ 4) (by decide), emitted_byte previous (by decide),
    pow_zero, Nat.div_one]
  rfl

theorem low_six_bits (number : Nat) : number &&& 63 = number % 64 :=
  Nat.and_two_pow_sub_one_eq_mod number 6

theorem packed_bytes (first second third : Byte) :
    first.val <<< 16 ||| second.val <<< 8 ||| third.val =
      first.val * 65536 + second.val * 256 + third.val := by
  have upper : first.val <<< 16 ||| second.val <<< 8 = (first.val * 256 + second.val) <<< 8 := by
    have low : second.val <<< 8 < 2 ^ 16 := by
      rw [Nat.shiftLeft_eq]
      omega
    rw [← Nat.shiftLeft_add_eq_or_of_lt low]
    simp only [Nat.shiftLeft_eq]
    omega
  rw [upper, ← Nat.shiftLeft_add_eq_or_of_lt (show third.val < 2 ^ 8 from third.isLt),
    Nat.shiftLeft_eq]
  omega

/-- Decoding gives back what was encoded, whatever the accumulator held before. -/
theorem decode_from_encode (data : Bytes) (value : Int32) (out : Bytes) :
    base64DecodeFrom value (-8) out (base64Encode data) = out ++ data := by
  have byteOf (number : Nat) (byte : Byte) (same : number % 256 = byte.val) :
      (Fin.ofNat 256 number : Byte) = byte := Fin.ext same
  induction data using base64Encode.induct generalizing value out with
  | case1 => simp [base64Encode, base64DecodeFrom]
  | case2 first =>
      have bits := packed_bytes first 0 0
      simp only [Fin.val_zero, Nat.zero_shiftLeft, Nat.or_zero, Nat.zero_mul, Nat.add_zero] at bits
      have bound := first.isLt
      simp only [base64Encode, low_six_bits, bits]
      rw [decode_two (Nat.mod_lt _ (by decide)) (Nat.mod_lt _ (by decide)), decode_padding,
        decode_padding, base64DecodeFrom, byteOf _ first (by omega)]
  | case3 first second =>
      have bits := packed_bytes first second 0
      simp only [Fin.val_zero, Nat.or_zero, Nat.add_zero] at bits
      have bound := first.isLt
      have secondBound := second.isLt
      simp only [base64Encode, low_six_bits, bits]
      rw [decode_two (Nat.mod_lt _ (by decide)) (Nat.mod_lt _ (by decide)),
        decode_third (low_digit _ (Nat.mod_lt _ (by decide))) (Nat.mod_lt _ (by decide)),
        decode_padding, base64DecodeFrom, byteOf _ first (by omega), byteOf _ second (by omega)]
      simp
  | case4 first second third rest ih =>
      have bound := first.isLt
      have secondBound := second.isLt
      have thirdBound := third.isLt
      simp only [base64Encode, low_six_bits, packed_bytes]
      rw [decode_two (Nat.mod_lt _ (by decide)) (Nat.mod_lt _ (by decide)),
        decode_third (low_digit _ (Nat.mod_lt _ (by decide))) (Nat.mod_lt _ (by decide)),
        decode_fourth (low_digit _ (Nat.mod_lt _ (by decide))) (Nat.mod_lt _ (by decide)), ih,
        byteOf _ first (by omega), byteOf _ second (by omega), byteOf _ third (by omega)]
      simp

theorem base64_round_trip (data : Bytes) : base64Decode (base64Encode data) = data :=
  decode_from_encode data 0 []

end Base64

section Hashed

theorem scheme_of_ssha (payload : Bytes) :
    schemePrefix (text "{SSHA}" ++ payload) = some (text "SSHA", payload) := by
  have spelled : text "{SSHA}" = [chr '{', chr 'S', chr 'S', chr 'H', chr 'A', chr '}'] := by decide
  rw [spelled]
  rfl

/-- What hashing produces, if it produces anything. -/
theorem hash_ssha_cases (openssl : Option OpenSsl) (salt : Option Bytes) (password : Bytes) :
    hashSsha openssl salt password = [] ∨
      ∃ drawn digest, salt = some drawn ∧ sha1 openssl (password ++ drawn) = some digest ∧
        hashSsha openssl salt password = text "{SSHA}" ++ base64Encode (digest ++ drawn) := by
  unfold hashSsha
  cases salt with
  | none => exact Or.inl rfl
  | some drawn =>
      cases digested : sha1 openssl (password ++ drawn) with
      | none => simp [digested]
      | some digest => exact Or.inr ⟨drawn, digest, rfl, digested, by simp [digested]⟩

theorem sha1_length {openssl : Option OpenSsl} {data digest : Bytes}
    (digested : sha1 openssl data = some digest) : digest.length = kSha1Length := by
  unfold sha1 at digested
  cases openssl with
  | none => cases digested
  | some ssl => simpa using (Option.filter_eq_some_iff.mp digested).2

/-- A salted digest is recognised by the password it was made from. -/
theorem verify_ssha_own {openssl : Option OpenSsl} {password salt digest : Bytes} (salted : salt ≠ [])
    (digested : sha1 openssl (password ++ salt) = some digest) :
    verifySsha openssl (base64Encode (digest ++ salt)) password = true := by
  have size := sha1_length digested
  have positive := List.length_pos_iff.mpr salted
  have long : ¬ (digest ++ salt).length ≤ digest.length := by
    rw [List.length_append]
    omega
  unfold verifySsha
  simp only [base64_round_trip, ← size]
  rw [if_neg long, List.drop_left, List.take_left, digested]
  simp

/-- A password without a scheme is accepted by what is stored for it, hashed or not. -/
theorem verify_encoded {openssl : Option OpenSsl} {salt : Option Bytes} (salted : salt ≠ some [])
    {password : Bytes} (plain : schemePrefix password = none) :
    verifyUserPassword openssl (encodeUserPassword openssl salt password) password = true := by
  have asIs : verifyUserPassword openssl password password = true := by
    rw [verify_cleartext (Or.inl ⟨plain, rfl⟩), passwords_equal_self]
  unfold encodeUserPassword
  rw [plain, if_neg (by simp)]
  split
  · exact asIs
  · rcases hash_ssha_cases openssl salt password with failed | ⟨drawn, digest, draw, digested, hashed⟩
    · simp only [failed, if_true]
      exact asIs
    · have written : text "{SSHA}" ++ base64Encode (digest ++ drawn) ≠ [] := by simp [text]
      have drawnSome : drawn ≠ [] := by
        rintro rfl
        exact salted draw
      simp only [hashed, if_neg written]
      unfold verifyUserPassword
      rw [scheme_of_ssha]
      have other : iequals (text "SSHA") (text "CLEARTEXT") = false := by decide
      have same : iequals (text "SSHA") (text "SSHA") = true := by decide
      simp only [other, same, if_true, Bool.false_eq_true, if_false]
      exact verify_ssha_own drawnSome digested

end Hashed

end SimpleLdapd.Password
