import SimpleLdapd.Library.BigEndian
import SimpleLdapd.Utils.Dn

/-!
# BER reader and writer (`protocol/ber.hpp`, `protocol/ber.cpp`)

A writer is the byte string it has accumulated. A reader keeps its buffer, its
offset and its sticky `ok_` flag; every read returns the reader it leaves
behind, also when it fails. The round trips are stated with `Reads`: at any
position of any buffer, the read takes exactly the given bytes and no more.
-/

namespace SimpleLdapd.Ber

open SimpleLdapd.Dn SimpleLdapd.BigEndian

def kBerSequence : Byte := 0x30
def kBerSet : Byte := 0x31
def kBerBoolean : Byte := 0x01
def kBerInteger : Byte := 0x02
def kBerOctetString : Byte := 0x04
def kBerEnumerated : Byte := 0x0A
def kBerBindRequest : Byte := 0x60
def kBerBindResponse : Byte := 0x61
def kBerUnbindRequest : Byte := 0x42
def kBerSearchRequest : Byte := 0x63
def kBerSearchResultEntry : Byte := 0x64
def kBerSearchResultDone : Byte := 0x65
def kBerModifyRequest : Byte := 0x66
def kBerModifyResponse : Byte := 0x67
def kBerAddRequest : Byte := 0x68
def kBerAddResponse : Byte := 0x69
def kBerDelRequest : Byte := 0x4A
def kBerDelResponse : Byte := 0x6B
def kBerModifyDNRequest : Byte := 0x6C
def kBerModifyDNResponse : Byte := 0x6D
def kBerCompareRequest : Byte := 0x6E
def kBerCompareResponse : Byte := 0x6F
def kBerExtendedRequest : Byte := 0x77
def kBerExtendedResponse : Byte := 0x78
def kBerSimpleAuth : Byte := 0x80
def kBerContext1 : Byte := 0x81
def kBerContext2 : Byte := 0x82
def kBerContext10 : Byte := 0x8A
def kBerContext11 : Byte := 0x8B
def kBerControls : Byte := 0xA0
def kBerServerSaslCreds : Byte := 0x87
def kBerSaslAuth : Byte := 0xA3
def kBerFilterAnd : Byte := 0xA0
def kBerFilterOr : Byte := 0xA1
def kBerFilterNot : Byte := 0xA2
def kBerFilterEquality : Byte := 0xA3
def kBerFilterSubstrings : Byte := 0xA4
def kBerFilterPresent : Byte := 0x87
def kBerSubstringInitial : Byte := 0x80
def kBerSubstringAny : Byte := 0x81
def kBerSubstringFinal : Byte := 0x82

/-- The loop runs at most eight times because `size_t` has 64 bits. -/
def encodeLength (length : Nat) : Bytes :=
  if length < 128 then [Fin.ofNat 256 length]
  else
    let raw := littleDigits 8 length
    Fin.ofNat 256 (0x80 ||| raw.length) :: raw.reverse

def writeTagLength (tag : Byte) (length : Nat) : Bytes := tag :: encodeLength length

/-- Drops leading bytes that only repeat the sign of the byte after them. -/
def trimSign : Bytes → Bytes
  | first :: second :: rest =>
      if (first = 0x00 ∧ second.val &&& 0x80 = 0) ∨ (first = 0xff ∧ second.val &&& 0x80 ≠ 0) then
        trimSign (second :: rest)
      else first :: second :: rest
  | short => short

def encodeInteger (value : Int64) : Bytes :=
  trimSign ((List.range 8).map fun index =>
    Fin.ofNat 256 (value.toBitVec.toNat >>> (56 - index * 8)))

def writeTagged (tag : Byte) (content : Bytes) : Bytes :=
  writeTagLength tag content.length ++ content

def writeInteger (value : Int64) : Bytes := writeTagged kBerInteger (encodeInteger value)

def writeEnumerated (value : Int32) : Bytes :=
  writeTagged kBerEnumerated (encodeInteger value.toInt64)

def writeBoolean (value : Bool) : Bytes :=
  writeTagLength kBerBoolean 1 ++ [if value then 0xff else 0x00]

def writeOctetStringAs (tag : Byte) (value : Bytes) : Bytes := writeTagged tag value

def writeOctetString (value : Bytes) : Bytes := writeOctetStringAs kBerOctetString value

def writeNull (tag : Byte) : Bytes := writeTagLength tag 0

def writeConstructed (tag : Byte) (inner : Bytes) : Bytes := writeTagged tag inner

structure BerReader where
  data : Bytes
  offset : Nat := 0
  ok : Bool := true
  deriving DecidableEq

namespace BerReader

def atEnd (reader : BerReader) : Bool := !reader.ok || reader.data.length ≤ reader.offset

def peekTag (reader : BerReader) : Byte :=
  if !reader.ok || reader.data.length ≤ reader.offset then 0
  else reader.data.getD reader.offset 0

end BerReader

/-- A read on a reader: its value, or `none` for `return false`, and the reader after it. -/
structure Read (Value : Type) where
  run : BerReader → Option Value × BerReader

namespace Read

instance : Monad Read where
  pure value := ⟨fun reader => (some value, reader)⟩
  bind first rest := ⟨fun reader =>
    match first.run reader with
    | (none, after) => (none, after)
    | (some value, after) => (rest value).run after⟩

/-- Sets `ok_` to false and returns false. -/
def fail {Value : Type} : Read Value := ⟨fun reader => (none, { reader with ok := false })⟩

/-- Returns false and leaves the reader as it is. -/
def refuse {Value : Type} : Read Value := ⟨fun reader => (none, reader)⟩

def peekTag : Read Byte := ⟨fun reader => (some reader.peekTag, reader)⟩

def atEnd : Read Bool := ⟨fun reader => (some reader.atEnd, reader)⟩

/-- `!reader.atEnd() && reader.peekTag() == tag`. -/
def nextIs (tag : Byte) : Read Bool :=
  ⟨fun reader => (some (!reader.atEnd && reader.peekTag = tag), reader)⟩

/-- `return reader.ok()`. -/
def requireOk : Read Unit := ⟨fun reader => (if reader.ok then some () else none, reader)⟩

/-- Reads from a nested reader; a failure there does not touch this one. -/
def within {Value : Type} (inner : BerReader) (body : Read Value) : Read Value :=
  ⟨fun reader => ((body.run inner).1, reader)⟩

/-- `while (!reader.atEnd())`. The fuel bounds the number of turns. -/
def loop {Value : Type} (item : Read Value) : Nat → Read (List Value)
  | 0 => refuse
  | fuel + 1 => do
      if ← atEnd then pure []
      else do
        let value ← item
        let values ← loop item fuel
        pure (value :: values)

/-- A turn that does not fail consumes a byte, so the buffer bounds the turns. -/
def whileMore {Value : Type} (item : Read Value) : Read (List Value) :=
  ⟨fun reader => (loop item (reader.data.length + 1)).run reader⟩

end Read

def consume (count : Nat) : Read Bytes := ⟨fun reader =>
  if !reader.ok || reader.data.length < reader.offset + count then
    (none, { reader with ok := false })
  else
    (some (substr reader.data reader.offset count),
      { reader with offset := reader.offset + count })⟩

def readLength : Read Nat := do
  let head ← consume 1
  let first := head.headD 0
  if first.val &&& 0x80 = 0 then pure first.val
  else
    let count := first.val &&& 0x7f
    if count = 0 ∨ 4 < count then Read.fail
    else do
      let bytes ← consume count
      pure (bytes.foldl (fun length byte => length <<< 8 ||| byte.val) 0)

def readTagLength : Read (Byte × Nat) := do
  let head ← consume 1
  let length ← readLength
  pure (head.headD 0, length)

def readConstructed (tag : Byte) : Read BerReader := do
  let (actual, length) ← readTagLength
  if actual ≠ tag then Read.fail
  else do
    let content ← consume length
    pure { data := content }

/-- `readConstructed(tag, inner)` and then `body` on the inner reader. -/
def readBlock {Value : Type} (tag : Byte) (body : Read Value) : Read Value := do
  let inner ← readConstructed tag
  Read.within inner body

def isNegative (bytes : Bytes) : Bool := (bytes.headD 0).val &&& 0x80 ≠ 0

def readInteger : Read Int64 := do
  let (tag, length) ← readTagLength
  if tag ≠ kBerInteger ∨ length = 0 ∨ 8 < length then Read.fail
  else do
    let bytes ← consume length
    let start := if isNegative bytes then BitVec.allOnes 64 else 0
    pure (Int64.ofBitVec (bytes.foldl shiftIn start))

/-- Unlike `readInteger` it starts from zero whatever the sign. -/
def readEnumerated : Read Int32 := do
  let (tag, length) ← readTagLength
  if tag ≠ kBerEnumerated ∨ length = 0 ∨ 8 < length then Read.fail
  else do
    let bytes ← consume length
    pure (Int64.ofBitVec (bytes.foldl shiftIn 0)).toInt32

def readBoolean : Read Bool := do
  let (tag, length) ← readTagLength
  if tag ≠ kBerBoolean ∨ length ≠ 1 then Read.fail
  else do
    let bytes ← consume length
    pure (bytes.headD 0 ≠ 0)

def readOctetStringAs (tag : Byte) : Read Bytes := do
  let (actual, length) ← readTagLength
  if actual ≠ tag then Read.fail
  else if length = 0 then pure []
  else consume length

def readOctetString : Read Bytes := readOctetStringAs kBerOctetString

def skip : Read Unit := do
  let (_, length) ← readTagLength
  let _ ← consume length
  pure ()

/-- The reader that has read `before` and still has `after` in front of it. -/
def reading (before after : Bytes) : BerReader where
  data := before ++ after
  offset := before.length

/-- The read takes exactly `bytes`, at any position of any buffer. -/
def Reads {Value : Type} (read : Read Value) (bytes : Bytes) (value : Value) : Prop :=
  ∀ before after, read.run (reading before (bytes ++ after)) =
    (some value, reading (before ++ bytes) after)

namespace Read

@[simp] theorem pure_apply {Value : Type} (value : Value) (reader : BerReader) :
    (pure value : Read Value).run reader = (some value, reader) := rfl

theorem bind_apply {First Second : Type} (first : Read First) (rest : First → Read Second)
    (reader : BerReader) :
    (first >>= rest).run reader =
      match first.run reader with
      | (none, after) => (none, after)
      | (some value, after) => (rest value).run after := rfl

theorem bind_of_some {First Second : Type} {first : Read First} {reader after : BerReader}
    {value : First} (taken : first.run reader = (some value, after)) (rest : First → Read Second) :
    (first >>= rest).run reader = (rest value).run after := by
  rw [bind_apply, taken]

theorem bind_some {First Second : Type} {first : Read First} {rest : First → Read Second}
    {reader after : BerReader} {result : Second}
    (taken : (first >>= rest).run reader = (some result, after)) :
    ∃ value middle, first.run reader = (some value, middle) ∧
      (rest value).run middle = (some result, after) := by
  rw [bind_apply] at taken
  split at taken
  · cases taken
  · rename_i value middle run
    exact ⟨value, middle, run, taken⟩

end Read

section Gives

variable {Value First Second : Type}

/-- Every value that the read returns, on any reader, has the property. -/
def Gives (read : Read Value) (holds : Value → Prop) : Prop :=
  ∀ reader value after, read.run reader = (some value, after) → holds value

theorem gives_pure {holds : Value → Prop} {value : Value} (kept : holds value) :
    Gives (pure value) holds := by
  intro reader found after taken
  cases taken
  exact kept

theorem gives_refuse (holds : Value → Prop) : Gives Read.refuse holds := by
  intro reader found after taken
  cases taken

theorem gives_bind {first : Read First} {rest : First → Read Second} {here : First → Prop}
    {holds : Second → Prop} (begun : Gives first here)
    (ended : ∀ value, here value → Gives (rest value) holds) : Gives (first >>= rest) holds := by
  intro reader result after taken
  rcases Read.bind_some taken with ⟨value, middle, run, later⟩
  exact ended value (begun _ _ _ run) _ _ _ later

theorem gives_anything (read : Read Value) : Gives read fun _ => True :=
  fun _ _ _ _ => trivial

/-- The property of the last value, whatever was read before. -/
theorem gives_after {first : Read First} {rest : First → Read Second} {holds : Second → Prop}
    (ended : ∀ value, Gives (rest value) holds) : Gives (first >>= rest) holds :=
  gives_bind (gives_anything first) fun value _ => ended value

theorem gives_within {body : Read Value} {holds : Value → Prop} (inner : BerReader)
    (inside : Gives body holds) : Gives (Read.within inner body) holds := by
  intro reader value after taken
  have first : (body.run inner).1 = some value := congrArg Prod.fst taken
  exact inside inner value _ (Prod.ext first rfl)

theorem gives_loop {item : Read Value} {holds : Value → Prop} (each : Gives item holds)
    (fuel : Nat) : Gives (Read.loop item fuel) fun values => ∀ value ∈ values, holds value := by
  induction fuel with
  | zero => exact gives_refuse _
  | succ fuel reached =>
      rw [Read.loop]
      refine gives_after fun finished => ?_
      split
      · exact gives_pure (List.forall_mem_nil holds)
      · refine gives_bind each fun value kept => gives_bind reached fun values all => ?_
        refine gives_pure fun other member => ?_
        rcases List.mem_cons.mp member with first | later
        · rw [first]
          exact kept
        · exact all other later

theorem gives_while {item : Read Value} {holds : Value → Prop} (each : Gives item holds) :
    Gives (Read.whileMore item) fun values => ∀ value ∈ values, holds value :=
  fun reader => gives_loop each (reader.data.length + 1) reader

theorem gives_block {tag : Byte} {body : Read Value} {holds : Value → Prop}
    (inside : Gives body holds) : Gives (readBlock tag body) holds := by
  apply gives_after
  intro inner reader value after taken
  apply inside inner value (body.run inner).2
  rw [← (Prod.mk.inj taken).1]

end Gives

theorem reads_pure {Value : Type} (value : Value) : Reads (pure value) [] value := by
  intro before after
  simp

theorem reads_bind {First Second : Type} {first : Read First} {rest : First → Read Second}
    {bytes more : Bytes} {value : First} {result : Second}
    (here : Reads first bytes value) (there : Reads (rest value) more result) :
    Reads (first >>= rest) (bytes ++ more) result := by
  intro before after
  rw [List.append_assoc, Read.bind_of_some (here before (more ++ after)), there]
  simp

/-- The last read of a block needs no empty remainder. -/
theorem reads_map {First Second : Type} {first : Read First} {rest : First → Read Second}
    {bytes : Bytes} {value : First} {result : Second}
    (here : Reads first bytes value) (there : Reads (rest value) [] result) :
    Reads (first >>= rest) bytes result := by
  have joined := reads_bind here there
  rwa [List.append_nil] at joined

theorem reads_consume (bytes : Bytes) : Reads (consume bytes.length) bytes bytes := by
  intro before after
  simp [consume, reading, substr]

theorem reads_consume_one (byte : Byte) : Reads (consume 1) [byte] [byte] :=
  reads_consume [byte]

theorem fold_shift_value (bytes : Bytes) :
    bytes.foldl (fun length byte => length <<< 8 ||| byte.val) 0 = value bytes := by
  unfold value
  congr 1
  funext total byte
  exact shift_or_eq total byte

theorem high_bit_clear_iff :
    ∀ byte : Byte, byte.val &&& 0x80 = 0 ↔ byte.val < 128 := by
  decide +kernel

theorem long_form_count :
    ∀ count : Fin 9, count ≠ 0 →
      (Fin.ofNat 256 (0x80 ||| count.val)).val &&& 0x80 ≠ 0 ∧
        (Fin.ofNat 256 (0x80 ||| count.val)).val &&& 0x7f = count.val := by
  decide +kernel

/-- The short and the long form of a length below `2 ^ 32`. -/
theorem encode_length_forms {length : Nat} (bound : length < 2 ^ 32) :
    (∃ byte : Byte, encodeLength length = [byte] ∧ byte.val = length ∧ length &&& 0x80 = 0) ∨
      ∃ (first : Byte) (raw : Bytes), encodeLength length = first :: raw ∧
        first.val &&& 0x80 ≠ 0 ∧ first.val &&& 0x7f = raw.length ∧ raw.length ≠ 0 ∧
        raw.length ≤ 4 ∧ raw.foldl (fun length byte => length <<< 8 ||| byte.val) 0 = length := by
  unfold encodeLength
  by_cases short : length < 128
  · left
    have small : (Fin.ofNat 256 length).val = length := by
      simp only [Fin.ofNat_eq_cast, Fin.val_natCast]
      omega
    have clear := (high_bit_clear_iff (Fin.ofNat 256 length)).mpr (by rwa [small])
    rw [small] at clear
    exact ⟨_, if_pos short, small, clear⟩
  · right
    have notEmpty := little_digits_ne_nil 7 length (by omega)
    have few : (littleDigits 8 length).length ≤ 4 :=
      little_digits_length_le 8 length 4 (by simpa using bound)
    have numeral : value (littleDigits 8 length).reverse = length :=
      value_little_digits 8 length (lt_of_lt_of_le bound (by norm_num))
    have nonzero : (littleDigits 8 length).length ≠ 0 := by
      simpa using notEmpty
    obtain ⟨long, masked⟩ := long_form_count ⟨_, lt_of_le_of_lt few (by norm_num)⟩
      (by simpa [Fin.ext_iff] using nonzero)
    refine ⟨_, _, if_neg short, long, ?_, ?_, ?_, (fold_shift_value _).trans numeral⟩
    · rw [List.length_reverse]
      exact masked
    · rwa [List.length_reverse]
    · rwa [List.length_reverse]

/-- From `2 ^ 32` on the long form takes more than four bytes. -/
theorem encode_length_too_long {length : Nat} (large : 2 ^ 32 ≤ length) :
    ∃ (first : Byte) (raw : Bytes), encodeLength length = first :: raw ∧
      first.val &&& 0x80 ≠ 0 ∧ 4 < first.val &&& 0x7f := by
  have many := little_digits_length_gt 8 length 4 (by norm_num) (by simpa using large)
  have few := little_digits_length_le_fuel 8 length
  obtain ⟨long, masked⟩ := long_form_count ⟨_, Nat.lt_succ_of_le few⟩
    (by simp only [ne_eq, Fin.ext_iff]; exact Nat.ne_of_gt (by omega))
  refine ⟨_, _, if_neg (by omega), long, ?_⟩
  rw [masked]
  exact many

theorem reads_length (length : Nat) (bound : length < 2 ^ 32) :
    Reads readLength (encodeLength length) length := by
  rcases encode_length_forms bound with
    ⟨byte, form, small, clear⟩ | ⟨first, raw, form, long, masked, nonzero, few, numeral⟩
  · rw [form]
    apply reads_map (reads_consume_one _)
    simp only [List.headD_cons, clear, if_true, small]
    exact reads_pure length
  · rw [form]
    apply reads_bind (reads_consume_one first)
    simp only [List.headD_cons, long, if_false, masked, nonzero, Nat.not_lt.mpr few, or_self]
    apply reads_map (reads_consume raw)
    rw [numeral]
    exact reads_pure length

theorem reads_tag_length (tag : Byte) (length : Nat) (bound : length < 2 ^ 32) :
    Reads readTagLength (writeTagLength tag length) (tag, length) := by
  apply reads_bind (reads_consume_one tag)
  apply reads_map (reads_length length bound)
  exact reads_pure _

theorem reads_octet_string (tag : Byte) (value : Bytes) (bound : value.length < 2 ^ 32) :
    Reads (readOctetStringAs tag) (writeOctetStringAs tag value) value := by
  apply reads_bind (reads_tag_length tag value.length bound)
  simp only [ne_eq, not_true_eq_false, if_false]
  by_cases empty : value.length = 0
  · rw [if_pos empty, List.length_eq_zero_iff.mp empty]
    exact reads_pure _
  · rw [if_neg empty]
    exact reads_consume value

theorem reads_constructed (tag : Byte) (inner : Bytes) (bound : inner.length < 2 ^ 32) :
    Reads (readConstructed tag) (writeConstructed tag inner) { data := inner } := by
  apply reads_bind (reads_tag_length tag inner.length bound)
  simp only [ne_eq, not_true_eq_false, if_false]
  apply reads_map (reads_consume inner)
  exact reads_pure _

theorem reads_boolean (flag : Bool) : Reads readBoolean (writeBoolean flag) flag := by
  apply reads_bind (reads_tag_length kBerBoolean 1 (by norm_num))
  simp only [ne_eq, not_true_eq_false, or_false, if_false]
  apply reads_map (reads_consume_one _)
  cases flag
  · exact reads_pure _
  · exact reads_pure _

theorem reads_null (tag : Byte) : Reads skip (writeNull tag) () := by
  apply reads_map (reads_tag_length tag 0 (by norm_num))
  apply reads_map (reads_consume [])
  exact reads_pure _

/-- Trimming keeps the signed value: the dropped byte is the fill of the next one. -/
theorem trim_sign_value (bytes : Bytes) :
    (trimSign bytes).foldl shiftIn
        (if isNegative (trimSign bytes) then BitVec.allOnes 64 else 0) =
      bytes.foldl shiftIn (if isNegative bytes then BitVec.allOnes 64 else 0) := by
  induction bytes using trimSign.induct with
  | case1 first second rest redundant ih =>
      rw [trimSign, if_pos redundant, ih]
      rcases redundant with ⟨zero, positive⟩ | ⟨ones, negative⟩
      · subst zero
        have fill : shiftIn 0 0 = 0 := by decide
        have sign : (0 : Byte).val &&& 0x80 = 0 := by decide
        simp only [isNegative, List.headD_cons, positive, sign, ne_eq, not_true_eq_false,
          decide_false, Bool.false_eq_true, if_false, List.foldl_cons, fill]
      · subst ones
        have fill : shiftIn (BitVec.allOnes 64) 0xff = BitVec.allOnes 64 := by decide
        have sign : (0xff : Byte).val &&& 0x80 ≠ 0 := by decide
        simp only [isNegative, List.headD_cons, negative, sign, ne_eq, not_false_eq_true,
          decide_true, if_true, List.foldl_cons, fill]
  | case2 first second rest needed => rw [trimSign, if_neg needed]
  | case3 short shape => rw [trimSign.eq_2 short shape]

theorem trim_sign_length (bytes : Bytes) :
    (trimSign bytes).length ≤ bytes.length ∧ (bytes ≠ [] → trimSign bytes ≠ []) := by
  induction bytes using trimSign.induct with
  | case1 first second rest redundant ih =>
      rw [trimSign, if_pos redundant]
      simp only [List.length_cons, ne_eq, reduceCtorEq, not_false_eq_true, forall_const] at ih ⊢
      exact ⟨by omega, ih.2⟩
  | case2 first second rest needed =>
      rw [trimSign, if_neg needed]
      simp
  | case3 short shape =>
      rw [trimSign.eq_2 short shape]
      simp

theorem raw_integer_value (bits : BitVec 64) (start : BitVec 64) :
    ((List.range 8).map fun index =>
      (Fin.ofNat 256 (bits.toNat >>> (56 - index * 8)) : Byte)).foldl shiftIn start = bits := by
  apply BitVec.eq_of_toNat_eq
  rw [fold_shift_in]
  have bounded := bits.isLt
  simp only [show List.range 8 = [0, 1, 2, 3, 4, 5, 6, 7] from rfl, List.map_cons, List.map_nil,
    value, List.foldl_cons, List.foldl_nil, List.length_cons, List.length_nil,
    Fin.ofNat_eq_cast, Fin.val_natCast, Nat.shiftRight_eq_div_pow]
  norm_num
  omega

theorem encode_integer_value (number : Int64) :
    Int64.ofBitVec ((encodeInteger number).foldl shiftIn
      (if isNegative (encodeInteger number) then BitVec.allOnes 64 else 0)) = number := by
  rw [encodeInteger, trim_sign_value, raw_integer_value]
  rfl

theorem encode_integer_length (number : Int64) :
    (encodeInteger number).length ≤ 8 ∧ (encodeInteger number).length ≠ 0 := by
  have trimmed := trim_sign_length ((List.range 8).map fun index =>
    (Fin.ofNat 256 (number.toBitVec.toNat >>> (56 - index * 8)) : Byte))
  have nonempty := trimmed.2 (by simp)
  refine ⟨?_, ?_⟩
  · simpa [encodeInteger] using trimmed.1
  · rw [ne_eq, List.length_eq_zero_iff]
    exact nonempty

/-- Content octets in a block of their own are what the loop of the reader sees. -/
theorem reads_integer_octets {content : Bytes} (some : content.length ≠ 0)
    (few : content.length ≤ 8) : Reads readInteger (writeTagged kBerInteger content)
      (Int64.ofBitVec (content.foldl shiftIn
        (if isNegative content then BitVec.allOnes 64 else 0))) := by
  apply reads_bind (reads_tag_length kBerInteger content.length (by omega))
  simp only [ne_eq, not_true_eq_false, some, Nat.not_lt.mpr few, or_self, if_false]
  apply reads_map (reads_consume content)
  exact reads_pure _

theorem reads_enumerated_octets {content : Bytes} (some : content.length ≠ 0)
    (few : content.length ≤ 8) : Reads readEnumerated (writeTagged kBerEnumerated content)
      (Int64.ofBitVec (content.foldl shiftIn 0)).toInt32 := by
  apply reads_bind (reads_tag_length kBerEnumerated content.length (by omega))
  simp only [ne_eq, not_true_eq_false, some, Nat.not_lt.mpr few, or_self, if_false]
  apply reads_map (reads_consume content)
  exact reads_pure _

theorem reads_integer (number : Int64) : Reads readInteger (writeInteger number) number := by
  obtain ⟨few, some⟩ := encode_integer_length number
  have reads := reads_integer_octets some few
  rwa [encode_integer_value] at reads

theorem trim_sign_negative (bytes : Bytes) :
    isNegative (trimSign bytes) = isNegative bytes := by
  induction bytes using trimSign.induct with
  | case1 first second rest redundant ih =>
      rw [trimSign, if_pos redundant, ih]
      rcases redundant with ⟨zero, positive⟩ | ⟨ones, negative⟩
      · subst zero
        simp [isNegative, positive]
      · subst ones
        have sign : (0xff : Byte).val &&& 0x80 ≠ 0 := by decide
        rw [isNegative, isNegative, List.headD_cons, List.headD_cons, decide_eq_true negative,
          decide_eq_true sign]
  | case2 first second rest needed => rw [trimSign, if_neg needed]
  | case3 short shape => rw [trimSign.eq_2 short shape]

/-- An enumerated whose first content byte has a clear high bit reads back. -/
theorem reads_enumerated (number : Int32)
    (positive : isNegative (encodeInteger number.toInt64) = false) :
    Reads readEnumerated (writeEnumerated number) number := by
  obtain ⟨few, some⟩ := encode_integer_length number.toInt64
  have stored := encode_integer_value number.toInt64
  simp only [positive, Bool.false_eq_true, if_false] at stored
  have reads := reads_enumerated_octets some few
  rwa [stored, Int32.toInt32_toInt64] at reads

theorem small_code_positive :
    ∀ code : Byte, isNegative (encodeInteger (Int32.ofNat code.val).toInt64) = false := by
  intro code
  rw [encodeInteger, trim_sign_negative]
  revert code
  decide +kernel

/-- The read takes exactly `bytes` when they are the rest of the buffer. -/
def Finishes {Value : Type} (read : Read Value) (bytes : Bytes) (value : Value) : Prop :=
  ∀ before, read.run (reading before bytes) = (some value, reading (before ++ bytes) [])

theorem Reads.finishes {Value : Type} {read : Read Value} {bytes : Bytes} {value : Value}
    (reads : Reads read bytes value) : Finishes read bytes value := by
  intro before
  have taken := reads before []
  rwa [List.append_nil] at taken

theorem finishes_bind {First Second : Type} {first : Read First} {rest : First → Read Second}
    {bytes more : Bytes} {value : First} {result : Second}
    (here : Reads first bytes value) (there : Finishes (rest value) more result) :
    Finishes (first >>= rest) (bytes ++ more) result := by
  intro before
  rw [Read.bind_of_some (here before more), there, List.append_assoc]

theorem finishes_then {First Second : Type} {first : Read First} {rest : First → Read Second}
    {bytes : Bytes} {value : First} {result : Second}
    (here : Finishes first bytes value) (there : Finishes (rest value) [] result) :
    Finishes (first >>= rest) bytes result := by
  intro before
  rw [Read.bind_of_some (here before), there, List.append_nil]

@[simp] theorem peek_tag_reading (before : Bytes) (tag : Byte) (after : Bytes) :
    Read.peekTag.run (reading before (tag :: after)) = (some tag, reading before (tag :: after)) := by
  simp [Read.peekTag, BerReader.peekTag, reading]

@[simp] theorem peek_tag_finished (before : Bytes) :
    Read.peekTag.run (reading before []) = (some 0, reading before []) := by
  simp [Read.peekTag, BerReader.peekTag, reading]

@[simp] theorem at_end_finished (before : Bytes) :
    Read.atEnd.run (reading before []) = (some true, reading before []) := by
  simp [Read.atEnd, BerReader.atEnd, reading]

@[simp] theorem at_end_reading (before : Bytes) (tag : Byte) (after : Bytes) :
    Read.atEnd.run (reading before (tag :: after)) =
      (some false, reading before (tag :: after)) := by
  simp [Read.atEnd, BerReader.atEnd, reading]

theorem write_tagged_cons (tag : Byte) (content : Bytes) :
    writeTagged tag content = tag :: (encodeLength content.length ++ content) := rfl

theorem reads_peek {Value : Type} {rest : Byte → Read Value} {tag : Byte} {more : Bytes}
    {result : Value} (there : Reads (rest tag) (tag :: more) result) :
    Reads (Read.peekTag >>= rest) (tag :: more) result := by
  intro before after
  rw [List.cons_append, Read.bind_of_some (peek_tag_reading before tag _)]
  exact there before after

theorem finishes_peek {Value : Type} {rest : Byte → Read Value} {tag : Byte} {more : Bytes}
    {result : Value} (there : Finishes (rest tag) (tag :: more) result) :
    Finishes (Read.peekTag >>= rest) (tag :: more) result := by
  intro before
  rw [Read.bind_of_some (peek_tag_reading before tag _)]
  exact there before

theorem finishes_more {Value : Type} {rest : Bool → Read Value} {tag : Byte} {more : Bytes}
    {result : Value} (there : Finishes (rest false) (tag :: more) result) :
    Finishes (Read.atEnd >>= rest) (tag :: more) result := by
  intro before
  rw [Read.bind_of_some (at_end_reading before tag _)]
  exact there before

theorem finishes_end {Value : Type} {rest : Bool → Read Value} {result : Value}
    (there : Finishes (rest true) [] result) :
    Finishes (Read.atEnd >>= rest) [] result := by
  intro before
  rw [Read.bind_of_some (at_end_finished before)]
  exact there before

theorem reads_require_ok : Reads Read.requireOk [] () := by
  intro before after
  simp [Read.requireOk, reading]

theorem finishes_require_ok : Finishes Read.requireOk [] () := reads_require_ok.finishes

theorem finishes_checked {Value : Type} {read : Read Value} {bytes : Bytes} {value : Value}
    (finishes : Finishes read bytes value) :
    Finishes (do let result ← read; Read.requireOk; pure result) bytes value := by
  apply finishes_then finishes
  apply finishes_then finishes_require_ok
  exact (reads_pure value).finishes

/-- A nested block that its reader finishes takes no byte of the outer reader. -/
theorem reads_within {Value : Type} {body : Read Value} {inner : Bytes} {value : Value}
    (finishes : Finishes body inner value) :
    Reads (Read.within { data := inner } body) [] value := by
  intro before after
  have taken := finishes []
  unfold Read.within
  rw [show ({ data := inner } : BerReader) = reading [] inner from rfl, taken]
  simp

section Repeated

variable {Value Item : Type} {item : Read Value} {encode : Item → Bytes} {image : Item → Value}

theorem loop_finishes (values : List Item)
    (each : ∀ value ∈ values, Reads item (encode value) (image value) ∧ encode value ≠ [])
    (fuel : Nat) (enough : values.length < fuel) :
    Finishes (Read.loop item fuel) (values.flatMap encode) (values.map image) := by
  induction values generalizing fuel with
  | nil =>
      intro before
      cases fuel with
      | zero => simp at enough
      | succ fuel =>
          rw [Read.loop, List.flatMap_nil, Read.bind_of_some (at_end_finished before)]
          simp
  | cons value rest ih =>
      cases fuel with
      | zero => simp at enough
      | succ fuel =>
          obtain ⟨reads, nonempty⟩ := each value (by simp)
          have later := ih (fun other member => each other (by simp [member])) fuel
            (by simpa using enough)
          obtain ⟨tag, tail, shape⟩ := List.exists_cons_of_ne_nil nonempty
          intro before
          rw [List.flatMap_cons, Read.loop]
          have more : Read.atEnd.run (reading before (encode value ++ rest.flatMap encode)) =
              (some false, reading before (encode value ++ rest.flatMap encode)) := by
            rw [shape]
            exact at_end_reading before tag _
          rw [Read.bind_of_some more]
          simp only [Bool.false_eq_true, if_false]
          rw [Read.bind_of_some (reads before _), Read.bind_of_some (later _)]
          simp

theorem length_le_flat_map (values : List Item)
    (each : ∀ value ∈ values, encode value ≠ []) :
    values.length ≤ (values.flatMap encode).length := by
  induction values with
  | nil => simp
  | cons value rest ih =>
      have here := List.length_pos_iff.mpr (each value (by simp))
      have later := ih (fun other member => each other (by simp [member]))
      simp only [List.length_cons, List.flatMap_cons, List.length_append]
      omega

theorem while_more_images (values : List Item)
    (each : ∀ value ∈ values, Reads item (encode value) (image value) ∧ encode value ≠ []) :
    Finishes (Read.whileMore item) (values.flatMap encode) (values.map image) := by
  intro before
  have few := length_le_flat_map values (fun value member => (each value member).2)
  have enough : values.length < (reading before (values.flatMap encode)).data.length + 1 := by
    simp only [reading, List.length_append]
    omega
  exact loop_finishes values each _ enough before

theorem while_more_finishes {encode : Value → Bytes} (values : List Value)
    (each : ∀ value ∈ values, Reads item (encode value) value ∧ encode value ≠ []) :
    Finishes (Read.whileMore item) (values.flatMap encode) values := by
  have images := while_more_images values each
  rwa [List.map_id'] at images

end Repeated

theorem write_tagged_length (tag : Byte) (content : Bytes) :
    content.length < (writeTagged tag content).length := by
  rw [write_tagged_cons]
  simp only [List.length_cons, List.length_append]
  omega

theorem write_tagged_length_le (tag : Byte) {content : Bytes} (bound : content.length < 2 ^ 32) :
    (writeTagged tag content).length ≤ content.length + 6 := by
  have few : (encodeLength content.length).length ≤ 5 := by
    rcases encode_length_forms bound with ⟨byte, short, -⟩ | ⟨first, raw, long, -, -, -, small, -⟩
    · rw [short]
      simp
    · rw [long, List.length_cons]
      omega
  rw [write_tagged_cons, List.length_cons, List.length_append]
  omega

theorem flat_map_length_le {Item : Type} (encode : Item → Bytes) {items : List Item} {item : Item}
    (member : item ∈ items) : (encode item).length ≤ (items.flatMap encode).length := by
  obtain ⟨before, after, split⟩ := List.append_of_mem member
  rw [split]
  simp only [List.flatMap_append, List.flatMap_cons, List.length_append]
  omega

section Bounded

variable {Value First Second : Type}

/-- `Reads` for encodings short enough for the four length bytes the reader accepts. -/
def Decodes (read : Read Value) (bytes : Bytes) (value : Value) : Prop :=
  bytes.length < 2 ^ 32 → Reads read bytes value

def Completes (read : Read Value) (bytes : Bytes) (value : Value) : Prop :=
  bytes.length < 2 ^ 32 → Finishes read bytes value

theorem Reads.decodes {read : Read Value} {bytes : Bytes} {value : Value}
    (reads : Reads read bytes value) : Decodes read bytes value := fun _ => reads

theorem Decodes.completes {read : Read Value} {bytes : Bytes} {value : Value}
    (decodes : Decodes read bytes value) : Completes read bytes value :=
  fun bound => (decodes bound).finishes

theorem decodes_bind {first : Read First} {rest : First → Read Second}
    {bytes more : Bytes} {value : First} {result : Second}
    (here : Decodes first bytes value) (there : Decodes (rest value) more result) :
    Decodes (first >>= rest) (bytes ++ more) result := by
  intro bound
  rw [List.length_append] at bound
  exact reads_bind (here (by omega)) (there (by omega))

theorem decodes_map {first : Read First} {rest : First → Read Second}
    {bytes : Bytes} {value : First} {result : Second}
    (here : Decodes first bytes value) (there : Reads (rest value) [] result) :
    Decodes (first >>= rest) bytes result :=
  fun bound => reads_map (here bound) there

theorem completes_bind {first : Read First} {rest : First → Read Second}
    {bytes more : Bytes} {value : First} {result : Second}
    (here : Decodes first bytes value) (there : Completes (rest value) more result) :
    Completes (first >>= rest) (bytes ++ more) result := by
  intro bound
  rw [List.length_append] at bound
  exact finishes_bind (here (by omega)) (there (by omega))

theorem completes_then {first : Read First} {rest : First → Read Second}
    {bytes : Bytes} {value : First} {result : Second}
    (here : Completes first bytes value) (there : Finishes (rest value) [] result) :
    Completes (first >>= rest) bytes result :=
  fun bound => finishes_then (here bound) there

theorem completes_checked {read : Read Value} {bytes : Bytes} {value : Value}
    (completes : Completes read bytes value) :
    Completes (do let result ← read; Read.requireOk; pure result) bytes value :=
  fun bound => finishes_checked (completes bound)

theorem decodes_octet_string (tag : Byte) (value : Bytes) :
    Decodes (readOctetStringAs tag) (writeOctetStringAs tag value) value := by
  intro bound
  exact reads_octet_string tag value (lt_trans (write_tagged_length tag value) bound)

theorem decodes_block (tag : Byte) {body : Read Value} {inner : Bytes} {value : Value}
    (completes : Completes body inner value) :
    Decodes (readBlock tag body) (writeConstructed tag inner) value := by
  intro bound
  have small : inner.length < 2 ^ 32 := lt_trans (write_tagged_length tag inner) bound
  exact reads_map (reads_constructed tag inner small) (reads_within (completes small))

theorem completes_images {Item : Type} {item : Read Value} {encode : Item → Bytes}
    {image : Item → Value} (values : List Item)
    (each : ∀ value ∈ values, Decodes item (encode value) (image value) ∧ encode value ≠ []) :
    Completes (Read.whileMore item) (values.flatMap encode) (values.map image) := by
  intro bound
  apply while_more_images values
  intro value member
  have small := flat_map_length_le encode member
  exact ⟨(each value member).1 (by omega), (each value member).2⟩

theorem completes_repeated {item : Read Value} {encode : Value → Bytes} (values : List Value)
    (each : ∀ value ∈ values, Decodes item (encode value) value ∧ encode value ≠ []) :
    Completes (Read.whileMore item) (values.flatMap encode) values := by
  have images := completes_images values each
  rwa [List.map_id'] at images

end Bounded

section Lookahead

variable {Value : Type} {rest : Bool → Read Value} {result : Value}

theorem next_is_reading (tag actual : Byte) (before after : Bytes) :
    (Read.nextIs tag).run (reading before (actual :: after)) =
      (some (decide (actual = tag)), reading before (actual :: after)) := by
  simp [Read.nextIs, BerReader.atEnd, BerReader.peekTag, reading]

theorem next_is_finished (tag : Byte) (before : Bytes) :
    (Read.nextIs tag).run (reading before []) = (some false, reading before []) := by
  simp [Read.nextIs, BerReader.atEnd, reading]

theorem decodes_next {tag actual : Byte} {more : Bytes}
    (there : Decodes (rest (decide (actual = tag))) (actual :: more) result) :
    Decodes (Read.nextIs tag >>= rest) (actual :: more) result := by
  intro bound before after
  rw [List.cons_append, Read.bind_of_some (next_is_reading tag actual before (more ++ after))]
  exact there bound before after

theorem completes_next {tag actual : Byte} {more : Bytes}
    (there : Completes (rest (decide (actual = tag))) (actual :: more) result) :
    Completes (Read.nextIs tag >>= rest) (actual :: more) result := by
  intro bound before
  rw [Read.bind_of_some (next_is_reading tag actual before more)]
  exact there bound before

theorem completes_no_next {tag : Byte} (there : Finishes (rest false) [] result) :
    Completes (Read.nextIs tag >>= rest) [] result := by
  intro _ before
  rw [Read.bind_of_some (next_is_finished tag before)]
  exact there before

theorem completes_more {tag : Byte} {more : Bytes}
    (there : Completes (rest false) (tag :: more) result) :
    Completes (Read.atEnd >>= rest) (tag :: more) result :=
  fun bound => finishes_more (there bound)

theorem completes_end (there : Finishes (rest true) [] result) :
    Completes (Read.atEnd >>= rest) [] result :=
  fun _ => finishes_end there

theorem decodes_peek {branch : Byte → Read Value} {tag : Byte} {more : Bytes}
    (there : Decodes (branch tag) (tag :: more) result) :
    Decodes (Read.peekTag >>= branch) (tag :: more) result :=
  fun bound => reads_peek (there bound)

theorem completes_peek {branch : Byte → Read Value} {tag : Byte} {more : Bytes}
    (there : Completes (branch tag) (tag :: more) result) :
    Completes (Read.peekTag >>= branch) (tag :: more) result :=
  fun bound => finishes_peek (there bound)

end Lookahead

end SimpleLdapd.Ber
