import SimpleLdapd.Core.RequestCodes
import SimpleLdapd.Protocol.IntegerCoding

/-!
# Numbers of a message that do not fit (`protocol/message.cpp`)

`readInteger` refuses what does not fit into its 64 bits. The decoders then cast:
the message id, the version, the limits and the page size to `int`, a result code
to one byte. A number beyond the target comes out as another one, and the message
is accepted.
-/

namespace SimpleLdapd.Session

open Dn Ber Message

/-- What an `int` can hold. -/
def InInt (number : Int) : Prop := -2 ^ 31 ≤ number ∧ number < 2 ^ 31

instance (number : Int) : Decidable (InInt number) := inferInstanceAs (Decidable (_ ∧ _))

/-- What a `ResultCode` can hold. -/
def InByte (number : Int) : Prop := 0 ≤ number ∧ number < 256

instance (number : Int) : Decidable (InByte number) := inferInstanceAs (Decidable (_ ∧ _))

def IsResult (op : ProtocolOp) : Prop :=
  op ∈ [.bindResponse, .searchResultDone, .modifyResponse, .addResponse, .delResponse,
    .modifyDnResponse, .compareResponse, .extendedResponse]

section Wire

variable (wire : Bytes)

/-- The identifier of the message, as its octets have it. -/
def wireMessageId : Option Int :=
  (((readBlock kBerSequence readIntegerContent).run { data := wire }).1).map twosComplement

def wireVersion : Option Int :=
  (((readRequest .bindRequest readIntegerContent).run { data := wire }).1).map twosComplement

def readWireLimits : Read (Bytes × Bytes) := do
  let _ ← readOctetString
  let _ ← readEnumerated
  let _ ← readEnumerated
  let sizeLimit ← readIntegerContent
  let timeLimit ← readIntegerContent
  pure (sizeLimit, timeLimit)

def wireLimits : Option (Int × Int) :=
  (((readRequest .searchRequest readWireLimits).run { data := wire }).1).map
    (Prod.map twosComplement twosComplement)

/-- The result code of a response of the given kind. -/
def wireResult (op : ProtocolOp) : Option Int :=
  (((readRequest op readEnumeratedContent).run { data := wire }).1).map twosComplement

/-- The size in the value of a paged results control. -/
def wirePageSize : Option Int :=
  (((readBlock kBerSequence readIntegerContent).run { data := wire }).1).map twosComplement

/-- Each number of the decoded message is the one on the wire. -/
structure NumbersKept (message : LdapMessage) : Prop where
  messageId : wireMessageId wire = some message.messageId.toInt
  version : message.op = .bindRequest → wireVersion wire = some message.bind.version.toInt
  limits : message.op = .searchRequest →
    wireLimits wire = some (message.search.sizeLimit.toInt, message.search.timeLimit.toInt)
  result : IsResult message.op → wireResult wire message.op = some ↑message.result.code.val

/-- Each number on the wire fits into the field it is meant for. -/
structure NumbersFit : Prop where
  messageId : ∀ number, wireMessageId wire = some number → InInt number
  version : ∀ number, wireVersion wire = some number → InInt number
  limits : ∀ sizeLimit timeLimit, wireLimits wire = some (sizeLimit, timeLimit) →
    InInt sizeLimit ∧ InInt timeLimit
  result : ∀ op, IsResult op → ∀ number, wireResult wire op = some number → InByte number

end Wire

section Casts

theorem narrow_int_iff {content : Bytes} (few : content.length ≤ 8) :
    (integerOf content).toInt32.toInt = twosComplement content ↔
      InInt (twosComplement content) := by
  rw [twos_complement_signed, ← integer_of_signed few]
  constructor
  · intro same
    rw [← same]
    exact ⟨Int32.le_toInt _, Int32.toInt_lt _⟩
  · rintro ⟨above, below⟩
    rw [Int64.toInt_toInt32]
    exact Int.bmod_eq_of_le (by norm_num; omega) (by norm_num; omega)

theorem narrow_code_iff (content : Bytes) :
    ((ResultCode.ofInt (enumeratedOf content)).code.val : Int) = twosComplement content ↔
      InByte (twosComplement content) := by
  constructor
  · intro same
    rw [← same]
    have small := (ResultCode.ofInt (enumeratedOf content)).code.isLt
    exact ⟨Int.natCast_nonneg _, by exact_mod_cast small⟩
  · rintro ⟨natural, small⟩
    obtain ⟨code, is⟩ := Int.eq_ofNat_of_zero_le natural
    have bound : code < 256 := by
      rw [is] at small
      exact_mod_cast small
    have back := ResultCode.of_int_to_int ⟨⟨code, bound⟩⟩
    rw [enumerated_of_natural is, is]
    rw [show Int32.ofNat code = ResultCode.toInt ⟨⟨code, bound⟩⟩ from rfl, back]

end Casts

section Fields

variable {wire : Bytes} {message : LdapMessage}

/-- The body of a block that is read, without what its reader is left with. -/
theorem block_body {Value : Type} {tag : Byte} {body : Read Value} {reader after : BerReader}
    {value : Value} (taken : (readBlock tag body).run reader = (some value, after)) :
    ∃ fields, (readConstructed tag).run reader = (some fields, after) ∧
      body.run fields = (some value, (body.run fields).2) := by
  unfold readBlock at taken
  obtain ⟨fields, rest, opened, taken⟩ := Read.bind_some taken
  obtain ⟨delivered, same⟩ := Prod.mk.inj taken
  exact ⟨fields, by rw [opened, same], Prod.ext delivered rfl⟩

theorem block_of_body {Value : Type} {tag : Byte} {reader after fields : BerReader}
    (opened : (readConstructed tag).run reader = (some fields, after)) (body : Read Value) :
    ((readBlock tag body).run reader).1 = (body.run fields).1 := by
  unfold readBlock
  rw [Read.bind_of_some opened]
  rfl

theorem result_reads_id (message : LdapMessage) :
    Gives (decodeResult message) (·.messageId = message.messageId) := by
  apply result_reads_keep
  · intro field message
    cases field <;> rfl
  · exact fun _ _ _ _ => rfl

theorem operation_reads_id (message : LdapMessage) (tag : Byte) :
    Gives (decodeOperation message tag) (·.messageId = message.messageId) := by
  unfold decodeOperation
  cases known : operationOf tag with
  | bindResponse | searchResultDone | modifyResponse | addResponse | delResponse
  | modifyDnResponse | compareResponse | extendedResponse =>
      exact gives_block (result_reads_id _)
  | _ =>
      apply gives_after
      intro field
      exact gives_pure rfl

/-- The identifier of a decoded message and the octets it was read from. -/
theorem decoded_message_id (decoded : decodeLdapMessage wire = some message) :
    ∃ content, wireMessageId wire = some (twosComplement content) ∧ content.length ≤ 8 ∧
      message.messageId = (integerOf content).toInt32 := by
  obtain ⟨inner, outer, number, operation, tag, read, after, opened, numbered, peeked, operated,
    same⟩ := decoded_operation decoded
  obtain ⟨content, delivered, rfl, _⟩ := read_integer_some numbered
  refine ⟨content, ?_, (integer_content_some delivered).2.1, ?_⟩
  · rw [wireMessageId, block_of_body opened, delivered]
    rfl
  · rw [same]
    exact operation_reads_id _ tag operation read after operated

/-- A reader of another operation finds nothing in the message. -/
theorem other_request_none {Value : Type} {op : ProtocolOp} (body : Read Value)
    (decoded : decodeLdapMessage wire = some message) (other : message.op ≠ op) :
    ((readRequest op body).run { data := wire }).1 = none := by
  obtain ⟨inner, outer, number, operation, tag, read, after, opened, numbered, peeked, operated,
    same⟩ := decoded_operation decoded
  have sameOp : message.op = operationOf tag := by
    rw [same]
    exact operation_reads_op _ tag operation read after operated
  rw [sameOp] at other
  unfold readRequest
  rw [block_of_body opened, Read.bind_of_some numbered, Read.bind_of_some peeked, if_neg other]
  rfl

theorem bind_reads_version {reader after : BerReader} {bind : BindRequestData}
    (taken : decodeBindRequest.run reader = (some bind, after)) :
    ∃ content middle, readIntegerContent.run reader = (some content, middle) ∧
      content.length ≤ 8 ∧ bind.version = (integerOf content).toInt32 := by
  unfold decodeBindRequest at taken
  obtain ⟨version, middle, numbered, taken⟩ := Read.bind_some taken
  obtain ⟨content, delivered, rfl, _⟩ := read_integer_some numbered
  refine ⟨content, middle, delivered, (integer_content_some delivered).2.1, ?_⟩
  obtain ⟨dn, _, _, taken⟩ := Read.bind_some taken
  obtain ⟨tag, _, _, taken⟩ := Read.bind_some taken
  simp only at taken
  split at taken
  · obtain ⟨password, _, _, taken⟩ := Read.bind_some taken
    cases taken
    rfl
  · split at taken
    · obtain ⟨_, _, _, taken⟩ := Read.bind_some taken
      cases taken
      rfl
    · obtain ⟨fields, _, body⟩ := block_body taken
      unfold decodeSasl at body
      obtain ⟨mechanism, _, _, body⟩ := Read.bind_some body
      obtain ⟨finished, _, _, body⟩ := Read.bind_some body
      split at body
      · obtain ⟨_, _, _, body⟩ := Read.bind_some body
        rw [← Option.some.inj (Prod.mk.inj body).1]
      · obtain ⟨credentials, _, _, body⟩ := Read.bind_some body
        obtain ⟨_, _, _, body⟩ := Read.bind_some body
        rw [← Option.some.inj (Prod.mk.inj body).1]

theorem search_reads_limits {reader after : BerReader} {search : SearchRequestData}
    (taken : decodeSearchRequest.run reader = (some search, after)) :
    ∃ sizeLimit timeLimit, (readWireLimits.run reader).1 = some (sizeLimit, timeLimit) ∧
      sizeLimit.length ≤ 8 ∧ timeLimit.length ≤ 8 ∧
      search.sizeLimit = (integerOf sizeLimit).toInt32 ∧
      search.timeLimit = (integerOf timeLimit).toInt32 := by
  unfold decodeSearchRequest at taken
  obtain ⟨baseDn, _, based, taken⟩ := Read.bind_some taken
  obtain ⟨scope, _, ranged, taken⟩ := Read.bind_some taken
  obtain ⟨deref, _, followed, taken⟩ := Read.bind_some taken
  obtain ⟨size, _, sized, taken⟩ := Read.bind_some taken
  obtain ⟨time, _, timed, taken⟩ := Read.bind_some taken
  obtain ⟨sizeLimit, sizeRead, rfl, _⟩ := read_integer_some sized
  obtain ⟨timeLimit, timeRead, rfl, _⟩ := read_integer_some timed
  refine ⟨sizeLimit, timeLimit, ?_, (integer_content_some sizeRead).2.1,
    (integer_content_some timeRead).2.1, ?_⟩
  · unfold readWireLimits
    rw [Read.bind_of_some based, Read.bind_of_some ranged, Read.bind_of_some followed,
      Read.bind_of_some sizeRead, Read.bind_of_some timeRead]
    rfl
  · obtain ⟨typesOnly, _, _, taken⟩ := Read.bind_some taken
    obtain ⟨filter, _, _, taken⟩ := Read.bind_some taken
    obtain ⟨attributes, _, _, taken⟩ := Read.bind_some taken
    cases taken
    exact ⟨rfl, rfl⟩

theorem result_reads_code {base result : LdapMessage} {reader after : BerReader}
    (taken : (decodeResult base).run reader = (some result, after)) :
    ∃ content middle, readEnumeratedContent.run reader = (some content, middle) ∧
      result.result = ResultCode.ofInt (enumeratedOf content) := by
  unfold decodeResult at taken
  obtain ⟨code, middle, numbered, taken⟩ := Read.bind_some taken
  obtain ⟨content, delivered, rfl⟩ := projects_enumerated.some numbered
  refine ⟨content, middle, delivered, ?_⟩
  obtain ⟨matchedDn, _, _, taken⟩ := Read.bind_some taken
  obtain ⟨diagnostic, _, _, taken⟩ := Read.bind_some taken
  obtain ⟨fields, _, _, taken⟩ := Read.bind_some taken
  obtain ⟨_, _, _, taken⟩ := Read.bind_some taken
  have kept : ∀ field message, (assignResultField message field).result = message.result := by
    intro field message
    cases field <;> rfl
  rw [← Option.some.inj (Prod.mk.inj taken).1, assign_fields_keep kept]

end Fields

section Law

variable {wire : Bytes} {message : LdapMessage}

theorem found_int_iff {found : Option Int} {content : Bytes} (few : content.length ≤ 8)
    (is : found = some (twosComplement content)) :
    found = some (integerOf content).toInt32.toInt ↔
      ∀ number, found = some number → InInt number := by
  rw [is]
  constructor
  · intro same number delivered
    rw [← Option.some.inj delivered]
    exact (narrow_int_iff few).mp (Option.some.inj same).symm
  · intro fits
    rw [(narrow_int_iff few).mpr (fits _ rfl)]

theorem message_id_kept_iff (decoded : decodeLdapMessage wire = some message) :
    wireMessageId wire = some message.messageId.toInt ↔
      ∀ number, wireMessageId wire = some number → InInt number := by
  obtain ⟨content, is, few, same⟩ := decoded_message_id decoded
  rw [same]
  exact found_int_iff few is

theorem version_kept_iff (decoded : decodeLdapMessage wire = some message) :
    (message.op = .bindRequest → wireVersion wire = some message.bind.version.toInt) ↔
      ∀ number, wireVersion wire = some number → InInt number := by
  by_cases isBind : message.op = .bindRequest
  · obtain ⟨tag, operation, number, read, after, sameOp, operated, same, found⟩ :=
      request_read readIntegerContent decoded
    rw [isBind] at sameOp found
    unfold decodeOperation at operated
    simp only [sameOp] at operated
    obtain ⟨bind, _, taken, operated⟩ := Read.bind_some operated
    cases operated
    obtain ⟨fields, opened, body⟩ := block_body taken
    obtain ⟨content, _, delivered, few, version⟩ := bind_reads_version body
    have is : wireVersion wire = some (twosComplement content) := by
      rw [wireVersion, found, block_of_body opened, delivered]
      rfl
    have field : message.bind.version = (integerOf content).toInt32 := by rw [same, version]
    rw [← found_int_iff few is, field]
    exact ⟨fun kept => kept isBind, fun kept _ => kept⟩
  · have nothing : wireVersion wire = none := by
      rw [wireVersion, other_request_none _ decoded isBind]
      rfl
    rw [nothing]
    exact ⟨fun _ => nofun, fun _ bound => absurd bound isBind⟩

theorem limits_kept_iff (decoded : decodeLdapMessage wire = some message) :
    (message.op = .searchRequest → wireLimits wire =
        some (message.search.sizeLimit.toInt, message.search.timeLimit.toInt)) ↔
      ∀ sizeLimit timeLimit, wireLimits wire = some (sizeLimit, timeLimit) →
        InInt sizeLimit ∧ InInt timeLimit := by
  by_cases isSearch : message.op = .searchRequest
  · obtain ⟨tag, operation, number, read, after, sameOp, operated, same, found⟩ :=
      request_read readWireLimits decoded
    rw [isSearch] at sameOp found
    unfold decodeOperation at operated
    simp only [sameOp] at operated
    obtain ⟨search, _, taken, operated⟩ := Read.bind_some operated
    cases operated
    obtain ⟨fields, opened, body⟩ := block_body taken
    obtain ⟨size, time, delivered, fewSize, fewTime, sizeLimit, timeLimit⟩ :=
      search_reads_limits body
    have is : wireLimits wire = some (twosComplement size, twosComplement time) := by
      rw [wireLimits, found, block_of_body opened, delivered]
      rfl
    have fields : message.search = search := by rw [same]
    rw [is, fields, sizeLimit, timeLimit]
    constructor
    · intro kept first second delivered
      obtain ⟨sizes, times⟩ := Prod.mk.inj (Option.some.inj (kept isSearch))
      obtain ⟨rfl, rfl⟩ := Prod.mk.inj (Option.some.inj delivered)
      exact ⟨(narrow_int_iff fewSize).mp sizes.symm, (narrow_int_iff fewTime).mp times.symm⟩
    · intro fits _
      obtain ⟨sizes, times⟩ := fits _ _ rfl
      rw [(narrow_int_iff fewSize).mpr sizes, (narrow_int_iff fewTime).mpr times]
  · have nothing : wireLimits wire = none := by
      rw [wireLimits, other_request_none _ decoded isSearch]
      rfl
    rw [nothing]
    exact ⟨fun _ _ _ => nofun, fun _ search => absurd search isSearch⟩

theorem decoded_result (decoded : decodeLdapMessage wire = some message)
    (isResult : IsResult message.op) :
    ∃ content, wireResult wire message.op = some (twosComplement content) ∧
      message.result = ResultCode.ofInt (enumeratedOf content) := by
  obtain ⟨tag, operation, number, read, after, sameOp, operated, same, found⟩ :=
    request_read readEnumeratedContent decoded
  have block : (readBlock tag (decodeResult
      { messageId := number, op := operationOf tag })).run operation = (some read, after) := by
    unfold decodeOperation at operated
    unfold IsResult at isResult
    rw [← sameOp] at isResult
    simp only [List.mem_cons, List.not_mem_nil, or_false] at isResult
    rcases isResult with is | is | is | is | is | is | is | is <;>
      simp only [is] at operated ⊢ <;> exact operated
  obtain ⟨fields, opened, body⟩ := block_body block
  obtain ⟨content, _, delivered, code⟩ := result_reads_code body
  refine ⟨content, ?_, by rw [same, code]⟩
  rw [wireResult, found, block_of_body opened, delivered]
  rfl

theorem result_kept_iff (decoded : decodeLdapMessage wire = some message) :
    (IsResult message.op → wireResult wire message.op = some ↑message.result.code.val) ↔
      ∀ op, IsResult op → ∀ number, wireResult wire op = some number → InByte number := by
  constructor
  · intro kept op isResult number delivered
    by_cases same : message.op = op
    · rw [← same] at isResult delivered
      obtain ⟨content, is, code⟩ := decoded_result decoded isResult
      have kept := kept isResult
      rw [is, code] at kept
      rw [is] at delivered
      rw [← Option.some.inj delivered]
      exact (narrow_code_iff content).mp (Option.some.inj kept).symm
    · rw [wireResult, other_request_none _ decoded same] at delivered
      cases delivered
  · intro fits isResult
    obtain ⟨content, is, code⟩ := decoded_result decoded isResult
    rw [is, code, (narrow_code_iff content).mpr (fits _ isResult _ is)]

theorem paged_reads_size {value cookie : Bytes} {size : Int32}
    (decoded : decodePagedResultsValue value = some (size, cookie)) :
    ∃ content, wirePageSize value = some (twosComplement content) ∧ content.length ≤ 8 ∧
      size = (integerOf content).toInt32 := by
  unfold decodePagedResultsValue at decoded
  have run : _ = (some (size, cookie), _) := Prod.ext decoded rfl
  obtain ⟨⟨number, string⟩, _, taken, run⟩ := Read.bind_some run
  obtain ⟨_, _, _, run⟩ := Read.bind_some run
  obtain ⟨rfl, rfl⟩ := Prod.mk.inj (Option.some.inj (Prod.mk.inj run).1)
  obtain ⟨fields, opened, body⟩ := block_body taken
  obtain ⟨found, _, numbered, body⟩ := Read.bind_some body
  obtain ⟨octets, _, _, body⟩ := Read.bind_some body
  obtain ⟨rfl, rfl⟩ := Prod.mk.inj (Option.some.inj (Prod.mk.inj body).1)
  obtain ⟨content, delivered, rfl, _⟩ := read_integer_some numbered
  refine ⟨content, ?_, (integer_content_some delivered).2.1, rfl⟩
  rw [wirePageSize, block_of_body opened, delivered]
  rfl

/-- The numbers of an accepted message, and of an accepted control value, are those on the
wire exactly if each of them fits. -/
theorem numbers_kept_iff (wire value : Bytes) :
    (∀ message, decodeLdapMessage wire = some message →
        (NumbersKept wire message ↔ NumbersFit wire)) ∧
      ∀ size cookie, decodePagedResultsValue value = some (size, cookie) →
        (wirePageSize value = some size.toInt ↔
          ∀ number, wirePageSize value = some number → InInt number) := by
  refine ⟨?_, ?_⟩
  · intro message decoded
    constructor
    · rintro ⟨messageId, version, limits, result⟩
      exact ⟨(message_id_kept_iff decoded).mp messageId, (version_kept_iff decoded).mp version,
        (limits_kept_iff decoded).mp limits, (result_kept_iff decoded).mp result⟩
    · rintro ⟨messageId, version, limits, result⟩
      exact ⟨(message_id_kept_iff decoded).mpr messageId, (version_kept_iff decoded).mpr version,
        (limits_kept_iff decoded).mpr limits, (result_kept_iff decoded).mpr result⟩
  · intro size cookie decoded
    obtain ⟨content, is, few, rfl⟩ := paged_reads_size decoded
    exact found_int_iff few is

/-- An unbind request with the identifier `2 ^ 32 + 1`. -/
def wideMessageId : Bytes := [0x30, 9, 2, 5, 1, 0, 0, 0, 1, 0x42, 0]

/-- The end of a search with the result code 256. -/
def wideResult : Bytes := [0x30, 13, 2, 1, 1, 0x65, 8, 10, 2, 1, 0, 4, 0, 4, 0]

/-- The identifier is taken for 1 and the result code for success. -/
theorem wide_numbers_accepted :
    (decodeLdapMessage wideMessageId).map (·.messageId) = some 1 ∧
      wireMessageId wideMessageId = some (2 ^ 32 + 1) ∧
      (decodeLdapMessage wideResult).map (·.result) = some .success ∧
      wireResult wideResult .searchResultDone = some 256 ∧
      ¬∀ wire message, decodeLdapMessage wire = some message → NumbersKept wire message := by
  have wide : wireMessageId wideMessageId = some (2 ^ 32 + 1) := by decide +kernel
  refine ⟨by decide +kernel, wide, by decide +kernel, by decide +kernel, ?_⟩
  intro kept
  have messageId := (kept wideMessageId { messageId := 1, op := .unbindRequest }
    (by decide +kernel)).messageId
  rw [wide] at messageId
  exact absurd messageId (by decide)

end Law

end SimpleLdapd.Session
