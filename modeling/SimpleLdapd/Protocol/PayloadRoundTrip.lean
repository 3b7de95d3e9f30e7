import SimpleLdapd.Protocol.BuiltFilters
import SimpleLdapd.Protocol.MessageRoundTrip
import SimpleLdapd.Protocol.WireCodes

/-!
# Round trip of the nested payloads

A password modify request and a paged results control are BER values of their
own, carried as octet strings of another BER value. They come back whole: the
password request from its extended request, the paged results from any message
the program can write, with any other controls around it.
-/

namespace SimpleLdapd.Message

open Dn Ber

section PasswordModify

inductive PasswordField where
  | userIdentity (value : Bytes)
  | oldPassword (value : Bytes)
  | newPassword (value : Bytes)

/-- The fields of a request that are written, in order. -/
def passwordFields (request : PasswordModifyRequest) : List PasswordField :=
  (if request.userIdentity ≠ [] then [.userIdentity request.userIdentity] else []) ++
    (request.oldPassword.toList.map .oldPassword ++ request.newPassword.toList.map .newPassword)

def encodePasswordField : PasswordField → Bytes
  | .userIdentity value => writeOctetStringAs kBerSimpleAuth value
  | .oldPassword value => writeOctetStringAs kBerContext1 value
  | .newPassword value => writeOctetStringAs kBerContext2 value

def assignPasswordField : PasswordField → PasswordModifyRequest → PasswordModifyRequest
  | .userIdentity value => fun request => { request with userIdentity := value }
  | .oldPassword value => fun request => { request with oldPassword := some value }
  | .newPassword value => fun request => { request with newPassword := some value }

theorem encode_password_fields (request : PasswordModifyRequest) :
    encodePasswordModifyValue request =
      writeConstructed kBerSequence ((passwordFields request).flatMap encodePasswordField) := by
  rcases request with ⟨identity, old, new⟩
  unfold encodePasswordModifyValue passwordFields
  congr 1
  by_cases unnamed : identity = [] <;> cases old <;> cases new <;>
    simp [unnamed, writeUnlessEmpty, writeOptional, encodePasswordField]

/-- The fields rebuild the request: an absent one is assigned nothing, an empty one is. -/
theorem assign_password_fields (request : PasswordModifyRequest) :
    ((passwordFields request).map assignPasswordField).foldl
      (fun built assign => assign built) {} = request := by
  rcases request with ⟨identity, old, new⟩
  unfold passwordFields
  by_cases unnamed : identity = [] <;> cases old <;> cases new <;>
    simp [unnamed, assignPasswordField]

theorem decodes_password_field (field : PasswordField) :
    Decodes readPasswordField (encodePasswordField field) (assignPasswordField field) ∧
      encodePasswordField field ≠ [] := by
  cases field with
  | userIdentity value =>
      apply And.intro _ (by simp [encodePasswordField, writeOctetStringAs, write_tagged_cons])
      apply decodes_peek
      rw [if_pos rfl]
      exact decodes_map (decodes_octet_string _ value) (reads_pure _)
  | oldPassword value =>
      apply And.intro _ (by simp [encodePasswordField, writeOctetStringAs, write_tagged_cons])
      apply decodes_peek
      rw [if_neg (by decide), if_pos rfl]
      exact decodes_map (decodes_octet_string _ value) (reads_pure _)
  | newPassword value =>
      apply And.intro _ (by simp [encodePasswordField, writeOctetStringAs, write_tagged_cons])
      apply decodes_peek
      rw [if_neg (by decide), if_neg (by decide), if_pos rfl]
      exact decodes_map (decodes_octet_string _ value) (reads_pure _)

theorem decode_encode_password (request : PasswordModifyRequest)
    (bound : (encodePasswordModifyValue request).length < 2 ^ 32) :
    decodePasswordModifyValue (encodePasswordModifyValue request) = some request := by
  have fields : Completes (Read.whileMore readPasswordField)
      ((passwordFields request).flatMap encodePasswordField)
      ((passwordFields request).map assignPasswordField) :=
    completes_images _ fun field _ => decodes_password_field field
  have block : Decodes (readBlock kBerSequence do
        let assigns ← Read.whileMore readPasswordField
        Read.requireOk
        pure (assigns.foldl (fun request assign => assign request) {}))
      (encodePasswordModifyValue request) request := by
    rw [encode_password_fields]
    apply decodes_block
    apply completes_then fields
    apply finishes_then finishes_require_ok
    rw [assign_password_fields]
    exact (reads_pure _).finishes
  have present : encodePasswordModifyValue request ≠ [] := by
    simp [encodePasswordModifyValue, writeConstructed, write_tagged_cons]
  have taken := (block bound).finishes []
  unfold decodePasswordModifyValue
  rw [if_neg present]
  exact congrArg Prod.fst taken

end PasswordModify

section AnyMessage

theorem decodes_enumerated (number : Int32) :
    Decodes readEnumerated (writeEnumerated number)
      (enumeratedOf (encodeInteger number.toInt64)) := by
  intro _
  obtain ⟨few, some⟩ := encode_integer_length number.toInt64
  apply reads_bind
    (reads_tag_length kBerEnumerated (encodeInteger number.toInt64).length (by omega))
  simp only [ne_eq, not_true_eq_false, some, Nat.not_lt.mpr few, or_self, if_false]
  exact reads_map (reads_consume (encodeInteger number.toInt64)) (reads_pure _)

theorem search_decodes (search : SearchRequestData) (built : search.filter.Built) :
    ∃ decoded, Decodes (readBlock kBerSearchRequest decodeSearchRequest)
      (encodeSearchRequest search) decoded := by
  obtain ⟨tree, valid, written⟩ := built.written
  have filter : Decodes SearchFilter.decodeBer search.filter.encodeBer
      { text := text "(decoded)", valid := true, root := tree } := by
    intro bound
    rw [written] at bound ⊢
    apply reads_map (Filter.reads_node valid bound)
    apply reads_map reads_require_ok
    exact reads_pure _
  exact ⟨_, decodes_search_parts search (decodes_enumerated search.scope.toInt) filter⟩

theorem modify_decodes (modify : ModifyRequestData) :
    ∃ decoded, Decodes (readBlock kBerModifyRequest decodeModifyRequest)
      (encodeModifyRequest modify) decoded :=
  ⟨_, decodes_modify_parts modify _ fun change _ =>
    decodes_change_number change (decodes_enumerated change.op.toInt)⟩

/-- Whatever the operation and its fields, its decoder takes the bytes that its encoder wrote. -/
theorem operation_decodes {message : LdapMessage}
    (built : message.op = .searchRequest → message.search.filter.Built)
    (bound : (encodeLdapMessage message).length < 2 ^ 32) :
    ∃ tag more result, encodeOperation message = tag :: more ∧ result.controls = [] ∧
      Decodes (decodeOperation { messageId := message.messageId } tag)
        (encodeOperation message) result := by
  have declared : message.op ≠ .unknown → message.op ≠ .searchRequest →
      message.op ≠ .modifyRequest → Encodable message := fun known noSearch noModify =>
    { known := known
      scope := fun search => absurd search noSearch
      filter := fun search => absurd search noSearch
      changes := fun modify => absurd modify noModify
      bound := bound }
  by_cases search : message.op = .searchRequest
  · rcases search_decodes message.search (built search) with ⟨decoded, reads⟩
    have shape : encodeOperation message = encodeSearchRequest message.search := by
      rw [encodeOperation, search]
    rw [shape]
    exact ⟨_, _, _, rfl, rfl, decodes_map reads (reads_pure _)⟩
  · by_cases modify : message.op = .modifyRequest
    · rcases modify_decodes message.modify with ⟨decoded, reads⟩
      have shape : encodeOperation message = encodeModifyRequest message.modify := by
        rw [encodeOperation, modify]
      rw [shape]
      exact ⟨_, _, _, rfl, rfl, decodes_map reads (reads_pure _)⟩
    · by_cases unknown : message.op = .unknown
      · have shape : encodeOperation message = resultOp message kBerSearchResultDone := by
          rw [encodeOperation, unknown]
        rw [shape]
        exact ⟨_, _, _, rfl, rfl, decodes_plain_result _ _ _ (by decide)⟩
      · rcases decodes_operation (declared unknown search modify) with ⟨tag, more, shape, reads⟩
        exact ⟨tag, more, _, shape, rfl, reads⟩

/-- Every message the program can write is read back with its own controls. -/
theorem controls_carried {message : LdapMessage}
    (built : message.op = .searchRequest → message.search.filter.Built)
    (bound : (encodeLdapMessage message).length < 2 ^ 32) :
    ∃ decoded, decodeLdapMessage (encodeLdapMessage message) = some decoded ∧
      decoded.controls = message.controls := by
  rcases operation_decodes built bound with ⟨tag, more, result, shape, bare, operation⟩
  exact ⟨_, decode_of_completes (completes_around shape operation bare) bound, rfl⟩

end AnyMessage

section Payloads

theorem write_unless_empty_longer (tag : Byte) (value : Bytes) :
    value.length ≤ (writeUnlessEmpty tag value).length := by
  rcases write_unless_empty_cases tag value with empty | written
  · rw [empty]
    exact Nat.zero_le _
  · rw [written]
    exact (write_tagged_length tag value).le

/-- What stands in the operation is shorter than the message. -/
theorem operation_shorter (message : LdapMessage) :
    (encodeOperation message).length < (encodeLdapMessage message).length := by
  have whole := write_tagged_length kBerSequence
    (writeInteger message.messageId.toInt64 ++ (encodeOperation message ++
      if message.controls ≠ [] then encodeControls message.controls else []))
  simp only [List.length_append] at whole
  rw [encodeLdapMessage, writeConstructed]
  omega

theorem controls_shorter {message : LdapMessage} (some : message.controls ≠ []) :
    (encodeControls message.controls).length < (encodeLdapMessage message).length := by
  have whole := write_tagged_length kBerSequence
    (writeInteger message.messageId.toInt64 ++ (encodeOperation message ++
      if message.controls ≠ [] then encodeControls message.controls else []))
  rw [if_pos some, List.length_append, List.length_append] at whole
  rw [encodeLdapMessage, writeConstructed, if_pos some]
  omega

/-- The value of a control is shorter than the message around it. -/
theorem control_value_shorter {message : LdapMessage} {control : LdapControl}
    (member : control ∈ message.controls) :
    control.value.length < (encodeLdapMessage message).length := by
  have value := write_unless_empty_longer kBerOctetString control.value
  have content := write_tagged_length kBerSequence
    (writeOctetString control.oid ++ ((if control.critical then writeBoolean true else []) ++
      writeUnlessEmpty kBerOctetString control.value))
  have one := flat_map_length_le encodeControl member
  have all := write_tagged_length kBerControls (message.controls.flatMap encodeControl)
  have whole := controls_shorter (List.ne_nil_of_mem member)
  simp only [List.length_append] at content
  rw [encodeControl, writeConstructed] at one
  rw [encodeControls, writeConstructed] at whole
  omega

theorem extended_value_shorter (messageId : Int32) (oid value : Bytes) :
    value.length < (encodeLdapMessage (makeExtendedRequest messageId oid value)).length := by
  have written := write_unless_empty_longer kBerContext1 value
  have content := write_tagged_length kBerExtendedRequest
    (writeOctetStringAs kBerSimpleAuth oid ++ writeUnlessEmpty kBerContext1 value)
  have whole := operation_shorter (makeExtendedRequest messageId oid value)
  have shape : encodeOperation (makeExtendedRequest messageId oid value) =
      writeTagged kBerExtendedRequest
        (writeOctetStringAs kBerSimpleAuth oid ++ writeUnlessEmpty kBerContext1 value) := rfl
  rw [List.length_append] at content
  rw [shape] at whole
  omega

/-- The payloads come back whole: a password request from its extended request, and the paged
results of a control from any message, among any other controls. -/
theorem payloads_round_trip :
    (∀ (messageId : Int32) (request : PasswordModifyRequest),
      (encodeLdapMessage (makePasswordModifyRequest messageId request)).length < 2 ^ 32 →
      ∃ message, decodeLdapMessage
          (encodeLdapMessage (makePasswordModifyRequest messageId request)) = some message ∧
        message.op = .extendedRequest ∧ message.messageId = messageId ∧
        message.extendedOid = kPasswordModifyOid ∧
        decodePasswordModifyValue message.extendedValue = some request) ∧
    ∀ (message : LdapMessage) (size : Int32) (cookie : Bytes) (critical : Bool)
      (before after : List LdapControl),
      message.controls = before ++ makePagedResultsControl size cookie critical :: after →
      (message.op = .searchRequest → message.search.filter.Built) →
      (encodeLdapMessage message).length < 2 ^ 32 →
      ∃ decoded control, decodeLdapMessage (encodeLdapMessage message) = some decoded ∧
        decoded.controls = before ++ control :: after ∧ control.oid = kPagedResultsOid ∧
        control.critical = critical ∧
        decodePagedResultsValue control.value = some (size, cookie) := by
  constructor
  · intro messageId request bound
    have encodable : Encodable (makePasswordModifyRequest messageId request) :=
      { known := fun unknown => nomatch unknown
        scope := fun search => nomatch search
        filter := fun search => nomatch search
        changes := fun modify => nomatch modify
        bound := bound }
    refine ⟨_, decode_encode_message _ encodable, rfl, rfl, rfl, ?_⟩
    apply decode_encode_password
    exact (extended_value_shorter messageId kPasswordModifyOid _).trans bound
  · intro message size cookie critical before after carried built bound
    rcases controls_carried built bound with ⟨decoded, read, same⟩
    refine ⟨decoded, makePagedResultsControl size cookie critical, read, by rw [same, carried], rfl,
      rfl, ?_⟩
    have member : makePagedResultsControl size cookie critical ∈ message.controls := by
      rw [carried]
      exact List.mem_append_right before List.mem_cons_self
    exact decode_paged_value size cookie ((control_value_shorter member).trans bound)

/-- A search that asks for its next page, between two other controls. -/
def pagedSearch : LdapMessage where
  messageId := 8
  op := .searchRequest
  controls := [{ oid := text "1.2.840.113556.1.4.805" },
    makePagedResultsControl 100 (text "next") true,
    { oid := text "2.16.840.1.113730.3.4.2", critical := true, value := [0] }]

/-- An empty old password beside an absent new one, and a cookie among other controls. -/
theorem payloads_round_trip_applied :
    (∃ message, decodeLdapMessage (encodeLdapMessage (makePasswordModifyRequest 7
        { userIdentity := text "uid=ann", oldPassword := some [] })) = some message ∧
      message.op = .extendedRequest ∧ message.messageId = 7 ∧
      message.extendedOid = kPasswordModifyOid ∧
      decodePasswordModifyValue message.extendedValue =
        some { userIdentity := text "uid=ann", oldPassword := some [] }) ∧
      ∃ decoded control, decodeLdapMessage (encodeLdapMessage pagedSearch) = some decoded ∧
        decoded.controls = [{ oid := text "1.2.840.113556.1.4.805" }] ++ control ::
          [{ oid := text "2.16.840.1.113730.3.4.2", critical := true, value := [0] }] ∧
        control.oid = kPagedResultsOid ∧ control.critical = true ∧
        decodePagedResultsValue control.value = some (100, text "next") :=
  ⟨payloads_round_trip.1 7 _ (by decide +kernel),
    payloads_round_trip.2 pagedSearch 100 (text "next") true _ _ rfl (fun _ => .present _)
      (by decide +kernel)⟩

end Payloads

end SimpleLdapd.Message
