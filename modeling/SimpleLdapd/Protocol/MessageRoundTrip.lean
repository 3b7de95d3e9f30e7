import SimpleLdapd.Protocol.Message

/-!
# Round trip of the message codec

`decodeLdapMessage` after `encodeLdapMessage` gives back the identifier, the
operation, the controls and the fields that the operation owns. Each encoder is
matched with its decoder by a `Decodes` or `Completes` lemma, block by block.
-/

namespace SimpleLdapd.Message

open Dn Ber

/-- What a decoded filter keeps of the encoded one: its tree. -/
def decodedFilter (filter : SearchFilter) : SearchFilter :=
  { text := text "(decoded)", valid := true, root := filter.root }

/-- The fields of a bind request that its authentication choice owns. -/
def ownBind (bind : BindRequestData) : BindRequestData :=
  if bind.simple then { bind with saslMechanism := [], saslCredentials := [] }
  else { bind with password := [] }

/-- The message with every field that does not belong to its operation at its default. -/
def ownFields (message : LdapMessage) : LdapMessage :=
  let base : LdapMessage :=
    { messageId := message.messageId, op := message.op, controls := message.controls }
  let withResult : LdapMessage :=
    { base with result := message.result, matchedDn := message.matchedDn
                diagnostic := message.diagnostic }
  match message.op with
  | .bindRequest => { base with bind := ownBind message.bind }
  | .bindResponse => { withResult with serverSaslCreds := message.serverSaslCreds }
  | .unbindRequest => base
  | .searchRequest =>
      { base with search :=
          { message.search with filter := decodedFilter message.search.filter } }
  | .searchResultEntry => { base with entry := message.entry }
  | .modifyRequest => { base with modify := message.modify }
  | .addRequest => { base with add := message.add }
  | .delRequest => { base with deleteDn := message.deleteDn }
  | .modifyDnRequest => { base with modifyDn := message.modifyDn }
  | .compareRequest => { base with compare := message.compare }
  | .extendedRequest =>
      { base with extendedOid := message.extendedOid, extendedValue := message.extendedValue }
  | .extendedResponse =>
      { withResult with extendedOid := message.extendedOid
                        extendedValue := message.extendedValue }
  | .searchResultDone | .modifyResponse | .addResponse | .delResponse | .modifyDnResponse
  | .compareResponse => withResult
  | .unknown => base

/-- The messages the codec is meant for. The conditions on a request's own
fields are asked only of that request. -/
structure Encodable (message : LdapMessage) : Prop where
  known : message.op ≠ .unknown
  scope : message.op = .searchRequest → message.search.scope.Declared
  filter : message.op = .searchRequest →
    message.search.filter.valid = true ∧ Filter.ValidTree message.search.filter.root
  changes : message.op = .modifyRequest →
    ∀ change ∈ message.modify.changes, change.op.Declared
  bound : (encodeLdapMessage message).length < 2 ^ 32

theorem write_unless_empty_cases (tag : Byte) (value : Bytes) :
    value = [] ∨ writeUnlessEmpty tag value = writeOctetStringAs tag value := by
  by_cases empty : value = []
  · exact Or.inl empty
  · exact Or.inr (if_pos empty)

theorem decodes_octets (value : Bytes) :
    Decodes readOctetString (writeOctetString value) value :=
  decodes_octet_string kBerOctetString value

theorem decodes_int (number : Int32) :
    Decodes readInteger (writeInteger number.toInt64) number.toInt64 :=
  (reads_integer number.toInt64).decodes

theorem decodes_paged (size : Int32) (cookie : Bytes) :
    Decodes (readBlock kBerSequence do
        let size ← readInteger
        let cookie ← readOctetString
        pure (size, cookie)) (encodePagedResultsValue size cookie) (size.toInt64, cookie) := by
  apply decodes_block
  apply completes_bind (decodes_int size)
  exact completes_then (decodes_octets cookie).completes (reads_pure _).finishes

theorem encode_paged_length (size : Int32) {cookie : Bytes} (short : cookie.length < 2 ^ 31) :
    (encodePagedResultsValue size cookie).length < 2 ^ 32 := by
  have few := (encode_integer_length size.toInt64).1
  have number := write_tagged_length_le kBerInteger (lt_of_le_of_lt few (by norm_num))
  have octets := write_tagged_length_le kBerOctetString (lt_trans short (by norm_num))
  have inner : (writeInteger size.toInt64 ++ writeOctetString cookie).length < 2 ^ 31 + 20 := by
    rw [List.length_append, writeInteger, writeOctetString, writeOctetStringAs]
    omega
  have outer := write_tagged_length_le kBerSequence (lt_trans inner (by norm_num))
  rw [encodePagedResultsValue, writeConstructed]
  omega

theorem decode_paged_value (size : Int32) (cookie : Bytes)
    (bound : (encodePagedResultsValue size cookie).length < 2 ^ 32) :
    decodePagedResultsValue (encodePagedResultsValue size cookie) = some (size, cookie) := by
  have taken := (decodes_paged size cookie bound).finishes []
  unfold decodePagedResultsValue
  rw [show ({ data := encodePagedResultsValue size cookie } : BerReader) =
    reading [] (encodePagedResultsValue size cookie) from rfl, Read.bind_of_some taken,
    Read.bind_of_some (finishes_require_ok _)]
  simp only [Read.pure_apply, Int32.toInt32_toInt64]

theorem decode_encode_paged (size : Int32) {cookie : Bytes} (short : cookie.length < 2 ^ 31) :
    decodePagedResultsValue (encodePagedResultsValue size cookie) = some (size, cookie) :=
  decode_paged_value size cookie (encode_paged_length size short)

theorem decodes_result_code (result : ResultCode) :
    Decodes readEnumerated (writeEnumerated result.toInt) result.toInt :=
  (reads_enumerated result.toInt (small_code_positive result.code)).decodes

theorem decodes_small_enumerated (number : Int32) (small : number = 0 ∨ number = 1 ∨ number = 2) :
    Decodes readEnumerated (writeEnumerated number) number := by
  apply Reads.decodes
  apply reads_enumerated
  rcases small with zero | one | two
  · subst zero
    exact small_code_positive 0
  · subst one
    exact small_code_positive 1
  · subst two
    exact small_code_positive 2

theorem scope_codes {scope : SearchScope} (declared : scope.Declared) :
    (scope.toInt = 0 ∨ scope.toInt = 1 ∨ scope.toInt = 2) ∧
      SearchScope.ofInt scope.toInt = scope := by
  rcases declared with base | oneLevel | subtree
  · subst base
    decide
  · subst oneLevel
    decide
  · subst subtree
    decide

theorem op_codes {op : ModifyOp} (declared : op.Declared) :
    (op.toInt = 0 ∨ op.toInt = 1 ∨ op.toInt = 2) ∧ ModifyOp.ofInt op.toInt = op := by
  rcases declared with add | delete | replace
  · subst add
    decide
  · subst delete
    decide
  · subst replace
    decide

/-- The fields after the three of `encodeResult`, as `decodeResult` reads them. -/
def encodeResultField : ResultField → Bytes
  | .serverSaslCreds value => writeOctetStringAs kBerServerSaslCreds value
  | .extendedOid value => writeOctetStringAs kBerContext10 value
  | .extendedValue value => writeOctetStringAs kBerContext11 value
  | .skipped => []

theorem decodes_result_field (field : ResultField) (kept : field ≠ .skipped) :
    Decodes readResultField (encodeResultField field) field ∧ encodeResultField field ≠ [] := by
  cases field with
  | skipped => exact absurd rfl kept
  | serverSaslCreds value =>
      apply And.intro _ (by simp [encodeResultField, writeOctetStringAs, write_tagged_cons])
      apply decodes_peek
      rw [if_pos rfl]
      exact decodes_map (decodes_octet_string _ value) (reads_pure _)
  | extendedOid value =>
      apply And.intro _ (by simp [encodeResultField, writeOctetStringAs, write_tagged_cons])
      apply decodes_peek
      rw [if_neg (by decide), if_pos rfl]
      exact decodes_map (decodes_octet_string _ value) (reads_pure _)
  | extendedValue value =>
      apply And.intro _ (by simp [encodeResultField, writeOctetStringAs, write_tagged_cons])
      apply decodes_peek
      rw [if_neg (by decide), if_neg (by decide), if_pos rfl]
      exact decodes_map (decodes_octet_string _ value) (reads_pure _)

theorem completes_result (message : LdapMessage) (result : ResultCode)
    (matchedDn diagnostic : Bytes) (fields : List ResultField)
    (kept : ∀ field ∈ fields, field ≠ .skipped) :
    Completes (decodeResult message)
      (encodeResult result matchedDn diagnostic ++ fields.flatMap encodeResultField)
      (fields.foldl assignResultField
        { message with result := result, matchedDn := matchedDn, diagnostic := diagnostic }) := by
  have loop := completes_repeated fields
    (fun field member => decodes_result_field field (kept field member))
  rw [encodeResult, List.append_assoc, List.append_assoc]
  apply completes_bind (decodes_result_code result)
  apply completes_bind (decodes_octets matchedDn)
  apply completes_bind (decodes_octets diagnostic)
  apply completes_then loop
  apply finishes_then finishes_require_ok
  rw [ResultCode.of_int_to_int]
  exact (reads_pure _).finishes

theorem decodes_attribute (type : Bytes) (values : List Bytes) :
    Decodes decodeAttribute (encodeAttribute type values) (type, values) := by
  apply decodes_block
  apply completes_bind (decodes_octets type)
  apply completes_then (Decodes.completes (decodes_block kBerSet (completes_repeated values ?each)))
  · exact (reads_pure _).finishes
  · intro value _
    exact ⟨decodes_octets value, by simp [writeOctetString, writeOctetStringAs, write_tagged_cons]⟩

theorem completes_attributes (attributes : List PartialAttribute) :
    Completes decodeAttributes (encodeAttributes attributes) attributes := by
  apply completes_checked
  apply completes_repeated attributes
  intro item _
  apply And.intro _ (by simp [encodeAttribute, writeConstructed, write_tagged_cons])
  exact decodes_map (decodes_attribute item.type item.values) (reads_pure _)

/-- A change is read back with the operation its number is taken for. -/
theorem decodes_change_number (change : AttributeModification) {number : Int32}
    (read : Decodes readEnumerated (writeEnumerated change.op.toInt) number) :
    Decodes decodeChange (encodeChange change) { change with op := .ofInt number } := by
  apply decodes_block
  apply completes_bind read
  apply completes_then (decodes_attribute change.type change.values).completes
  exact (reads_pure _).finishes

theorem decodes_change (change : AttributeModification) (declared : change.op.Declared) :
    Decodes decodeChange (encodeChange change) change := by
  obtain ⟨small, back⟩ := op_codes declared
  have numbered := decodes_change_number change (decodes_small_enumerated change.op.toInt small)
  rwa [back] at numbered

theorem completes_sasl (bind : BindRequestData) (mechanism credentials : Bytes)
    (unset : bind.saslCredentials = []) :
    Completes (decodeSasl bind)
      (encodeSasl { bind with saslMechanism := mechanism, saslCredentials := credentials })
      { bind with saslMechanism := mechanism, saslCredentials := credentials } := by
  apply completes_bind (decodes_octets mechanism)
  rcases write_unless_empty_cases kBerOctetString credentials with empty | written
  · simp only [empty]
    apply completes_end
    rw [if_pos rfl]
    apply finishes_then finishes_require_ok
    have same : ({ bind with saslMechanism := mechanism } : BindRequestData) =
        { bind with saslMechanism := mechanism, saslCredentials := [] } := by
      rw [← unset]
    rw [same]
    exact (reads_pure _).finishes
  · simp only [written]
    apply completes_more
    rw [if_neg (by simp)]
    apply completes_then (decodes_octets credentials).completes
    apply finishes_then finishes_require_ok
    exact (reads_pure _).finishes

theorem decodes_bind_request (bind : BindRequestData) :
    Decodes (readBlock kBerBindRequest decodeBindRequest) (encodeBindRequest bind)
      (ownBind bind) := by
  rcases bind with ⟨version, dn, password, simple, mechanism, credentials⟩
  apply decodes_block
  apply completes_bind (decodes_int version)
  apply completes_bind (decodes_octets dn)
  cases simple with
  | true =>
      simp only [if_true]
      apply completes_peek
      simp only [if_true]
      apply completes_then (decodes_octet_string kBerSimpleAuth password).completes
      simp only [Int32.toInt32_toInt64]
      exact (reads_pure _).finishes
  | false =>
      simp only [Bool.false_eq_true, if_false]
      apply completes_peek
      rw [if_neg (by decide), if_neg (by decide)]
      apply Decodes.completes
      apply decodes_block
      simp only [Int32.toInt32_toInt64]
      exact completes_sasl { version := version, dn := dn, simple := false } mechanism
        credentials rfl

/-- A search is read back with the scope its number is taken for and the filter its bytes are. -/
theorem decodes_search_parts (search : SearchRequestData) {number : Int32} {filter : SearchFilter}
    (scope : Decodes readEnumerated (writeEnumerated search.scope.toInt) number)
    (tree : Decodes SearchFilter.decodeBer search.filter.encodeBer filter) :
    Decodes (readBlock kBerSearchRequest decodeSearchRequest) (encodeSearchRequest search)
      { search with scope := .ofInt number, filter := filter } := by
  have names : Completes (Read.whileMore readOctetString)
      (search.attributes.flatMap writeOctetString) search.attributes := by
    apply completes_repeated
    intro name _
    exact ⟨decodes_octets name, by simp [writeOctetString, writeOctetStringAs, write_tagged_cons]⟩
  apply decodes_block
  apply completes_bind (decodes_octets search.baseDn)
  apply completes_bind scope
  apply completes_bind (decodes_small_enumerated 0 (Or.inl rfl))
  apply completes_bind (decodes_int search.sizeLimit)
  apply completes_bind (decodes_int search.timeLimit)
  apply completes_bind (reads_boolean search.typesOnly).decodes
  apply completes_bind tree
  apply completes_then (decodes_block kBerSequence (completes_checked names)).completes
  simp only [Int32.toInt32_toInt64]
  exact (reads_pure _).finishes

theorem decodes_search_request (search : SearchRequestData) (declared : search.scope.Declared)
    (valid : search.filter.valid = true) (tree : Filter.ValidTree search.filter.root) :
    Decodes (readBlock kBerSearchRequest decodeSearchRequest) (encodeSearchRequest search)
      { search with filter := decodedFilter search.filter } := by
  obtain ⟨small, back⟩ := scope_codes declared
  have filter : Decodes SearchFilter.decodeBer search.filter.encodeBer
      (decodedFilter search.filter) := fun bound => SearchFilter.reads_filter valid tree bound
  have parts := decodes_search_parts search
    (decodes_small_enumerated search.scope.toInt small) filter
  rwa [back] at parts

theorem decodes_search_entry (entry : SearchEntryData) :
    Decodes (readBlock kBerSearchResultEntry decodeSearchEntry) (encodeSearchEntry entry)
      entry := by
  apply decodes_block
  apply completes_bind (decodes_octets entry.dn)
  apply completes_then
    (decodes_block kBerSequence (completes_attributes entry.attributes)).completes
  exact (reads_pure _).finishes

theorem decodes_add_request (add : AddRequestData) :
    Decodes (readBlock kBerAddRequest decodeAddRequest) (encodeAddRequest add) add := by
  apply decodes_block
  apply completes_bind (decodes_octets add.dn)
  apply completes_then
    (decodes_block kBerSequence (completes_attributes add.attributes)).completes
  exact (reads_pure _).finishes

theorem decodes_modify_parts (modify : ModifyRequestData)
    (image : AttributeModification → AttributeModification)
    (each : ∀ change ∈ modify.changes, Decodes decodeChange (encodeChange change) (image change)) :
    Decodes (readBlock kBerModifyRequest decodeModifyRequest) (encodeModifyRequest modify)
      { modify with changes := modify.changes.map image } := by
  have changes : Completes (Read.whileMore decodeChange)
      (modify.changes.flatMap encodeChange) (modify.changes.map image) := by
    apply completes_images
    intro change member
    exact ⟨each change member, by simp [encodeChange, writeConstructed, write_tagged_cons]⟩
  apply decodes_block
  apply completes_bind (decodes_octets modify.dn)
  apply completes_then (decodes_block kBerSequence (completes_checked changes)).completes
  exact (reads_pure _).finishes

theorem decodes_modify_request (modify : ModifyRequestData)
    (declared : ∀ change ∈ modify.changes, change.op.Declared) :
    Decodes (readBlock kBerModifyRequest decodeModifyRequest) (encodeModifyRequest modify)
      modify := by
  have parts := decodes_modify_parts modify (fun change => change) fun change member =>
    decodes_change change (declared change member)
  rwa [List.map_id'] at parts

theorem decodes_modify_dn_request (modifyDn : ModifyDnRequestData) :
    Decodes (readBlock kBerModifyDNRequest decodeModifyDnRequest)
      (encodeModifyDnRequest modifyDn) modifyDn := by
  rcases modifyDn with ⟨dn, newRdn, deleteOldRdn, newSuperior⟩
  apply decodes_block
  apply completes_bind (decodes_octets dn)
  apply completes_bind (decodes_octets newRdn)
  apply completes_bind (reads_boolean deleteOldRdn).decodes
  rcases write_unless_empty_cases kBerSimpleAuth newSuperior with empty | written
  · simp only [empty]
    apply completes_no_next
    rw [if_neg (by simp)]
    apply finishes_then finishes_require_ok
    exact (reads_pure _).finishes
  · simp only [written]
    apply completes_next
    rw [if_pos (by simp)]
    apply completes_then (decodes_octet_string kBerSimpleAuth newSuperior).completes
    exact (reads_pure _).finishes

theorem decodes_compare_request (compare : CompareRequestData) :
    Decodes (readBlock kBerCompareRequest decodeCompareRequest)
      (encodeCompareRequest compare) compare := by
  have assertion : Completes (do
        let name ← readOctetString
        let value ← readOctetString
        pure (name, value))
      (writeOctetString compare.attributeName ++ writeOctetString compare.value)
      (compare.attributeName, compare.value) := by
    apply completes_bind (decodes_octets compare.attributeName)
    apply completes_then (decodes_octets compare.value).completes
    exact (reads_pure _).finishes
  apply decodes_block
  apply completes_bind (decodes_octets compare.dn)
  apply completes_then (decodes_block kBerSequence assertion).completes
  apply finishes_then finishes_require_ok
  exact (reads_pure _).finishes

theorem decodes_extended_request (oid value : Bytes) :
    Decodes (readBlock kBerExtendedRequest decodeExtendedRequest)
      (encodeExtendedRequest oid value) (oid, value) := by
  apply decodes_block
  apply completes_bind (decodes_octet_string kBerSimpleAuth oid)
  rcases write_unless_empty_cases kBerContext1 value with empty | written
  · simp only [empty]
    apply completes_no_next
    rw [if_neg (by simp)]
    apply finishes_then finishes_require_ok
    exact (reads_pure _).finishes
  · simp only [written]
    apply completes_next
    rw [if_pos (by simp)]
    apply completes_then (decodes_octet_string kBerContext1 value).completes
    exact (reads_pure _).finishes

theorem completes_control_value (value : Bytes) :
    Completes decodeControlValue (writeUnlessEmpty kBerOctetString value) value := by
  rcases write_unless_empty_cases kBerOctetString value with empty | written
  · subst empty
    exact completes_end (reads_pure ([] : Bytes)).finishes
  · rw [written]
    exact completes_more (decodes_octets value).completes

/-- The flag is written only when it is set; otherwise the value's own tag follows. -/
theorem completes_criticality {Result : Type} {rest : Bool → Read Result} {result : Result}
    (critical : Bool) (value : Bytes)
    (there : Completes (rest critical) (writeUnlessEmpty kBerOctetString value) result) :
    Completes (decodeCriticality >>= rest)
      ((if critical then writeBoolean true else []) ++ writeUnlessEmpty kBerOctetString value)
      result := by
  cases critical with
  | true =>
      have flag : Decodes decodeCriticality (writeBoolean true) true :=
        decodes_next (reads_boolean true).decodes
      exact completes_bind flag there
  | false =>
      rw [if_neg (by simp), List.nil_append]
      intro bound before
      have absent : decodeCriticality.run
          (reading before (writeUnlessEmpty kBerOctetString value)) =
          (some false, reading before (writeUnlessEmpty kBerOctetString value)) := by
        rcases write_unless_empty_cases kBerOctetString value with empty | written
        · subst empty
          exact Read.bind_of_some (next_is_finished kBerBoolean before) _
        · rw [written]
          exact Read.bind_of_some (next_is_reading kBerBoolean kBerOctetString before _) _
      rw [Read.bind_of_some absent]
      exact there bound before

theorem decodes_control (control : LdapControl) :
    Decodes decodeControl (encodeControl control) control := by
  rcases control with ⟨oid, critical, value⟩
  apply decodes_block
  apply completes_bind (decodes_octets oid)
  apply completes_criticality
  apply completes_then (completes_control_value value)
  exact (reads_pure _).finishes

theorem decodes_controls (controls : List LdapControl) :
    Decodes (readBlock kBerControls decodeControls) (encodeControls controls) controls := by
  apply decodes_block
  apply completes_checked
  apply completes_repeated controls
  intro control _
  exact ⟨decodes_control control, by simp [encodeControl, writeConstructed, write_tagged_cons]⟩

/-- What `decodeOperation` starts from: nothing is known but the identifier and the operation. -/
def freshMessage (messageId : Int32) (op : ProtocolOp) : LdapMessage :=
  { messageId := messageId, op := op }

theorem decodes_bind_response (messageId : Int32) (op : ProtocolOp) (message : LdapMessage) :
    Decodes (readBlock kBerBindResponse (decodeResult (freshMessage messageId op)))
      (encodeBindResponse message)
      { freshMessage messageId op with
        result := message.result, matchedDn := message.matchedDn
        diagnostic := message.diagnostic, serverSaslCreds := message.serverSaslCreds } := by
  have completes := completes_result (freshMessage messageId op) message.result
    message.matchedDn message.diagnostic
  apply decodes_block
  rcases write_unless_empty_cases kBerServerSaslCreds message.serverSaslCreds with empty | written
  · rw [empty]
    exact completes [] (by simp)
  · have fields := completes [.serverSaslCreds message.serverSaslCreds] (by simp)
    rw [written]
    rwa [List.flatMap_singleton] at fields

theorem decodes_plain_result (base message : LdapMessage) (tag : Byte)
    (plain : tag ≠ kBerExtendedResponse) :
    Decodes (readBlock tag (decodeResult base)) (resultOp message tag)
      { base with result := message.result, matchedDn := message.matchedDn
                  diagnostic := message.diagnostic } := by
  apply decodes_block
  rw [if_neg plain]
  exact completes_result base message.result message.matchedDn message.diagnostic [] (by simp)

theorem decodes_extended_response (messageId : Int32) (op : ProtocolOp) (message : LdapMessage) :
    Decodes (readBlock kBerExtendedResponse (decodeResult (freshMessage messageId op)))
      (resultOp message kBerExtendedResponse)
      { freshMessage messageId op with
        result := message.result, matchedDn := message.matchedDn
        diagnostic := message.diagnostic, extendedOid := message.extendedOid
        extendedValue := message.extendedValue } := by
  have completes := completes_result (freshMessage messageId op) message.result
    message.matchedDn message.diagnostic
  apply decodes_block
  rw [if_pos rfl, encodeExtendedFields]
  by_cases present : message.extendedOid ≠ [] ∨ message.extendedValue ≠ []
  · rw [if_pos present]
    rcases write_unless_empty_cases kBerContext10 message.extendedOid with empty | written
    · have fields := completes [.extendedValue message.extendedValue] (by simp)
      rw [List.flatMap_singleton] at fields
      rw [empty]
      exact fields
    · have fields := completes
        [.extendedOid message.extendedOid, .extendedValue message.extendedValue] (by simp)
      rw [List.flatMap_cons, List.flatMap_singleton] at fields
      rw [written]
      exact fields
  · rw [if_neg present]
    simp only [ne_eq, not_or, not_not] at present
    rw [present.1, present.2]
    exact completes [] (by simp)

/-- Every operation but the unknown one starts with the tag that selects its decoder. -/
theorem decodes_operation {message : LdapMessage} (encodable : Encodable message) :
    ∃ tag more, encodeOperation message = tag :: more ∧
      Decodes (decodeOperation { messageId := message.messageId } tag) (encodeOperation message)
        { ownFields message with controls := [] } := by
  obtain ⟨known, scope, filter, changes, _⟩ := encodable
  rcases message with ⟨messageId, op, result, matchedDn, diagnostic, bind, search, entry, add,
    modify, deleteDn, modifyDn, extendedOid, extendedValue, serverSaslCreds, compare, controls⟩
  simp only at known scope filter changes
  cases op with
  | unknown => exact absurd rfl known
  | bindRequest =>
      exact ⟨_, _, rfl, decodes_map (decodes_bind_request bind) (reads_pure _)⟩
  | bindResponse =>
      exact ⟨_, _, rfl, decodes_bind_response _ _ _⟩
  | unbindRequest =>
      exact ⟨_, _, rfl, decodes_map (reads_null kBerUnbindRequest).decodes (reads_pure _)⟩
  | searchRequest =>
      exact ⟨_, _, rfl, decodes_map
        (decodes_search_request search (scope rfl) (filter rfl).1 (filter rfl).2) (reads_pure _)⟩
  | searchResultEntry =>
      exact ⟨_, _, rfl, decodes_map (decodes_search_entry entry) (reads_pure _)⟩
  | searchResultDone => exact ⟨_, _, rfl, decodes_plain_result _ _ _ (by decide)⟩
  | modifyRequest =>
      exact ⟨_, _, rfl, decodes_map (decodes_modify_request modify (changes rfl)) (reads_pure _)⟩
  | modifyResponse => exact ⟨_, _, rfl, decodes_plain_result _ _ _ (by decide)⟩
  | addRequest => exact ⟨_, _, rfl, decodes_map (decodes_add_request add) (reads_pure _)⟩
  | addResponse => exact ⟨_, _, rfl, decodes_plain_result _ _ _ (by decide)⟩
  | delRequest =>
      exact ⟨_, _, rfl,
        decodes_map (decodes_octet_string kBerDelRequest deleteDn) (reads_pure _)⟩
  | delResponse => exact ⟨_, _, rfl, decodes_plain_result _ _ _ (by decide)⟩
  | modifyDnRequest =>
      exact ⟨_, _, rfl, decodes_map (decodes_modify_dn_request modifyDn) (reads_pure _)⟩
  | modifyDnResponse => exact ⟨_, _, rfl, decodes_plain_result _ _ _ (by decide)⟩
  | compareRequest =>
      exact ⟨_, _, rfl, decodes_map (decodes_compare_request compare) (reads_pure _)⟩
  | compareResponse => exact ⟨_, _, rfl, decodes_plain_result _ _ _ (by decide)⟩
  | extendedRequest =>
      exact ⟨_, _, rfl,
        decodes_map (decodes_extended_request extendedOid extendedValue) (reads_pure _)⟩
  | extendedResponse => exact ⟨_, _, rfl, decodes_extended_response _ _ _⟩

/-- Around an operation that is read back, the identifier and the controls are too. -/
theorem completes_around {message result : LdapMessage} {tag : Byte} {more : Bytes}
    (shape : encodeOperation message = tag :: more)
    (operation : Decodes (decodeOperation { messageId := message.messageId } tag)
      (encodeOperation message) result) (bare : result.controls = []) :
    Completes decodeBody
      (writeInteger message.messageId.toInt64 ++ (encodeOperation message ++
        if message.controls ≠ [] then encodeControls message.controls else []))
      { result with controls := message.controls } := by
  apply completes_bind (decodes_int message.messageId)
  rw [shape, List.cons_append]
  apply completes_peek
  rw [← List.cons_append, ← shape, Int32.toInt32_toInt64]
  apply completes_bind operation
  by_cases none : message.controls = []
  · have same : ({ result with controls := message.controls } : LdapMessage) = result := by
      rw [none, ← bare]
    rw [if_neg (by simpa using none), same]
    apply completes_no_next
    rw [if_neg (by simp)]
    exact (reads_pure _).finishes
  · rw [if_pos none]
    apply completes_next
    rw [if_pos (by simp)]
    apply completes_then (decodes_controls message.controls).completes
    exact (reads_pure _).finishes

theorem completes_body {message : LdapMessage} (encodable : Encodable message) :
    Completes decodeBody
      (writeInteger message.messageId.toInt64 ++ (encodeOperation message ++
        if message.controls ≠ [] then encodeControls message.controls else []))
      (ownFields message) := by
  obtain ⟨tag, more, shape, operation⟩ := decodes_operation encodable
  have restored : { ({ ownFields message with controls := [] } : LdapMessage) with
      controls := message.controls } = ownFields message := by
    rcases message with ⟨messageId, op⟩
    cases op <;> rfl
  rw [← restored]
  exact completes_around shape operation rfl

theorem decode_of_completes {message result : LdapMessage}
    (completes : Completes decodeBody
      (writeInteger message.messageId.toInt64 ++ (encodeOperation message ++
        if message.controls ≠ [] then encodeControls message.controls else [])) result)
    (bound : (encodeLdapMessage message).length < 2 ^ 32) :
    decodeLdapMessage (encodeLdapMessage message) = some result := by
  have block : Decodes (readBlock kBerSequence decodeBody) (encodeLdapMessage message) result :=
    decodes_block kBerSequence completes
  have taken := (block bound).finishes []
  unfold decodeLdapMessage
  rw [show ({ data := encodeLdapMessage message } : BerReader) =
    reading [] (encodeLdapMessage message) from rfl, taken]

theorem decode_encode_message (message : LdapMessage) (encodable : Encodable message) :
    decodeLdapMessage (encodeLdapMessage message) = some (ownFields message) :=
  decode_of_completes (completes_body encodable) encodable.bound

/-- A search for `(&(uid=ann)(!(cn=a*z)))` with a critical control. -/
def nestedSearch : LdapMessage where
  messageId := -7
  op := .searchRequest
  search :=
    { baseDn := text "dc=example,dc=com"
      scope := .oneLevel
      sizeLimit := 300
      filter :=
        { valid := true
          root :=
            { type := .and
              children :=
                [{ type := .equality, attributeName := text "uid", value := text "ann" },
                  { type := .not
                    children :=
                      [{ type := .substring, attributeName := text "cn", initial := text "a"
                         final := text "z" }] }] } }
      attributes := [text "cn", text "uid"] }
  controls := [{ oid := kPagedResultsOid, critical := true, value := text "v" }]

theorem nested_search_encodable : Encodable nestedSearch where
  known := by decide
  scope := by intro _; exact Or.inr (Or.inl rfl)
  filter := by
    intro _
    apply And.intro rfl
    apply Filter.ValidTree.and
    intro child member
    simp only [List.mem_cons, List.not_mem_nil, or_false] at member
    rcases member with equality | negation
    · rw [equality]
      exact .equality _ _
    · rw [negation]
      exact .not _ (.substring _ _ _ _)
  changes := by intro wrong; cases wrong
  bound := by decide +kernel

theorem decode_encode_nested_search :
    decodeLdapMessage (encodeLdapMessage nestedSearch) = some (ownFields nestedSearch) :=
  decode_encode_message nestedSearch nested_search_encodable

end SimpleLdapd.Message
