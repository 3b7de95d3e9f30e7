import SimpleLdapd.Core.WriteOutcome
import SimpleLdapd.Protocol.Framing
import SimpleLdapd.Protocol.MessageRoundTrip

/-!
# The loop of a connection and the filters it cannot read (`Session::serve`)

A filter is checked twice on its way to the search: the codec refuses a choice it
does not know, and `handleSearch` answers an invalid filter with a protocol error.
In between stand `decodeLdapMessage`, which fails as a whole, and the loop, which
ends the session then.
-/

namespace SimpleLdapd.Session

open Dn Ber Message Framing

/-- The loop of `serve` over the bytes of the connection, one context for each turn. The
contexts end where the server stops or the session has been idle for too long. -/
def serveStream (server : Server) (maxPduSize : Nat) :
    SessionState → List RequestContext → Bytes → BackendProgram (Option (List LdapMessage))
  | _, [], _ => pure (some [])
  | session, context :: contexts, stream =>
      match recvPdu maxPduSize stream with
      | none => pure (some [])
      | some (pdu, rest) =>
          match decodeLdapMessage pdu with
          | none => pure (some [])
          | some request => do
              let outcome ← handleRequest server context session request
              match outcome with
              | none => pure none
              | some reply =>
                  if reply.continues then do
                    let later ← serveStream server maxPduSize reply.session contexts rest
                    pure (later.map fun messages => reply.messages ++ messages)
                  else pure (some reply.messages)

/-- The requests the loop gets to see if no handler ends it. -/
def delivered (maxPduSize : Nat) : List RequestContext → Bytes → List (RequestContext × LdapMessage)
  | [], _ => []
  | context :: contexts, stream =>
      match recvPdu maxPduSize stream with
      | none => []
      | some (pdu, rest) =>
          match decodeLdapMessage pdu with
          | none => []
          | some request => (context, request) :: delivered maxPduSize contexts rest

/-- The fields of a search request in front of its filter. -/
def readSearchHead : Read Unit := do
  let _ ← readOctetString
  let _ ← readEnumerated
  let _ ← readEnumerated
  let _ ← readInteger
  let _ ← readInteger
  let _ ← readBoolean
  pure ()

/-- The PDU opens as a message with this identifier whose operation is a search request,
the fields in front of the filter can be read, and the reader stands at the filter then. -/
def ReachesFilter (pdu : Bytes) (messageId : Int32) (atFilter : BerReader) : Prop :=
  ∃ body operation fields afterBody afterFields number,
    (readConstructed kBerSequence).run { data := pdu } = (some body, afterBody) ∧
      readInteger.run body = (some number, operation) ∧ number.toInt32 = messageId ∧
      operation.peekTag = kBerSearchRequest ∧
      (readConstructed kBerSearchRequest).run operation = (some fields, afterFields) ∧
      readSearchHead.run fields = (some (), atFilter)

/-- A search request in a well-formed envelope whose filter `decodeNode` does not read. -/
def FilterRejected (pdu : Bytes) (messageId : Int32) : Prop :=
  ∃ atFilter, ReachesFilter pdu messageId atFilter ∧ (Filter.decodeNode.run atFilter).1 = none

/-- The answer that the branch for invalid filters in `handleSearch` sends. -/
def RefusesFilter (messageId : Int32) (sent : Option (List LdapMessage)) : Prop :=
  ∃ messages, sent = some messages ∧ ∃ answer ∈ messages, answer.op = .searchResultDone ∧
    answer.result = .protocolError ∧ answer.messageId = messageId

section Loop

variable (server : Server) (maxPduSize : Nat)

/-- What is proved of `serve` holds of the connection, at the requests it delivers. -/
theorem serve_stream_eq (session : SessionState) (contexts : List RequestContext)
    (stream : Bytes) :
    serveStream server maxPduSize session contexts stream =
      serve server session (delivered maxPduSize contexts stream) := by
  induction contexts generalizing session stream with
  | nil => rfl
  | cons context contexts ih =>
      unfold serveStream delivered
      cases recvPdu maxPduSize stream with
      | none => rfl
      | some received =>
          obtain ⟨pdu, rest⟩ := received
          simp only
          cases decodeLdapMessage pdu with
          | none => rfl
          | some request =>
              simp only [serve]
              congr 1
              funext outcome
              cases outcome with
              | none => rfl
              | some reply => simp only [ih]

variable {maxPduSize}

theorem delivered_undecoded {pdu rest stream : Bytes}
    (received : recvPdu maxPduSize stream = some (pdu, rest))
    (undecoded : decodeLdapMessage pdu = none) (contexts : List RequestContext) :
    delivered maxPduSize contexts stream = [] := by
  cases contexts with
  | nil => rfl
  | cons context contexts => simp only [delivered, received, undecoded]

/-- A PDU that is not decoded ends the connection: what stands behind the PDUs in front
of it makes no difference. -/
theorem delivered_until_undecoded {pdu rest later : Bytes}
    (received : recvPdu maxPduSize later = some (pdu, rest))
    (undecoded : decodeLdapMessage pdu = none) {count : Nat} {before : Bytes} {pdus : List Bytes}
    (framed : recvPdus maxPduSize count before = some (pdus, []))
    (contexts : List RequestContext) :
    delivered maxPduSize contexts (before ++ later) = delivered maxPduSize contexts before := by
  induction count generalizing before pdus contexts with
  | zero =>
      cases framed
      rw [List.nil_append, delivered_undecoded received undecoded]
      cases contexts with
      | nil => rfl
      | cons context contexts => rfl
  | succ count ih =>
      obtain ⟨⟨first, left⟩, taken, framed⟩ := Option.bind_eq_some_iff.mp framed
      obtain ⟨⟨others, ending⟩, framedLater, same⟩ := Option.bind_eq_some_iff.mp framed
      cases same
      cases contexts with
      | nil => rfl
      | cons context contexts =>
          simp only [delivered, taken, recv_pdu_extend taken later]
          rw [ih framedLater contexts]

end Loop

section Rejection

/-- The search request fails where its filter does. -/
theorem decode_search_rejected {fields atFilter : BerReader}
    (head : readSearchHead.run fields = (some (), atFilter))
    (rejected : (Filter.decodeNode.run atFilter).1 = none) :
    (decodeSearchRequest.run fields).1 = none := by
  obtain ⟨_, _, baseDn, head⟩ := Read.bind_some head
  obtain ⟨_, _, scope, head⟩ := Read.bind_some head
  obtain ⟨_, _, aliases, head⟩ := Read.bind_some head
  obtain ⟨_, _, sizeLimit, head⟩ := Read.bind_some head
  obtain ⟨_, _, timeLimit, head⟩ := Read.bind_some head
  obtain ⟨_, _, typesOnly, head⟩ := Read.bind_some head
  cases head
  unfold decodeSearchRequest
  rw [Read.bind_of_some baseDn, Read.bind_of_some scope, Read.bind_of_some aliases,
    Read.bind_of_some sizeLimit, Read.bind_of_some timeLimit, Read.bind_of_some typesOnly]
  apply bind_none
  exact bind_none rejected _

theorem block_none {Value : Type} {tag : Byte} {body : Read Value} {reader inner after : BerReader}
    (opened : (readConstructed tag).run reader = (some inner, after))
    (failed : (body.run inner).1 = none) : ((readBlock tag body).run reader).1 = none := by
  unfold readBlock
  rw [Read.bind_of_some opened]
  exact failed

/-- No error of the filter's codec reaches the handler: the message is not decoded at all. -/
theorem decode_rejected {pdu : Bytes} {messageId : Int32}
    (rejected : FilterRejected pdu messageId) : decodeLdapMessage pdu = none := by
  obtain ⟨atFilter, reached, rejected⟩ := rejected
  obtain ⟨body, operation, fields, afterBody, afterFields, number, opened, numbered, -, isSearch,
    openedSearch, head⟩ := reached
  apply block_none opened
  unfold decodeBody
  rw [Read.bind_of_some numbered]
  have peeked : Read.peekTag.run operation = (some kBerSearchRequest, operation) := by
    rw [← isSearch]
    rfl
  rw [Read.bind_of_some peeked]
  apply bind_none
  change ((readBlock kBerSearchRequest decodeSearchRequest >>= _).run operation).1 = none
  apply bind_none
  exact block_none openedSearch (decode_search_rejected head rejected)

end Rejection

section Validity

theorem filter_reads_valid : Gives SearchFilter.decodeBer (·.valid = true) := by
  apply gives_after
  intro root
  apply gives_after
  intro ok
  exact gives_pure rfl

theorem search_reads_valid : Gives decodeSearchRequest (·.filter.valid = true) := by
  unfold decodeSearchRequest
  iterate 6
    apply gives_after
    intro field
  refine gives_bind filter_reads_valid ?_
  intro filter valid
  apply gives_after
  intro names
  exact gives_pure valid

/-- The optional fields of a response leave what no field assigns. -/
theorem assign_fields_keep {Part : Type} {part : LdapMessage → Part}
    (kept : ∀ field message, part (assignResultField message field) = part message)
    (fields : List ResultField) (message : LdapMessage) :
    part (fields.foldl assignResultField message) = part message := by
  induction fields generalizing message with
  | nil => rfl
  | cons field fields ih => rw [List.foldl_cons, ih, kept]

theorem result_reads_keep {Part : Type} {part : LdapMessage → Part}
    (kept : ∀ field message, part (assignResultField message field) = part message)
    (header : ∀ (message : LdapMessage) result matchedDn diagnostic,
      part { message with
        result := result, matchedDn := matchedDn, diagnostic := diagnostic } = part message)
    (message : LdapMessage) : Gives (decodeResult message) (part · = part message) := by
  unfold decodeResult
  iterate 5
    apply gives_after
    intro field
  exact gives_pure ((assign_fields_keep kept _ _).trans (header _ _ _ _))

theorem result_reads_op (message : LdapMessage) :
    Gives (decodeResult message) (·.op = message.op) := by
  apply result_reads_keep
  · intro field message
    cases field <;> rfl
  · exact fun _ _ _ _ => rfl

/-- A message that is decoded has the operation of its tag. -/
theorem operation_reads_op (message : LdapMessage) (tag : Byte) :
    Gives (decodeOperation message tag) (·.op = operationOf tag) := by
  unfold decodeOperation
  cases known : operationOf tag with
  | bindResponse | searchResultDone | modifyResponse | addResponse | delResponse
  | modifyDnResponse | compareResponse | extendedResponse =>
      exact gives_block (result_reads_op _)
  | _ =>
      apply gives_after
      intro field
      exact gives_pure rfl

/-- What the decoder has read when it accepts a message, up to the operation. -/
theorem decoded_operation {wire : Bytes} {message : LdapMessage}
    (decoded : decodeLdapMessage wire = some message) :
    ∃ inner outer number operation tag read after,
      (readConstructed kBerSequence).run { data := wire } = (some inner, outer) ∧
      readInteger.run inner = (some number, operation) ∧
      Read.peekTag.run operation = (some tag, operation) ∧
      (decodeOperation { messageId := number.toInt32 } tag).run operation = (some read, after) ∧
      message = { read with controls := message.controls } := by
  have run : (readBlock kBerSequence decodeBody).run { data := wire } =
      (some message, ((readBlock kBerSequence decodeBody).run { data := wire }).2) :=
    Prod.ext decoded rfl
  unfold readBlock at run
  obtain ⟨inner, outer, opened, run⟩ := Read.bind_some run
  have body : decodeBody.run inner = (some message, (decodeBody.run inner).2) :=
    Prod.ext (Prod.mk.inj run).1 rfl
  unfold decodeBody at body
  obtain ⟨number, operation, numbered, body⟩ := Read.bind_some body
  obtain ⟨tag, _, peeked, body⟩ := Read.bind_some body
  cases (Prod.mk.inj peeked).2
  obtain ⟨read, after, operated, body⟩ := Read.bind_some body
  refine ⟨inner, outer, number, operation, tag, read, after, opened, numbered, peeked, operated, ?_⟩
  obtain ⟨hasControls, _, _, body⟩ := Read.bind_some body
  split at body
  · obtain ⟨controls, _, _, body⟩ := Read.bind_some body
    cases body
    rfl
  · cases body
    rfl

/-- What the decoder promises the handlers about a search. -/
def SearchesValidly (message : LdapMessage) : Prop :=
  message.op = .searchRequest → message.search.filter.valid = true

theorem operation_reads_valid (message : LdapMessage) (tag : Byte) :
    Gives (decodeOperation message tag) SearchesValidly := by
  intro reader decoded after taken isSearch
  have known : decoded.op = operationOf tag :=
    operation_reads_op message tag reader decoded after taken
  rw [isSearch] at known
  unfold decodeOperation at taken
  simp only [← known] at taken
  obtain ⟨search, _, block, taken⟩ := Read.bind_some taken
  cases taken
  exact gives_block search_reads_valid reader search _ block

/-- The branch of `handleSearch` for invalid filters is never taken: whatever the wire
carries, a search that is decoded has a valid filter. -/
theorem decoded_filter_valid {wire : Bytes} {message : LdapMessage}
    (decoded : decodeLdapMessage wire = some message) : SearchesValidly message := by
  obtain ⟨_, _, _, operation, tag, read, after, _, _, _, operated, same⟩ :=
    decoded_operation decoded
  rw [same]
  exact operation_reads_valid _ tag operation read after operated

end Validity

section Unsupported

/-- The choices of a filter that `decodeNode` has a branch for. -/
def supportedChoices : List Byte :=
  [kBerFilterAnd, kBerFilterOr, kBerFilterNot, kBerFilterPresent, kBerFilterEquality,
    kBerFilterSubstrings]

def searchHead (search : SearchRequestData) : Bytes :=
  writeOctetString search.baseDn ++ (writeEnumerated search.scope.toInt ++
    (writeEnumerated 0 ++ (writeInteger search.sizeLimit.toInt64 ++
    (writeInteger search.timeLimit.toInt64 ++ writeBoolean search.typesOnly))))

/-- A message with the given bytes behind the head of its search request. -/
def searchMessage (messageId : Int32) (search : SearchRequestData) (after : Bytes) : Bytes :=
  writeConstructed kBerSequence (writeInteger messageId.toInt64 ++
    writeConstructed kBerSearchRequest (searchHead search ++ after))

/-- A search request as `encodeLdapMessage` writes it, with the given bytes for its filter. -/
def searchEnvelope (messageId : Int32) (search : SearchRequestData) (filter : Bytes) : Bytes :=
  searchMessage messageId search
    (filter ++ writeConstructed kBerSequence (search.attributes.flatMap writeOctetString))

theorem decodes_search_head (search : SearchRequestData) (declared : search.scope.Declared) :
    Decodes readSearchHead (searchHead search) () := by
  apply decodes_bind (decodes_octets search.baseDn)
  apply decodes_bind (decodes_small_enumerated search.scope.toInt (scope_codes declared).1)
  apply decodes_bind (decodes_small_enumerated 0 (Or.inl rfl))
  apply decodes_bind (decodes_int search.sizeLimit)
  apply decodes_bind (decodes_int search.timeLimit)
  apply decodes_map (reads_boolean search.typesOnly).decodes
  exact reads_pure ()

/-- The readers find the way to the filter in what the writers wrote. -/
theorem written_reaches {number : Int64} {numberBytes head after : Bytes}
    (readsNumber : Reads readInteger numberBytes number) (readsHead : Reads readSearchHead head ())
    (bodyBound : (numberBytes ++ writeConstructed kBerSearchRequest (head ++ after)).length < 2 ^ 32)
    (fieldsBound : (head ++ after).length < 2 ^ 32) :
    ReachesFilter
      (writeConstructed kBerSequence
        (numberBytes ++ writeConstructed kBerSearchRequest (head ++ after)))
      number.toInt32 (reading head after) := by
  have opened := reads_constructed kBerSequence _ bodyBound [] []
  have numbered := readsNumber [] (writeConstructed kBerSearchRequest (head ++ after))
  have isSearch : (reading numberBytes
      (writeConstructed kBerSearchRequest (head ++ after))).peekTag = kBerSearchRequest := by
    have peeked := peek_tag_reading numberBytes kBerSearchRequest
      (encodeLength (head ++ after).length ++ (head ++ after))
    exact Option.some.inj (Prod.mk.inj peeked).1
  have openedSearch := reads_constructed kBerSearchRequest _ fieldsBound numberBytes []
  have headed := readsHead [] after
  rw [List.append_nil] at opened openedSearch
  rw [List.nil_append] at numbered headed
  exact ⟨_, _, _, _, _, number, opened, numbered, rfl, isSearch, openedSearch, headed⟩

theorem search_message_reaches (messageId : Int32) (search : SearchRequestData)
    (declared : search.scope.Declared) {after : Bytes}
    (bound : (searchMessage messageId search after).length < 2 ^ 32) :
    ReachesFilter (searchMessage messageId search after) messageId
      (reading (searchHead search) after) := by
  have bodyBound := lt_trans (write_tagged_length kBerSequence _) bound
  have searchLonger := write_tagged_length kBerSearchRequest (searchHead search ++ after)
  have fieldsBound : (searchHead search ++ after).length < 2 ^ 32 := by
    rw [List.length_append] at bodyBound
    exact lt_trans searchLonger (lt_of_le_of_lt (Nat.le_add_left _ _) bodyBound)
  have headBound : (searchHead search).length < 2 ^ 32 := by
    rw [List.length_append] at fieldsBound
    exact lt_of_le_of_lt (Nat.le_add_right _ _) fieldsBound
  have reached := written_reaches (reads_integer messageId.toInt64)
    (decodes_search_head search declared headBound) bodyBound fieldsBound
  rwa [Int32.toInt32_toInt64] at reached

theorem decode_unsupported_choice {tag : Byte} (unsupported : tag ∉ supportedChoices)
    (before after : Bytes) :
    (Filter.decodeNode.run (reading before (tag :: after))).1 = none := by
  simp only [supportedChoices, List.mem_cons, List.not_mem_nil, or_false, not_or] at unsupported
  obtain ⟨notAnd, notOr, notNot, notPresent, notEquality, notSubstrings⟩ := unsupported
  simp only [Filter.decodeNode, Filter.decodeNodeWith]
  rw [Read.bind_of_some (peek_tag_reading before tag after)]
  simp only [notAnd, notOr, notNot, notPresent, notEquality, notSubstrings, or_self, if_false]
  rfl

/-- Whatever the fields of a search, a filter of a choice without a branch (greater-or-equal,
less-or-equal, approximate and extensible match) is rejected, whatever its content. -/
theorem unsupported_choice_rejected (messageId : Int32) (search : SearchRequestData)
    (declared : search.scope.Declared) {tag : Byte} (unsupported : tag ∉ supportedChoices)
    (content : Bytes)
    (bound : (searchEnvelope messageId search (writeConstructed tag content)).length < 2 ^ 32) :
    FilterRejected (searchEnvelope messageId search (writeConstructed tag content)) messageId := by
  refine ⟨_, search_message_reaches messageId search declared bound, ?_⟩
  exact decode_unsupported_choice unsupported _ _

end Unsupported

/-- A search whose filter is rejected is not answered, in no state of the session and of
the store: the connection sends what it has sent for the PDUs in front and ends. -/
theorem rejected_filter_unanswered {Store : Type}
    (backend : (call : BackendCall) → Store → call.Answer × Store) (server : Server)
    {maxPduSize count : Nat} {before pdu rest : Bytes} {pdus : List Bytes} {messageId : Int32}
    (framed : recvPdus maxPduSize count before = some (pdus, []))
    (received : recvPdu maxPduSize (pdu ++ rest) = some (pdu, rest))
    (rejected : FilterRejected pdu messageId) (store : Store) (session : SessionState)
    (contexts : List RequestContext) :
    serveStream server maxPduSize session contexts (before ++ (pdu ++ rest)) =
        serveStream server maxPduSize session contexts before ∧
      ¬RefusesFilter messageId
        ((serveStream server maxPduSize session contexts (pdu ++ rest)).run backend store).1 := by
  have undecoded := decode_rejected rejected
  constructor
  · rw [serve_stream_eq, serve_stream_eq, delivered_until_undecoded received undecoded framed]
  · rw [serve_stream_eq, delivered_undecoded received undecoded]
    rintro ⟨messages, sent, answer, member, -⟩
    cases sent
    cases member

/-- `(uidNumber>=5)` over the whole directory, as a client encodes it. -/
def orderingSearch : Bytes :=
  searchEnvelope 7 { baseDn := text "dc=com" }
    (writeConstructed 0xA5 (writeOctetString (text "uidNumber") ++ writeOctetString (text "5")))

theorem ordering_search_rejected : FilterRejected orderingSearch 7 :=
  unsupported_choice_rejected 7 _ (Or.inr (Or.inr rfl)) (by decide) _ (by decide +kernel)

theorem ordering_search_dropped :
    serveStream {} 4096 administrator [{}, {}] (orderingSearch ++ orderingSearch) =
        serveStream {} 4096 administrator [{}, {}] [] ∧
      ¬RefusesFilter 7 ((serveStream {} 4096 administrator [{}, {}]
        (orderingSearch ++ orderingSearch)).run MemoryBackend.exec smallDirectory).1 :=
  rejected_filter_unanswered MemoryBackend.exec {} (show recvPdus 4096 0 [] = some ([], []) from rfl)
    (by decide +kernel) ordering_search_rejected smallDirectory administrator [{}, {}]

theorem ordering_search_unanswered :
    FilterRejected orderingSearch 7 ∧
      ¬RefusesFilter 7 ((serveStream {} 4096 administrator [{}] orderingSearch).run
        MemoryBackend.exec smallDirectory).1 := by
  have silent : ((serveStream {} 4096 administrator [{}] orderingSearch).run
      MemoryBackend.exec smallDirectory).1.all List.isEmpty = true := by
    decide +kernel
  refine ⟨ordering_search_rejected, ?_⟩
  rintro ⟨messages, sent, answer, member, -⟩
  rw [sent] at silent
  rw [List.isEmpty_iff.mp silent] at member
  cases member

end SimpleLdapd.Session
