import SimpleLdapd.Core.PagedSearch
import SimpleLdapd.Library.GuardedRun

/-!
# One response per request

Every request that a session handles gets its messages in order: the entries of a
search, then one message that ends the answer, all with the identifier of the
request. The one way out is the cookie of a paged search: `handleSearch` refuses a
negative number and then narrows the number it accepted to `int`, so a number from
`2 ^ 31` on can become a negative offset into the list of visible entries.
-/

namespace SimpleLdapd.Session

open Dn Message

section Answers

/-- The operation of the message that ends the answer to a request. -/
def responseOp : ProtocolOp → ProtocolOp
  | .bindRequest => .bindResponse
  | .modifyRequest => .modifyResponse
  | .addRequest => .addResponse
  | .delRequest => .delResponse
  | .modifyDnRequest => .modifyDnResponse
  | .compareRequest => .compareResponse
  | .extendedRequest => .extendedResponse
  | _ => .searchResultDone

/-- The message belongs to the request and has the given operation. -/
def Answers (request : LdapMessage) (op : ProtocolOp) (message : LdapMessage) : Prop :=
  message.op = op ∧ message.messageId = request.messageId

/-- The messages are the whole answer to the request: entries, for a search only, and
one message that ends them. -/
def WellAnswered (request : LdapMessage) (messages : List LdapMessage) : Prop :=
  ∃ entries done, messages = entries ++ [done] ∧
    (∀ message ∈ entries, Answers request .searchResultEntry message) ∧
    (request.op ≠ .searchRequest → entries = []) ∧
    Answers request (responseOp request.op) done

theorem well_answered_single {request response : LdapMessage}
    (answers : Answers request (responseOp request.op) response) :
    WellAnswered request [response] := by
  refine ⟨[], response, rfl, ?_, fun _ => rfl, answers⟩
  intro message none
  cases none

/-- The answer of a handler that has no refusal for a critical control. -/
def Replies (request : LdapMessage) (op : ProtocolOp) (message : LdapMessage) : Prop :=
  Answers request op message ∧ message.result ≠ .unavailableCriticalExtension

theorem replies_with {request message : LdapMessage} {op : ProtocolOp} (code : ResultCode)
    (answers : Answers request op message) (result : message.result = code)
    (other : code ≠ .unavailableCriticalExtension) : Replies request op message := by
  refine ⟨answers, ?_⟩
  rw [result]
  exact other

theorem result_replies {request : LdapMessage} {op : ProtocolOp} {code : ResultCode}
    {diagnostic : Bytes} (other : code ≠ .unavailableCriticalExtension) :
    (pure (makeLdapResult request.messageId op code diagnostic) : BackendProgram LdapMessage).Yields
      (Replies request op) :=
  Program.yields_pure ⟨⟨rfl, rfl⟩, other⟩

/-- An early return: one result, or the rest of the handler. -/
theorem guarded_result_replies {request : LdapMessage} {condition : Prop} [Decidable condition]
    {op : ProtocolOp} {code : ResultCode} {diagnostic : Bytes}
    {handler : BackendProgram LdapMessage} (other : code ≠ .unavailableCriticalExtension)
    (otherwise : handler.Yields (Replies request op)) :
    (if condition then pure (makeLdapResult request.messageId op code diagnostic)
      else handler).Yields (Replies request op) :=
  Program.yields_guard ⟨⟨rfl, rfl⟩, other⟩ otherwise

theorem content_not_critical {code : ResultCode} (content : code ∈ ResultCode.contentCodes) :
    code ≠ .unavailableCriticalExtension :=
  ResultCode.content_code_ne content (by decide)

theorem schema_not_critical (server : Server) (entry : DirectoryEntry) :
    (checkSchema server entry).1 ≠ .unavailableCriticalExtension :=
  content_not_critical (check_schema_codes server entry)

theorem modification_not_critical (entry : DirectoryEntry)
    (changes : List AttributeModification) :
    (Modify.applyModifications entry changes).1 ≠ .unavailableCriticalExtension :=
  content_not_critical (Modify.apply_modifications_frame entry changes).2

end Answers

section Handlers

variable (server : Server) (context : RequestContext) (session : SessionState)
  (request : LdapMessage)

theorem handle_bind_answers :
    (handleBind server context session request).Yields fun outcome =>
      Answers request .bindResponse outcome.1 := by
  unfold handleBind
  simp only
  refine Program.yields_guard ⟨rfl, rfl⟩ ?_
  refine Program.yields_guard ⟨rfl, rfl⟩ ?_
  split
  · split
    · exact Program.yields_pure ⟨rfl, rfl⟩
    · apply Program.yields_then
      intro outcome
      split
      · exact Program.yields_pure ⟨rfl, rfl⟩
      · exact Program.yields_pure ⟨rfl, rfl⟩
  refine Program.yields_guard ⟨rfl, rfl⟩ ?_
  apply Program.yields_then
  intro result
  split
  · split
    · exact Program.yields_pure ⟨rfl, rfl⟩
    · apply Program.yields_then
      intro resolved
      exact Program.yields_pure ⟨rfl, rfl⟩
  · exact Program.yields_pure ⟨rfl, rfl⟩

theorem handle_add_replies :
    (handleAdd server context session request).Yields (Replies request .addResponse) := by
  unfold handleAdd
  simp only
  apply Program.yields_then
  intro allowed
  refine guarded_result_replies (by decide) ?_
  refine guarded_result_replies (by decide) ?_
  apply Program.yields_then
  intro existing
  refine guarded_result_replies (by decide) ?_
  apply Program.yields_then
  intro placed
  refine guarded_result_replies (by decide) ?_
  refine guarded_result_replies (schema_not_critical server _) ?_
  apply Program.yields_then
  intro added
  refine guarded_result_replies (by decide) ?_
  apply Program.yields_then
  intro persisted
  exact result_replies (by decide)

theorem handle_modify_replies :
    (handleModify server context session request).Yields (Replies request .modifyResponse) := by
  unfold handleModify
  apply Program.yields_then
  intro allowed
  refine guarded_result_replies (by decide) ?_
  apply Program.yields_then
  intro found
  cases found with
  | none => exact result_replies (by decide)
  | some entry =>
      unfold modifyFound
      simp only
      refine guarded_result_replies (modification_not_critical _ _) ?_
      refine guarded_result_replies (schema_not_critical server _) ?_
      apply Program.yields_then
      intro modified
      refine guarded_result_replies (by decide) ?_
      apply Program.yields_then
      intro persisted
      exact result_replies (by decide)

theorem handle_delete_replies :
    (handleDelete server session request).Yields (Replies request .delResponse) := by
  unfold handleDelete
  simp only
  apply Program.yields_then
  intro allowed
  refine guarded_result_replies (by decide) ?_
  apply Program.yields_then
  intro found
  refine guarded_result_replies (by decide) ?_
  apply Program.yields_then
  intro parental
  refine guarded_result_replies (by decide) ?_
  apply Program.yields_then
  intro removed
  refine guarded_result_replies (by decide) ?_
  apply Program.yields_then
  intro persisted
  exact result_replies (by decide)

theorem handle_modify_dn_replies :
    (handleModifyDn server session request).Yields (Replies request .modifyDnResponse) := by
  unfold handleModifyDn
  simp only
  refine guarded_result_replies (by decide) ?_
  apply Program.yields_then
  intro allowed
  refine guarded_result_replies (by decide) ?_
  apply Program.yields_then
  intro found
  cases found with
  | none => exact result_replies (by decide)
  | some entry =>
      apply Program.yields_then
      intro placed
      refine guarded_result_replies (by decide) ?_
      apply Program.yields_then
      intro taken
      refine guarded_result_replies (by decide) ?_
      cases applied : renamedEntry request.modifyDn entry with
      | error code =>
          exact result_replies (content_not_critical (renamed_entry_codes applied).2)
      | ok renamed =>
          refine guarded_result_replies (schema_not_critical server _) ?_
          apply Program.yields_then
          intro modified
          refine guarded_result_replies (by decide) ?_
          apply Program.yields_then
          intro moved
          refine guarded_result_replies (by decide) ?_
          apply Program.yields_then
          intro persisted
          exact result_replies (by decide)

theorem handle_compare_replies :
    (handleCompare server session request).Yields (Replies request .compareResponse) := by
  unfold handleCompare
  simp only
  refine guarded_result_replies (by decide) ?_
  apply Program.yields_then
  intro allowed
  refine guarded_result_replies (by decide) ?_
  apply Program.yields_then
  intro found
  cases found with
  | none => exact result_replies (by decide)
  | some entry =>
      simp only
      split
      · exact result_replies (by decide)
      · apply result_replies
        split_ifs <;> decide

theorem handle_password_modify_replies :
    (handlePasswordModify server context session request).Yields
      (Replies request .extendedResponse) := by
  unfold handlePasswordModify
  simp only
  refine guarded_result_replies (by decide) ?_
  refine guarded_result_replies (by decide) ?_
  split
  · exact result_replies (by decide)
  split
  · exact result_replies (by decide)
  · exact result_replies (by decide)
  apply Program.yields_then
  intro resolved
  cases resolved with
  | none => exact result_replies (by decide)
  | some target =>
      refine guarded_result_replies (by decide) ?_
      apply Program.yields_then
      intro allowed
      refine guarded_result_replies (by decide) ?_
      apply Program.yields_then
      intro accepted
      refine guarded_result_replies (by decide) ?_
      apply Program.yields_then
      intro found
      cases found with
      | none => exact result_replies (by decide)
      | some entry =>
          refine guarded_result_replies (modification_not_critical _ _) ?_
          refine guarded_result_replies (schema_not_critical server _) ?_
          apply Program.yields_then
          intro modified
          refine guarded_result_replies (by decide) ?_
          apply Program.yields_then
          intro persisted
          exact result_replies (by decide)

end Handlers

section Search

variable (server : Server) (context : RequestContext) (session : SessionState)
  (request : LdapMessage)

/-- From an offset inside the list on, the loop never leaves it. -/
theorem send_loop_inside {Item : Type} (search : SearchRequestData) (pageSize : Int32)
    (visible : List Item) (turns index sent : Nat) (inside : index + turns ≤ visible.length) :
    sendLoop context search pageSize visible turns index sent ≠ none := by
  induction turns generalizing index sent with
  | zero => simp [sendLoop]
  | succ turns ih =>
      have later := ih (index + 1) (sent + 1) (by omega)
      push_cast at later
      unfold sendLoop
      split
      · simp
      split
      · simp
      split
      · simp
      rw [read_visible_inside visible (by omega)]
      simpa using later

/-- In front of the list the first turn reads out of bounds, unless the deadline ends it. -/
theorem send_loop_outside {Item : Type} (search : SearchRequestData) (pageSize : Int32)
    (visible : List Item) (turns : Nat) {index : Int} (outside : index < 0) :
    sendLoop context search pageSize visible (turns + 1) index 0 = none ↔
      ¬(0 < search.timeLimit.toInt ∧ context.expired 0 = true) := by
  have unlimited : ¬(0 < search.sizeLimit.toInt ∧ search.sizeLimit.toInt ≤ ((0 : Nat) : Int)) := by
    omega
  have unpaged : ¬(0 < pageSize.toInt ∧ pageSize.toInt ≤ ((0 : Nat) : Int)) := by
    omega
  unfold sendLoop
  rw [if_neg unlimited, if_neg unpaged, readVisible, if_pos outside]
  by_cases late : 0 < search.timeLimit.toInt ∧ context.expired 0 = true
  · simp [late]
  · simp [late]

theorem send_loop_none_iff {Item : Type} (search : SearchRequestData) (pageSize : Int32)
    (visible : List Item) (offset : Int) :
    sendLoop context search pageSize visible
        ((Int32.ofNat visible.length).toInt - offset).toNat offset 0 = none ↔
      ¬(0 < search.timeLimit.toInt ∧ context.expired 0 = true) ∧ offset < 0 ∧
        offset < (Int32.ofNat visible.length).toInt := by
  by_cases more : offset < (Int32.ofNat visible.length).toInt
  · by_cases outside : offset < 0
    · obtain ⟨turns, count⟩ := Nat.exists_eq_succ_of_ne_zero
        (show ((Int32.ofNat visible.length).toInt - offset).toNat ≠ 0 by omega)
      rw [count, send_loop_outside context search pageSize visible turns outside]
      simp only [outside, more, and_self, and_true]
    · have total := sendable_length visible
      have within : (sendable visible).length ≤ visible.length := List.length_take_le' _ _
      obtain ⟨index, same⟩ := Int.eq_ofNat_of_zero_le (Int.not_lt.mp outside)
      subst same
      have kept := send_loop_inside context search pageSize visible
        ((Int32.ofNat visible.length).toInt - index).toNat index 0 (by omega)
      simp only [kept, outside, false_and, and_false]
  · have still : ((Int32.ofNat visible.length).toInt - offset).toNat = 0 := by
      omega
    rw [still, sendLoop]
    simp only [more, and_false, reduceCtorEq]

/-- Where the send loop of a search starts, after the cast to `int`. -/
def castOffset (parsed : Int) : Int := (Int32.ofInt parsed).toInt

theorem send_page_none_iff (pageSize : Int32) (cookie : Bytes) (visible : List DirectoryEntry) :
    sendPage server context session request pageSize cookie visible = none ↔
      pageSize ≠ 0 ∧ ¬(0 < request.search.timeLimit.toInt ∧ context.expired 0 = true) ∧
        ∃ parsed, offsetOf cookie = some parsed ∧ castOffset parsed < 0 ∧
          castOffset parsed < (Int32.ofNat visible.length).toInt := by
  unfold sendPage
  cases read : offsetOf cookie with
  | none =>
      unfold offsetOf at read
      simp [read]
  | some parsed =>
      unfold offsetOf at read
      have started := send_loop_none_iff context request.search pageSize visible (castOffset parsed)
      unfold castOffset at started
      by_cases zero : pageSize = 0
      · simp [read, zero]
      · simp only [read, if_neg zero]
        generalize sendLoop context request.search pageSize visible _ _ _ = loop at started
        cases loop with
        | none => simpa [zero, castOffset] using started
        | some outcome => simpa [zero, castOffset] using started

theorem send_page_answers {pageSize : Int32} {cookie : Bytes} {visible : List DirectoryEntry}
    (isSearch : request.op = .searchRequest) {messages : List LdapMessage}
    (sent : sendPage server context session request pageSize cookie visible = some messages) :
    WellAnswered request messages := by
  have ends : ∀ done : LdapMessage, done.op = .searchResultDone →
      done.messageId = request.messageId → Answers request (responseOp request.op) done := by
    intro done op messageId
    rw [isSearch]
    exact ⟨op, messageId⟩
  unfold sendPage at sent
  simp only at sent
  split at sent
  · rw [← Option.some.inj sent]
    exact well_answered_single (ends _ rfl rfl)
  split at sent
  · rw [← Option.some.inj sent]
    exact well_answered_single (ends _ rfl rfl)
  split at sent
  · cases sent
  · rw [← Option.some.inj sent]
    refine ⟨_, _, rfl, ?_, fun other => absurd isSearch other, ends _ rfl rfl⟩
    intro message member
    obtain ⟨entry, _, rfl⟩ := List.mem_map.mp member
    exact ⟨rfl, rfl⟩

end Search

section Outside

variable {Store : Type} (backend : (call : BackendCall) → Store → call.Answer × Store)
  (store : Store) (server : Server) (session : SessionState)

/-- The search gets as far as its send loop, and the loop starts in front of the list. -/
def StartsOutside (context : RequestContext) (request : LdapMessage) : Prop :=
  request.search.filter.valid = true ∧
    ¬(0 < request.search.timeLimit.toInt ∧ context.expired 0 = true) ∧
    ∃ pageSize cookie parsed visible,
      pagingOf (-1) [] request.controls = .ok (pageSize, cookie) ∧ pageSize ≠ 0 ∧
        offsetOf cookie = some parsed ∧ castOffset parsed < 0 ∧
        ((searchVisible server session request.search).run backend store).1 = .ok visible ∧
        castOffset parsed < (Int32.ofNat visible.length).toInt

theorem search_answer_none_iff (context : RequestContext) (request : LdapMessage) :
    searchAnswer backend store server session context request = none ↔
      StartsOutside backend store server session context request := by
  rw [search_answer_eq, StartsOutside]
  by_cases valid : request.search.filter.valid = true
  swap
  · simp [valid]
  rw [if_neg (by simp [valid])]
  cases paging : pagingOf (-1) [] request.controls with
  | error refusal => simp
  | ok found =>
      cases outcome : ((searchVisible server session request.search).run backend store).1 with
      | error refusal => simp [sendFound]
      | ok visible =>
          simp only [sendFound, send_page_none_iff]
          constructor
          · rintro ⟨sized, timely, parsed, read, below, more⟩
            exact ⟨valid, timely, found.1, found.2, parsed, visible, rfl, sized, read, below, rfl,
              more⟩
          · rintro ⟨_, timely, _, _, parsed, _, same, sized, read, below, seen, more⟩
            cases same
            cases seen
            exact ⟨sized, timely, parsed, read, below, more⟩

theorem search_answer_answers {context : RequestContext} {request : LdapMessage}
    (isSearch : request.op = .searchRequest) {messages : List LdapMessage}
    (sent : searchAnswer backend store server session context request = some messages) :
    WellAnswered request messages := by
  have refused : ∀ code diagnostic,
      WellAnswered request [makeSearchDone request.messageId code diagnostic] := by
    intro code diagnostic
    apply well_answered_single
    rw [isSearch]
    exact ⟨rfl, rfl⟩
  rw [search_answer_eq] at sent
  split at sent
  · rw [← Option.some.inj sent]
    exact refused _ _
  split at sent
  · rw [← Option.some.inj sent]
    exact refused _ _
  generalize ((searchVisible server session request.search).run backend store).1 = found at sent
  cases found with
  | error refusal =>
      rw [← Option.some.inj sent]
      exact refused _ _
  | ok visible => exact send_page_answers server context session request isSearch sent

end Outside

section Reads

/-- The indices with which the send loop reads `visible`, up to one outside the list:
past it the source has no meaning. -/
def loopReads {Item : Type} (context : RequestContext) (search : SearchRequestData)
    (pageSize : Int32) (visible : List Item) : Nat → Int → Nat → List Int
  | 0, _, _ => []
  | turns + 1, index, sent =>
      if 0 < search.timeLimit.toInt ∧ context.expired sent then []
      else if 0 < search.sizeLimit.toInt ∧ search.sizeLimit.toInt ≤ sent then []
      else if 0 < pageSize.toInt ∧ pageSize.toInt ≤ sent then []
      else
        match readVisible visible index with
        | none => [index]
        | some _ => index :: loopReads context search pageSize visible turns (index + 1) (sent + 1)

section Loop

variable {Item : Type} (context : RequestContext) (search : SearchRequestData) (pageSize : Int32)
  (visible : List Item)

/-- One turn of the loop: it stops without a read, reads outside of the list, or reads an
entry and goes on. -/
theorem loop_turn (turns : Nat) (index : Int) (sent : Nat) :
    (∃ result, sendLoop context search pageSize visible (turns + 1) index sent =
        some ([], result) ∧
      loopReads context search pageSize visible (turns + 1) index sent = []) ∨
    (readVisible visible index = none ∧
      sendLoop context search pageSize visible (turns + 1) index sent = none ∧
      loopReads context search pageSize visible (turns + 1) index sent = [index]) ∨
    ∃ entry, readVisible visible index = some entry ∧
      sendLoop context search pageSize visible (turns + 1) index sent =
        (sendLoop context search pageSize visible turns (index + 1) (sent + 1)).map
          (fun rest => (entry :: rest.1, rest.2)) ∧
      loopReads context search pageSize visible (turns + 1) index sent =
        index :: loopReads context search pageSize visible turns (index + 1) (sent + 1) := by
  rw [sendLoop, loopReads]
  split
  · exact Or.inl ⟨_, rfl, rfl⟩
  split
  · exact Or.inl ⟨_, rfl, rfl⟩
  split
  · exact Or.inl ⟨_, rfl, rfl⟩
  right
  cases read : readVisible visible index with
  | none => exact Or.inl ⟨rfl, rfl, rfl⟩
  | some entry => exact Or.inr ⟨entry, rfl, rfl, rfl⟩

/-- The entries that the loop sends are those it reads. -/
theorem loop_reads_sent (turns : Nat) (index : Int) (sent : Nat)
    {outcome : List Item × ResultCode}
    (ended : sendLoop context search pageSize visible turns index sent = some outcome) :
    (loopReads context search pageSize visible turns index sent).map (readVisible visible) =
      outcome.1.map some := by
  induction turns generalizing index sent outcome with
  | zero =>
      cases ended
      rfl
  | succ turns ih =>
      rcases loop_turn context search pageSize visible turns index sent with
        ⟨result, stops, reads⟩ | ⟨_, fails, _⟩ | ⟨entry, read, goesOn, reads⟩
      · rw [stops] at ended
        cases ended
        rw [reads]
        rfl
      · rw [fails] at ended
        cases ended
      · rw [goesOn] at ended
        rcases Option.map_eq_some_iff.mp ended with ⟨rest, later, same⟩
        rw [reads, ← same, List.map_cons, List.map_cons, read, ih _ _ later]

theorem read_visible_none_iff (index : Int) :
    readVisible visible index = none ↔ ¬(0 ≤ index ∧ index < visible.length) := by
  unfold readVisible
  split
  · simp only [true_iff]
    omega
  · rw [List.getElem?_eq_none_iff]
    omega

theorem loop_reads_inside_iff (turns : Nat) (index : Int) (sent : Nat) :
    (∀ read ∈ loopReads context search pageSize visible turns index sent,
        0 ≤ read ∧ read < visible.length) ↔
      sendLoop context search pageSize visible turns index sent ≠ none := by
  induction turns generalizing index sent with
  | zero => simp [loopReads, sendLoop]
  | succ turns ih =>
      have inside := read_visible_none_iff visible index
      rcases loop_turn context search pageSize visible turns index sent with
        ⟨result, stops, reads⟩ | ⟨read, fails, reads⟩ | ⟨entry, read, goesOn, reads⟩
      · rw [stops, reads]
        simp
      · rw [read] at inside
        rw [fails, reads]
        simpa using inside
      · rw [read] at inside
        have bounded := not_not.mp (inside.not.mp (Option.some_ne_none entry))
        rw [goesOn, reads, List.forall_mem_cons, ih]
        simp [bounded]

end Loop

variable {Store : Type} (backend : (call : BackendCall) → Store → call.Answer × Store)
  (store : Store) (server : Server) (session : SessionState) (context : RequestContext)
  (request : LdapMessage)

/-- The indices with which `handleSearch` reads a list of visible entries. -/
def pageReads (pageSize : Int32) (cookie : Bytes) (visible : List DirectoryEntry) : List Int :=
  match offsetOf cookie with
  | none => []
  | some parsed =>
      if pageSize = 0 then []
      else
        loopReads context request.search pageSize visible
          ((Int32.ofNat visible.length).toInt - castOffset parsed).toNat (castOffset parsed) 0

/-- Every index with which the search reads its visible entries is one of the list. -/
def ReadsInside : Prop :=
  ∀ pageSize cookie visible, request.search.filter.valid = true →
    pagingOf (-1) [] request.controls = .ok (pageSize, cookie) →
    ((searchVisible server session request.search).run backend store).1 = .ok visible →
    ∀ index ∈ pageReads context request pageSize cookie visible,
      0 ≤ index ∧ index < visible.length

theorem page_reads_inside_iff (pageSize : Int32) (cookie : Bytes)
    (visible : List DirectoryEntry) :
    (∀ index ∈ pageReads context request pageSize cookie visible,
        0 ≤ index ∧ index < visible.length) ↔
      sendPage server context session request pageSize cookie visible ≠ none := by
  rw [Ne, send_page_none_iff]
  unfold pageReads
  cases read : offsetOf cookie with
  | none => simp
  | some parsed =>
      by_cases zero : pageSize = 0
      · simp [zero]
      · simp only [if_neg zero, loop_reads_inside_iff, ne_eq, send_loop_none_iff]
        simp [zero]

/-- The model gives no answer exactly where a read leaves the list. -/
theorem reads_inside_iff_answered :
    ReadsInside backend store server session context request ↔
      searchAnswer backend store server session context request ≠ none := by
  rw [search_answer_eq, ReadsInside]
  by_cases valid : request.search.filter.valid = true
  swap
  · simp [valid]
  rw [if_neg (by simp [valid])]
  cases paging : pagingOf (-1) [] request.controls with
  | error refusal => simp
  | ok found =>
      cases outcome : ((searchVisible server session request.search).run backend store).1 with
      | error refusal => simp [sendFound]
      | ok visible =>
          simp only [sendFound]
          rw [← page_reads_inside_iff]
          constructor
          · intro inside
            exact inside found.1 found.2 visible valid rfl rfl
          · intro inside pageSize cookie seen _ same sameVisible
            cases same
            cases sameVisible
            exact inside

/-- A search reads its visible entries inside the list, whatever cookie, page size and
limits it carries, exactly if its send loop does not start in front of the list. -/
theorem search_reads_inside_iff :
    ReadsInside backend store server session context request ↔
      ¬ StartsOutside backend store server session context request := by
  rw [reads_inside_iff_answered, Ne, search_answer_none_iff]

end Reads

section Turns

variable (server : Server) (context : RequestContext) (session : SessionState)
  (request : LdapMessage)

/-- The StartTLS request whose handshake fails; its answer is the last of the session. -/
def handshakeFails : Bool :=
  request.op = .extendedRequest && request.extendedOid = kStartTlsOid &&
    server.config.enableStarttls && server.tlsEnabled && !context.tls && !context.handshake

/-- What a turn of the loop owes the client, and whether the loop goes on after it. -/
def TurnAnswers (outcome : Option Reply) : Prop :=
  ∃ answer, outcome = some answer ∧ WellAnswered request answer.messages ∧
    answer.continues = !handshakeFails server context request

/-- A turn whose handler has no refusal for a critical control. -/
def TurnReplies (outcome : Option Reply) : Prop :=
  TurnAnswers server context request outcome ∧ ∀ answer, outcome = some answer →
    ∀ message ∈ answer.messages, message.result ≠ .unavailableCriticalExtension

variable {request}

theorem reply_answers {response : LdapMessage}
    (answers : Answers request (responseOp request.op) response)
    (goesOn : handshakeFails server context request = false) :
    TurnAnswers server context request (reply session response) :=
  ⟨_, rfl, well_answered_single answers, by rw [goesOn]; rfl⟩

theorem single_reply {answer : Reply} {response : LdapMessage}
    (sent : answer.messages = [response])
    (replies : Replies request (responseOp request.op) response)
    (goesOn : answer.continues = !handshakeFails server context request) :
    TurnReplies server context request (some answer) := by
  refine ⟨⟨answer, rfl, ?_, goesOn⟩, ?_⟩
  · rw [sent]
    exact well_answered_single replies.1
  · intro other same message member
    cases same
    rw [sent] at member
    rw [List.mem_singleton.mp member]
    exact replies.2

theorem reply_replies {response : LdapMessage}
    (replies : Replies request (responseOp request.op) response)
    (goesOn : handshakeFails server context request = false) :
    TurnReplies server context request (reply session response) :=
  single_reply server context rfl replies (by rw [goesOn]; rfl)

theorem handler_replies {op : ProtocolOp} (isOp : request.op = op) (plain : op ≠ .extendedRequest)
    {handler : BackendProgram LdapMessage}
    (replies : handler.Yields (Replies request (responseOp op))) :
    (handler >>= fun response => pure (reply session response)).Yields
      (TurnReplies server context request) := by
  apply Program.yields_bind replies
  intro response replied
  subst isOp
  exact reply_replies server context session replied (by simp [handshakeFails, plain])

theorem handle_extended_replies (isExtended : request.op = .extendedRequest) :
    (handleExtended server context session request).Yields
      (TurnReplies server context request) := by
  have replies {response : LdapMessage} (replied : Replies request .extendedResponse response)
      (goesOn : handshakeFails server context request = false) :
      TurnReplies server context request (reply session response) :=
    reply_replies server context session (by rwa [isExtended]) goesOn
  unfold handleExtended
  simp only
  split
  · rename_i startTls
    split
    · rename_i unavailable
      refine Program.yields_pure (replies
        (replies_with .unwillingToPerform ⟨rfl, rfl⟩ rfl (by decide)) ?_)
      rcases unavailable with disabled | disabled | active
      · simp_all [handshakeFails]
      · simp_all [handshakeFails]
      · simp_all [handshakeFails]
    · rename_i available
      push Not at available
      refine Program.yields_pure (single_reply server context rfl ?_ ?_)
      · rw [isExtended]
        exact replies_with .success ⟨rfl, rfl⟩ rfl (by decide)
      · simp_all [handshakeFails]
  rename_i notStartTls
  have goesOn : handshakeFails server context request = false := by
    simp [handshakeFails, notStartTls]
  split
  · apply Program.yields_bind (handle_password_modify_replies server context session request)
    intro response replied
    exact Program.yields_pure (replies replied goesOn)
  split
  · exact Program.yields_pure (replies
      (replies_with .success ⟨rfl, rfl⟩ rfl (by decide)) goesOn)
  · exact Program.yields_pure (replies
      (replies_with .unwillingToPerform ⟨rfl, rfl⟩ rfl (by decide)) goesOn)

/-- Every request but a search or a bind is answered, whatever the backend says, and no
answer is about a control. -/
theorem handle_request_replies (notUnbind : request.op ≠ .unbindRequest)
    (notSearch : request.op ≠ .searchRequest) (notBind : request.op ≠ .bindRequest) :
    (handleRequest server context session request).Yields
      (TurnReplies server context request) := by
  unfold handleRequest
  split
  · rename_i op
    exact absurd op notUnbind
  · rename_i op
    exact absurd op notSearch
  · rename_i op
    exact absurd op notBind
  · rename_i op
    exact handler_replies server context session op (by decide)
      (handle_modify_replies server context session request)
  · rename_i op
    exact handler_replies server context session op (by decide)
      (handle_add_replies server context session request)
  · rename_i op
    exact handler_replies server context session op (by decide)
      (handle_delete_replies server session request)
  · rename_i op
    exact handler_replies server context session op (by decide)
      (handle_modify_dn_replies server session request)
  · rename_i op
    exact handler_replies server context session op (by decide)
      (handle_compare_replies server session request)
  · rename_i op
    exact handle_extended_replies server context session op
  · have unsupported : responseOp request.op = .searchResultDone := by
      cases op : request.op <;> simp_all [responseOp]
    have goesOn : handshakeFails server context request = false := by
      simp_all [handshakeFails]
    exact Program.yields_pure (reply_replies server context session
      (replies_with .protocolError ⟨unsupported.symm, rfl⟩ rfl (by decide)) goesOn)

/-- Every request but a search is answered, whatever the backend says. -/
theorem handle_request_answers (notUnbind : request.op ≠ .unbindRequest)
    (notSearch : request.op ≠ .searchRequest) :
    (handleRequest server context session request).Yields
      (TurnAnswers server context request) := by
  by_cases isBind : request.op = .bindRequest
  · unfold handleRequest
    rw [isBind]
    apply Program.yields_bind (handle_bind_answers server context session request)
    rintro ⟨response, after⟩ answered
    exact Program.yields_pure (reply_answers server context after (by rwa [isBind])
      (by simp [handshakeFails, isBind]))
  · exact (handle_request_replies server context session notUnbind notSearch isBind).mono
      fun _ both => both.1

end Turns

section Run

variable {Store : Type} (backend : (call : BackendCall) → Store → call.Answer × Store)
  (server : Server)

/-- What handling a request leaves: the store and the session state. -/
def turn (state : Store × SessionState) (step : RequestContext × LdapMessage) :
    Store × SessionState :=
  let outcome := (handleRequest server step.1 state.2 step.2).run backend state.1
  (outcome.2, (outcome.1.map (·.session)).getD state.2)

/-- The requests that the session answers: up to the first Unbind, or up to the StartTLS
request after which the connection is lost. -/
def answered : List (RequestContext × LdapMessage) → List (RequestContext × LdapMessage)
  | [] => []
  | step :: rest =>
      if step.2.op = .unbindRequest then []
      else if handshakeFails server step.1 step.2 then [step]
      else step :: answered rest

/-- No search of the step starts its loop in front of the list. -/
def StaysInside (state : Store × SessionState) (step : RequestContext × LdapMessage) : Prop :=
  step.2.op = .searchRequest →
    ¬StartsOutside backend state.1 server state.2 step.1 step.2

variable {server} {state : Store × SessionState} {context : RequestContext} {request : LdapMessage}

theorem search_turn (isSearch : request.op = .searchRequest) :
    ((handleRequest server context state.2 request).run backend state.1).1 =
      (searchAnswer backend state.1 server state.2 context request).map fun messages =>
        { messages := messages, session := state.2 } := by
  unfold handleRequest
  rw [isSearch]
  simp only [Program.run_bind, Program.run_pure]
  rfl

/-- One step: a turn that stays inside the list answers its request. -/
theorem turn_answers (notUnbind : request.op ≠ .unbindRequest)
    (inside : StaysInside backend server state (context, request)) :
    TurnAnswers server context request
      ((handleRequest server context state.2 request).run backend state.1).1 := by
  by_cases isSearch : request.op = .searchRequest
  · rw [search_turn backend isSearch]
    cases sent : searchAnswer backend state.1 server state.2 context request with
    | none =>
        exact absurd ((search_answer_none_iff backend state.1 server state.2 context request).mp
          sent) (inside isSearch)
    | some messages =>
        refine ⟨_, rfl, search_answer_answers backend state.1 server state.2 isSearch sent, ?_⟩
        simp [handshakeFails, isSearch]
  · exact (handle_request_answers server context state.2 notUnbind isSearch).run backend state.1

theorem turn_outside (outside : ¬StaysInside backend server state (context, request)) :
    ((handleRequest server context state.2 request).run backend state.1).1 = none := by
  unfold StaysInside at outside
  push Not at outside
  obtain ⟨isSearch, starts⟩ := outside
  rw [search_turn backend isSearch,
    (search_answer_none_iff backend state.1 server state.2 context request).mpr starts]
  rfl

theorem serve_unbind (rest : List (RequestContext × LdapMessage))
    (isUnbind : request.op = .unbindRequest) :
    ((serve server state.2 ((context, request) :: rest)).run backend state.1).1 = some [] := by
  unfold serve handleRequest
  rw [isUnbind]
  rfl

theorem serve_none (rest : List (RequestContext × LdapMessage))
    (wild : ((handleRequest server context state.2 request).run backend state.1).1 = none) :
    ((serve server state.2 ((context, request) :: rest)).run backend state.1).1 = none := by
  rw [serve, Program.run_bind, wild]
  rfl

theorem serve_some (rest : List (RequestContext × LdapMessage)) {answer : Reply}
    (replied : ((handleRequest server context state.2 request).run backend state.1).1 =
      some answer) :
    ((serve server state.2 ((context, request) :: rest)).run backend state.1).1 =
      if answer.continues then
        ((serve server (turn backend server state (context, request)).2 rest).run backend
          (turn backend server state (context, request)).1).1.map (answer.messages ++ ·)
      else some answer.messages := by
  rw [serve, Program.run_bind, turn, replied]
  simp only
  split
  · rw [Program.run_bind, Program.run_pure]
    rfl
  · rfl

/-- The whole run, message by message: the answers in the order of the requests. -/
def AnsweredInOrder (server : Server) (requests : List (RequestContext × LdapMessage))
    (sent : Option (List LdapMessage)) : Prop :=
  ∃ parts : List (List LdapMessage), sent = some parts.flatten ∧
    List.Forall₂ (fun step part => WellAnswered step.2 part) (answered server requests) parts

theorem serve_answers {requests : List (RequestContext × LdapMessage)}
    (along : Along (turn backend server) (StaysInside backend server) state
      (answered server requests)) :
    AnsweredInOrder server requests ((serve server state.2 requests).run backend state.1).1 := by
  induction requests generalizing state with
  | nil => exact ⟨[], rfl, .nil⟩
  | cons step rest ih =>
      obtain ⟨context, request⟩ := step
      unfold AnsweredInOrder
      unfold answered at along ⊢
      by_cases isUnbind : request.op = .unbindRequest
      · rw [if_pos isUnbind, serve_unbind backend rest isUnbind]
        exact ⟨[], rfl, .nil⟩
      rw [if_neg isUnbind] at along ⊢
      by_cases lost : handshakeFails server context request = true
      · rw [if_pos lost] at along ⊢
        obtain ⟨answer, replied, whole, stops⟩ := turn_answers backend isUnbind along.1
        rw [serve_some backend rest replied, stops, lost]
        exact ⟨[answer.messages], by simp, .cons whole .nil⟩
      · rw [if_neg lost] at along ⊢
        obtain ⟨answer, replied, whole, goesOn⟩ := turn_answers backend isUnbind along.1
        obtain ⟨parts, later, each⟩ := ih along.2
        refine ⟨answer.messages :: parts, ?_, .cons whole each⟩
        rw [serve_some backend rest replied, goesOn, if_pos (by simpa using lost), later]
        rfl

theorem serve_stays_inside {requests : List (RequestContext × LdapMessage)}
    (served : ((serve server state.2 requests).run backend state.1).1 ≠ none) :
    Along (turn backend server) (StaysInside backend server) state
      (answered server requests) := by
  induction requests generalizing state with
  | nil => trivial
  | cons step rest ih =>
      obtain ⟨context, request⟩ := step
      have inside : StaysInside backend server state (context, request) := by
        by_contra outside
        exact served (serve_none backend rest (turn_outside backend outside))
      unfold answered
      split
      · trivial
      rename_i notUnbind
      split
      · exact ⟨inside, trivial⟩
      rename_i kept
      obtain ⟨answer, replied, -, goesOn⟩ := turn_answers backend notUnbind inside
      refine ⟨inside, ih ?_⟩
      intro none
      rw [serve_some backend rest replied, goesOn, if_pos (by simpa using kept), none] at served
      exact served rfl

/-- A session answers every request in order and completely, exactly if no search that it
comes to starts its send loop in front of the list of visible entries. -/
theorem one_response_each_iff (server : Server) (store : Store) (session : SessionState)
    (requests : List (RequestContext × LdapMessage)) :
    AnsweredInOrder server requests ((serve server session requests).run backend store).1 ↔
      Along (turn backend server) (StaysInside backend server) (store, session)
        (answered server requests) := by
  constructor
  · rintro ⟨parts, served, -⟩
    apply serve_stays_inside backend
    rw [served]
    exact Option.some_ne_none _
  · exact serve_answers backend

end Run

section Example

/-- A search of the whole directory with a cookie that is no number of this server:
`4294967295` passes the check for negative numbers and becomes the offset `-1`. -/
def wildSearch : LdapMessage :=
  { messageId := 5, op := .searchRequest
    search := { baseDn := text "dc=com" }
    controls := [makePagedResultsControl 1 (text "4294967295") false] }

theorem wild_search_unanswered :
    ¬AnsweredInOrder {} [({}, wildSearch)]
      ((serve {} administrator [({}, wildSearch)]).run MemoryBackend.exec smallDirectory).1 := by
  have wild : ((serve {} administrator [({}, wildSearch)]).run MemoryBackend.exec
      smallDirectory).1.isNone = true := by
    decide +kernel
  rintro ⟨parts, served, -⟩
  rw [served] at wild
  cases wild

theorem wild_search_reads_outside :
    ¬ ReadsInside MemoryBackend.exec smallDirectory {} administrator {} wildSearch := by
  have wild : (searchAnswer MemoryBackend.exec smallDirectory {} administrator {}
      wildSearch).isNone = true := by
    decide +kernel
  rw [reads_inside_iff_answered, not_not]
  exact Option.isNone_iff_eq_none.mp wild

end Example

end SimpleLdapd.Session
