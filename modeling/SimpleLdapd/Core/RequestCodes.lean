import SimpleLdapd.Backend.ModifyLaws
import SimpleLdapd.Core.ConnectionLoop
import SimpleLdapd.Core.Responses
import SimpleLdapd.Protocol.WireCodes

/-!
# Requests whose enumerations have no meaning

Neither the decoder nor a handler looks whether the operation of a change and the
scope of a search are among the declared ones. A number that names no operation
falls through the `switch` of `applyModifications`, one that names no scope selects
nothing, and a number of more than 32 bits is taken for the one its low bits spell.
The request is answered success all the same.
-/

namespace SimpleLdapd.Session

open Dn Ber Message MemoryBackend Modify

section Decoding

variable {wire : Bytes} {message : LdapMessage}

/-- The octets of a decoded request are there for another reader of its operation. -/
theorem request_read {Value : Type} (body : Read Value)
    (decoded : decodeLdapMessage wire = some message) :
    ∃ tag operation number read after, operationOf tag = message.op ∧
      (decodeOperation { messageId := number } tag).run operation = (some read, after) ∧
      message = { read with controls := message.controls } ∧
      ((readRequest message.op body).run { data := wire }).1 =
        ((readBlock tag body).run operation).1 := by
  obtain ⟨inner, outer, number, operation, tag, read, after, opened, numbered, peeked, operated,
    same⟩ := decoded_operation decoded
  have sameOp : operationOf tag = message.op := by
    rw [same]
    exact (operation_reads_op _ tag operation read after operated).symm
  refine ⟨tag, operation, number.toInt32, read, after, sameOp, operated, same, ?_⟩
  unfold readRequest
  rw [readBlock, Read.bind_of_some opened]
  change (((readInteger >>= _ : Read Value)).run inner).1 = _
  rw [Read.bind_of_some numbered, Read.bind_of_some peeked, if_pos sameOp]

/-- The changes that a Modify request is decoded to, as their octets have them. -/
theorem decoded_changes (decoded : decodeLdapMessage wire = some message)
    (isModify : message.op = .modifyRequest) :
    ∃ changes, wireChanges wire = some changes ∧
      message.modify.changes = changes.map WireChange.decoded := by
  obtain ⟨tag, operation, number, read, after, sameOp, operated, same, found⟩ :=
    request_read readWireModify decoded
  rw [isModify] at sameOp found
  unfold decodeOperation at operated
  simp only [sameOp] at operated
  obtain ⟨modify, _, taken, operated⟩ := Read.bind_some operated
  cases operated
  obtain ⟨detail, delivered, image⟩ := (projects_block tag projects_modify).some taken
  refine ⟨detail.2, ?_, ?_⟩
  · rw [wireChanges, found, delivered]
    rfl
  · rw [same, ← image]
    rfl

/-- The scope of a search as its octets have it. -/
theorem decoded_scope (decoded : decodeLdapMessage wire = some message)
    (isSearch : message.op = .searchRequest) : ∃ code, wireScope wire = some code := by
  obtain ⟨tag, operation, number, read, after, sameOp, operated, same, found⟩ :=
    request_read readWireScope decoded
  rw [isSearch] at sameOp found
  unfold decodeOperation at operated
  simp only [sameOp] at operated
  obtain ⟨search, _, taken, operated⟩ := Read.bind_some operated
  unfold readBlock at taken
  obtain ⟨fields, rest, opened, taken⟩ := Read.bind_some taken
  have body : decodeSearchRequest.run fields = (some search, (decodeSearchRequest.run fields).2) :=
    Prod.ext (Prod.mk.inj taken).1 rfl
  unfold decodeSearchRequest at body
  obtain ⟨baseDn, atScope, based, body⟩ := Read.bind_some body
  obtain ⟨scope, _, enumerated, body⟩ := Read.bind_some body
  obtain ⟨content, delivered, _⟩ := projects_enumerated.some enumerated
  refine ⟨twosComplement content, ?_⟩
  rw [wireScope, found, readBlock, Read.bind_of_some opened]
  change ((readWireScope.run fields).1).map twosComplement = _
  unfold readWireScope
  rw [Read.bind_of_some based, delivered]
  rfl

end Decoding

section Answers

variable (server : Server) (context : RequestContext) (session : SessionState)
  (store : MemoryStore) (request : LdapMessage)

/-- The answer to a request, and the store after it. -/
def handled : Option Reply × MemoryStore :=
  (handleRequest server context session request).run exec store

/-- The message that ends the answer says success. -/
def SaysSuccess (answer : Option Reply) : Prop :=
  (answer.bind fun reply => reply.messages.getLast?).map (·.result) = some .success

instance (answer : Option Reply) : Decidable (SaysSuccess answer) :=
  inferInstanceAs (Decidable (_ = _))

variable {request}

theorem handled_modify (isModify : request.op = .modifyRequest) :
    handled server context session store request =
      (reply session ((handleModify server context session request).run exec store).1,
        ((handleModify server context session request).run exec store).2) := by
  unfold handled handleRequest
  rw [isModify]
  simp only [Program.run_bind, Program.run_pure]

theorem handled_search (isSearch : request.op = .searchRequest) :
    (handled server context session store request).1 =
      (searchAnswer exec store server session context request).map fun messages =>
        { messages := messages, session := session } := by
  unfold handled handleRequest
  rw [isSearch]
  simp only [Program.run_bind, Program.run_pure]
  rfl

end Answers

section Changes

/-- A declared number is the one the octets are cast to. -/
theorem wire_numbered {change : WireChange} (declared : DeclaredCode change.code) :
    Numbered change.code change.decoded := by
  unfold WireChange.code at declared ⊢
  unfold Numbered WireChange.decoded
  rcases declared with code | code | code
  · have cast : enumeratedOf change.operation = Int32.ofNat 0 := enumerated_of_natural code
    rw [code, cast]
    exact Or.inl ⟨rfl, rfl⟩
  · have cast : enumeratedOf change.operation = Int32.ofNat 1 := enumerated_of_natural code
    rw [code, cast]
    exact Or.inr (Or.inl ⟨rfl, rfl⟩)
  · have cast : enumeratedOf change.operation = Int32.ofNat 2 := enumerated_of_natural code
    rw [code, cast]
    exact Or.inr (Or.inr ⟨rfl, rfl⟩)

/-- Encoding the passwords of a list of changes leaves their operations as they are. -/
theorem numbered_map_idx {codes : List Int} {changes : List AttributeModification}
    (numbered : List.Forall₂ Numbered codes changes)
    (rewrite : Nat → AttributeModification → AttributeModification)
    (sameOp : ∀ position change, (rewrite position change).op = change.op) :
    List.Forall₂ Numbered codes (changes.mapIdx rewrite) := by
  induction numbered generalizing rewrite with
  | nil => exact .nil
  | cons here later ih =>
      rw [List.mapIdx_cons]
      refine .cons ?_ (ih _ fun position change => sameOp (position + 1) change)
      unfold Numbered
      rw [sameOp]
      exact here

theorem encoded_op (openssl : Option OpenSsl) (salts : Salts) {codes : List Int}
    {changes : List AttributeModification} (numbered : List.Forall₂ Numbered codes changes) :
    List.Forall₂ Numbered codes (Password.encodeUserPasswordChanges openssl salts changes) := by
  apply numbered_map_idx numbered
  intro position change
  split
  · rfl
  · rfl

/-- The entry of the request has seen the effect of each of its changes, with user
passwords encoded. -/
def ChangesMade (server : Server) (context : RequestContext) (request : ModifyRequestData)
    (codes : List Int) (before after : MemoryStore) : Prop :=
  ∃ old entry, lookup before request.dn = some old ∧ lookup after request.dn = some entry ∧
    ChangeEffects codes
      (Password.encodeUserPasswordChanges server.openssl context.salts request.changes) old entry

variable (server : Server) (context : RequestContext) (session : SessionState)
  {store : MemoryStore} {request : LdapMessage} {changes : List WireChange}

theorem modify_makes_changes (reachable : Reachable store)
    (listed : request.modify.changes = changes.map WireChange.decoded)
    (declared : ∀ change ∈ changes, DeclaredCode change.code)
    (answered : ((handleModify server context session request).run exec store).1.result =
      .success) :
    ChangesMade server context request.modify (changes.map WireChange.code) store
      ((handleModify server context session request).run exec store).2 := by
  have numbered : List.Forall₂ Numbered (changes.map WireChange.code)
      (Password.encodeUserPasswordChanges server.openssl context.salts request.modify.changes) := by
    apply encoded_op
    rw [listed, List.forall₂_map_left_iff, List.forall₂_map_right_iff, List.forall₂_same]
    intro change member
    exact wire_numbered (declared change member)
  have settled : Program.Ensures exec (handleModify server context session request) store _ :=
    handle_modify_settles server context session reachable.invariant request
  rcases settled with ⟨_, _, old, entry, found, applied, written, same⟩ | ⟨_, refusal, _⟩
  · have frame := (apply_modifications_frame old (Password.encodeUserPasswordChanges
      server.openssl context.salts request.modify.changes)).1
    rw [applied] at frame
    have sameDn := reachable.invariant.lookup_dn found
    rw [← frame] at sameDn
    have stored := lookup_modified reachable.invariant written request.modify.dn
    rw [if_pos sameDn, ← same] at stored
    have succeeded : (applyModifications old (Password.encodeUserPasswordChanges
        server.openssl context.salts request.modify.changes)).1 = .success := by
      rw [applied]
    have effects := apply_modifications_effects numbered succeeded
    rw [applied] at effects
    exact ⟨old, entry, found, stored, effects⟩
  · exact absurd answered refusal.1

end Changes

section Searches

variable (server : Server) (context : RequestContext) (session : SessionState)
  {store : MemoryStore} {request : LdapMessage}

theorem paging_of_refusal {pageSize : Int32} {cookie diagnostic : Bytes} {code : ResultCode}
    {controls : List LdapControl}
    (refused : pagingOf pageSize cookie controls = .error (code, diagnostic)) :
    code ≠ .success := by
  induction controls generalizing pageSize cookie with
  | nil => cases refused
  | cons control rest ih =>
      unfold pagingOf at refused
      split at refused
      · split at refused
        · exact ih refused
        · cases refused
          split
          · decide
          · decide
      · split at refused
        · cases refused
          decide
        · exact ih refused

theorem search_visible_refusal {Store : Type}
    {backend : (call : BackendCall) → Store → call.Answer × Store} {before : Store}
    {search : SearchRequestData} {code : ResultCode} {diagnostic : Bytes}
    (refused : ((searchVisible server session search).run backend before).1 =
      .error (code, diagnostic)) : code ≠ .success := by
  unfold searchVisible at refused
  rw [Program.run_bind] at refused
  split at refused
  · cases refused
    decide
  rw [Program.run_bind] at refused
  split at refused
  · cases refused
    decide
  · simp only [Program.run_bind, Program.run_pure] at refused
    cases refused

/-- The answer to a page ends in success when the page is empty by wish, or when the
send loop comes to its end. -/
theorem send_page_success_iff (pageSize : Int32) (cookie : Bytes)
    (visible : List DirectoryEntry) :
    ((sendPage server context session request pageSize cookie visible).bind
        List.getLast?).map (·.result) = some .success ↔
      ∃ parsed, offsetOf cookie = some parsed ∧ (pageSize = 0 ∨ ∃ sent,
        sendLoop context request.search pageSize visible
          ((Int32.ofNat visible.length).toInt - castOffset parsed).toNat
          (castOffset parsed) 0 = some (sent, .success)) := by
  unfold sendPage castOffset
  cases read : offsetOf cookie with
  | none =>
      unfold offsetOf at read
      simp only [read, reduceCtorEq, false_and, exists_false, iff_false]
      exact show some ResultCode.protocolError ≠ some .success by decide
  | some parsed =>
      unfold offsetOf at read
      simp only [read, Option.some.injEq, exists_eq_left']
      split
      · rename_i empty
        simp only [empty, true_or, iff_true]
        rfl
      · rename_i sized
        cases loop : sendLoop context request.search pageSize visible
            ((Int32.ofNat visible.length).toInt - (Int32.ofInt parsed).toInt).toNat
            (Int32.ofInt parsed).toInt 0 with
        | none => simp [sized]
        | some outcome =>
            rcases outcome with ⟨sent, result⟩
            simp [sized, makeSearchDone]

theorem search_success_iff (valid : request.search.filter.valid = true) :
    ((searchAnswer exec store server session context request).bind
        List.getLast?).map (·.result) = some .success ↔
      ∃ pageSize cookie parsed visible,
        pagingOf (-1) [] request.controls = .ok (pageSize, cookie) ∧
        ((searchVisible server session request.search).run exec store).1 = .ok visible ∧
        offsetOf cookie = some parsed ∧ (pageSize = 0 ∨ ∃ sent,
          sendLoop context request.search pageSize visible
            ((Int32.ofNat visible.length).toInt - castOffset parsed).toNat
            (castOffset parsed) 0 = some (sent, .success)) := by
  have refused {code : ResultCode} {diagnostic : Bytes} (failed : code ≠ .success) :
      ((some [makeSearchDone request.messageId code diagnostic]).bind List.getLast?).map
        (·.result) ≠ some .success := by
    intro same
    exact failed (Option.some.inj same)
  rw [search_answer_eq, if_neg (by simp [valid])]
  cases paging : pagingOf (-1) [] request.controls with
  | error refusal =>
      refine iff_of_false (refused (paging_of_refusal paging)) ?_
      rintro ⟨_, _, _, _, accepted, _⟩
      cases accepted
  | ok found =>
      rcases found with ⟨pageSize, cookie⟩
      cases outcome : ((searchVisible server session request.search).run exec store).1 with
      | error refusal =>
          refine iff_of_false (refused (search_visible_refusal server session outcome)) ?_
          rintro ⟨_, _, _, _, _, seen, _⟩
          cases seen
      | ok visible =>
          simp only [sendFound]
          rw [send_page_success_iff]
          constructor
          · rintro ⟨parsed, read, ends⟩
            exact ⟨pageSize, cookie, parsed, visible, rfl, rfl, read, ends⟩
          · rintro ⟨_, _, parsed, _, accepted, seen, read, ends⟩
            cases accepted
            cases seen
            exact ⟨parsed, read, ends⟩

/-- A loop that comes to its end did not start in front of the list. -/
theorem send_loop_success_inside {Item : Type} {search : SearchRequestData} {pageSize : Int32}
    {visible sent : List Item} {offset : Int}
    (ended : sendLoop context search pageSize visible
      ((Int32.ofNat visible.length).toInt - offset).toNat offset 0 = some (sent, .success)) :
    0 ≤ offset ∨ (Int32.ofNat visible.length).toInt ≤ offset := by
  by_contra outside
  rw [not_or, not_le, not_le] at outside
  obtain ⟨turns, count⟩ := Nat.exists_eq_succ_of_ne_zero
    (show ((Int32.ofNat visible.length).toInt - offset).toNat ≠ 0 by omega)
  rw [count] at ended
  by_cases late : 0 < search.timeLimit.toInt ∧ context.expired 0 = true
  · unfold sendLoop at ended
    rw [if_pos late] at ended
    cases ended
  · rw [(send_loop_outside context search pageSize visible turns outside.1).mpr late] at ended
    cases ended

/-- In time, a list of one entry at most is sent to its end. -/
theorem send_loop_short {Item : Type} (search : SearchRequestData) (pageSize : Int32)
    {visible : List Item} (short : visible.length ≤ 1) {offset : Int} (inside : 0 ≤ offset) :
    ∃ sent, sendLoop {} search pageSize visible
      ((Int32.ofNat visible.length).toInt - offset).toNat offset 0 = some (sent, .success) := by
  have size : (Int32.ofNat visible.length).toInt = visible.length :=
    Int32.toInt_ofNat_of_lt (by omega)
  rw [size]
  cases turns : ((visible.length : Int) - offset).toNat with
  | zero => exact ⟨[], rfl⟩
  | succ rest =>
      have start : offset = 0 := by omega
      have last : rest = 0 := by omega
      obtain ⟨entry, only⟩ := List.length_eq_one_iff.mp (show visible.length = 1 by omega)
      have unlimited : ¬(0 < search.sizeLimit.toInt ∧ search.sizeLimit.toInt ≤ 0) := by omega
      have unpaged : ¬(0 < pageSize.toInt ∧ pageSize.toInt ≤ 0) := by omega
      refine ⟨[entry], ?_⟩
      rw [only, start, last]
      simp [sendLoop, readVisible, unlimited, unpaged]

theorem open_may_search (before : MemoryStore) (dn : Bytes) :
    (maySearch {} {} dn).run exec before = (true, before) := by
  unfold maySearch AccessControl.maySearch
  split
  · rfl
  · rfl

/-- Without access rules every match is visible. -/
theorem open_visible (before : MemoryStore) (entries : List DirectoryEntry) :
    (visibleEntries {} {} entries).run exec before = (entries, before) := by
  induction entries with
  | nil => rfl
  | cons entry rest ih =>
      simp only [visibleEntries, Program.run_bind, open_may_search, ih, Program.run_pure, if_true]

theorem memory_search_length (before : MemoryStore) (baseDn : Bytes) (scope : SearchScope)
    (filter : SearchFilter) :
    (MemoryBackend.search before baseDn scope filter).length ≤ before.entries.length := by
  unfold MemoryBackend.search
  rw [List.length_map]
  exact List.length_filter_le _ _

theorem search_matches_length (search : SearchRequestData) (before : MemoryStore) :
    ((searchMatches {} search).run exec before).1.length ≤
      before.entries.length + if search.baseDn = [] then 1 else 0 := by
  have found := memory_search_length before search.baseDn search.scope search.filter
  unfold searchMatches
  split
  · rename_i atRoot
    have single : (if search.filter.matchesEntry (rootDse {}) then [rootDse {}] else []).length ≤
        1 := by
      split
      · exact Nat.le_refl 1
      · exact Nat.zero_le 1
    rw [if_pos atRoot.1]
    simp only
    generalize (if search.filter.matchesEntry (rootDse {}) then [rootDse {}] else []) = dse
      at single ⊢
    split
    · exact Nat.le_add_left_of_le single
    · change (dse ++ MemoryBackend.search before search.baseDn search.scope
        search.filter).length ≤ _
      rw [List.length_append]
      omega
  · exact Nat.le_add_right_of_le found

/-- The directory that has the base of the search and nothing else. -/
def baseOnly (search : SearchRequestData) : MemoryStore :=
  (add OrderedMap.empty { dn := search.baseDn }).2

theorem base_only_eq (search : SearchRequestData) :
    baseOnly search = if search.baseDn = [] then OrderedMap.empty
      else OrderedMap.empty.insert search.baseDn { dn := search.baseDn } := by
  unfold baseOnly add
  split
  · rfl
  · rfl

theorem base_only_stored (search : SearchRequestData) :
    search.baseDn = [] ∨ lookup (baseOnly search) search.baseDn ≠ none := by
  by_cases root : search.baseDn = []
  · exact Or.inl root
  · right
    have added : (add OrderedMap.empty { dn := search.baseDn }).1 = true := add_succeeds root rfl
    unfold baseOnly
    rw [lookup_added added, if_pos rfl]
    exact Option.some_ne_none _

theorem base_only_reachable (search : SearchRequestData) : Reachable (baseOnly search) :=
  Reachable.step (.add { dn := search.baseDn }) Reachable.empty

theorem base_only_searched (search : SearchRequestData) :
    ∃ visible, ((searchVisible {} {} search).run exec (baseOnly search)).1 = .ok visible ∧
      visible.length ≤ 1 := by
  have stored : (emptyOrStored search.baseDn).run exec (baseOnly search) =
      (true, baseOnly search) :=
    Prod.ext ((empty_or_stored_iff _ _).mpr (base_only_stored search))
      (run_read_only (empty_or_stored_read_only _) _)
  have allowed : (maySearchBase {} {} search.baseDn).run exec (baseOnly search) =
      (true, baseOnly search) := by
    unfold maySearchBase
    split
    · rfl
    · exact open_may_search _ _
  have size : (baseOnly search).entries.length +
      (if search.baseDn = [] then 1 else 0) ≤ 1 := by
    rw [base_only_eq]
    split
    · exact Nat.le_refl 1
    · rw [OrderedMap.length_insert]
      exact Nat.le_refl 1
  have matched := search_matches_length search (baseOnly search)
  refine ⟨((searchMatches {} search).run exec (baseOnly search)).1, ?_, by omega⟩
  simp only [searchVisible, Program.run_bind, stored, allowed, open_visible, Program.run_pure,
    Bool.not_true, Bool.false_eq_true, if_false]

/-- Some directory shows the search so many entries that their number, cast to `int`,
does not lie above the offset. -/
def CountFallsBelow (search : SearchRequestData) (offset : Int) : Prop :=
  ∃ server session store visible, Reachable store ∧
    ((searchVisible server session search).run exec store).1 = .ok visible ∧
    (Int32.ofNat visible.length).toInt ≤ offset

/-- Nothing in the message refuses the search: its controls are accepted, its cookie is a
number, and unless the page size is zero its page begins inside of the list. -/
def GetsThrough (request : LdapMessage) : Prop :=
  ∃ pageSize cookie parsed, pagingOf (-1) [] request.controls = .ok (pageSize, cookie) ∧
    offsetOf cookie = some parsed ∧ (pageSize = 0 ∨ 0 ≤ castOffset parsed ∨
      CountFallsBelow request.search (castOffset parsed))

/-- A search is answered success in some state exactly when nothing in it prevents that,
whatever number it has for its scope. -/
theorem gets_through_iff (valid : request.search.filter.valid = true) :
    GetsThrough request ↔ ∃ server context session store, Reachable store ∧
      ((searchAnswer exec store server session context request).bind
        List.getLast?).map (·.result) = some .success := by
  constructor
  · rintro ⟨pageSize, cookie, parsed, accepted, read, begins⟩
    obtain ⟨visible, seen, short⟩ := base_only_searched request.search
    rcases begins with empty | inside | falls
    · refine ⟨{}, {}, {}, _, base_only_reachable request.search, ?_⟩
      rw [search_success_iff {} {} {} valid]
      exact ⟨pageSize, cookie, parsed, visible, accepted, seen, read, Or.inl empty⟩
    · refine ⟨{}, {}, {}, _, base_only_reachable request.search, ?_⟩
      rw [search_success_iff {} {} {} valid]
      exact ⟨pageSize, cookie, parsed, visible, accepted, seen, read,
        Or.inr (send_loop_short request.search pageSize short inside)⟩
    · obtain ⟨server, session, store, visible, reachable, seen, below⟩ := falls
      refine ⟨server, {}, session, store, reachable, ?_⟩
      rw [search_success_iff server {} session valid]
      have still : ((Int32.ofNat visible.length).toInt - castOffset parsed).toNat = 0 := by
        omega
      refine ⟨pageSize, cookie, parsed, visible, accepted, seen, read, Or.inr ⟨[], ?_⟩⟩
      rw [still]
      rfl
  · rintro ⟨server, context, session, store, reachable, answered⟩
    rw [search_success_iff server context session valid] at answered
    obtain ⟨pageSize, cookie, parsed, visible, accepted, seen, read, ends⟩ := answered
    refine ⟨pageSize, cookie, parsed, accepted, read, ?_⟩
    rcases ends with empty | ⟨sent, ended⟩
    · exact Or.inl empty
    · right
      rcases send_loop_success_inside context ended with inside | below
      · exact Or.inl inside
      · exact Or.inr ⟨server, session, store, visible, reachable, seen, below⟩

end Searches

section Requests

variable {wire : Bytes} {message : LdapMessage}

/-- A Modify request that is answered success has done what its numbers mean exactly when
each of them is declared. A search meets the rule in every state exactly when its scope
is declared, or when the search cannot be answered success at all. -/
theorem request_codes_iff (decoded : decodeLdapMessage wire = some message) :
    (message.op = .modifyRequest → ∃ changes, wireChanges wire = some changes ∧
      ∀ server context session store, Reachable store →
        SaysSuccess (handled server context session store message).1 →
          (ChangesMade server context message.modify (changes.map WireChange.code) store
              (handled server context session store message).2 ↔
            ∀ change ∈ changes, DeclaredCode change.code)) ∧
    (message.op = .searchRequest → ∃ code, wireScope wire = some code ∧
      ((∀ server context session store, Reachable store →
          SaysSuccess (handled server context session store message).1 → DeclaredCode code) ↔
        DeclaredCode code ∨ ¬ GetsThrough message)) := by
  constructor
  · intro isModify
    obtain ⟨changes, listed, same⟩ := decoded_changes decoded isModify
    refine ⟨changes, listed, ?_⟩
    intro server context session store reachable answered
    rw [handled_modify server context session store isModify] at answered ⊢
    constructor
    · rintro ⟨_, _, _, _, effects⟩ change member
      exact effects.declared change.code (List.mem_map_of_mem member)
    · intro declared
      exact modify_makes_changes server context session reachable same declared
        (Option.some.inj answered)
  · intro isSearch
    obtain ⟨code, scope⟩ := decoded_scope decoded isSearch
    refine ⟨code, scope, ?_⟩
    have valid := decoded_filter_valid decoded isSearch
    have answers (server : Server) (context : RequestContext) (session : SessionState)
        (store : MemoryStore) : SaysSuccess (handled server context session store message).1 ↔
          ((searchAnswer exec store server session context message).bind
            List.getLast?).map (·.result) = some .success := by
      rw [SaysSuccess, handled_search server context session store isSearch]
      cases searchAnswer exec store server session context message with
      | none => exact Iff.rfl
      | some messages => exact Iff.rfl
    simp only [answers]
    rw [gets_through_iff valid]
    constructor
    · intro kept
      by_contra neither
      rw [not_or, not_not] at neither
      obtain ⟨undeclared, server, context, session, store, reachable, answered⟩ := neither
      exact undeclared (kept server context session store reachable answered)
    · rintro (declared | never) server context session store reachable answered
      · exact declared
      · exact absurd ⟨server, context, session, store, reachable, answered⟩ never

/-- A change of `cn=a` with the given operation. -/
def changeOfA (op : ModifyOp) : LdapMessage :=
  { messageId := 1, op := .modifyRequest
    modify := { dn := text "cn=a,ou=people,dc=example,dc=com"
                changes := [{ op := op, type := text "cn", values := [text "b"] }] } }

theorem declared_change_made : ∃ changes,
    wireChanges (encodeLdapMessage (changeOfA .replace)) = some changes ∧
      ChangesMade {} {} (changeOfA .replace).modify (changes.map WireChange.code) smallDirectory
        (handled {} {} administrator smallDirectory (changeOfA .replace)).2 := by
  have decoded : decodeLdapMessage (encodeLdapMessage (changeOfA .replace)) =
      some (changeOfA .replace) := by
    decide +kernel
  obtain ⟨changes, listed, made⟩ := (request_codes_iff decoded).1 rfl
  have declared : (wireChanges (encodeLdapMessage (changeOfA .replace))).all
      (fun changes => changes.all fun change => decide (DeclaredCode change.code)) = true := by
    decide +kernel
  rw [listed, Option.all_some, List.all_eq_true] at declared
  refine ⟨changes, listed, ?_⟩
  exact (made {} {} administrator smallDirectory small_directory_reachable
    (by decide +kernel)).mpr fun change member => of_decide_eq_true (declared change member)

/-- A search of everything below `dc=example,dc=com` with the given scope. -/
def searchWith (scope : SearchScope) : LdapMessage :=
  { messageId := 2, op := .searchRequest
    search := { baseDn := text "dc=example,dc=com", scope := scope
                filter := { Filter.present (text "cn") with text := text "(decoded)" } } }

/-- Operation 3 and scope 3 are answered success: nothing is changed, and nothing is sent. -/
theorem unknown_codes_succeed :
    decodeLdapMessage (encodeLdapMessage (changeOfA (.undeclared 3))) =
        some (changeOfA (.undeclared 3)) ∧
      (wireChanges (encodeLdapMessage (changeOfA (.undeclared 3)))).map
        (List.map WireChange.code) = some [3] ∧
      SaysSuccess (handled {} {} administrator smallDirectory (changeOfA (.undeclared 3))).1 ∧
      (handled {} {} administrator smallDirectory (changeOfA (.undeclared 3))).2 =
        smallDirectory ∧
    decodeLdapMessage (encodeLdapMessage (searchWith (.undeclared 3))) =
        some (searchWith (.undeclared 3)) ∧
      wireScope (encodeLdapMessage (searchWith (.undeclared 3))) = some 3 ∧
      SaysSuccess (handled {} {} {} smallDirectory (searchWith (.undeclared 3))).1 ∧
      (searchAnswer exec smallDirectory {} {} {} (searchWith (.undeclared 3))).map entriesSent =
        some [] ∧
      ¬ DeclaredCode 3 := by
  decide +kernel

end Requests

end SimpleLdapd.Session
