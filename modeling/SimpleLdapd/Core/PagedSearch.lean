import SimpleLdapd.Core.WriteOutcome
import SimpleLdapd.Library.Paging
import SimpleLdapd.Protocol.MessageRoundTrip

/-!
# Paged searches

A client that wants its results in pages sends the same search again and again,
each time with the cookie of the last answer, as `ldapsearch` does. The server
keeps nothing between two pages: the cookie is the decimal number of entries sent
so far, and the list it counts in is computed anew for every page. Nothing here
depends on the backend, so it is a parameter; what matters is that every page
finds the same store.
-/

namespace SimpleLdapd.Session

open Dn Message

section Search

variable (server : Server) (context : RequestContext) (session : SessionState)

/-- The part of `handleSearch` between the controls and the cookie: the visible
entries, or the code and diagnostic of the refusal. -/
def searchVisible (search : SearchRequestData) :
    BackendProgram (Except (ResultCode × Bytes) (List DirectoryEntry)) := do
  let found ← emptyOrStored search.baseDn
  if !found then pure (.error (.noSuchObject, text "no such object"))
  else do
    let allowed ← maySearchBase server session search.baseDn
    if !allowed then pure (.error (.insufficientAccessRights, text "insufficient access"))
    else do
      let matched ← searchMatches server search
      let visible ← visibleEntries server session matched
      pure (.ok visible)

def sendFound (request : LdapMessage) (pageSize : Int32) (cookie : Bytes) :
    Except (ResultCode × Bytes) (List DirectoryEntry) → Option (List LdapMessage)
  | .error (code, diagnostic) => some [makeSearchDone request.messageId code diagnostic]
  | .ok visible => sendPage server context session request pageSize cookie visible

/-- Everything the controls decide lies outside of the backend calls. -/
theorem handle_search_eq (request : LdapMessage) :
    handleSearch server context session request =
      if !request.search.filter.valid then
        pure (some [makeSearchDone request.messageId .protocolError
          (text "invalid search filter")])
      else
        match pagingOf (-1) [] request.controls with
        | .error (code, diagnostic) =>
            pure (some [makeSearchDone request.messageId code diagnostic])
        | .ok (pageSize, cookie) =>
            searchVisible server session request.search >>= fun found =>
              pure (sendFound server context session request pageSize cookie found) := by
  unfold handleSearch searchVisible
  simp only
  split
  · rfl
  cases pagingOf (-1) [] request.controls with
  | error refusal => rfl
  | ok paging =>
      simp only [Program.bind_bind]
      congr
      funext found
      split
      · rfl
      simp only [Program.bind_bind]
      congr
      funext allowed
      split
      · rfl
      simp only [Program.bind_bind]
      rfl

end Search

section SendLoop

variable (context : RequestContext) {request : SearchRequestData} {Item : Type}

/-- How many of `turns` turns the page size leaves once `sent` entries are sent. -/
def pageRoom (pageSize : Int32) (turns sent : Nat) : Nat :=
  if 0 < pageSize.toInt then min turns (pageSize.toInt.toNat - sent) else turns

theorem read_visible_inside (visible : List Item) {index : Nat} (inside : index < visible.length) :
    readVisible visible index = some visible[index] := by
  rw [readVisible, if_neg (by omega), Int.toNat_natCast, List.getElem?_eq_getElem inside]

/-- Without limits the loop sends the entries from the offset on, a page of them at most. -/
theorem send_loop_page (noSizeLimit : request.sizeLimit = 0) (noTimeLimit : request.timeLimit = 0)
    (pageSize : Int32) (visible : List Item) (turns index sent : Nat)
    (inside : index + turns ≤ visible.length) :
    sendLoop context request pageSize visible turns index sent =
      some ((visible.drop index).take (pageRoom pageSize turns sent), .success) := by
  induction turns generalizing index sent with
  | zero =>
      have none_left : pageRoom pageSize 0 sent = 0 := by
        unfold pageRoom
        split <;> omega
      rw [none_left]
      rfl
  | succ turns ih =>
      unfold sendLoop
      have untimed : ¬(0 < request.timeLimit.toInt ∧ context.expired sent = true) := by
        rw [noTimeLimit]
        exact fun limited => absurd limited.1 (by decide)
      have unlimited : ¬(0 < request.sizeLimit.toInt ∧ request.sizeLimit.toInt ≤ sent) := by
        rw [noSizeLimit]
        exact fun limited => absurd limited.1 (by decide)
      rw [if_neg untimed, if_neg unlimited]
      by_cases full : 0 < pageSize.toInt ∧ pageSize.toInt ≤ sent
      · have none_left : pageRoom pageSize (turns + 1) sent = 0 := by
          rw [pageRoom, if_pos full.1]
          omega
        rw [if_pos full, none_left]
        rfl
      · have one_more : pageRoom pageSize (turns + 1) sent =
            pageRoom pageSize turns (sent + 1) + 1 := by
          unfold pageRoom
          split <;> omega
        have later := ih (index + 1) (sent + 1) (by omega)
        push_cast at later
        rw [if_neg full, read_visible_inside visible (by omega), one_more,
          List.drop_eq_getElem_cons (by omega), List.take_succ_cons]
        simp only [later, Option.map_some]

end SendLoop

section Pages

/-- The entries in front of the end of the send loop, `static_cast<int>(visible.size())`. -/
def sendable {Item : Type} (visible : List Item) : List Item :=
  visible.take (Int32.ofNat visible.length).toInt.toNat

theorem sendable_length {Item : Type} (visible : List Item) :
    (sendable visible).length = (Int32.ofNat visible.length).toInt.toNat := by
  have wrapped : (Int32.ofNat visible.length).toInt = (visible.length : Int).bmod (2 ^ 32) :=
    Int32.toInt_ofNat
  have below : (visible.length : Int).bmod (2 ^ 32) ≤ visible.length := by
    rw [Int.bmod]
    omega
  rw [sendable, List.length_take, wrapped]
  omega

theorem sendable_length_lt {Item : Type} (visible : List Item) :
    (sendable visible).length < 2 ^ 31 := by
  have bound := (Int32.ofNat visible.length).toInt_lt
  rw [sendable_length]
  omega

/-- The cookie of the answer that ends in front of entry number `next`. -/
def cookieFor (total next : Nat) : Bytes := if next < total then Text.decimal next else []

def offsetOf (cookie : Bytes) : Option Int :=
  if cookie = [] then some 0 else Text.wholeNumber cookie

theorem offset_of_cookie {total next : Nat} (small : total < 2 ^ 31) (more : next < total) :
    offsetOf (cookieFor total next) = some (next : Int) := by
  have fits : (next : Int) ≤ Text.longMax := by
    rw [Text.longMax]
    omega
  rw [cookieFor, if_pos more, offsetOf, if_neg (Text.decimal_ne_nil next),
    Text.whole_number_decimal fits]

theorem cookie_length {total : Nat} (small : total < 2 ^ 31) (next : Nat) :
    (cookieFor total next).length < 2 ^ 31 := by
  unfold cookieFor
  split
  · have short := Text.decimal_length_le (show next < 2 ^ 31 by omega)
    omega
  · exact Nat.two_pow_pos 31

theorem cookie_for_eq {Item : Type} (visible : List Item) (next : Nat) :
    (if (next : Int) < (Int32.ofNat visible.length).toInt ∧
        ResultCode.success ≠ .sizeLimitExceeded then Text.decimal next else []) =
      cookieFor (sendable visible).length next := by
  have total := sendable_length visible
  unfold cookieFor
  apply ite_congr (propext _) (fun _ => rfl) (fun _ => rfl)
  constructor
  · rintro ⟨more, _⟩
    omega
  · intro more
    exact ⟨by omega, by decide⟩

variable (server : Server) (context : RequestContext) (session : SessionState)

variable (request : LdapMessage) (noSizeLimit : request.search.sizeLimit = 0)
  (noTimeLimit : request.search.timeLimit = 0) (visible : List DirectoryEntry)

include noSizeLimit noTimeLimit

theorem send_loop_sendable (pageSize : Int32) {offset : Nat}
    (inside : offset ≤ (sendable visible).length) :
    sendLoop context request.search pageSize visible
        ((Int32.ofNat visible.length).toInt - offset).toNat offset 0 =
      some (((sendable visible).drop offset).take
        (pageRoom pageSize ((sendable visible).length - offset) 0), .success) := by
  have total := sendable_length visible
  have within : (sendable visible).length ≤ visible.length := List.length_take_le' _ _
  have turns : ((Int32.ofNat visible.length).toInt - offset).toNat =
      (sendable visible).length - offset := by
    omega
  have room : pageRoom pageSize ((sendable visible).length - offset) 0 ≤
      (sendable visible).length - offset := by
    unfold pageRoom
    split <;> omega
  rw [turns, send_loop_page context noSizeLimit noTimeLimit pageSize visible _ _ _ (by omega)]
  nth_rewrite 3 [sendable]
  rw [List.drop_take, List.take_take, ← total, Nat.min_eq_left room]

theorem send_page_paged {pageSize : Int32} (positive : 0 < pageSize.toInt) {cookie : Bytes}
    {offset : Nat} (parsed : offsetOf cookie = some (offset : Int))
    (inside : offset ≤ (sendable visible).length) :
    ∃ remaining, sendPage server context session request pageSize cookie visible =
      some ((((sendable visible).drop offset).take pageSize.toInt.toNat).map
          (renderMessage server session request) ++
        [{ makeSearchDone request.messageId .success [] with
            controls := [makePagedResultsControl remaining
              (cookieFor (sendable visible).length (offset +
                (((sendable visible).drop offset).take pageSize.toInt.toNat).length))
              false] }]) := by
  have total := sendable_length visible
  have small := sendable_length_lt visible
  have cast : (Int32.ofInt (offset : Int)).toInt = offset :=
    Int32.toInt_ofInt_of_le (by omega) (by omega)
  have nonzero : pageSize ≠ 0 := by
    rintro rfl
    exact absurd positive (by decide)
  have page : ((sendable visible).drop offset).take
      (pageRoom pageSize ((sendable visible).length - offset) 0) =
      ((sendable visible).drop offset).take pageSize.toInt.toNat := by
    rw [pageRoom, if_pos positive, Nat.sub_zero, Nat.min_comm, ← List.length_drop]
    exact List.take_eq_take_min.symm
  unfold offsetOf at parsed
  unfold sendPage
  simp only [parsed, cast, if_neg nonzero, if_pos positive,
    send_loop_sendable context request noSizeLimit noTimeLimit visible pageSize inside, page,
    ← Int.natCast_add, cookie_for_eq]
  exact ⟨_, rfl⟩

/-- Without the control one answer carries everything. -/
theorem send_page_whole :
    sendPage server context session request (-1) [] visible =
      some ((sendable visible).map (renderMessage server session request) ++
        [makeSearchDone request.messageId .success []]) := by
  have loop := send_loop_sendable context request noSizeLimit noTimeLimit visible (-1) (Nat.zero_le _)
  have every : ((sendable visible).drop 0).take
      (pageRoom (-1) ((sendable visible).length - 0) 0) = sendable visible := by
    rw [pageRoom, if_neg (by decide), List.drop_zero, Nat.sub_zero, List.take_length]
  rw [every] at loop
  unfold sendPage
  simp only [if_pos, show (Int32.ofInt 0).toInt = ((0 : Nat) : Int) from rfl,
    if_neg (show ¬(-1 : Int32) = 0 by decide),
    if_neg (show ¬0 < (-1 : Int32).toInt by decide), loop]
  rfl

end Pages

section Controls

def Unpaged (controls : List LdapControl) : Prop :=
  ∀ control ∈ controls, iequals control.oid kPagedResultsOid = false

/-- Controls of other kinds decide between going on and a refusal, not about the page. -/
theorem paging_of_unpaged {controls : List LdapControl} (unpaged : Unpaged controls)
    (size other : Int32) (cookie otherCookie : Bytes) :
    pagingOf size cookie controls =
      (pagingOf other otherCookie controls).map fun _ => (size, cookie) := by
  induction controls with
  | nil => rfl
  | cons control rest ih =>
      have kind : ¬iequals control.oid kPagedResultsOid = true := by
        simp [unpaged control List.mem_cons_self]
      unfold pagingOf
      rw [if_neg kind, if_neg kind]
      split
      · rfl
      · exact ih fun later member => unpaged later (List.mem_cons_of_mem control member)

theorem paging_of_paged (before after : List LdapControl) (unpaged : Unpaged (before ++ after))
    (size : Int32) {cookie : Bytes} (short : cookie.length < 2 ^ 31) (critical : Bool) :
    pagingOf (-1) [] (before ++ makePagedResultsControl size cookie critical :: after) =
      (pagingOf (-1) [] (before ++ after)).map fun _ => (size, cookie) := by
  induction before with
  | nil =>
      have decoded : decodePagedResultsValue
          (makePagedResultsControl size cookie critical).value = some (size, cookie) :=
        decode_encode_paged size short
      rw [List.nil_append, pagingOf, if_pos (by rfl), decoded]
      exact paging_of_unpaged unpaged size (-1) cookie []
  | cons control rest ih =>
      have kind : ¬iequals control.oid kPagedResultsOid = true := by
        simp [unpaged control List.mem_cons_self]
      rw [List.cons_append, List.cons_append, pagingOf, pagingOf, if_neg kind, if_neg kind]
      split
      · rfl
      · exact ih fun later member => unpaged later (List.mem_cons_of_mem control member)

end Controls

section Client

/-- What a client is free to choose for each page. -/
structure PageChoice where
  context : RequestContext := {}
  messageId : Int32
  size : Int32
  critical : Bool := false
  position : Nat := 0
  positive : 0 < size.toInt

/-- The plain request with the control put between its other controls. -/
def PageChoice.request (choice : PageChoice) (plain : LdapMessage) (cookie : Bytes) :
    LdapMessage :=
  { plain with
    messageId := choice.messageId
    controls := plain.controls.take choice.position ++
      makePagedResultsControl choice.size cookie choice.critical ::
        plain.controls.drop choice.position }

def entriesSent (messages : List LdapMessage) : List SearchEntryData :=
  (messages.filter (·.op = .searchResultEntry)).map (·.entry)

/-- The loop of `ldapsearch` over the controls of a `SearchResultDone`. -/
def cookieOf (controls : List LdapControl) : Bytes :=
  controls.foldl (fun cookie control =>
    if control.oid = kPagedResultsOid then
      match decodePagedResultsValue control.value with
      | some (_, next) => next
      | none => cookie
    else cookie) []

def cookieSent (messages : List LdapMessage) : Bytes :=
  match messages.find? (·.op = .searchResultDone) with
  | none => []
  | some done => cookieOf done.controls

theorem entries_sent_page (server : Server) (session : SessionState) (request : LdapMessage)
    (entries : List DirectoryEntry) {done : LdapMessage} (last : done.op = .searchResultDone) :
    entriesSent (entries.map (renderMessage server session request) ++ [done]) =
      entries.map (toSearchEntry server session request.search) := by
  have every : (entries.map (renderMessage server session request)).filter
      (·.op = .searchResultEntry) = entries.map (renderMessage server session request) := by
    rw [List.filter_eq_self]
    intro message member
    obtain ⟨entry, _, rfl⟩ := List.mem_map.mp member
    rfl
  rw [entriesSent, List.filter_append, every, List.filter_singleton, last]
  simp [renderMessage, makeSearchEntry]

theorem cookie_sent_page (server : Server) (session : SessionState) (request : LdapMessage)
    (entries : List DirectoryEntry) {done : LdapMessage} (last : done.op = .searchResultDone) :
    cookieSent (entries.map (renderMessage server session request) ++ [done]) =
      cookieOf done.controls := by
  have skipped : (entries.map (renderMessage server session request)).find?
      (·.op = .searchResultDone) = none := by
    rw [List.find?_eq_none]
    intro message member
    obtain ⟨entry, _, rfl⟩ := List.mem_map.mp member
    simp [renderMessage, makeSearchEntry]
  rw [cookieSent, List.find?_append, skipped, Option.none_or, List.find?_singleton, last]
  rfl

theorem cookie_of_control (size : Int32) {cookie : Bytes} (short : cookie.length < 2 ^ 31) :
    cookieOf [makePagedResultsControl size cookie false] = cookie := by
  have decoded : decodePagedResultsValue
      (makePagedResultsControl size cookie false).value = some (size, cookie) :=
    decode_encode_paged size short
  rw [cookieOf, List.foldl_cons, if_pos (by rfl), decoded]
  rfl

variable {Store : Type} (backend : (call : BackendCall) → Store → call.Answer × Store)
  (store : Store) (server : Server) (session : SessionState)

/-- What one search sends; `none` where the source reads out of bounds. -/
def searchAnswer (context : RequestContext) (request : LdapMessage) :
    Option (List LdapMessage) :=
  ((handleSearch server context session request).run backend store).1

variable (plain : LdapMessage) (choices : Nat → PageChoice)

/-- The cookie that the request for a page carries. -/
def cookieAt : Nat → Bytes
  | 0 => []
  | page + 1 =>
      cookieSent ((searchAnswer backend store server session (choices page).context
        ((choices page).request plain (cookieAt page))).getD [])

def answerAt (page : Nat) : Option (List LdapMessage) :=
  searchAnswer backend store server session (choices page).context
    ((choices page).request plain (cookieAt backend store server session plain choices page))

theorem search_answer_eq (context : RequestContext) (request : LdapMessage) :
    searchAnswer backend store server session context request =
      if !request.search.filter.valid then
        some [makeSearchDone request.messageId .protocolError (text "invalid search filter")]
      else
        match pagingOf (-1) [] request.controls with
        | .error (code, diagnostic) => some [makeSearchDone request.messageId code diagnostic]
        | .ok (pageSize, cookie) =>
            sendFound server context session request pageSize cookie
              ((searchVisible server session request.search).run backend store).1 := by
  rw [searchAnswer, handle_search_eq]
  split
  · rfl
  cases pagingOf (-1) [] request.controls with
  | error refusal => rfl
  | ok paging => rw [Program.run_bind, Program.run_pure]

def pageSizes (page : Nat) : Nat := (choices page).size.toInt.toNat

theorem page_sizes_positive (page : Nat) : 0 < pageSizes choices page := by
  have positive := (choices page).positive
  rw [pageSizes]
  omega

/-- What a search comes to whatever page of it is asked for. -/
def searchOutcome : Except (ResultCode × Bytes) (List DirectoryEntry) :=
  if !plain.search.filter.valid then .error (.protocolError, text "invalid search filter")
  else
    match pagingOf (-1) [] plain.controls with
    | .error refusal => .error refusal
    | .ok _ => ((searchVisible server session plain.search).run backend store).1

variable {plain} (unpaged : Unpaged plain.controls)

include unpaged

theorem plain_answer (context : RequestContext) :
    searchAnswer backend store server session context plain =
      sendFound server context session plain (-1) []
        (searchOutcome backend store server session plain) := by
  have plainPaging := paging_of_unpaged unpaged (-1) (-1) [] []
  rw [search_answer_eq, searchOutcome]
  split
  · rfl
  cases paging : pagingOf (-1) [] plain.controls with
  | error refusal => rfl
  | ok found =>
      rw [paging] at plainPaging
      rw [Except.ok.inj plainPaging]

theorem paged_answer (choice : PageChoice) {cookie : Bytes} (short : cookie.length < 2 ^ 31) :
    searchAnswer backend store server session choice.context (choice.request plain cookie) =
      sendFound server choice.context session (choice.request plain cookie) choice.size cookie
        (searchOutcome backend store server session plain) := by
  have whole := List.take_append_drop choice.position plain.controls
  have paged := paging_of_paged (plain.controls.take choice.position)
    (plain.controls.drop choice.position) (by rwa [whole]) choice.size short choice.critical
  rw [whole] at paged
  rw [search_answer_eq, searchOutcome, PageChoice.request]
  split
  · rfl
  rw [paged]
  cases pagingOf (-1) [] plain.controls with
  | error refusal => rfl
  | ok found => rfl

variable (noSizeLimit : plain.search.sizeLimit = 0) (noTimeLimit : plain.search.timeLimit = 0)

include noSizeLimit noTimeLimit

/-- One page: the request whose cookie stands for an offset gets the entries from there
on, and the cookie for the offset behind them. -/
theorem answer_at_offset {visible : List DirectoryEntry}
    (outcome : searchOutcome backend store server session plain = .ok visible) {page : Nat}
    (short : (cookieAt backend store server session plain choices page).length < 2 ^ 31)
    (offset : offsetOf (cookieAt backend store server session plain choices page) =
      some (Paging.start (pageSizes choices) (sendable visible).length page : Int)) :
    ∃ messages, answerAt backend store server session plain choices page = some messages ∧
      entriesSent messages = (Paging.page (pageSizes choices) (sendable visible) page).map
        (toSearchEntry server session plain.search) ∧
      cookieSent messages = cookieFor (sendable visible).length
        (Paging.start (pageSizes choices) (sendable visible).length (page + 1)) := by
  have small := sendable_length_lt visible
  obtain ⟨remaining, sent⟩ := send_page_paged server (choices page).context session
    ((choices page).request plain (cookieAt backend store server session plain choices page))
    noSizeLimit noTimeLimit visible (choices page).positive offset
    (Paging.start_le (pageSizes choices) (sendable visible).length page)
  have answered := paged_answer backend store server session unpaged (choices page) short
  rw [outcome] at answered
  refine ⟨_, answered.trans sent, entries_sent_page _ _ _ _ rfl, ?_⟩
  rw [cookie_sent_page _ _ _ _ rfl, cookie_of_control _ (cookie_length small _)]
  exact congrArg _ (Paging.start_add_length (pageSizes choices) (sendable visible) page)

/-- Up to the last page every cookie stands for the offset of its page. -/
theorem cookie_at_offset {visible : List DirectoryEntry}
    (outcome : searchOutcome backend store server session plain = .ok visible) {last : Nat}
    (more : ∀ page < last, Paging.start (pageSizes choices) (sendable visible).length (page + 1) <
      (sendable visible).length) (page : Nat) (early : page ≤ last) :
    (cookieAt backend store server session plain choices page).length < 2 ^ 31 ∧
      offsetOf (cookieAt backend store server session plain choices page) =
        some (Paging.start (pageSizes choices) (sendable visible).length page : Int) := by
  have small := sendable_length_lt visible
  induction page with
  | zero => exact ⟨Nat.two_pow_pos 31, rfl⟩
  | succ page ih =>
      obtain ⟨short, offset⟩ := ih (by omega)
      obtain ⟨messages, answered, _, cookie⟩ := answer_at_offset backend store server session
        choices unpaged noSizeLimit noTimeLimit outcome short offset
      rw [answerAt] at answered
      rw [cookieAt, answered, Option.getD_some, cookie]
      exact ⟨cookie_length small _, offset_of_cookie small (more page (by omega))⟩

theorem page_served {visible : List DirectoryEntry}
    (outcome : searchOutcome backend store server session plain = .ok visible) {last : Nat}
    (more : ∀ page < last, Paging.start (pageSizes choices) (sendable visible).length (page + 1) <
      (sendable visible).length) {page : Nat} (early : page ≤ last) :
    ∃ messages, answerAt backend store server session plain choices page = some messages ∧
      entriesSent messages = (Paging.page (pageSizes choices) (sendable visible) page).map
        (toSearchEntry server session plain.search) ∧
      cookieAt backend store server session plain choices (page + 1) =
        cookieFor (sendable visible).length
          (Paging.start (pageSizes choices) (sendable visible).length (page + 1)) := by
  obtain ⟨short, offset⟩ := cookie_at_offset backend store server session choices unpaged
    noSizeLimit noTimeLimit outcome more page early
  obtain ⟨messages, answered, entries, cookie⟩ := answer_at_offset backend store server
    session choices unpaged noSizeLimit noTimeLimit outcome short offset
  refine ⟨messages, answered, entries, ?_⟩
  rw [answerAt] at answered
  rw [cookieAt, answered, Option.getD_some, cookie]

/-- Whatever positive page sizes the client asks for, the pages end, only the last
answer comes without a cookie, and together they carry what one search sends. -/
theorem pages_enumerate_search (context : RequestContext) :
    ∃ (last : Nat) (whole : List LdapMessage),
      searchAnswer backend store server session context plain = some whole ∧
        (∀ page ≤ last, (answerAt backend store server session plain choices page).isSome) ∧
        (∀ page < last, cookieAt backend store server session plain choices (page + 1) ≠ []) ∧
        cookieAt backend store server session plain choices (last + 1) = [] ∧
        (List.range (last + 1)).flatMap (fun page => entriesSent
          ((answerAt backend store server session plain choices page).getD [])) =
            entriesSent whole := by
  have plainly := plain_answer backend store server session unpaged context
  cases outcome : searchOutcome backend store server session plain with
  | error refusal =>
      have refused := paged_answer backend store server session unpaged (choices 0)
        (show ([] : Bytes).length < 2 ^ 31 from Nat.two_pow_pos 31)
      rw [outcome] at plainly refused
      refine ⟨0, _, plainly, ?_, fun page early => absurd early (Nat.not_lt_zero page), ?_, ?_⟩
      · intro page early
        rw [Nat.le_zero.mp early, answerAt, cookieAt, refused]
        rfl
      · rw [cookieAt, cookieAt, refused]
        rfl
      · rw [List.range_one, List.flatMap_singleton, answerAt, cookieAt, refused]
        rfl
  | ok visible =>
      rw [outcome] at plainly
      have sent := send_page_whole server context session plain noSizeLimit noTimeLimit visible
      obtain ⟨last, more, ends⟩ := Paging.reaches_end (pageSizes choices)
        (sendable visible).length (page_sizes_positive choices)
      have served : ∀ page ≤ last, _ := fun page early =>
        page_served backend store server session choices unpaged noSizeLimit noTimeLimit
          outcome more early
      refine ⟨last, _, plainly.trans sent, ?_, ?_, ?_, ?_⟩
      · intro page early
        obtain ⟨messages, answered, _⟩ := served page early
        rw [answered]
        rfl
      · intro page early
        obtain ⟨_, _, _, cookie⟩ := served page (by omega)
        rw [cookie, cookieFor, if_pos (more page early)]
        exact Text.decimal_ne_nil _
      · obtain ⟨_, _, _, cookie⟩ := served last (Nat.le_refl last)
        rw [cookie, cookieFor, ends, if_neg (Nat.lt_irrefl _)]
      · have pages : (List.range (last + 1)).flatMap (fun page => entriesSent
            ((answerAt backend store server session plain choices page).getD [])) =
            (List.range (last + 1)).flatMap fun page =>
              (Paging.page (pageSizes choices) (sendable visible) page).map
                (toSearchEntry server session plain.search) := by
          apply List.flatMap_congr
          intro page member
          obtain ⟨messages, answered, entries, _⟩ :=
            served page (Nat.lt_succ_iff.mp (List.mem_range.mp member))
          rw [answered, Option.getD_some, entries]
        rw [pages, ← List.map_flatMap, Paging.pages_concat, ends, List.take_length,
          entries_sent_page _ _ _ _ rfl]

end Client

section Example

/-- Everything from `dc=com` on, with a control of another kind. -/
def everything : LdapMessage :=
  { op := .searchRequest
    search :=
      { baseDn := text "dc=com"
        filter := { valid := true, root := { type := .and } } }
    controls := [{ oid := text "1.2.3" }] }

/-- Pages of one entry and of two entries in turn. -/
def oneThenTwo (page : Nat) : PageChoice :=
  { messageId := 3, size := if page % 2 = 0 then 1 else 2, position := page
    positive := by split <;> decide }

theorem pages_enumerate_small_directory :
    ∃ (last : Nat) (whole : List LdapMessage),
      searchAnswer MemoryBackend.exec smallDirectory {} administrator {} everything = some whole ∧
        (∀ page ≤ last,
          (answerAt MemoryBackend.exec smallDirectory {} administrator everything oneThenTwo
            page).isSome) ∧
        (∀ page < last,
          cookieAt MemoryBackend.exec smallDirectory {} administrator everything oneThenTwo
            (page + 1) ≠ []) ∧
        cookieAt MemoryBackend.exec smallDirectory {} administrator everything oneThenTwo
          (last + 1) = [] ∧
        (List.range (last + 1)).flatMap (fun page => entriesSent
          ((answerAt MemoryBackend.exec smallDirectory {} administrator everything oneThenTwo
            page).getD [])) = entriesSent whole :=
  pages_enumerate_search MemoryBackend.exec smallDirectory {} administrator oneThenTwo
    (by unfold Unpaged; decide +kernel) rfl rfl {}

example : [1, 2, 3].map (cookieAt MemoryBackend.exec smallDirectory {} administrator everything
    oneThenTwo) = [text "1", text "3", []] := by
  decide +kernel

end Example

end SimpleLdapd.Session
