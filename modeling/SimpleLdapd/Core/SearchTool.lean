import SimpleLdapd.Core.Responses

/-!
# The search tool (`main/ldapsearch.cpp`) over a session

The tool asks for page after page until a `SearchResultDone` comes without a cookie or with
an error. The session counts its pages in a list that it computes anew each time, and other
sessions may change the directory between two pages and inside of one. The offset in the
cookie grows all the same, by a page each time, and it stays an `int`: the tool ends.
-/

namespace SimpleLdapd

open Dn Message

/-- The options that the search loop reads. -/
structure SearchOptions where
  search : SearchRequestData := {}
  pageSize : Int32 := 0

/-- What the tool has printed in the end, and the result it returns; `none` where it gives
up on a response. -/
structure SearchReport where
  entries : List SearchEntryData
  ending : Option ResultCode

inductive PageEnd where
  | done (result : ResultCode) (cookie : Bytes) (rest : List LdapMessage)
  | failed

namespace SearchTool

open Session

def sendSearch (options : SearchOptions) (messageId : Int32) (cookie : Bytes) : LdapMessage :=
  { messageId := messageId, op := .searchRequest, search := options.search
    controls :=
      if 0 < options.pageSize.toInt then [makePagedResultsControl options.pageSize cookie false]
      else [] }

/-- The inner loop over what has arrived: the entries printed, and how the page ends. -/
def readPage : List LdapMessage → List SearchEntryData × PageEnd
  | [] => ([], .failed)
  | message :: rest =>
      if message.op = .searchResultEntry then
        (message.entry :: (readPage rest).1, (readPage rest).2)
      else if message.op = .searchResultDone then
        ([], .done message.result (cookieOf message.controls) rest)
      else ([], .failed)

/-- The outer loop with the turns it may still take; `none` where they do not suffice.
`answers` are the messages that arrive in answer to the request for a page. -/
def searchLoop (options : SearchOptions) (answers : Nat → LdapMessage → List LdapMessage) :
    Nat → Nat → Int32 → Bytes → List LdapMessage → Option SearchReport
  | 0, _, _, _, _ => none
  | turns + 1, page, messageId, cookie, pending =>
      let arrived := readPage (pending ++ answers page (sendSearch options messageId cookie))
      match arrived.2 with
      | .failed => some { entries := arrived.1, ending := none }
      | .done result next rest =>
          if next ≠ [] ∧ result = .success then
            (searchLoop options answers turns (page + 1) (messageId + 1) next rest).map
              fun report => { report with entries := arrived.1 ++ report.entries }
          else some { entries := arrived.1, ending := some result }

section Cookies

/-- The cookie stands for an offset that fits an `int`. -/
structure CookieAt (cookie : Bytes) (offset : Nat) : Prop where
  parsed : offsetOf cookie = some (offset : Int)
  short : cookie.length < 2 ^ 31
  small : offset < 2 ^ 31

theorem cookie_at_start : CookieAt [] 0 := ⟨rfl, by simp, by simp⟩

theorem cookie_at_decimal {offset : Nat} (small : offset < 2 ^ 31) :
    CookieAt (Text.decimal offset) offset := by
  have fits : (offset : Int) ≤ Text.longMax := by
    rw [Text.longMax]
    omega
  have digits := Text.decimal_length_le small
  refine ⟨?_, by omega, small⟩
  rw [offsetOf, if_neg (Text.decimal_ne_nil offset), Text.whole_number_decimal fits]

end Cookies

section Pages

variable {server : Server} {context : RequestContext} {session : SessionState}

/-- A whole answer. If the tool goes on after it, then behind the floor. -/
def PageAnswer (floor : Nat) (messages : List LdapMessage) : Prop :=
  ∃ entries done, messages = entries ++ [done] ∧
    (∀ message ∈ entries, message.op = .searchResultEntry) ∧ done.op = .searchResultDone ∧
    (done.result = .success → cookieOf done.controls ≠ [] →
      ∃ next, CookieAt (cookieOf done.controls) next ∧ floor ≤ next)

theorem refusal_answers (floor : Nat) (messageId : Int32) (code : ResultCode) (diagnostic : Bytes) :
    PageAnswer floor [makeSearchDone messageId code diagnostic] :=
  ⟨[], _, (List.nil_append _).symm, List.forall_mem_nil _, rfl, fun _ some => absurd rfl some⟩

/-- A loop that ends well has made all its turns or has filled its page. -/
theorem send_loop_took {Item : Type} {search : SearchRequestData} {pageSize : Int32}
    {visible items : List Item} {turns sent : Nat} {index : Int}
    (ended : sendLoop context search pageSize visible turns index sent = some (items, .success)) :
    items.length = turns ∨ 0 < pageSize.toInt ∧ pageSize.toInt ≤ sent + items.length := by
  induction turns generalizing index sent items with
  | zero =>
      cases ended
      exact Or.inl rfl
  | succ turns ih =>
      unfold sendLoop at ended
      split at ended
      · cases ended
      split at ended
      · cases ended
      split at ended
      · rename_i full
        cases ended
        exact Or.inr ⟨full.1, by simpa using full.2⟩
      split at ended
      · cases ended
      obtain ⟨later, ended, same⟩ := Option.map_eq_some_iff.mp ended
      obtain ⟨taken, result⟩ := Prod.mk.inj same
      rw [← taken, List.length_cons]
      rcases ih (ended.trans (by rw [← result])) with all | ⟨positive, full⟩
      · exact Or.inl (by omega)
      · exact Or.inr ⟨positive, by push_cast at full ⊢; omega⟩

variable {request : LdapMessage} {visible : List DirectoryEntry}

theorem entry_ops (entries : List DirectoryEntry) :
    ∀ message ∈ entries.map (renderMessage server session request),
      message.op = .searchResultEntry := by
  intro message member
  obtain ⟨entry, _, same⟩ := List.mem_map.mp member
  rw [← same]
  rfl

theorem paged_answers {pageSize : Int32} (positive : 0 < pageSize.toInt) {cookie : Bytes}
    {offset : Nat} (stands : CookieAt cookie offset) :
    ∃ messages, sendPage server context session request pageSize cookie visible = some messages ∧
      PageAnswer (offset + pageSize.toInt.toNat) messages := by
  have small := stands.small
  have cast : (Int32.ofInt (offset : Int)).toInt = offset :=
    Int32.toInt_ofInt_of_le (by omega) (by omega)
  have nonzero : pageSize ≠ 0 := by
    intro zero
    rw [zero] at positive
    exact absurd positive (by decide)
  have parsed := stands.parsed
  unfold offsetOf at parsed
  have bound := (Int32.ofNat visible.length).toInt_lt
  cases looped : sendLoop context request.search pageSize visible
      ((Int32.ofNat visible.length).toInt - offset).toNat offset 0 with
  | none =>
      have outside := (send_loop_none_iff context request.search pageSize visible offset).mp looped
      omega
  | some outcome =>
      rcases outcome with ⟨items, result⟩
      unfold sendPage
      simp only [parsed, cast, if_neg nonzero, if_pos positive, looped]
      refine ⟨_, rfl, _, _, rfl, entry_ops items, rfl, ?_⟩
      intro success goesOn
      change result = .success at success
      subst success
      rw [← Int.natCast_add] at goesOn ⊢
      have next : ∀ cookie : Bytes, cookie.length < 2 ^ 31 → ∀ remaining,
          cookieOf [makePagedResultsControl remaining cookie false] = cookie :=
        fun cookie short remaining => cookie_of_control remaining short
      split at goesOn
      · rename_i more
        rw [if_pos more, next _ (cookie_at_decimal (by omega)).short]
        refine ⟨offset + items.length, cookie_at_decimal (by omega), ?_⟩
        rcases send_loop_took looped with all | full
        · omega
        · omega
      · rw [next _ (by simp)] at goesOn
        exact absurd rfl goesOn

theorem whole_answers (floor : Nat) :
    ∃ messages, sendPage server context session request (-1) [] visible = some messages ∧
      PageAnswer floor messages := by
  cases looped : sendLoop context request.search (-1) visible
      ((Int32.ofNat visible.length).toInt - (0 : Nat)).toNat (0 : Nat) 0 with
  | none =>
      have outside := (send_loop_none_iff context request.search (-1) visible (0 : Nat)).mp looped
      omega
  | some outcome =>
      unfold sendPage
      simp only [if_pos, show (Int32.ofInt 0).toInt = ((0 : Nat) : Int) from rfl,
        if_neg (show ¬(-1 : Int32) = 0 by decide),
        if_neg (show ¬0 < (-1 : Int32).toInt by decide), looped]
      exact ⟨_, rfl, _, _, rfl, entry_ops outcome.1, rfl, fun _ some => absurd rfl some⟩

/-- How many entries a page moves the offset on by, at least. -/
def pageStep (options : SearchOptions) : Nat := max 1 options.pageSize.toInt.toNat

theorem tool_paging (options : SearchOptions) {cookie : Bytes} (short : cookie.length < 2 ^ 31)
    (messageId : Int32) :
    pagingOf (-1) [] (sendSearch options messageId cookie).controls =
      .ok (if 0 < options.pageSize.toInt then (options.pageSize, cookie) else (-1, [])) := by
  by_cases paged : 0 < options.pageSize.toInt
  · have control := paging_of_paged [] [] (List.forall_mem_nil _) options.pageSize short false
    simp only [List.nil_append] at control
    simp only [sendSearch, if_pos paged, control]
    rfl
  · simp only [sendSearch, if_neg paged]
    rfl

/-- Whatever the backend answers, a request of the tool is answered in full. -/
theorem tool_request_answered (options : SearchOptions) {cookie : Bytes} {offset : Nat}
    (stands : CookieAt cookie offset) (messageId : Int32) :
    (handleSearch server context session (sendSearch options messageId cookie)).Yields
      fun outcome => ∃ messages, outcome = some messages ∧
        PageAnswer (offset + pageStep options) messages := by
  have paging := tool_paging options stands.short messageId
  rw [handle_search_eq]
  split
  · exact ⟨_, rfl, refusal_answers _ _ _ _⟩
  by_cases paged : 0 < options.pageSize.toInt
  · have step : pageStep options = options.pageSize.toInt.toNat := by
      rw [pageStep]
      omega
    rw [paging, if_pos paged, step]
    apply Program.yields_then
    intro found
    cases found with
    | error refusal => exact ⟨_, rfl, refusal_answers _ _ _ _⟩
    | ok visible => exact paged_answers paged stands
  · rw [paging, if_neg paged]
    apply Program.yields_then
    intro found
    cases found with
    | error refusal => exact ⟨_, rfl, refusal_answers _ _ _ _⟩
    | ok visible => exact whole_answers _

end Pages

section Loop

theorem read_page_answer {floor : Nat} {messages : List LdapMessage}
    (answer : PageAnswer floor messages) :
    ∃ entries result cookie, readPage messages = (entries, .done result cookie []) ∧
      (result = .success → cookie ≠ [] → ∃ next, CookieAt cookie next ∧ floor ≤ next) := by
  obtain ⟨entries, done, rfl, entryOps, doneOp, goesOn⟩ := answer
  refine ⟨entries.map (·.entry), done.result, cookieOf done.controls, ?_, goesOn⟩
  induction entries with
  | nil => simp [readPage, doneOp]
  | cons entry rest ih =>
      rw [List.forall_mem_cons] at entryOps
      rw [List.cons_append, readPage, if_pos entryOps.1, ih entryOps.2]
      rfl

variable {server : Server} {session : SessionState}
variable {answers : Nat → LdapMessage → List LdapMessage}

/-- The answers come from the session. Between two of its backend calls other sessions may
change what the next one finds, so all that is known of an answer is that the handler may
end with it. -/
def ServedBy (server : Server) (session : SessionState)
    (answers : Nat → LdapMessage → List LdapMessage) : Prop :=
  ∀ page request, ∃ context outcome, (handleSearch server context session request).MayEnd outcome ∧
    ∀ messages, outcome = some messages → answers page request = messages

theorem served_page (served : ServedBy server session answers) (options : SearchOptions)
    {cookie : Bytes} {offset : Nat} (stands : CookieAt cookie offset) (page : Nat)
    (messageId : Int32) :
    PageAnswer (offset + pageStep options) (answers page (sendSearch options messageId cookie)) := by
  obtain ⟨context, outcome, ends, given⟩ := served page (sendSearch options messageId cookie)
  obtain ⟨messages, same, answer⟩ :=
    (tool_request_answered options stands messageId).may_end ends
  rw [given messages same]
  exact answer

theorem search_loop_more {options : SearchOptions} {turns page : Nat} {messageId : Int32}
    {cookie : Bytes} {pending : List LdapMessage} {report : SearchReport}
    (ended : searchLoop options answers turns page messageId cookie pending = some report) :
    searchLoop options answers (turns + 1) page messageId cookie pending = some report := by
  induction turns generalizing page messageId cookie pending report with
  | zero => cases ended
  | succ turns ih =>
      unfold searchLoop at ended ⊢
      generalize readPage _ = arrived at ended ⊢
      rcases arrived with ⟨entries, ⟨result, next, rest⟩ | _⟩
      · simp only at ended ⊢
        split at ended
        · rename_i more
          obtain ⟨later, ended, same⟩ := Option.map_eq_some_iff.mp ended
          rw [if_pos more, ih ended, ← same]
          rfl
        · rename_i last
          rw [if_neg last]
          exact ended
      · exact ended

theorem search_loop_mono {options : SearchOptions} {turns more page : Nat} {messageId : Int32}
    {cookie : Bytes} {pending : List LdapMessage} {report : SearchReport} (less : turns ≤ more)
    (ended : searchLoop options answers turns page messageId cookie pending = some report) :
    searchLoop options answers more page messageId cookie pending = some report := by
  induction less with
  | refl => exact ended
  | step _ ih => exact search_loop_more ih

/-- Each turn moves the offset on, so the room left for it bounds the turns. -/
theorem search_loop_ends (served : ServedBy server session answers) (options : SearchOptions)
    (turns page : Nat) (messageId : Int32) {cookie : Bytes} {offset : Nat}
    (stands : CookieAt cookie offset) (room : 2 ^ 31 ≤ offset + turns * pageStep options) :
    ∃ report, searchLoop options answers turns page messageId cookie [] = some report ∧
      report.ending.isSome := by
  induction turns generalizing page messageId cookie offset with
  | zero =>
      have small := stands.small
      omega
  | succ turns ih =>
      have answer := served_page served options stands page messageId
      obtain ⟨entries, result, next, read, goesOn⟩ := read_page_answer answer
      rw [searchLoop, List.nil_append, read]
      by_cases more : next ≠ [] ∧ result = .success
      · obtain ⟨further, stands, beyond⟩ := goesOn more.2 more.1
        have left : 2 ^ 31 ≤ further + turns * pageStep options := by
          rw [Nat.succ_mul] at room
          omega
        obtain ⟨report, ended, complete⟩ := ih (page + 1) (messageId + 1) stands left
        simp only [if_pos more, ended]
        exact ⟨_, rfl, complete⟩
      · simp only [if_neg more]
        exact ⟨_, rfl, rfl⟩

end Loop

/-- The tool ends, with the result of a page that came in full, whatever other sessions do
while it asks for its pages. -/
theorem search_tool_ends {server : Server} {session : SessionState}
    {answers : Nat → LdapMessage → List LdapMessage} (served : ServedBy server session answers)
    (options : SearchOptions) (messageId : Int32) :
    ∃ report, report.ending.isSome ∧ ∀ turns, 2 ^ 31 ≤ turns * pageStep options →
      searchLoop options answers turns 0 messageId [] [] = some report := by
  have ends (turns : Nat) (room : 2 ^ 31 ≤ turns * pageStep options) :=
    search_loop_ends served options turns 0 messageId cookie_at_start (by omega)
  have step : 1 ≤ pageStep options := Nat.le_max_left _ _
  obtain ⟨report, ended, complete⟩ := ends (2 ^ 31) (Nat.le_mul_of_pos_right _ step)
  refine ⟨report, complete, ?_⟩
  intro turns room
  obtain ⟨other, endedToo, _⟩ := ends turns room
  rcases Nat.le_total turns (2 ^ 31) with less | more
  · rw [endedToo, ← search_loop_mono less endedToo, ended]
  · exact search_loop_mono more ended

/-- What the administrator is answered while nobody writes. -/
def quietAnswers (request : LdapMessage) : List LdapMessage :=
  ((handleSearch {} {} administrator request).run MemoryBackend.exec smallDirectory).1.getD []

/-- `ldapsearch -E pr=2` over the small directory. -/
theorem quiet_search_ends : ∃ report, report.ending.isSome ∧
    ∀ turns, 2 ^ 31 ≤ turns * pageStep { search := everything.search, pageSize := 2 } →
      searchLoop { search := everything.search, pageSize := 2 } (fun _ => quietAnswers)
        turns 0 1 [] [] = some report := by
  have served : ServedBy {} administrator fun _ => quietAnswers := by
    intro page request
    refine ⟨{}, _, Program.may_end_run _ MemoryBackend.exec smallDirectory, ?_⟩
    intro messages same
    change quietAnswers request = messages
    rw [quietAnswers, same]
    rfl
  exact search_tool_ends served _ 1

end SearchTool

end SimpleLdapd
