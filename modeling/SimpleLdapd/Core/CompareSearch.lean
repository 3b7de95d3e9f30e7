import SimpleLdapd.Core.PagedSearch

/-!
# Compare and Search

Both handlers come down to one lookup. Compare scans the attribute itself; a
search of base scope goes through the scope test, the filter and the access check
of every match. On a reachable store no DN has two entries and each entry carries
the DN it is stored under, up to case, so the two roads ask the same question.
-/

namespace SimpleLdapd.Session

open Dn Message MemoryBackend

section Compare

variable (server : Server) (session : SessionState) {store : MemoryStore} {request : LdapMessage}

/-- The code of the answer to a request for an attribute other than the password. -/
def compareCode (request : CompareRequestData) : Option DirectoryEntry → ResultCode
  | none => .noSuchObject
  | some entry =>
      match entry.findAttribute request.attributeName with
      | none => .noSuchAttribute
      | some values =>
          if values.any fun value => iequals value request.value then .compareTrue
          else .compareFalse

theorem handle_compare_code (named : request.compare.dn ≠ [])
    (typed : request.compare.attributeName ≠ [])
    (notPassword : isUserPassword request.compare.attributeName = false)
    (allowed : ((maySearch server session request.compare.dn).run exec store).1 = true) :
    ((handleCompare server session request).run exec store).1.result =
      compareCode request.compare (lookup store request.compare.dn) := by
  have kept : ((maySearch server session request.compare.dn).run exec store).2 = store :=
    run_read_only (AccessControl.may_search_read_only server.config session.bindDn _) store
  have present : ¬(request.compare.dn = [] ∨ request.compare.attributeName = []) := by
    simp [named, typed]
  have answered : (Backend.lookup request.compare.dn).run exec store =
      (lookup store request.compare.dn, store) := rfl
  unfold handleCompare
  simp only [if_neg present, Program.run_bind, allowed, kept, Bool.not_true, Bool.false_eq_true,
    if_false, answered]
  cases lookup store request.compare.dn with
  | none => rfl
  | some entry =>
      simp only [compareCode]
      cases entry.findAttribute request.compare.attributeName with
      | none => rfl
      | some values =>
          simp only [notPassword, Bool.false_eq_true, if_false, Program.run_pure]
          rfl

theorem compare_true_iff (wanted : CompareRequestData) (found : Option DirectoryEntry) :
    compareCode wanted found = .compareTrue ↔
      ∃ entry, found = some entry ∧ Filter.HasValue entry wanted.attributeName wanted.value := by
  unfold compareCode Filter.HasValue
  cases found with
  | none => exact iff_of_false (show ResultCode.noSuchObject ≠ .compareTrue by decide) (by simp)
  | some entry =>
      simp only [Option.some.injEq, exists_eq_left']
      cases entry.findAttribute wanted.attributeName with
      | none =>
          exact iff_of_false (show ResultCode.noSuchAttribute ≠ .compareTrue by decide)
            (by simp)
      | some values =>
          simp only [Option.some.injEq, exists_eq_left', ← List.any_eq_true]
          split
          · rename_i holds
            simp [holds]
          · rename_i fails
            exact iff_of_false (show ResultCode.compareFalse ≠ .compareTrue by decide) fails

theorem compare_no_object_iff (wanted : CompareRequestData) (found : Option DirectoryEntry) :
    compareCode wanted found = .noSuchObject ↔ found = none := by
  unfold compareCode
  cases found with
  | none => simp
  | some entry =>
      apply iff_of_false _ (by simp)
      simp only
      split
      · decide
      · split <;> decide

end Compare

section BaseSearch

variable (server : Server) (session : SessionState) {store : MemoryStore}

/-- The request is the plain search of base scope for one attribute value. -/
structure AsksFor (wanted : CompareRequestData) (request : LdapMessage) : Prop where
  base : request.search.baseDn = wanted.dn
  scope : request.search.scope = .base
  valid : request.search.filter.valid = true
  root : request.search.filter.root =
    { type := .equality, attributeName := wanted.attributeName, value := wanted.value }
  noSizeLimit : request.search.sizeLimit = 0
  noTimeLimit : request.search.timeLimit = 0
  noControls : request.controls = []

variable {wanted : CompareRequestData} {request : LdapMessage}

/-- A match of the search is visible because its own DN is the base up to case. -/
theorem visible_found (reachable : Reachable store) (filter : SearchFilter) {dn : Bytes}
    (allowed : ((maySearch server session dn).run exec store).1 = true) :
    ((visibleEntries server session ((lookup store dn).toList.filter filter.matchesEntry)).run
      exec store).1 = (lookup store dn).toList.filter filter.matchesEntry := by
  cases found : lookup store dn with
  | none => rfl
  | some entry =>
      cases kept : filter.matchesEntry entry with
      | false => simp [kept, visibleEntries]
      | true =>
          have sameDn := reachable.invariant.lookup_dn found
          have seen : ((maySearch server session entry.dn).run exec store).1 = true := by
            rw [maySearch, AccessControl.may_search_congr server.config session.bindDn sameDn]
            exact allowed
          simp [kept, visibleEntries, Program.run_bind, seen]

theorem base_search_visible (reachable : Reachable store) (named : wanted.dn ≠ [])
    (asks : AsksFor wanted request)
    (allowed : ((maySearch server session wanted.dn).run exec store).1 = true) :
    ((searchVisible server session request.search).run exec store).1 =
      match lookup store wanted.dn with
      | none => .error (.noSuchObject, text "no such object")
      | some entry => .ok ([entry].filter request.search.filter.matchesEntry) := by
  have kept : ((maySearch server session wanted.dn).run exec store).2 = store :=
    run_read_only (AccessControl.may_search_read_only server.config session.bindDn _) store
  have visible := visible_found server session reachable request.search.filter allowed
  have stored : (emptyOrStored wanted.dn).run exec store =
      ((lookup store wanted.dn).isSome, store) := by
    unfold emptyOrStored
    rw [if_neg named]
    rfl
  have matched : (searchMatches server request.search).run exec store =
      ((lookup store wanted.dn).toList.filter request.search.filter.matchesEntry, store) := by
    unfold searchMatches
    rw [asks.base, asks.scope, if_neg (by simp [named]),
      ← search_base reachable.invariant wanted.dn request.search.filter]
    rfl
  unfold searchVisible maySearchBase
  rw [asks.base, Program.run_bind, stored]
  cases found : lookup store wanted.dn with
  | none => rfl
  | some entry =>
      rw [found] at visible matched
      simp only [Option.isSome_some, Bool.not_true, Bool.false_eq_true, if_false, if_neg named,
        Program.run_bind, allowed, kept, matched, Program.run_pure, visible]
      rfl

/-- The code of the `SearchResultDone` among the messages of an answer. -/
def doneCode (messages : List LdapMessage) : Option ResultCode :=
  (messages.find? (·.op = .searchResultDone)).map (·.result)

theorem done_code_page (request : LdapMessage) (entries : List DirectoryEntry) (code : ResultCode)
    (diagnostic : Bytes) :
    doneCode (entries.map (renderMessage server session request) ++
      [makeSearchDone request.messageId code diagnostic]) = some code := by
  have skipped : (entries.map (renderMessage server session request)).find?
      (·.op = .searchResultDone) = none := by
    rw [List.find?_eq_none]
    intro message member
    obtain ⟨entry, _, rfl⟩ := List.mem_map.mp member
    simp [renderMessage, makeSearchEntry]
  rw [doneCode, List.find?_append, skipped, Option.none_or]
  rfl

/-- What the search sends, read off from the lookup. -/
theorem base_search_answer (context : RequestContext) (reachable : Reachable store)
    (named : wanted.dn ≠ []) (asks : AsksFor wanted request)
    (allowed : ((maySearch server session wanted.dn).run exec store).1 = true) :
    ∃ sent, searchAnswer exec store server session context request = some sent ∧
      (lookup store wanted.dn = none → entriesSent sent = [] ∧
        doneCode sent = some .noSuchObject) ∧
      ∀ entry, lookup store wanted.dn = some entry →
        entriesSent sent = ([entry].filter request.search.filter.matchesEntry).map
            (toSearchEntry server session request.search) ∧
          doneCode sent = some .success := by
  have visible := base_search_visible server session reachable named asks allowed
  have answered : searchAnswer exec store server session context request =
      sendFound server context session request (-1) []
        ((searchVisible server session request.search).run exec store).1 := by
    rw [search_answer_eq, asks.valid, asks.noControls]
    rfl
  rw [answered, visible]
  cases lookup store wanted.dn with
  | none => exact ⟨_, rfl, fun _ => ⟨rfl, rfl⟩, by simp⟩
  | some entry =>
      have sendable : sendable ([entry].filter request.search.filter.matchesEntry) =
          [entry].filter request.search.filter.matchesEntry := by
        cases kept : request.search.filter.matchesEntry entry <;> simp [kept, sendable]
      have page := send_page_whole server context session request asks.noSizeLimit
        asks.noTimeLimit ([entry].filter request.search.filter.matchesEntry)
      rw [sendable] at page
      refine ⟨_, page, by simp, ?_⟩
      intro other same
      rw [← Option.some.inj same]
      exact ⟨entries_sent_page server session request _ rfl,
        done_code_page server session request _ _ _⟩

/-- Compare finds the value exactly when the search for it sends the entry, and misses
the object exactly when the search does. -/
theorem compare_agrees_with_search (server : Server) (session : SessionState)
    (context : RequestContext) {store : MemoryStore} (reachable : Reachable store)
    {compare search : LdapMessage} (named : compare.compare.dn ≠ [])
    (typed : compare.compare.attributeName ≠ [])
    (notPassword : isUserPassword compare.compare.attributeName = false)
    (allowed : ((maySearch server session compare.compare.dn).run exec store).1 = true)
    (asks : AsksFor compare.compare search) :
    ∃ sent, searchAnswer exec store server session context search = some sent ∧
      (((handleCompare server session compare).run exec store).1.result = .compareTrue ↔
        (entriesSent sent).length = 1) ∧
      (((handleCompare server session compare).run exec store).1.result = .noSuchObject ↔
        doneCode sent = some .noSuchObject) := by
  obtain ⟨sent, answered, missing, present⟩ :=
    base_search_answer server session context reachable named asks allowed
  refine ⟨sent, answered, ?_⟩
  rw [handle_compare_code server session named typed notPassword allowed, compare_true_iff,
    compare_no_object_iff]
  cases found : lookup store compare.compare.dn with
  | none =>
      obtain ⟨none, code⟩ := missing found
      simp [none, code]
  | some entry =>
      obtain ⟨entries, code⟩ := present entry found
      have filtered : search.search.filter.matchesEntry entry = true ↔
          Filter.HasValue entry compare.compare.attributeName compare.compare.value := by
        rw [SearchFilter.matchesEntry, asks.valid, asks.root, Bool.true_and,
          Filter.node_matches_equality]
      rw [entries, code]
      constructor
      · simp only [Option.some.injEq, exists_eq_left', ← filtered]
        cases kept : search.search.filter.matchesEntry entry <;> simp [kept]
      · exact iff_of_false (by simp) (show some ResultCode.success ≠ some .noSuchObject by decide)

def respelledCompare : LdapMessage :=
  { op := .compareRequest
    compare :=
      { dn := text "CN=A,OU=People,dc=example,dc=com", attributeName := text "CN"
        value := text "A" } }

def respelledSearch : LdapMessage :=
  { op := .searchRequest
    search :=
      { baseDn := text "CN=A,OU=People,dc=example,dc=com", scope := .base
        filter := Filter.equality (text "CN") (text "A") } }

/-- The DN, the attribute and the value in another spelling than the stored one. -/
theorem respelled_value_compared :
    ∃ sent, searchAnswer exec smallDirectory {} {} {} respelledSearch = some sent ∧
      (((handleCompare {} {} respelledCompare).run exec smallDirectory).1.result = .compareTrue ↔
        (entriesSent sent).length = 1) ∧
      (((handleCompare {} {} respelledCompare).run exec smallDirectory).1.result =
          .noSuchObject ↔ doneCode sent = some .noSuchObject) :=
  compare_agrees_with_search {} {} {} small_directory_reachable (by decide) (by decide)
    (by decide) (by decide +kernel) ⟨rfl, rfl, rfl, rfl, rfl, rfl, rfl⟩

example : ((handleCompare {} {} respelledCompare).run exec smallDirectory).1.result =
    .compareTrue := by
  decide +kernel

end BaseSearch

end SimpleLdapd.Session
