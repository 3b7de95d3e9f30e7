import SimpleLdapd.Core.Responses

/-!
# Critical controls

Controls are decoded with every request, but only `handleSearch` goes through them.
It refuses at the first control it cannot use, with the code for critical extensions
if that control is critical; the filter is checked before. Every other handler does
its work as if there were no controls.
-/

namespace SimpleLdapd.Session

open Dn Message

/-- The operations that may change or read the directory and can carry controls. -/
def ControlledOps : List ProtocolOp :=
  [.searchRequest, .modifyRequest, .addRequest, .delRequest, .modifyDnRequest, .compareRequest,
    .extendedRequest]

/-- The only control that the server knows, for a search. -/
def supports (op : ProtocolOp) (control : LdapControl) : Bool :=
  op = .searchRequest && iequals control.oid kPagedResultsOid

/-- The request has a critical control that the server does not know for it. -/
def CarriesUnsupported (request : LdapMessage) : Prop :=
  ∃ control ∈ request.controls, control.critical = true ∧ supports request.op control = false

/-- The control loop of `handleSearch` stops at the control. -/
def refuses (control : LdapControl) : Bool :=
  if iequals control.oid kPagedResultsOid then (decodePagedResultsValue control.value).isNone
  else control.critical

/-- The first control that the loop stops at is a critical one. -/
def FirstRefusedCritical (controls : List LdapControl) : Prop :=
  ∃ control, controls.find? refuses = some control ∧ control.critical = true

section Loop

/-- The code that the control loop refuses with, and the diagnostic. -/
def controlRefusal (control : LdapControl) : ResultCode × Bytes :=
  if iequals control.oid kPagedResultsOid then
    (if control.critical then .unavailableCriticalExtension else .protocolError,
      text "invalid paged results control")
  else (.unavailableCriticalExtension, text "unsupported critical control")

theorem paging_of_refused {controls : List LdapControl} {control : LdapControl}
    (found : controls.find? refuses = some control) (pageSize : Int32) (cookie : Bytes) :
    pagingOf pageSize cookie controls = .error (controlRefusal control) := by
  induction controls generalizing pageSize cookie with
  | nil => cases found
  | cons head rest ih =>
      unfold pagingOf
      by_cases refused : refuses head = true
      · rw [List.find?_cons_of_pos refused, Option.some.injEq] at found
        rw [← found]
        unfold refuses at refused
        unfold controlRefusal
        split at refused
        · rename_i paged
          rw [if_pos paged, if_pos paged, Option.isNone_iff_eq_none.mp refused]
        · rename_i other
          rw [if_neg other, if_neg other, if_pos refused]
      · rw [List.find?_cons_of_neg refused] at found
        unfold refuses at refused
        split at refused
        · rename_i paged
          rw [if_pos paged]
          cases decoded : decodePagedResultsValue head.value with
          | none =>
              rw [decoded] at refused
              exact absurd rfl refused
          | some page => exact ih found page.1 page.2
        · rename_i other
          rw [if_neg other, if_neg refused]
          exact ih found pageSize cookie

theorem control_refusal_code {control : LdapControl} (refused : refuses control = true) :
    (controlRefusal control).1 = .unavailableCriticalExtension ↔ control.critical = true := by
  unfold refuses at refused
  unfold controlRefusal
  split at refused
  · rename_i paged
    rw [if_pos paged]
    cases critical : control.critical with
    | false => simp [ResultCode.protocolError, ResultCode.unavailableCriticalExtension]
    | true => simp
  · rename_i other
    rw [if_neg other]
    simp [refused]

theorem carried_is_refused {request : LdapMessage} (isSearch : request.op = .searchRequest)
    (carries : CarriesUnsupported request) :
    ∃ control, request.controls.find? refuses = some control := by
  obtain ⟨control, member, critical, unsupported⟩ := carries
  have other : iequals control.oid kPagedResultsOid = false := by
    simpa [supports, isSearch] using unsupported
  have refused : refuses control = true := by
    simp [refuses, other, critical]
  cases found : request.controls.find? refuses with
  | some first => exact ⟨first, rfl⟩
  | none => exact absurd refused (by simpa using List.find?_eq_none.mp found control member)

end Loop

section Handling

variable {Store : Type} (backend : (call : BackendCall) → Store → call.Answer × Store)
  (store : Store) (server : Server) (context : RequestContext) (session : SessionState)

/-- The whole answer is the refusal for critical extensions, and the store is left alone. -/
def Honoured (request : LdapMessage) : Prop :=
  (∃ answer, ((handleRequest server context session request).run backend store).1 = some answer ∧
      answer.messages.map (·.result) = [.unavailableCriticalExtension]) ∧
    ((handleRequest server context session request).run backend store).2 = store

theorem handle_search_refused {request : LdapMessage} {control : LdapControl}
    (isSearch : request.op = .searchRequest)
    (found : request.controls.find? refuses = some control) :
    handleRequest server context session request =
      pure (reply session
        (if request.search.filter.valid then
          makeSearchDone request.messageId (controlRefusal control).1 (controlRefusal control).2
        else makeSearchDone request.messageId .protocolError (text "invalid search filter"))) := by
  unfold handleRequest
  rw [isSearch]
  simp only
  rw [handle_search_eq, paging_of_refused found]
  cases request.search.filter.valid with
  | false => rfl
  | true => rfl

theorem search_honoured_iff {request : LdapMessage} (isSearch : request.op = .searchRequest)
    (carries : CarriesUnsupported request) :
    Honoured backend store server context session request ↔
      request.search.filter.valid = true ∧ FirstRefusedCritical request.controls := by
  obtain ⟨control, found⟩ := carried_is_refused isSearch carries
  have refused := control_refusal_code (List.find?_some found)
  have first : FirstRefusedCritical request.controls ↔ control.critical = true := by
    unfold FirstRefusedCritical
    rw [found]
    simp only [Option.some.injEq, exists_eq_left']
  unfold Honoured
  rw [handle_search_refused server context session isSearch found, first, ← refused]
  cases request.search.filter.valid with
  | false => simp [reply, makeSearchDone, ResultCode.protocolError,
      ResultCode.unavailableCriticalExtension]
  | true => simp [reply, makeSearchDone]

/-- A handler that does not look at the controls does not refuse for one. -/
theorem other_not_honoured {request : LdapMessage} (controlled : request.op ∈ ControlledOps)
    (notSearch : request.op ≠ .searchRequest) :
    ¬ Honoured backend store server context session request := by
  have notUnbind : request.op ≠ .unbindRequest := by
    intro isUnbind
    rw [isUnbind] at controlled
    exact absurd controlled (by decide)
  have notBind : request.op ≠ .bindRequest := by
    intro isBind
    rw [isBind] at controlled
    exact absurd controlled (by decide)
  have replies := (handle_request_replies server context session notUnbind notSearch notBind).run
    backend store
  rintro ⟨⟨answer, answered, results⟩, _⟩
  have refused : ResultCode.unavailableCriticalExtension ∈ answer.messages.map (·.result) := by
    rw [results]
    exact List.mem_singleton.mpr rfl
  rcases List.mem_map.mp refused with ⟨message, member, same⟩
  exact replies.2 answer answered message member same

/-- A request with a critical control that the server does not know for it is refused as
such exactly if it is a search with a valid filter and no malformed paging control that
is not critical comes first. -/
theorem critical_control_honoured_iff {request : LdapMessage}
    (controlled : request.op ∈ ControlledOps) (carries : CarriesUnsupported request) :
    Honoured backend store server context session request ↔
      request.op = .searchRequest ∧ request.search.filter.valid = true ∧
        FirstRefusedCritical request.controls := by
  by_cases isSearch : request.op = .searchRequest
  · rw [search_honoured_iff backend store server context session isSearch carries]
    simp only [isSearch, true_and]
  · constructor
    · intro honoured
      exact absurd honoured
        (other_not_honoured backend store server context session controlled isSearch)
    · intro search
      exact absurd search.1 isSearch

end Handling

section Example

/-- The control to manage referral objects as entries, marked critical. -/
def manageReferrals : LdapControl := { oid := text "2.16.840.1.113730.3.4.2", critical := true }

/-- A search with a page size and the unknown control behind it. -/
def controlledSearch : LdapMessage :=
  { messageId := 3, op := .searchRequest
    search := { baseDn := text "dc=com" }
    controls := [makePagedResultsControl 1 [] false, manageReferrals] }

theorem controlled_search_refused :
    Honoured MemoryBackend.exec smallDirectory {} {} administrator controlledSearch := by
  apply (critical_control_honoured_iff MemoryBackend.exec smallDirectory {} {} administrator
    (by decide) ⟨manageReferrals, by simp [controlledSearch], rfl, by decide +kernel⟩).mpr
  exact ⟨rfl, by decide +kernel, manageReferrals, by decide +kernel, rfl⟩

/-- A deletion with the unknown control. -/
def controlledDelete : LdapMessage :=
  { messageId := 4, op := .delRequest, deleteDn := text "cn=a,ou=people,dc=example,dc=com"
    controls := [manageReferrals] }

theorem controlled_delete_done :
    controlledDelete.op ∈ ControlledOps ∧ CarriesUnsupported controlledDelete ∧
      ¬ Honoured MemoryBackend.exec smallDirectory {} {} administrator controlledDelete := by
  refine ⟨by decide, ⟨manageReferrals, by simp [controlledDelete], rfl, by decide +kernel⟩, ?_⟩
  rintro ⟨_, unchanged⟩
  have changed : ((handleRequest {} {} administrator controlledDelete).run MemoryBackend.exec
      smallDirectory).2 ≠ smallDirectory := by
    decide +kernel
  exact changed unchanged

end Example

end SimpleLdapd.Session
