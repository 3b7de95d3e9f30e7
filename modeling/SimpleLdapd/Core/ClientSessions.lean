import SimpleLdapd.Cli.Client
import SimpleLdapd.Core.Responses
import SimpleLdapd.Protocol.Receiving

/-!
# Clients and sessions over the wire

Clients of the library on connections of their own, each served by a session, all sessions
on one backend. The messages cross the connections in pieces, everybody moves at their own
pace, and a server may close its connection while it waits for a request: after
`idle_timeout`, above `max_sessions`, when the daemon stops. Still the clients get what they
would get by running the handlers themselves, call by call, up to where their servers gave
them up, and the directory goes through the same states.
-/

namespace SimpleLdapd.Session

open Dn Message Framing

/-- The default of `recvPdu`, by which the client reads. -/
def clientPduSize : Nat := 1024 * 1024

/-- A session and what its requests will read from outside the directory. -/
abbrev ServedSession := (Nat → RequestContext) × SessionState

def toResponse (contexts : Nat → RequestContext) (answer : Reply) :
    Response LdapMessage ServedSession where
  messages := answer.messages
  session := (contexts, answer.session)
  continues := answer.continues

/-- The loop of `serve` as the server of a connection. -/
def ldapService (server : Server) (maxPduSize : Nat) :
    Service BackendCall BackendCall.Answer LdapMessage LdapMessage ServedSession Byte where
  requests := ldapWire maxPduSize
  answers := ldapWire clientPduSize
  heard := ownFields
  told message := some (ownFields message)
  handle turn session request := do
    let outcome ← handleRequest server (session.1 turn) session.2 request
    pure (outcome.map (toResponse session.1))

/-- The requests of the library's calls that the server reads. A search has many answers,
an Unbind none, and behind StartTLS the connection carries other bytes. -/
structure Sendable (maxPduSize : Nat) (request : LdapMessage) : Prop where
  encodable : Encodable request
  fits : (contentOf request).length ≤ maxPduSize
  notSearch : request.op ≠ .searchRequest
  notUnbind : request.op ≠ .unbindRequest
  notStartTls : request.extendedOid ≠ kStartTlsOid

def IsResponse (message : LdapMessage) : Prop :=
  message.op ≠ .unknown ∧ message.op ≠ .searchRequest ∧ message.op ≠ .modifyRequest

def FitsClient (message : LdapMessage) : Prop := (contentOf message).length ≤ clientPduSize

instance : DecidablePred FitsClient := fun _ => Nat.decLe _ _

variable {server : Server} {maxPduSize : Nat}

theorem content_shorter (message : LdapMessage) :
    (contentOf message).length ≤ (encodeLdapMessage message).length := by
  change (contentOf message).length ≤ (Ber.writeTagLength _ _ ++ contentOf message).length
  simp

theorem response_op_is_response {request message : LdapMessage}
    (answers : Answers request (responseOp request.op) message) : IsResponse message := by
  unfold IsResponse
  rw [answers.1]
  cases request.op <;> decide

theorem sendable_callable (positive : 0 < maxPduSize) {request : LdapMessage}
    (sendable : Sendable maxPduSize request) :
    (ldapService server maxPduSize).Callable IsResponse request := by
  constructor
  · have carried := ldap_wire_carries positive sendable.fits
      (Nat.lt_of_le_of_lt (content_shorter request) sendable.encodable.bound)
    rw [decode_of_completes (completes_body sendable.encodable) sendable.encodable.bound] at carried
    exact carried
  · intro turn session
    have sameOp : (ownFields request).op = request.op := by
      rcases request with ⟨messageId, op⟩
      cases op <;> rfl
    have notUnbind : (ownFields request).op ≠ .unbindRequest := by
      rw [sameOp]
      exact sendable.notUnbind
    have notSearch : (ownFields request).op ≠ .searchRequest := by
      rw [sameOp]
      exact sendable.notSearch
    apply Program.yields_bind
      (handle_request_answers server (session.1 turn) session.2 notUnbind notSearch)
    intro outcome answered
    obtain ⟨answer, same, ⟨entries, done, messages, _, alone, ends⟩, _⟩ := answered
    intro response given
    rw [same] at given
    cases given
    refine ⟨done, ?_, response_op_is_response ends⟩
    change answer.messages = [done]
    rw [messages, alone notSearch, List.nil_append]

theorem answers_carried :
    (ldapService server maxPduSize).AnswersCarried IsResponse FitsClient := by
  intro answer isResponse fits
  obtain ⟨known, notSearch, notModify⟩ := isResponse
  have bound : (contentOf answer).length < 2 ^ 32 := Nat.lt_of_le_of_lt fits (by decide)
  have received := recv_pdu_written (by decide) Ber.kBerSequence
    fits bound []
  have short := (recv_pdu_some received).1
  have encodable : Encodable answer :=
    ⟨known, fun op => absurd op notSearch, fun op => absurd op notSearch,
      fun op => absurd op notModify, Nat.lt_of_le_of_lt short (by decide)⟩
  have carried := ldap_wire_carries (by decide) fits bound
  rw [decode_of_completes (completes_body encodable) encodable.bound] at carried
  exact carried

section Networks

variable {Connection Value Store : Type}

theorem clients_callable (positive : 0 < maxPduSize)
    {clients : Connection → Calls LdapMessage LdapMessage Value}
    (sendable : ∀ connection, (clients connection).Issues (Sendable maxPduSize))
    (connection : Connection) :
    (clients connection).Issues ((ldapService server maxPduSize).Callable IsResponse) :=
  (sendable connection).mono fun _ => sendable_callable positive

variable [DecidableEq Connection]

/-- However the bytes travel and the sessions take turns, the backend is in a state that
the clients reach by performing their handlers themselves in some interleaving, each one up
to the call at which its server gave it up, and every client that has ended has ended as it
does there. -/
theorem clients_call_directly (backend : (call : BackendCall) → Store → call.Answer × Store)
    (positive : 0 < maxPduSize) {sessions : Connection → ServedSession}
    {clients : Connection → Calls LdapMessage LdapMessage Value}
    (sendable : ∀ connection, (clients connection).Issues (Sendable maxPduSize)) (store : Store)
    {schedule : List (Connection × Move)}
    (fit : Along ((ldapService server maxPduSize).step backend)
      (fun reached event => Service.AnswersFit FitsClient (reached.peers event.1) event.2)
      (Service.start sessions clients store) schedule) :
    let reached := schedule.foldl ((ldapService server maxPduSize).step backend)
      (Service.start sessions clients store)
    ∃ limits : Connection → Option Nat,
      (∀ connection, (connection, .closes) ∉ schedule → limits connection = none) ∧
        ∃ calls : List Connection,
          let direct := Program.interleave backend
            ((ldapService server maxPduSize).localPool sessions
              (fun connection => cutOff (limits connection) (clients connection)) store) calls
          reached.state = direct.state ∧ ∀ connection value,
            (reached.peers connection).client.ended = some value →
              (direct.threads connection).ended = some value := by
  intro reached
  obtain ⟨after, standing, leads⟩ := Service.run_leads answers_carried
    (Service.start_standing (clients_callable positive sendable) store) fit
  obtain ⟨limits, going, calls, same⟩ := leads fun _ => none
  refine ⟨limits, fun connection open_still => going connection open_still rfl, calls, ?_⟩
  intro direct
  have led : direct = Service.poolOf after (fun _ => none) reached.state := same
  rw [led]
  refine ⟨rfl, ?_⟩
  intro connection value ended
  exact (standing connection).ended ended none

/-- No client waits for ever: from wherever the network has come to, moves of a connection
alone bring its client to an end without its server having to give it up, unless they bring
the server to send an answer that the client does not take for its size. -/
theorem clients_can_end (backend : (call : BackendCall) → Store → call.Answer × Store)
    (positive : 0 < maxPduSize) {sessions : Connection → ServedSession}
    {clients : Connection → Calls LdapMessage LdapMessage Value}
    (sendable : ∀ connection, (clients connection).Issues (Sendable maxPduSize)) (store : Store)
    {schedule : List (Connection × Move)}
    (fit : Along ((ldapService server maxPduSize).step backend)
      (fun reached event => Service.AnswersFit FitsClient (reached.peers event.1) event.2)
      (Service.start sessions clients store) schedule) (connection : Connection) :
    ∃ moves : List Move, .closes ∉ moves ∧
      let reached := ((schedule ++ moves.map fun move => (connection, move)).foldl
        ((ldapService server maxPduSize).step backend)
        (Service.start sessions clients store)).peers connection
      (∃ value, reached.client.ended = some value) ∨
        ¬ Service.AnswersFit FitsClient reached .answers := by
  obtain ⟨after, standing, _⟩ := Service.run_leads answers_carried
    (Service.start_standing (clients_callable positive sendable) store) fit
  have ends : (ldapService server maxPduSize).Ends backend FitsClient _
      (schedule.foldl ((ldapService server maxPduSize).step backend)
        (Service.start sessions clients store)).state :=
    (standing connection).ends answers_carried
  obtain ⟨moves, going, ended⟩ := ends
  refine ⟨moves, going, ?_⟩
  rw [List.foldl_append, Service.moves_peer]
  exact ended

end Networks

section Examples

/-- Two clients that delete an entry each. -/
def twoDeletions (first : Bool) : Calls LdapMessage LdapMessage (ResultCode × Int32) :=
  (LdapClient.del (if first then text "cn=a" else text "cn=b")).run 1

def oneEntry : MemoryStore := (MemoryBackend.exec (.add { dn := text "cn=a" }) OrderedMap.empty).2

/-- The first request arrives in two pieces, the second answer too; the first session is
closed before its answer is there. -/
def deletionMoves : List (Bool × Move) :=
  [(true, .asks), (false, .asks), (true, .towardsServer 5), (false, .towardsServer 100),
    (true, .reads), (true, .towardsServer 100), (true, .reads), (false, .reads),
    (true, .performs), (false, .performs), (true, .performs), (true, .performs),
    (true, .performs), (true, .answers), (false, .answers), (true, .closes),
    (true, .towardsClient 100), (true, .hears), (false, .towardsClient 3), (false, .hears),
    (false, .towardsClient 100), (false, .hears)]

theorem deletion_sendable (connection : Bool) :
    (twoDeletions connection).Issues (Sendable 4096) := by
  have sendable (dn : Bytes) (short : (contentOf (makeDelRequest 1 dn)).length ≤ 4096)
      (bound : (encodeLdapMessage (makeDelRequest 1 dn)).length < 2 ^ 32) :
      Sendable 4096 (makeDelRequest 1 dn) :=
    ⟨⟨nofun, nofun, nofun, nofun, bound⟩, short, nofun, nofun, nofun⟩
  cases connection with
  | true => exact ⟨sendable _ (by decide +kernel) (by decide +kernel), fun _ => trivial⟩
  | false => exact ⟨sendable _ (by decide +kernel) (by decide +kernel), fun _ => trivial⟩

theorem deletions_call_directly :
    let reached := deletionMoves.foldl ((ldapService {} 4096).step MemoryBackend.exec)
      (Service.start (fun _ => (fun _ => {}, administrator)) twoDeletions oneEntry)
    (∃ limits : Bool → Option Nat,
      (∀ connection, (connection, .closes) ∉ deletionMoves → limits connection = none) ∧
        ∃ calls : List Bool,
          let direct := Program.interleave MemoryBackend.exec
            ((ldapService {} 4096).localPool (fun _ => (fun _ => {}, administrator))
              (fun connection => cutOff (limits connection) (twoDeletions connection)) oneEntry)
            calls
          reached.state = direct.state ∧ ∀ connection value,
            (reached.peers connection).client.ended = some value →
              (direct.threads connection).ended = some value) ∧
      (reached.peers true).client.ended = some (.success, 2) ∧
      (reached.peers false).client.ended = some (.noSuchObject, 2) :=
  ⟨clients_call_directly MemoryBackend.exec (by decide) deletion_sendable oneEntry
    (by decide +kernel), by decide +kernel, by decide +kernel⟩

theorem deletions_can_end :
    ∃ moves : List Move, .closes ∉ moves ∧
      let reached := ((deletionMoves.take 9 ++ moves.map fun move => (true, move)).foldl
        ((ldapService {} 4096).step MemoryBackend.exec)
        (Service.start (fun _ => (fun _ => {}, administrator)) twoDeletions oneEntry)).peers true
      (∃ value, reached.client.ended = some value) ∨
        ¬ Service.AnswersFit FitsClient reached .answers :=
  clients_can_end MemoryBackend.exec (by decide) deletion_sendable oneEntry (by decide +kernel) true

end Examples

end SimpleLdapd.Session
