import SimpleLdapd.Core.ConnectionLoop
import SimpleLdapd.Protocol.Receiving

/-!
# The thread of a session (`LdapDaemon::serveConnection`, `Session::serve`)

Between two looks at `running_` a session waits for its client without a limit of time: in
the TLS handshake, in `recvPdu` once the first byte is there, and where an answer has to be
taken. What the client does are moves of their own: bytes arrive in pieces, the network
takes what is sent, the connection is closed. `remainder` is what the loop over a byte
stream still does where the session stands.
-/

namespace SimpleLdapd

open Dn Message Framing

/-- What the constructor of the daemon is given, and the backend it builds. -/
structure DaemonSettings where
  server : Server := {}
  maxPduSize : Nat := 1024 * 1024
  idleTimeout : Nat := 0
  maxSessions : Nat := 0
  enableLdaps : Bool := false

/-- What a session still does at the backend, with the answers it sends in the end. -/
abbrev ServedProgram := BackendProgram (Option (List LdapMessage))

/-- Where the thread stands. From `checking` to `answering` it is in the loop of `serve`. -/
inductive ServePhase where
  | handshaking (succeeds : Bool)
  | checking (state : SessionState)
  | waiting (state : SessionState)
  | receiving (state : SessionState)
  | handling (program : BackendProgram (Option Session.Reply))
  | answering (reply : Session.Reply)
  | returned

/-- What a session has still to do once `running_` is unset, apart from the backend calls of
a request that it handles. -/
def ServePhase.cost : ServePhase → Nat
  | returned => 1
  | checking _ => 2
  | answering _ => 3
  | handling _ => 4
  | receiving _ => 5
  | waiting _ => 6
  | handshaking _ => 7

/-- A session with its end of the connection: `stirred` where a TLS record has arrived in
part, `admitted` where the client has let through what it was sent. -/
structure OpenSession where
  phase : ServePhase
  unread : Bytes := []
  stirred : Bool := false
  admitted : Bool := false
  closed : Bool := false
  answered : List LdapMessage := []

inductive SessionMove where
  | goesOn
  | reads (context : RequestContext)
  | expires
  | arrives (bytes : Bytes)
  | admits
  | closes

namespace SessionMove

/-- The moves of the client and the network. -/
def isClient : SessionMove → Bool
  | goesOn => false
  | reads _ => false
  | expires => false
  | arrives _ => true
  | admits => true
  | closes => true

def contexts : SessionMove → List RequestContext
  | reads context => [context]
  | _ => []

def bytes : SessionMove → Bytes
  | arrives bytes => bytes
  | _ => []

end SessionMove

/-- What `recvPdu` and the decoder come to: `blocked` in `::recv`, the end of the loop, or
a request. -/
inductive Reception where
  | blocked
  | ends
  | request (request : LdapMessage) (rest : Bytes)

namespace OpenSession

variable (settings : DaemonSettings)

/-- `waitReadable(200)`. -/
def readable (session : OpenSession) : Bool :=
  session.closed || session.stirred || !session.unread.isEmpty

def reception (session : OpenSession) : Reception :=
  match receivePdu settings.maxPduSize session.unread with
  | .waits => if session.closed then .ends else .blocked
  | .fails _ => .ends
  | .takes pdu rest =>
      match decodeLdapMessage pdu with
      | none => .ends
      | some request => .request request rest

/-- The answers are sent; for StartTLS the handshake is done as well. -/
def sent (session : OpenSession) (reply : Session.Reply) : OpenSession :=
  { session with
    phase := if reply.continues then .checking reply.session else .returned
    admitted := false
    answered := session.answered ++ reply.messages }

/-- A step of the thread that needs neither the backend nor anything from outside. -/
def goesOn (running : Bool) (session : OpenSession) : Option OpenSession :=
  match session.phase with
  | .handshaking succeeds =>
      if session.admitted then
        some { session with
          phase := if succeeds then .checking {} else .returned
          admitted := false }
      else if session.closed then some { session with phase := .returned }
      else none
  | .checking state => some { session with phase := if running then .waiting state else .returned }
  | .waiting state =>
      some { session with
        phase := if session.readable then .receiving state else .checking state }
  | .receiving _ =>
      match session.reception settings with
      | .ends => some { session with phase := .returned }
      | _ => none
  | .handling (.done none) => some { session with phase := .returned }
  | .handling (.done (some reply)) => some { session with phase := .answering reply }
  | .handling (.call _ _) => none
  | .answering reply =>
      if session.admitted ∨ reply.messages = [] then some (session.sent reply)
      else if session.closed then some { session with phase := .returned }
      else none
  | .returned => none

def move (running : Bool) (session : OpenSession) : SessionMove → Option OpenSession
  | .goesOn => session.goesOn settings running
  | .reads context =>
      match session.phase with
      | .receiving state =>
          match session.reception settings with
          | .request request rest =>
              some { session with
                phase := .handling (Session.handleRequest settings.server context state request)
                unread := rest
                stirred := false }
          | _ => none
      | _ => none
  | .expires =>
      match session.phase with
      | .waiting _ =>
          if 0 < settings.idleTimeout ∧ session.readable = false then
            some { session with phase := .returned }
          else none
      | _ => none
  | .arrives bytes =>
      if session.closed then none
      else some { session with unread := session.unread ++ bytes, stirred := bytes.isEmpty }
  | .admits => some { session with admitted := true }
  | .closes => some { session with closed := true }

/-- The thread waits for its client, and for nothing else. -/
def Blocked (session : OpenSession) : Prop :=
  session.closed = false ∧
    match session.phase with
    | .handshaking _ => session.admitted = false
    | .receiving _ => receivePdu settings.maxPduSize session.unread = .waits
    | .answering reply => session.admitted = false ∧ reply.messages ≠ []
    | _ => False

/-- The thread makes a step of its own, without the backend. -/
def CanGo (running : Bool) (session : OpenSession) : Prop :=
  ∃ move after, move.isClient = false ∧ session.move settings running move = some after

section Waiting

variable {settings} {session after : OpenSession} {running : Bool}

theorem can_go_of_goes_on (goes : session.goesOn settings running = some after) :
    session.CanGo settings running :=
  ⟨.goesOn, after, rfl, goes⟩

/-- Outside of its backend calls the thread goes on, waits for its client or has come to
its end. -/
theorem blocked_or_can_go (settings : DaemonSettings) (running : Bool) (session : OpenSession) :
    session.Blocked settings ∨ session.CanGo settings running ∨ session.phase = .returned ∨
      ∃ call next, session.phase = .handling (.call call next) := by
  cases phase : session.phase with
  | handshaking succeeds =>
      by_cases admitted : session.admitted = true
      · exact Or.inr (Or.inl (can_go_of_goes_on (by simp only [goesOn, phase, admitted]; rfl)))
      · by_cases closed : session.closed = true
        · refine Or.inr (Or.inl ⟨.goesOn, { session with phase := .returned }, rfl, ?_⟩)
          simp [move, goesOn, phase, admitted, closed]
        · exact Or.inl ⟨by simpa using closed, by simpa [phase] using admitted⟩
  | checking state => exact Or.inr (Or.inl (can_go_of_goes_on (by simp only [goesOn, phase]; rfl)))
  | waiting state => exact Or.inr (Or.inl (can_go_of_goes_on (by simp only [goesOn, phase]; rfl)))
  | receiving state =>
      cases received : session.reception settings with
      | blocked =>
          left
          unfold reception at received
          split at received
          · rename_i waits
            by_cases closed : session.closed = true
            · rw [if_pos closed] at received
              cases received
            · exact ⟨by simpa using closed, by rw [phase]; exact waits⟩
          · cases received
          · split at received
            · cases received
            · cases received
      | ends =>
          exact Or.inr (Or.inl (can_go_of_goes_on (by simp only [goesOn, phase, received]; rfl)))
      | request request rest =>
          right
          left
          exact ⟨.reads {}, _, rfl, by simp only [move, phase, received]; rfl⟩
  | handling program =>
      cases program with
      | call call next => exact Or.inr (Or.inr (Or.inr ⟨call, next, rfl⟩))
      | done outcome =>
          cases outcome with
          | none =>
              exact Or.inr (Or.inl (can_go_of_goes_on (by simp only [goesOn, phase]; rfl)))
          | some reply =>
              exact Or.inr (Or.inl (can_go_of_goes_on (by simp only [goesOn, phase]; rfl)))
  | answering reply =>
      by_cases free : session.admitted = true ∨ reply.messages = []
      · refine Or.inr (Or.inl ⟨.goesOn, session.sent reply, rfl, ?_⟩)
        simp only [move, goesOn, phase, if_pos free]
      · by_cases closed : session.closed = true
        · refine Or.inr (Or.inl ⟨.goesOn, { session with phase := .returned }, rfl, ?_⟩)
          simp only [move, goesOn, phase, if_neg free, if_pos closed]
        · rw [not_or] at free
          exact Or.inl ⟨by simpa using closed, by simpa [phase] using free⟩
  | returned => exact Or.inr (Or.inr (Or.inl rfl))

/-- A client that closes lets its session come to an end. -/
theorem closed_goes_on (blocked : session.Blocked settings) (running : Bool) :
    ({ session with closed := true } : OpenSession).goesOn settings running =
      some { session with closed := true, phase := .returned } := by
  obtain ⟨_, waits⟩ := blocked
  cases phase : session.phase with
  | handshaking succeeds =>
      rw [phase] at waits
      simp [goesOn, waits]
  | receiving state =>
      rw [phase] at waits
      simp [goesOn, reception, waits]
  | answering reply =>
      rw [phase] at waits
      simp [goesOn, waits.1, waits.2]
  | checking state => simp [phase] at waits
  | waiting state => simp [phase] at waits
  | handling program => simp [phase] at waits
  | returned => simp [phase] at waits

/-- Only its client gets a session on that is blocked. -/
theorem blocked_stays (blocked : session.Blocked settings) {move : SessionMove}
    (own : move.isClient = false) : session.move settings running move = none := by
  obtain ⟨opened, waits⟩ := blocked
  cases phase : session.phase with
  | handshaking succeeds =>
      rw [phase] at waits
      have stuck : session.goesOn settings running = none := by simp [goesOn, phase, waits, opened]
      cases move with
      | goesOn => exact stuck
      | reads context => simp [OpenSession.move, phase]
      | expires => simp [OpenSession.move, phase]
      | arrives bytes => cases own
      | admits => cases own
      | closes => cases own
  | receiving state =>
      rw [phase] at waits
      have received : session.reception settings = .blocked := by
        simp only [reception, waits, opened]
        rfl
      cases move with
      | goesOn => simp [OpenSession.move, goesOn, phase, received]
      | reads context => simp [OpenSession.move, phase, received]
      | expires => simp [OpenSession.move, phase]
      | arrives bytes => cases own
      | admits => cases own
      | closes => cases own
  | answering reply =>
      rw [phase] at waits
      cases move with
      | goesOn => simp [OpenSession.move, goesOn, phase, waits.1, waits.2, opened]
      | reads context => simp [OpenSession.move, phase]
      | expires => simp [OpenSession.move, phase]
      | arrives bytes => cases own
      | admits => cases own
      | closes => cases own
  | checking state => simp [phase] at waits
  | waiting state => simp [phase] at waits
  | handling program => simp [phase] at waits
  | returned => simp [phase] at waits

end Waiting

section Turns

variable {settings} {session after : OpenSession} {running : Bool} {move : SessionMove}

/-- What a move does, branch by branch. Wherever the loop is left without an answer being
sent, that is `returns`. -/
inductive SessionTurn (settings : DaemonSettings) (running : Bool) (session : OpenSession) :
    SessionMove → OpenSession → Prop where
  | shakes (here : session.phase = .handshaking true) :
      SessionTurn settings running session .goesOn
        { session with phase := .checking {}, admitted := false }
  | refuses (here : session.phase = .handshaking false) :
      SessionTurn settings running session .goesOn
        { session with phase := .returned, admitted := false }
  | looks {state : SessionState} (here : session.phase = .checking state)
      (serving : running = true) :
      SessionTurn settings running session .goesOn { session with phase := .waiting state }
  | receives {state : SessionState} (here : session.phase = .waiting state) :
      SessionTurn settings running session .goesOn { session with phase := .receiving state }
  | waits {state : SessionState} (here : session.phase = .waiting state) :
      SessionTurn settings running session .goesOn { session with phase := .checking state }
  | replies {reply : Session.Reply} (here : session.phase = .handling (.done (some reply))) :
      SessionTurn settings running session .goesOn { session with phase := .answering reply }
  | answers {reply : Session.Reply} (here : session.phase = .answering reply) :
      SessionTurn settings running session .goesOn (session.sent reply)
  | returns (inside : 1 < session.phase.cost)
      (outside : ∀ call next, session.phase ≠ .handling (.call call next)) :
      SessionTurn settings running session .goesOn { session with phase := .returned }
  | reads {context : RequestContext} {state : SessionState} {request : LdapMessage} {rest : Bytes}
      (here : session.phase = .receiving state)
      (received : session.reception settings = .request request rest) :
      SessionTurn settings running session (.reads context)
        { session with
          phase := .handling (Session.handleRequest settings.server context state request)
          unread := rest
          stirred := false }
  | expires {state : SessionState} (here : session.phase = .waiting state) :
      SessionTurn settings running session .expires { session with phase := .returned }
  | arrives {bytes : Bytes} :
      SessionTurn settings running session (.arrives bytes)
        { session with unread := session.unread ++ bytes, stirred := bytes.isEmpty }
  | admits : SessionTurn settings running session .admits { session with admitted := true }
  | closes : SessionTurn settings running session .closes { session with closed := true }

theorem goes_on_turn (moved : session.goesOn settings running = some after) :
    SessionTurn settings running session .goesOn after := by
  have returns (here : 1 < session.phase.cost)
      (outside : ∀ call next, session.phase ≠ .handling (.call call next))
      (same : some { session with phase := .returned } = some after) :
      SessionTurn settings running session .goesOn after := by
    cases same
    exact .returns here outside
  unfold goesOn at moved
  split at moved
  · rename_i succeeds here
    split at moved
    · cases moved
      cases succeeds with
      | true => exact .shakes here
      | false => exact .refuses here
    · split at moved
      · exact returns (by simp [here, ServePhase.cost]) (by simp [here]) moved
      · cases moved
  · rename_i state here
    cases serving : running with
    | true =>
        rw [serving] at moved
        cases moved
        exact .looks here rfl
    | false =>
        rw [serving] at moved
        rw [serving] at returns
        exact returns (by simp [here, ServePhase.cost]) (by simp [here]) moved
  · rename_i state here
    cases readable : session.readable with
    | true =>
        rw [readable] at moved
        cases moved
        exact .receives here
    | false =>
        rw [readable] at moved
        cases moved
        exact .waits here
  · rename_i here
    split at moved
    · exact returns (by simp [here, ServePhase.cost]) (by simp [here]) moved
    · cases moved
  · rename_i here
    exact returns (by simp [here, ServePhase.cost]) (by simp [here]) moved
  · rename_i here
    cases moved
    exact .replies here
  · cases moved
  · rename_i here
    split at moved
    · cases moved
      exact .answers here
    · split at moved
      · exact returns (by simp [here, ServePhase.cost]) (by simp [here]) moved
      · cases moved
  · cases moved

theorem session_turn (moved : session.move settings running move = some after) :
    SessionTurn settings running session move after := by
  cases move with
  | goesOn => exact goes_on_turn moved
  | reads context =>
      simp only [OpenSession.move] at moved
      split at moved
      · rename_i here
        split at moved
        · rename_i received
          cases moved
          exact .reads here received
        · cases moved
      · cases moved
  | expires =>
      simp only [OpenSession.move] at moved
      split at moved
      · rename_i here
        split at moved
        · cases moved
          exact .expires here
        · cases moved
      · cases moved
  | arrives bytes =>
      simp only [OpenSession.move] at moved
      split at moved
      · cases moved
      · cases moved
        exact .arrives
  | admits =>
      cases moved
      exact .admits
  | closes =>
      cases moved
      exact .closes

theorem client_move_phase (client : move.isClient = true)
    (moved : session.move settings running move = some after) : after.phase = session.phase := by
  cases session_turn moved with
  | arrives | admits | closes => rfl
  | _ => cases client

theorem own_move_cost (own : move.isClient = false)
    (moved : session.move settings false move = some after) :
    after.phase.cost < session.phase.cost := by
  cases session_turn moved with
  | looks _ serving => cases serving
  | returns inside _ => exact inside
  | answers here =>
      rw [here]
      unfold sent
      dsimp only
      split
      · exact Nat.lt_succ_self 2
      · exact (by decide : 1 < 3)
  | shakes here | refuses here | receives here | waits here | replies here | reads here _
  | expires here => simp [here, ServePhase.cost]
  | arrives | admits | closes => cases own

end Turns

section Remainder

/-- The answers of a program behind earlier ones. -/
def saying (earlier : List LdapMessage) (program : ServedProgram) : ServedProgram := do
  let later ← program
  pure (later.map fun messages => earlier ++ messages)

/-- The loop behind the handling of a request. -/
def afterwards (settings : DaemonSettings) (answered : List LdapMessage)
    (contexts : List RequestContext) (stream : Bytes) : Option Session.Reply → ServedProgram
  | none => pure none
  | some reply =>
      if reply.continues then
        saying (answered ++ reply.messages)
          (Session.serveStream settings.server settings.maxPduSize reply.session contexts stream)
      else pure (some (answered ++ reply.messages))

/-- The loop over a byte stream from where the session stands: these contexts and these
bytes are still to come. -/
def remainder (session : OpenSession) (contexts : List RequestContext) (more : Bytes) :
    ServedProgram :=
  let loop (state : SessionState) :=
    saying session.answered
      (Session.serveStream settings.server settings.maxPduSize state contexts
        (session.unread ++ more))
  match session.phase with
  | .handshaking succeeds => if succeeds then loop {} else pure (some session.answered)
  | .checking state | .waiting state | .receiving state => loop state
  | .handling program =>
      program >>= afterwards settings session.answered contexts (session.unread ++ more)
  | .answering reply =>
      afterwards settings session.answered contexts (session.unread ++ more) (some reply)
  | .returned => pure (some session.answered)

theorem saying_saying (first second : List LdapMessage) (program : ServedProgram) :
    saying first (saying second program) = saying (first ++ second) program := by
  unfold saying
  rw [Program.bind_bind]
  congr
  funext outcome
  cases outcome with
  | none => rfl
  | some messages => simp only [Program.pure_eq_done, Program.bind_done, Option.map_some,
      List.append_assoc]

variable {settings} {session after : OpenSession} {running : Bool}

/-- One turn of the loop. -/
theorem saying_serve_stream {state : SessionState} {context : RequestContext}
    {contexts : List RequestContext} {stream pdu rest : Bytes} {request : LdapMessage}
    (received : recvPdu settings.maxPduSize stream = some (pdu, rest))
    (decoded : decodeLdapMessage pdu = some request) (answered : List LdapMessage) :
    saying answered (Session.serveStream settings.server settings.maxPduSize state
        (context :: contexts) stream) =
      Session.handleRequest settings.server context state request >>=
        afterwards settings answered contexts rest := by
  rw [Session.serveStream]
  simp only [received, decoded]
  unfold saying
  rw [Program.bind_bind]
  congr
  funext outcome
  cases outcome with
  | none => rfl
  | some reply =>
      simp only [afterwards]
      split
      · exact saying_saying answered reply.messages _
      · rfl

theorem saying_nil (program : ServedProgram) : saying [] program = program := by
  unfold saying
  have unchanged : (fun later : Option (List LdapMessage) =>
      (pure (later.map fun messages => [] ++ messages) : ServedProgram)) = pure := by
    funext later
    cases later <;> rfl
  rw [unchanged]
  exact Program.bind_return program

theorem afterwards_ended (answered : List LdapMessage) (stream : Bytes)
    (outcome : Option Session.Reply) :
    (afterwards settings answered [] stream outcome).ended.isSome = true := by
  cases outcome with
  | none => rfl
  | some reply =>
      unfold afterwards
      dsimp only
      split
      · rfl
      · rfl

/-- Where no request is taken any more, all that is left are backend calls. -/
theorem remainder_ended (outside : ∀ call next, session.phase ≠ .handling (.call call next))
    (more : Bytes) : (session.remainder settings [] more).ended.isSome = true := by
  unfold remainder
  cases phase : session.phase with
  | handshaking succeeds =>
      cases succeeds with
      | true => rfl
      | false => rfl
  | checking state => rfl
  | waiting state => rfl
  | receiving state => rfl
  | handling program =>
      cases program with
      | call call next => exact absurd phase (outside call next)
      | done outcome => exact afterwards_ended _ _ outcome
  | answering reply => exact afterwards_ended _ _ _
  | returned => rfl

/-- A session comes to its end outside of its backend calls. -/
theorem move_returned {move : SessionMove} (moved : session.move settings running move = some after)
    (returned : after.phase = .returned) :
    ∀ call next, session.phase ≠ .handling (.call call next) := by
  cases session_turn moved with
  | returns _ outside => exact outside
  | arrives | admits | closes =>
      have ended : session.phase = .returned := returned
      simp [ended]
  | shakes here | refuses here | looks here _ | receives here | waits here | replies here
  | answers here | reads here _ | expires here => simp [here]

theorem returned_contexts {move : SessionMove}
    (moved : session.move settings running move = some after) (returned : after.phase = .returned) :
    move.contexts = [] := by
  cases session_turn moved with
  | reads _ _ => cases returned
  | _ => rfl

theorem returned_moves {move : SessionMove} (returned : session.phase = .returned)
    (moved : session.move settings running move = some after) :
    after.phase = .returned ∧ move.contexts = [] := by
  cases session_turn moved with
  | arrives | admits | closes => exact ⟨returned, rfl⟩
  | returns inside _ => simp [returned, ServePhase.cost] at inside
  | shakes here | refuses here | looks here _ | receives here | waits here | replies here
  | answers here | reads here _ | expires here => simp [returned] at here

theorem reception_request {request : LdapMessage} {rest : Bytes}
    (received : session.reception settings = .request request rest) :
    ∃ pdu, receivePdu settings.maxPduSize session.unread = .takes pdu rest ∧
      decodeLdapMessage pdu = some request := by
  unfold reception at received
  split at received
  · split at received
    · cases received
    · cases received
  · cases received
  · rename_i pdu left taken
    split at received
    · cases received
    · rename_i read decoded
      cases received
      exact ⟨pdu, taken, decoded⟩

/-- What a move adds to the contexts and the bytes, the remainder has in front. -/
theorem move_remainder {move : SessionMove}
    (moved : session.move settings running move = some after) (going : after.phase ≠ .returned)
    (contexts : List RequestContext) (more : Bytes) :
    session.remainder settings (move.contexts ++ contexts) (move.bytes ++ more) =
      after.remainder settings contexts more := by
  cases session_turn moved with
  | shakes here => simp [remainder, here, SessionMove.contexts, SessionMove.bytes]
  | looks here _ => simp [remainder, here, SessionMove.contexts, SessionMove.bytes]
  | receives here => simp [remainder, here, SessionMove.contexts, SessionMove.bytes]
  | waits here => simp [remainder, here, SessionMove.contexts, SessionMove.bytes]
  | replies here =>
      simp only [remainder, here, SessionMove.contexts, SessionMove.bytes]
      rfl
  | @answers reply here =>
      cases continues : reply.continues with
      | true =>
          simp [remainder, here, afterwards, sent, continues, SessionMove.contexts,
            SessionMove.bytes]
      | false => simp [sent, continues] at going
  | reads here received =>
      obtain ⟨pdu, taken, decoded⟩ := reception_request received
      have extended := recv_pdu_extend (receive_takes_iff.mp taken) more
      simp only [remainder, here, SessionMove.contexts, SessionMove.bytes, List.singleton_append,
        List.nil_append]
      exact saying_serve_stream extended decoded session.answered
  | arrives =>
      simp only [remainder, SessionMove.contexts, SessionMove.bytes, List.nil_append,
        List.append_assoc]
  | admits | closes => rfl
  | refuses _ | returns _ _ | expires _ => exact absurd rfl going

end Remainder

end OpenSession

end SimpleLdapd
