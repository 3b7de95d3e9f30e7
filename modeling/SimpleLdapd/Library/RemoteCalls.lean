import SimpleLdapd.Library.AtomicProgram
import SimpleLdapd.Library.GuardedRun

/-!
# Calls over a connection

A client calls and waits, a server reads a request, handles it by operations on a shared
state and answers, and between them run two streams of bytes that arrive in pieces. Many
such connections move in any order, and a server may give its connection up between two
requests. `localCalls` is the program of a client that performs its handlers' operations
itself; every run of the connections is an interleaving of such programs, some of them cut
off after a number of calls, and no client gets stuck.
-/

namespace SimpleLdapd

universe u v w x

/-- The bytes on their way and the bytes that have arrived. -/
structure Channel (Byte : Type*) where
  flying : List Byte := []
  arrived : List Byte := []

namespace Channel

variable {Byte : Type*}

def content (channel : Channel Byte) : List Byte := channel.arrived ++ channel.flying

def send (channel : Channel Byte) (bytes : List Byte) : Channel Byte :=
  { channel with flying := channel.flying ++ bytes }

def deliver (channel : Channel Byte) (count : Nat) : Channel Byte where
  flying := channel.flying.drop count
  arrived := channel.arrived ++ channel.flying.take count

@[simp] theorem content_send (channel : Channel Byte) (bytes : List Byte) :
    (channel.send bytes).content = channel.content ++ bytes := by
  simp [content, send]

@[simp] theorem content_deliver (channel : Channel Byte) (count : Nat) :
    (channel.deliver count).content = channel.content := by
  simp [content, deliver]

@[simp] theorem content_empty : ({} : Channel Byte).content = [] := rfl

@[simp] theorem deliver_empty (count : Nat) : ({} : Channel Byte).deliver count = {} := by
  simp [deliver]

end Channel

/-- What a reader does with the bytes that have arrived. -/
inductive Receipt (Reading Byte : Type*) where
  | waits
  | fails (rest : List Byte)
  | takes (reading : Reading) (rest : List Byte)

/-- How one side writes its messages and the other side reads them. -/
structure Wire (Message Reading Byte : Type*) where
  write : Message → List Byte
  receive : List Byte → Receipt Reading Byte
  empty : receive [] = .waits

/-- The message is read as this reading, and not before its last byte is there. -/
structure Wire.Carries {Message Reading Byte : Type*} (wire : Wire Message Reading Byte)
    (message : Message) (reading : Reading) : Prop where
  takes : wire.receive (wire.write message) = .takes reading []
  waits : ∀ cut missing, cut ++ missing = wire.write message → missing ≠ [] →
    wire.receive cut = .waits

theorem Wire.Carries.receive {Message Reading Byte : Type*} {wire : Wire Message Reading Byte}
    {message : Message} {reading : Reading} (carries : wire.Carries message reading)
    {channel : Channel Byte} (content : channel.content = wire.write message) :
    (channel.flying ≠ [] ∧ wire.receive channel.arrived = .waits) ∨
      (channel.flying = [] ∧ wire.receive channel.arrived = .takes reading []) := by
  by_cases landed : channel.flying = []
  · right
    have whole : channel.arrived = wire.write message := by
      rw [← content, Channel.content, landed, List.append_nil]
    rw [whole]
    exact ⟨landed, carries.takes⟩
  · exact Or.inl ⟨landed, carries.waits _ _ content landed⟩

/-- What the handling of a request leaves: the answers, the session and whether it goes on. -/
structure Response (Answer Session : Type*) where
  messages : List Answer
  session : Session
  continues : Bool

/-- A server, with what each side makes of what the other one writes. -/
structure Service (Op : Type u) (Result : Op → Type v) (Request Answer Session : Type w)
    (Byte : Type*) where
  requests : Wire Request (Option Request) Byte
  answers : Wire Answer (Option Answer) Byte
  heard : Request → Request
  told : Answer → Option Answer
  handle : Nat → Session → Request → Program Op Result (Option (Response Answer Session))

/-- A client: its operations are calls, each answered or left without an answer. -/
abbrev Calls (Request Answer Value : Type w) := Program Request (fun _ => Option Answer) Value

/-- What the client ends with if no call of its is answered any more. -/
def abandoned {Request Answer Value : Type w} : Calls Request Answer Value → Value
  | .done value => value
  | .call _ next => abandoned (next none)

/-- The client of a server that answers so many calls more and then gives the connection up. -/
def upTo {Request Answer Value : Type w} :
    Nat → Calls Request Answer Value → Calls Request Answer Value
  | 0, program => .done (abandoned program)
  | _ + 1, .done value => .done value
  | count + 1, .call request next => .call request fun answer => upTo count (next answer)

def cutOff {Request Answer Value : Type w} :
    Option Nat → Calls Request Answer Value → Calls Request Answer Value
  | none, program => program
  | some count, program => upTo count program

section CutOff

variable {Request Answer Value : Type w}

@[simp] theorem cut_off_none (program : Calls Request Answer Value) :
    cutOff none program = program := rfl

theorem cut_off_at_once (program : Calls Request Answer Value) :
    cutOff (some 0) program = .done (abandoned program) := by
  cases program <;> rfl

theorem cut_off_call (limit : Option Nat) (request : Request)
    (next : Option Answer → Calls Request Answer Value) :
    cutOff (limit.map (· + 1)) (.call request next) =
      .call request fun answer => cutOff limit (next answer) := by
  cases limit <;> rfl

@[simp] theorem cut_off_done (limit : Option Nat) (value : Value) :
    cutOff limit (.done value : Calls Request Answer Value) = .done value := by
  cases limit with
  | none => rfl
  | some count => cases count <;> rfl

theorem abandoned_up_to (count : Nat) (program : Calls Request Answer Value) :
    abandoned (upTo count program) = abandoned program := by
  induction count generalizing program with
  | zero => cases program <;> rfl
  | succ count ih =>
      cases program with
      | done value => rfl
      | call request next => exact ih (next none)

@[simp] theorem abandoned_cut_off (limit : Option Nat) (program : Calls Request Answer Value) :
    abandoned (cutOff limit program) = abandoned program := by
  cases limit with
  | none => rfl
  | some count => exact abandoned_up_to count program

end CutOff

inductive ClientPhase (Request Answer Value : Type w) where
  | running (program : Calls Request Answer Value)
  | waiting (next : Option Answer → Calls Request Answer Value)

def ClientPhase.ended {Request Answer Value : Type w} :
    ClientPhase Request Answer Value → Option Value
  | .running program => program.ended
  | .waiting _ => none

inductive ServerPhase (Op : Type u) (Result : Op → Type v) (Answer Session : Type w) where
  | reading (session : Session)
  | handling (program : Program Op Result (Option (Response Answer Session)))
  | closed

/-- One connection; `turn` counts the requests the server has read. -/
structure Peer (Op : Type u) (Result : Op → Type v) (Request Answer Session Value : Type w)
    (Byte : Type*) where
  client : ClientPhase Request Answer Value
  toServer : Channel Byte
  server : ServerPhase Op Result Answer Session
  toClient : Channel Byte
  turn : Nat

inductive Move where
  | asks
  | towardsServer (count : Nat)
  | reads
  | performs
  | answers
  | towardsClient (count : Nat)
  | hears
  | closes
deriving DecidableEq

/-- Many connections and the state that the servers share. -/
structure Network (Connection : Type*) (Op : Type u) (Result : Op → Type v)
    (Request Answer Session Value : Type w) (Byte : Type*) (State : Type x) where
  peers : Connection → Peer Op Result Request Answer Session Value Byte
  state : State

namespace Service

variable {Op : Type u} {Result : Op → Type v} {Request Answer Session Value : Type w}
variable {Byte : Type*} {State : Type x} (service : Service Op Result Request Answer Session Byte)
variable (exec : (op : Op) → State → Result op × State)

/-- What a connection does when it is its turn. -/
def move (peer : Peer Op Result Request Answer Session Value Byte) (state : State) :
    Move → Peer Op Result Request Answer Session Value Byte × State
  | .asks =>
      match peer.client with
      | .running (.call request next) =>
          ({ peer with
             client := .waiting next
             toServer := peer.toServer.send (service.requests.write request) }, state)
      | _ => (peer, state)
  | .towardsServer count => ({ peer with toServer := peer.toServer.deliver count }, state)
  | .reads =>
      match peer.server with
      | .reading session =>
          match service.requests.receive peer.toServer.arrived with
          | .waits => (peer, state)
          | .fails rest | .takes none rest =>
              ({ peer with
                 server := .closed
                 toServer := { peer.toServer with arrived := rest } }, state)
          | .takes (some request) rest =>
              ({ peer with
                 server := .handling (service.handle peer.turn session request)
                 toServer := { peer.toServer with arrived := rest }
                 turn := peer.turn + 1 }, state)
      | _ => (peer, state)
  | .performs =>
      match peer.server with
      | .handling (.call op next) =>
          ({ peer with server := .handling (next (exec op state).1) }, (exec op state).2)
      | _ => (peer, state)
  | .answers =>
      match peer.server with
      | .handling (.done none) => ({ peer with server := .closed }, state)
      | .handling (.done (some response)) =>
          ({ peer with
             server := if response.continues then .reading response.session else .closed
             toClient := peer.toClient.send (response.messages.flatMap service.answers.write) },
            state)
      | _ => (peer, state)
  | .towardsClient count => ({ peer with toClient := peer.toClient.deliver count }, state)
  | .hears =>
      match peer.client with
      | .waiting next =>
          match service.answers.receive peer.toClient.arrived with
          | .takes answer rest =>
              ({ peer with
                 client := .running (next answer)
                 toClient := { peer.toClient with arrived := rest } }, state)
          | .fails rest =>
              ({ peer with
                 client := .running (next none)
                 toClient := { peer.toClient with arrived := rest } }, state)
          | .waits =>
              -- The end of the stream, once the server has closed it.
              match peer.server, peer.toClient.flying with
              | .closed, [] => ({ peer with client := .running (next none) }, state)
              | _, _ => (peer, state)
      | _ => (peer, state)
  | .closes =>
      match peer.server with
      | .reading _ => ({ peer with server := .closed }, state)
      | _ => (peer, state)

/-- How a client goes on that performs its calls itself. -/
def localCalls : Nat → Session → Calls Request Answer Value → Program Op Result Value
  | _, _, .done value => pure value
  | turn, session, .call request next => do
      let outcome ← service.handle turn session (service.heard request)
      match outcome with
      | some { messages := [answer], session := after, continues := true } =>
          localCalls (turn + 1) after (next (service.told answer))
      | some { messages := [answer], session := _, continues := false } =>
          pure (abandoned (next (service.told answer)))
      | _ => pure (abandoned (next none))

/-- What a client that performs its calls itself does with the outcome of one. -/
def resume (turn : Nat) (next : Option Answer → Calls Request Answer Value) :
    Option (Response Answer Session) → Program Op Result Value
  | some { messages := [answer], session := after, continues := true } =>
      service.localCalls turn after (next (service.told answer))
  | some { messages := [answer], session := _, continues := false } =>
      pure (abandoned (next (service.told answer)))
  | _ => pure (abandoned (next none))

theorem local_call (turn : Nat) (session : Session) (request : Request)
    (next : Option Answer → Calls Request Answer Value) :
    service.localCalls turn session (.call request next) =
      service.handle turn session (service.heard request) >>= service.resume (turn + 1) next := by
  rw [localCalls]
  rfl

section Refinement

variable {service}

/-- The handler sends one answer, of the expected kind, if it does not crash. -/
def AnswersOnce (Expected : Answer → Prop) (outcome : Option (Response Answer Session)) : Prop :=
  ∀ response, outcome = some response →
    ∃ answer, response.messages = [answer] ∧ Expected answer

/-- A request that gets across and is answered once. -/
def Callable (service : Service Op Result Request Answer Session Byte) (Expected : Answer → Prop)
    (request : Request) : Prop :=
  service.requests.Carries request (some (service.heard request)) ∧
    ∀ turn session,
      (service.handle turn session (service.heard request)).Yields (AnswersOnce Expected)

/-- Where a connection can stand, with what its client's own program has come to there: one
for each number of calls that the server will still take on. -/
inductive Matches (service : Service Op Result Request Answer Session Byte)
    (Expected : Answer → Prop) :
    Peer Op Result Request Answer Session Value Byte →
      (Option Nat → Program Op Result Value) → Prop where
  | idle (program : Calls Request Answer Value) (session : Session) (turn : Nat)
      (callable : program.Issues (service.Callable Expected)) :
      Matches service Expected
        { client := .running program, toServer := {}, server := .reading session, toClient := {}
          turn := turn }
        fun limit => service.localCalls turn session (cutOff limit program)
  | asked (request : Request) (next : Option Answer → Calls Request Answer Value)
      (session : Session) (toServer : Channel Byte) (turn : Nat)
      (first : service.Callable Expected request)
      (callable : ∀ answer, (next answer).Issues (service.Callable Expected))
      (sent : toServer.content = service.requests.write request) :
      Matches service Expected
        { client := .waiting next, toServer := toServer, server := .reading session, toClient := {}
          turn := turn }
        fun limit => service.localCalls turn session (cutOff limit (.call request next))
  | served (next : Option Answer → Calls Request Answer Value)
      (program : Program Op Result (Option (Response Answer Session))) (turn : Nat)
      (callable : ∀ answer, (next answer).Issues (service.Callable Expected))
      (once : program.Yields (AnswersOnce Expected)) :
      Matches service Expected
        { client := .waiting next, toServer := {}, server := .handling program, toClient := {}
          turn := turn }
        fun limit => program >>= service.resume turn fun answer => cutOff limit (next answer)
  | answered (answer : Answer) (next : Option Answer → Calls Request Answer Value)
      (session : Session) (toClient : Channel Byte) (turn : Nat)
      (callable : ∀ answer, (next answer).Issues (service.Callable Expected))
      (carries : service.answers.Carries answer (service.told answer))
      (sent : toClient.content = service.answers.write answer) :
      Matches service Expected
        { client := .waiting next, toServer := {}, server := .reading session
          toClient := toClient, turn := turn }
        fun limit => service.localCalls turn session (cutOff limit (next (service.told answer)))
  | last (answer : Answer) (next : Option Answer → Calls Request Answer Value)
      (toServer toClient : Channel Byte) (turn : Nat)
      (carries : service.answers.Carries answer (service.told answer))
      (sent : toClient.content = service.answers.write answer) :
      Matches service Expected
        { client := .waiting next, toServer := toServer, server := .closed, toClient := toClient
          turn := turn }
        fun _ => pure (abandoned (next (service.told answer)))
  | lost (next : Option Answer → Calls Request Answer Value) (toServer : Channel Byte)
      (turn : Nat) :
      Matches service Expected
        { client := .waiting next, toServer := toServer, server := .closed, toClient := {}
          turn := turn }
        fun _ => pure (abandoned (next none))
  | alone (program : Calls Request Answer Value) (toServer : Channel Byte) (turn : Nat) :
      Matches service Expected
        { client := .running program, toServer := toServer, server := .closed, toClient := {}
          turn := turn }
        fun _ => pure (abandoned program)

/-- Expected answers that fit get across. -/
def AnswersCarried (service : Service Op Result Request Answer Session Byte)
    (Expected Fits : Answer → Prop) : Prop :=
  ∀ answer, Expected answer → Fits answer → service.answers.Carries answer (service.told answer)

/-- If the server answers now, its answers fit. -/
def AnswersFit (Fits : Answer → Prop)
    (peer : Peer Op Result Request Answer Session Value Byte) : Move → Prop
  | .answers =>
      match peer.server with
      | .handling (.done (some response)) => ∀ answer ∈ response.messages, Fits answer
      | _ => True
  | _ => True

instance decidableAnswersFit (Fits : Answer → Prop) [DecidablePred Fits]
    (peer : Peer Op Result Request Answer Session Value Byte) :
    (move : Move) → Decidable (AnswersFit Fits peer move)
  | .answers =>
      match peer with
      | { server := .handling (.done (some response)), .. } =>
          inferInstanceAs (Decidable (∀ answer ∈ response.messages, Fits answer))
      | { server := .handling (.done none), .. } => isTrue trivial
      | { server := .handling (.call _ _), .. } => isTrue trivial
      | { server := .reading _, .. } => isTrue trivial
      | { server := .closed, .. } => isTrue trivial
  | .asks => isTrue trivial
  | .towardsServer _ => isTrue trivial
  | .reads => isTrue trivial
  | .performs => isTrue trivial
  | .towardsClient _ => isTrue trivial
  | .hears => isTrue trivial
  | .closes => isTrue trivial

variable {exec} {Expected Fits : Answer → Prop}

/-- The move was a step of the client's own program, or none; `past` counts a call that the
server has taken on among those it still had to take on before. -/
def Followed (service : Service Op Result Request Answer Session Byte)
    (exec : (op : Op) → State → Result op × State) (Expected : Answer → Prop)
    (threads : Option Nat → Program Op Result Value) (state : State) (move : Move)
    (moved : Peer Op Result Request Answer Session Value Byte × State) : Prop :=
  ∃ after, Matches service Expected moved.1 after ∧ ∃ past : Option Nat → Option Nat,
    (move ≠ .closes → past none = none) ∧
      (((∀ limit, threads (past limit) = after limit) ∧ moved.2 = state) ∨
        ∃ op, ∃ next : Option Nat → Result op → Program Op Result Value,
          (∀ limit, threads (past limit) = .call op (next limit) ∧
            after limit = next limit (exec op state).1) ∧ moved.2 = (exec op state).2)

variable {threads : Option Nat → Program Op Result Value} {state : State} {move : Move}
variable {peer : Peer Op Result Request Answer Session Value Byte}

theorem followed_still (matched : Matches service Expected peer threads) :
    Followed service exec Expected threads state move (peer, state) :=
  ⟨threads, matched, id, fun _ => rfl, Or.inl ⟨fun _ => rfl, rfl⟩⟩

/-- The server gives the connection up, and takes on no call more. -/
theorem followed_closed {after : Program Op Result Value}
    (matched : Matches service Expected peer fun _ => after)
    (none_left : threads (some 0) = after) :
    Followed service exec Expected threads state .closes (peer, state) :=
  ⟨_, matched, fun _ => some 0, fun going => absurd rfl going,
    Or.inl ⟨fun _ => none_left, rfl⟩⟩

theorem idle_followed {program : Calls Request Answer Value} {session : Session} {turn : Nat}
    (callable : program.Issues (service.Callable Expected)) (state : State) (move : Move) :
    Followed service exec Expected
      (fun limit => service.localCalls turn session (cutOff limit program)) state move
      (service.move exec { client := .running program, toServer := {}, server := .reading session
                           toClient := {}, turn := turn } state move) := by
  have same : Matches service Expected _ _ := .idle program session turn callable
  cases move with
  | asks =>
      cases program with
      | done value => exact followed_still same
      | call request next =>
          apply followed_still
          exact .asked request next session _ turn callable.1 callable.2 (by simp)
  | towardsServer count =>
      simp only [Service.move, Channel.deliver_empty]
      exact followed_still same
  | reads =>
      simp only [Service.move, service.requests.empty]
      exact followed_still same
  | towardsClient count =>
      simp only [Service.move, Channel.deliver_empty]
      exact followed_still same
  | closes =>
      apply followed_closed (.alone program {} turn)
      simp only [cut_off_at_once]
      rfl
  | performs => exact followed_still same
  | answers => exact followed_still same
  | hears => exact followed_still same

theorem asked_followed {request : Request} {next : Option Answer → Calls Request Answer Value}
    {session : Session} {toServer : Channel Byte} {turn : Nat}
    (first : service.Callable Expected request)
    (callable : ∀ answer, (next answer).Issues (service.Callable Expected))
    (sent : toServer.content = service.requests.write request) (state : State) (move : Move) :
    Followed service exec Expected
      (fun limit => service.localCalls turn session (cutOff limit (.call request next))) state move
      (service.move exec { client := .waiting next, toServer := toServer
                           server := .reading session, toClient := {}, turn := turn }
        state move) := by
  have same := Matches.asked request next session toServer turn first callable sent
  cases move with
  | towardsServer count =>
      apply followed_still
      exact .asked request next session _ turn first callable (by simpa using sent)
  | reads =>
      rcases first.1.receive sent with ⟨_, waits⟩ | ⟨landed, takes⟩
      · simp only [Service.move, waits]
        exact followed_still same
      · simp only [Service.move, takes]
        rw [landed]
        -- The call is one of those the server had to take on.
        refine ⟨_, .served next _ (turn + 1) callable (first.2 turn session),
          fun limit => limit.map (· + 1), fun _ => rfl, Or.inl ⟨?_, rfl⟩⟩
        intro limit
        simp only [cut_off_call]
        exact service.local_call turn session request _
  | towardsClient count =>
      simp only [Service.move, Channel.deliver_empty]
      exact followed_still same
  | hears =>
      simp only [Service.move, service.answers.empty]
      exact followed_still same
  | closes =>
      apply followed_closed (.lost next toServer turn)
      simp only [cut_off_at_once]
      rfl
  | asks => exact followed_still same
  | performs => exact followed_still same
  | answers => exact followed_still same

/-- The answer goes out, or the server has crashed. -/
theorem outcome_followed (carried : service.AnswersCarried Expected Fits)
    {next : Option Answer → Calls Request Answer Value} {turn : Nat}
    (callable : ∀ answer, (next answer).Issues (service.Callable Expected))
    {outcome : Option (Response Answer Session)} (once : AnswersOnce Expected outcome)
    (state : State)
    (fit : ∀ response, outcome = some response → ∀ answer ∈ response.messages, Fits answer) :
    Followed service exec Expected
      (fun limit => service.resume turn (fun answer => cutOff limit (next answer)) outcome) state
      .answers
      (service.move exec { client := .waiting next, toServer := {}
                           server := .handling (.done outcome), toClient := {}, turn := turn }
        state .answers) := by
  cases outcome with
  | none =>
      refine ⟨_, .lost next {} turn, id, fun _ => rfl, Or.inl ⟨?_, rfl⟩⟩
      intro limit
      simp only [id, resume, abandoned_cut_off]
  | some response =>
      obtain ⟨answer, single, expected⟩ := once response rfl
      have carries := carried answer expected (fit response rfl answer (by simp [single]))
      obtain ⟨messages, after, continues⟩ := response
      simp only at single
      subst single
      cases continues with
      | true =>
          apply followed_still
          exact .answered answer next after _ turn callable carries (by simp)
      | false =>
          refine ⟨_, .last answer next {} _ turn carries (by simp), id, fun _ => rfl,
            Or.inl ⟨?_, rfl⟩⟩
          intro limit
          simp only [id, resume, abandoned_cut_off]

theorem served_followed (carried : service.AnswersCarried Expected Fits)
    {next : Option Answer → Calls Request Answer Value}
    {program : Program Op Result (Option (Response Answer Session))} {turn : Nat}
    (callable : ∀ answer, (next answer).Issues (service.Callable Expected))
    (once : program.Yields (AnswersOnce Expected)) (state : State) {move : Move}
    (fit : AnswersFit Fits
      ({ client := .waiting next, toServer := {}, server := .handling program, toClient := {}
         turn := turn } : Peer Op Result Request Answer Session Value Byte) move) :
    Followed service exec Expected
      (fun limit => program >>= service.resume turn fun answer => cutOff limit (next answer)) state
      move
      (service.move exec { client := .waiting next, toServer := {}, server := .handling program
                           toClient := {}, turn := turn } state move) := by
  have same := Matches.served next program turn callable once
  cases move with
  | performs =>
      cases program with
      | done outcome => exact followed_still same
      | call op rest =>
          exact ⟨_, .served next _ turn callable (once _), id, fun _ => rfl,
            Or.inr ⟨op, _, fun _ => ⟨rfl, rfl⟩, rfl⟩⟩
  | answers =>
      cases program with
      | call op rest => exact followed_still same
      | done outcome =>
          apply outcome_followed carried callable once state
          intro response given
          rw [given] at fit
          exact fit
  | towardsServer count =>
      simp only [Service.move, Channel.deliver_empty]
      exact followed_still same
  | towardsClient count =>
      simp only [Service.move, Channel.deliver_empty]
      exact followed_still same
  | hears =>
      simp only [Service.move, service.answers.empty]
      exact followed_still same
  | asks => exact followed_still same
  | reads => exact followed_still same
  | closes => exact followed_still same

theorem answered_followed {answer : Answer} {next : Option Answer → Calls Request Answer Value}
    {session : Session} {toClient : Channel Byte} {turn : Nat}
    (callable : ∀ answer, (next answer).Issues (service.Callable Expected))
    (carries : service.answers.Carries answer (service.told answer))
    (sent : toClient.content = service.answers.write answer) (state : State) (move : Move) :
    Followed service exec Expected
      (fun limit => service.localCalls turn session (cutOff limit (next (service.told answer))))
      state move
      (service.move exec { client := .waiting next, toServer := {}, server := .reading session
                           toClient := toClient, turn := turn } state move) := by
  have same := Matches.answered answer next session toClient turn callable carries sent
  cases move with
  | towardsServer count =>
      simp only [Service.move, Channel.deliver_empty]
      exact followed_still same
  | reads =>
      simp only [Service.move, service.requests.empty]
      exact followed_still same
  | towardsClient count =>
      apply followed_still
      exact .answered answer next session _ turn callable carries (by simpa using sent)
  | hears =>
      rcases carries.receive sent with ⟨_, waits⟩ | ⟨landed, takes⟩
      · simp only [Service.move, waits]
        exact followed_still same
      · simp only [Service.move, takes]
        rw [landed]
        exact followed_still (.idle _ session turn (callable _))
  | closes =>
      apply followed_closed (.last answer next {} toClient turn carries sent)
      simp only [cut_off_at_once]
      rfl
  | asks => exact followed_still same
  | performs => exact followed_still same
  | answers => exact followed_still same

theorem last_followed {answer : Answer} {next : Option Answer → Calls Request Answer Value}
    {toServer toClient : Channel Byte} {turn : Nat}
    (carries : service.answers.Carries answer (service.told answer))
    (sent : toClient.content = service.answers.write answer) (state : State) (move : Move) :
    Followed service exec Expected
      (fun _ => pure (abandoned (next (service.told answer)))) state move
      (service.move exec { client := .waiting next, toServer := toServer, server := .closed
                           toClient := toClient, turn := turn } state move) := by
  have same : Matches service Expected _ _ :=
    .last answer next toServer toClient turn carries sent
  cases move with
  | towardsServer count => exact followed_still (.last answer next _ toClient turn carries sent)
  | towardsClient count =>
      apply followed_still
      exact .last answer next toServer _ turn carries (by simpa using sent)
  | hears =>
      rcases carries.receive sent with ⟨flying, waits⟩ | ⟨landed, takes⟩
      · simp only [Service.move, waits]
        split
        · rename_i empty
          exact absurd empty flying
        · exact followed_still same
      · simp only [Service.move, takes]
        rw [landed]
        exact followed_still (.alone _ toServer turn)
  | asks => exact followed_still same
  | reads => exact followed_still same
  | performs => exact followed_still same
  | answers => exact followed_still same
  | closes => exact followed_still same

theorem lost_followed (next : Option Answer → Calls Request Answer Value)
    (toServer : Channel Byte) (turn : Nat) (state : State) (move : Move) :
    Followed service exec Expected (fun _ => pure (abandoned (next none))) state move
      (service.move exec { client := .waiting next, toServer := toServer, server := .closed
                           toClient := {}, turn := turn } state move) := by
  have same : Matches service Expected _ _ := .lost next toServer turn
  cases move with
  | towardsServer count => exact followed_still (.lost next _ turn)
  | towardsClient count =>
      simp only [Service.move, Channel.deliver_empty]
      exact followed_still same
  | hears =>
      simp only [Service.move, service.answers.empty]
      exact followed_still (.alone (next none) toServer turn)
  | asks => exact followed_still same
  | reads => exact followed_still same
  | performs => exact followed_still same
  | answers => exact followed_still same
  | closes => exact followed_still same

theorem alone_followed (program : Calls Request Answer Value) (toServer : Channel Byte)
    (turn : Nat) (state : State) (move : Move) :
    Followed service exec Expected (fun _ => pure (abandoned program)) state move
      (service.move exec { client := .running program, toServer := toServer, server := .closed
                           toClient := {}, turn := turn } state move) := by
  have same : Matches service Expected _ _ := .alone program toServer turn
  cases move with
  | asks =>
      cases program with
      | done value => exact followed_still same
      | call request next => exact followed_still (.lost next _ turn)
  | towardsServer count => exact followed_still (.alone program _ turn)
  | towardsClient count =>
      simp only [Service.move, Channel.deliver_empty]
      exact followed_still same
  | reads => exact followed_still same
  | performs => exact followed_still same
  | answers => exact followed_still same
  | hears => exact followed_still same
  | closes => exact followed_still same

/-- One move of a connection is a step of its client's own program, or none. -/
theorem move_followed (carried : service.AnswersCarried Expected Fits)
    (matched : Matches service Expected peer threads) (state : State)
    (fit : AnswersFit Fits peer move) :
    Followed service exec Expected threads state move (service.move exec peer state move) := by
  cases matched with
  | idle program session turn callable => exact idle_followed callable state move
  | asked request next session toServer turn first callable sent =>
      exact asked_followed first callable sent state move
  | served next program turn callable once =>
      exact served_followed carried callable once state fit
  | answered answer next session toClient turn callable carries sent =>
      exact answered_followed callable carries sent state move
  | last answer next toServer toClient turn carries sent =>
      exact last_followed carries sent state move
  | lost next toServer turn => exact lost_followed next toServer turn state move
  | alone program toServer turn => exact alone_followed program toServer turn state move

/-- A client that has ended has ended as its own program, whatever the server would still
have taken on. -/
theorem Matches.ended (matched : Matches service Expected peer threads) {value : Value}
    (ended : peer.client.ended = some value) (limit : Option Nat) :
    (threads limit).ended = some value := by
  cases matched with
  | idle program session turn callable =>
      rw [Program.ended_eq_some ended]
      simp only [cut_off_done]
      rfl
  | alone program toServer turn =>
      rw [Program.ended_eq_some ended]
      rfl
  | asked => cases ended
  | served => cases ended
  | answered => cases ended
  | last => cases ended
  | lost => cases ended

section Endings

/-- Moves of the connection alone bring its client to an end, or the server to the point of
sending an answer that does not fit. -/
def Ends (service : Service Op Result Request Answer Session Byte)
    (exec : (op : Op) → State → Result op × State) (Fits : Answer → Prop)
    (peer : Peer Op Result Request Answer Session Value Byte) (state : State) : Prop :=
  ∃ moves : List Move, .closes ∉ moves ∧
    let reached := (moves.foldl (fun reached move => service.move exec reached.1 reached.2 move)
      (peer, state)).1
    (∃ value, reached.client.ended = some value) ∨ ¬ AnswersFit Fits reached .answers

theorem ends_after (move : Move) (open_still : move ≠ .closes)
    (ends : service.Ends exec Fits (service.move exec peer state move).1
      (service.move exec peer state move).2) : service.Ends exec Fits peer state := by
  obtain ⟨moves, going, ended⟩ := ends
  refine ⟨move :: moves, ?_, ended⟩
  rw [List.mem_cons]
  exact not_or.mpr ⟨open_still.symm, going⟩

theorem ends_done {value : Value} (ended : peer.client.ended = some value) :
    service.Ends exec Fits peer state :=
  ⟨[], List.not_mem_nil, Or.inl ⟨value, ended⟩⟩

theorem alone_ends (program : Calls Request Answer Value) (toServer : Channel Byte) (turn : Nat)
    (state : State) :
    service.Ends exec Fits
      { client := .running program, toServer := toServer, server := .closed, toClient := {}
        turn := turn } state := by
  induction program generalizing toServer with
  | done value => exact ends_done rfl
  | call request next ih =>
      apply ends_after .asks (by decide)
      apply ends_after .hears (by decide)
      simp only [Service.move, service.answers.empty]
      exact ih none _

theorem lost_ends (next : Option Answer → Calls Request Answer Value) (toServer : Channel Byte)
    (turn : Nat) (state : State) :
    service.Ends exec Fits
      { client := .waiting next, toServer := toServer, server := .closed, toClient := {}
        turn := turn } state := by
  apply ends_after .hears (by decide)
  simp only [Service.move, service.answers.empty]
  exact alone_ends _ toServer turn state

/-- The rest of the channel arrives. -/
theorem deliver_rest (channel : Channel Byte) :
    channel.deliver channel.flying.length = { flying := [], arrived := channel.content } := by
  simp [Channel.deliver, Channel.content]

theorem answer_ends {answer : Answer} {next : Option Answer → Calls Request Answer Value}
    {server : ServerPhase Op Result Answer Session} {toServer toClient : Channel Byte} {turn : Nat}
    (carries : service.answers.Carries answer (service.told answer))
    (sent : toClient.content = service.answers.write answer)
    (later : service.Ends exec Fits
      { client := .running (next (service.told answer)), toServer := toServer, server := server
        toClient := {}, turn := turn } state) :
    service.Ends exec Fits
      { client := .waiting next, toServer := toServer, server := server, toClient := toClient
        turn := turn } state := by
  apply ends_after (.towardsClient toClient.flying.length) (by simp)
  apply ends_after .hears (by decide)
  simp only [Service.move, deliver_rest, sent, carries.takes]
  exact later

variable (carried : service.AnswersCarried Expected Fits)

include carried

/-- The handling of a request comes to its answer; the induction is on what the handler
still has to do. -/
theorem served_ends {next : Option Answer → Calls Request Answer Value}
    (program : Program Op Result (Option (Response Answer Session)))
    (once : program.Yields (AnswersOnce Expected)) (turn : Nat) (state : State)
    (later : ∀ answer session turn state, service.Ends exec Fits
      { client := .running (next answer), toServer := {}, server := .reading session
        toClient := {}, turn := turn } state) :
    service.Ends exec Fits
      { client := .waiting next, toServer := {}, server := .handling program, toClient := {}
        turn := turn } state := by
  induction program generalizing state with
  | call op rest ih =>
      apply ends_after .performs (by decide)
      exact ih _ (once _) _
  | done outcome =>
      cases outcome with
      | none =>
          apply ends_after .answers (by decide)
          exact lost_ends next {} turn state
      | some response =>
          by_cases fit : ∀ answer ∈ response.messages, Fits answer
          · apply ends_after .answers (by decide)
            obtain ⟨answer, single, expected⟩ := once response rfl
            have carries := carried answer expected (fit answer (by simp [single]))
            obtain ⟨messages, after, continues⟩ := response
            simp only at single
            subst single
            cases continues with
            | true => exact answer_ends carries (by simp) (later _ after turn state)
            | false => exact answer_ends carries (by simp) (alone_ends _ {} turn state)
          · exact ⟨[], List.not_mem_nil, Or.inr fit⟩

/-- From the start of a call on; the induction is on the calls the client still has to make. -/
theorem idle_ends (program : Calls Request Answer Value)
    (callable : program.Issues (service.Callable Expected)) (session : Session) (turn : Nat)
    (state : State) :
    service.Ends exec Fits
      { client := .running program, toServer := {}, server := .reading session, toClient := {}
        turn := turn } state := by
  induction program generalizing session turn state with
  | done value => exact ends_done rfl
  | call request next ih =>
      obtain ⟨⟨reads, once⟩, rest⟩ := callable
      apply ends_after .asks (by decide)
      apply ends_after (.towardsServer (service.requests.write request).length) (by simp)
      apply ends_after .reads (by decide)
      have landed : (({} : Channel Byte).send (service.requests.write request)).deliver
          (service.requests.write request).length =
            { flying := [], arrived := service.requests.write request } := by
        simp [Channel.send, Channel.deliver]
      simp only [Service.move, landed, reads.takes]
      apply served_ends carried _ (once turn session)
      exact fun answer session turn state => ih answer (rest answer) session turn state

theorem Matches.ends (matched : Matches service Expected peer threads) :
    service.Ends exec Fits peer state := by
  cases matched with
  | idle program session turn callable =>
      exact idle_ends carried program callable session turn state
  | asked request next session toServer turn first callable sent =>
      apply ends_after (.towardsServer toServer.flying.length) (by simp)
      apply ends_after .reads (by decide)
      simp only [Service.move, deliver_rest, sent, first.1.takes]
      apply served_ends carried _ (first.2 turn session)
      exact fun answer session turn state =>
        idle_ends carried _ (callable answer) session turn state
  | served next program turn callable once =>
      apply served_ends carried program once
      exact fun answer session turn state =>
        idle_ends carried _ (callable answer) session turn state
  | answered answer next session toClient turn callable carries sent =>
      exact answer_ends carries sent (idle_ends carried _ (callable _) session turn state)
  | last answer next toServer toClient turn carries sent =>
      exact answer_ends carries sent (alone_ends _ toServer turn state)
  | lost next toServer turn => exact lost_ends next toServer turn state
  | alone program toServer turn => exact alone_ends program toServer turn state

end Endings

end Refinement

section Networks

variable {Connection : Type*}

/-- Connections that have just been made. -/
def start (sessions : Connection → Session) (clients : Connection → Calls Request Answer Value)
    (state : State) : Network Connection Op Result Request Answer Session Value Byte State where
  peers connection :=
    { client := .running (clients connection), toServer := {}
      server := .reading (sessions connection), toClient := {}, turn := 0 }
  state := state

/-- The clients as programs that perform their calls themselves. -/
def localPool (sessions : Connection → Session)
    (clients : Connection → Calls Request Answer Value) (state : State) :
    Program.Pool Connection Op Result Value State where
  threads connection := service.localCalls 0 (sessions connection) (clients connection)
  state := state

variable {service exec} {Expected Fits : Answer → Prop}
variable {threads : Connection → Option Nat → Program Op Result Value}

/-- The connections stand where the clients' own programs have come to. -/
def Standing (service : Service Op Result Request Answer Session Byte) (Expected : Answer → Prop)
    (network : Network Connection Op Result Request Answer Session Value Byte State)
    (threads : Connection → Option Nat → Program Op Result Value) : Prop :=
  ∀ connection, Matches service Expected (network.peers connection) (threads connection)

theorem start_standing {sessions : Connection → Session}
    {clients : Connection → Calls Request Answer Value}
    (callable : ∀ connection, (clients connection).Issues (service.Callable Expected))
    (state : State) :
    Standing service Expected (start sessions clients state :
        Network Connection Op Result Request Answer Session Value Byte State)
      fun connection limit =>
        service.localCalls 0 (sessions connection) (cutOff limit (clients connection)) :=
  fun connection => .idle _ _ 0 (callable connection)

def poolOf (threads : Connection → Option Nat → Program Op Result Value)
    (limits : Connection → Option Nat) (state : State) :
    Program.Pool Connection Op Result Value State where
  threads connection := threads connection (limits connection)
  state := state

variable [DecidableEq Connection]

theorem pool_of_update (connection : Connection) (after : Option Nat → Program Op Result Value)
    (limits : Connection → Option Nat) (past : Option Nat) (state : State) :
    poolOf (Function.update threads connection after) limits state =
      { threads := Function.update
          (poolOf threads (Function.update limits connection past) state).threads connection
            (after (limits connection))
        state := state } := by
  simp only [poolOf]
  congr
  funext other
  by_cases mine : other = connection
  · subst mine
    simp only [Function.update_self]
  · simp only [Function.update_of_ne mine]

variable (service exec)

/-- The connection whose turn it is makes its move. -/
def step (network : Network Connection Op Result Request Answer Session Value Byte State)
    (event : Connection × Move) :
    Network Connection Op Result Request Answer Session Value Byte State :=
  let moved := service.move exec (network.peers event.1) network.state event.2
  { peers := Function.update network.peers event.1 moved.1, state := moved.2 }

variable {service exec}
variable {network : Network Connection Op Result Request Answer Session Value Byte State}

/-- Cut off as they will have to be, the clients' own programs get from where the network
stands to where it comes. -/
def Leads (exec : (op : Op) → State → Result op × State)
    (network reached : Network Connection Op Result Request Answer Session Value Byte State)
    (threads after : Connection → Option Nat → Program Op Result Value)
    (schedule : List (Connection × Move)) : Prop :=
  ∀ limits : Connection → Option Nat, ∃ before : Connection → Option Nat,
    (∀ connection, (connection, .closes) ∉ schedule → limits connection = none →
      before connection = none) ∧
      ∃ calls : List Connection,
        Program.interleave exec (poolOf threads before network.state) calls =
          poolOf after limits reached.state

/-- The step lemma of the refinement. -/
theorem step_leads (carried : service.AnswersCarried Expected Fits)
    (standing : Standing service Expected network threads) {event : Connection × Move}
    (fit : AnswersFit Fits (network.peers event.1) event.2) :
    ∃ after, Standing service Expected (service.step exec network event) after ∧
      Leads exec network (service.step exec network event) threads after [event] := by
  obtain ⟨connection, move⟩ := event
  have followed : Followed service exec Expected (threads connection) network.state move
      (service.move exec (network.peers connection) network.state move) :=
    move_followed carried (standing connection) network.state fit
  obtain ⟨after, matched, past, unlimited, moved⟩ := followed
  refine ⟨Function.update threads connection after, ?_, ?_⟩
  · intro other
    by_cases mine : other = connection
    · subst mine
      simpa only [step, Function.update_self] using matched
    · simpa only [step, Function.update_of_ne mine] using standing other
  · intro limits
    refine ⟨Function.update limits connection (past (limits connection)), ?_, ?_⟩
    · intro other going none_yet
      by_cases mine : other = connection
      · subst mine
        have open_still : move ≠ .closes := by
          rintro rfl
          exact going (List.mem_singleton_self _)
        rw [Function.update_self, none_yet, unlimited open_still]
      · rw [Function.update_of_ne mine, none_yet]
    · rw [pool_of_update connection after limits (past (limits connection))]
      rcases moved with ⟨pausing, same⟩ | ⟨op, next, performing, same⟩
      · refine ⟨[], ?_⟩
        have unmoved : (poolOf threads (Function.update limits connection
            (past (limits connection))) network.state).threads connection =
              after (limits connection) := by
          simp only [poolOf, Function.update_self]
          exact pausing _
        have unchanged : (service.step exec network (connection, move)).state = network.state :=
          same
        rw [unchanged, ← unmoved, Function.update_eq_self]
        rfl
      · refine ⟨[connection], ?_⟩
        have pending : (poolOf threads (Function.update limits connection
            (past (limits connection))) network.state).threads connection =
              .call op (next (limits connection)) := by
          simp only [poolOf, Function.update_self]
          exact (performing _).1
        rw [(performing _).2]
        simp only [step, same]
        exact Program.advance_call exec pending

/-- The run rule: what the connections do is an interleaving of the clients' own programs. -/
theorem run_leads (carried : service.AnswersCarried Expected Fits)
    (standing : Standing service Expected network threads) {schedule : List (Connection × Move)}
    (fit : Along (service.step exec)
      (fun reached event => AnswersFit Fits (reached.peers event.1) event.2) network schedule) :
    ∃ after, Standing service Expected (schedule.foldl (service.step exec) network) after ∧
      Leads exec network (schedule.foldl (service.step exec) network) threads after schedule := by
  induction schedule generalizing network threads with
  | nil => exact ⟨threads, standing, fun limits => ⟨limits, fun _ _ same => same, [], rfl⟩⟩
  | cons event rest ih =>
      obtain ⟨middle, standingFirst, first⟩ := step_leads carried standing fit.1
      obtain ⟨after, standingLater, later⟩ := ih standingFirst fit.2
      refine ⟨after, standingLater, ?_⟩
      intro limits
      obtain ⟨between, openLater, callsLater, reachedLater⟩ := later limits
      obtain ⟨before, openFirst, callsFirst, reachedFirst⟩ := first between
      refine ⟨before, ?_, callsFirst ++ callsLater, ?_⟩
      · intro connection going unlimited
        rw [List.mem_cons, not_or] at going
        exact openFirst connection (by simpa using going.1)
          (openLater connection going.2 unlimited)
      · rw [← List.foldl_cons] at reachedLater
        rw [← reachedLater, ← reachedFirst, Program.interleave, Program.interleave,
          Program.interleave, List.foldl_append]

/-- Moves of one connection in the network. -/
theorem moves_peer (connection : Connection) (moves : List Move) :
    ((moves.map fun move => (connection, move)).foldl (service.step exec) network).peers
        connection =
      (moves.foldl (fun reached move => service.move exec reached.1 reached.2 move)
        (network.peers connection, network.state)).1 := by
  induction moves generalizing network with
  | nil => rfl
  | cons move rest ih =>
      rw [List.map_cons, List.foldl_cons, List.foldl_cons, ih]
      simp only [step, Function.update_self]

end Networks

end Service

end SimpleLdapd
