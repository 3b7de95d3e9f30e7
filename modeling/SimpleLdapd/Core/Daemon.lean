import SimpleLdapd.Core.SessionThreads
import SimpleLdapd.Library.RunningDown

/-!
# The daemon and its session threads (`core/daemon.cpp`)

One thread accepts connections and starts a thread for each session, another one calls
`start` and `stop`. The steps of all of them interleave: the accept loop, the scan and the
joins of `reapWorkers`, the check against `max_sessions`, the start of the thread and its
entry into `workers_` are separate steps, and so are those of the sessions and of their
clients. The listeners deliver whatever connections they like. Of the two threads that take
`workers_mutex_`, `stop` comes to its turn only after the accept thread is joined.
-/

namespace SimpleLdapd

open Dn Message

/-- A connection as it comes from a listener; with LDAPS also how its handshake ends if
the client goes through with it. -/
structure AcceptedConnection where
  ldaps : Bool := false
  handshake : Bool := true

/-- A `std::thread` of a session. After `finished->store(true)` it only has to return. -/
inductive SessionThread where
  | serving (session : OpenSession)
  | finished
  | exited
  | joined

namespace SessionThread

/-- `finished->load()`. -/
def flag : SessionThread → Bool
  | serving _ => false
  | finished => true
  | exited => true
  | joined => true

def isServing : SessionThread → Bool
  | serving _ => true
  | finished => false
  | exited => false
  | joined => false

def isJoined : SessionThread → Bool
  | serving _ => false
  | finished => false
  | exited => false
  | joined => true

end SessionThread

/-- Where the accept thread stands. From `reaping` to `pushing` it is in `launchSession`;
`reaped` are the threads that `reapWorkers` has moved out of `workers_`. -/
inductive AcceptLoop where
  | absent
  | polling
  | accepting (ldaps : Bool)
  | reaping (connection : AcceptedConnection) (index : Nat) (reaped : List Nat)
  | joining (connection : AcceptedConnection) (reaped : List Nat)
  | counting (connection : AcceptedConnection)
  | spawning (connection : AcceptedConnection)
  | pushing (ldaps : Bool) (worker : Nat)
  | ended

/-- Where the thread that owns the daemon stands in `stop`. -/
inductive StopCall where
  | idle
  | waiting
  | collecting
  | joining (live : List Nat)

/-- The connection in the hands of the loop that has no session yet. -/
def AcceptLoop.incoming : AcceptLoop → List AcceptedConnection
  | reaping connection _ _ => [connection]
  | joining connection _ => [connection]
  | counting connection => [connection]
  | spawning connection => [connection]
  | _ => []

/-- Only where a listener is polled can a connection arrive, and then one of this listener. -/
def AcceptLoop.takes : AcceptLoop → Option AcceptedConnection → Bool
  | _, none => true
  | accepting ldaps, some connection => connection.ldaps == ldaps
  | _, some _ => false

/-- The handles outside of `workers_` that the accept thread is to join or to enter there. -/
def AcceptLoop.held : AcceptLoop → List Nat
  | absent => []
  | polling => []
  | accepting _ => []
  | reaping _ _ reaped => reaped
  | joining _ reaped => reaped
  | counting _ => []
  | spawning _ => []
  | pushing _ worker => [worker]
  | ended => []

def StopCall.held : StopCall → List Nat
  | idle => []
  | waiting => []
  | collecting => []
  | joining live => live

/-- Threads that are to be counted as workers though they are not entered yet. -/
def AcceptLoop.pending : AcceptLoop → Nat
  | spawning _ => 1
  | pushing _ _ => 1
  | _ => 0

/-- The accept thread is joined by now. -/
def StopCall.Past : StopCall → Prop
  | collecting => True
  | joining _ => True
  | _ => False

/-- The threads taken out of `workers_` to be joined by the accept thread. -/
def AcceptLoop.reaped : AcceptLoop → List Nat
  | reaping _ _ reaped => reaped
  | joining _ reaped => reaped
  | _ => []

/-- The thread that is not in `workers_` yet. -/
def AcceptLoop.entering : AcceptLoop → List Nat
  | pushing _ worker => [worker]
  | _ => []

section Handles

variable (connection : AcceptedConnection) (ldaps : Bool) (index worker : Nat) (handles : List Nat)

@[simp] theorem AcceptLoop.held_absent : absent.held = [] := rfl
@[simp] theorem AcceptLoop.held_polling : polling.held = [] := rfl
@[simp] theorem AcceptLoop.held_accepting : (accepting ldaps).held = [] := rfl
@[simp] theorem AcceptLoop.held_reaping : (reaping connection index handles).held = handles := rfl
@[simp] theorem AcceptLoop.held_joining : (joining connection handles).held = handles := rfl
@[simp] theorem AcceptLoop.held_counting : (counting connection).held = [] := rfl
@[simp] theorem AcceptLoop.held_spawning : (spawning connection).held = [] := rfl
@[simp] theorem AcceptLoop.held_pushing : (pushing ldaps worker).held = [worker] := rfl
@[simp] theorem AcceptLoop.held_ended : ended.held = [] := rfl

@[simp] theorem StopCall.held_idle : idle.held = [] := rfl
@[simp] theorem StopCall.held_waiting : waiting.held = [] := rfl
@[simp] theorem StopCall.held_collecting : collecting.held = [] := rfl
@[simp] theorem StopCall.held_joining : (joining handles).held = handles := rfl

theorem AcceptLoop.held_eq (acceptor : AcceptLoop) :
    acceptor.held = acceptor.reaped ++ acceptor.entering := by
  cases acceptor with
  | reaping connection index reaped => exact (List.append_nil reaped).symm
  | joining connection reaped => exact (List.append_nil reaped).symm
  | _ => rfl

theorem AcceptLoop.entering_length (acceptor : AcceptLoop) :
    acceptor.entering.length ≤ acceptor.pending := by
  cases acceptor with
  | pushing ldaps worker => exact Nat.le_refl 1
  | _ => exact Nat.zero_le _

theorem StopCall.held_of_not_past {stopping : StopCall} (early : ¬ stopping.Past) :
    stopping.held = [] := by
  cases stopping with
  | joining live => exact absurd trivial early
  | _ => rfl

end Handles

/-- Session threads are numbered in the order they were started. -/
structure LdapDaemon (Store : Type) where
  store : Store
  running : Bool := false
  acceptor : AcceptLoop := .absent
  stopping : StopCall := .idle
  workers : List Nat := []
  threads : List SessionThread := []

inductive DaemonMove where
  | start
  | stop
  | stopper
  | acceptor (arrived : Option AcceptedConnection)
  | session (thread : Nat) (move : SessionMove)
  | performs (thread : Nat)
  | finish (thread : Nat)
  | leave (thread : Nat)

namespace DaemonMove

/-- The connection that a listener delivers with the move. -/
def arrived : DaemonMove → List AcceptedConnection
  | acceptor (some connection) => [connection]
  | _ => []

/-- The session that the move is one of, and what happens there. -/
def acted : DaemonMove → Option (Nat × SessionMove)
  | session thread move => some (thread, move)
  | _ => none

def isClient : DaemonMove → Bool
  | session _ move => move.isClient
  | _ => false

end DaemonMove

namespace LdapDaemon

variable (settings : DaemonSettings) {Store : Type}
variable (exec : (call : BackendCall) → Store → call.Answer × Store)

def serveConnection (connection : AcceptedConnection) : OpenSession where
  phase := if connection.ldaps then .handshaking connection.handshake else .checking {}

/-- `thread.join()`. -/
def join (daemon : LdapDaemon Store) (thread : Nat) : Option (LdapDaemon Store) :=
  match daemon.threads[thread]? with
  | some .exited => some { daemon with threads := daemon.threads.set thread .joined }
  | _ => none

/-- The rest of a turn of the accept loop once a listener has been served. -/
def afterListener (ldaps : Bool) : AcceptLoop :=
  if !ldaps && settings.enableLdaps then .accepting true else .polling

def flagged (daemon : LdapDaemon Store) (thread : Nat) : Bool :=
  match daemon.threads[thread]? with
  | some status => status.flag
  | none => false

/-- A step of `acceptLoop`. -/
def acceptStep (arrived : Option AcceptedConnection) (daemon : LdapDaemon Store) :
    Option (LdapDaemon Store) :=
  match daemon.acceptor with
  | .absent => none
  | .polling =>
      some { daemon with acceptor := if daemon.running then .accepting false else .ended }
  | .accepting ldaps =>
      match arrived with
      | none => some { daemon with acceptor := afterListener settings ldaps }
      | some connection => some { daemon with acceptor := .reaping connection 0 [] }
  | .reaping connection index reaped =>
      match daemon.workers[index]? with
      | none => some { daemon with acceptor := .joining connection reaped }
      | some worker =>
          if daemon.flagged worker then
            some { daemon with
              workers := daemon.workers.eraseIdx index
              acceptor := .reaping connection index (reaped ++ [worker]) }
          else some { daemon with acceptor := .reaping connection (index + 1) reaped }
  | .joining connection [] => some { daemon with acceptor := .counting connection }
  | .joining connection (worker :: rest) =>
      (daemon.join worker).map fun joined => { joined with acceptor := .joining connection rest }
  | .counting connection =>
      if 0 < settings.maxSessions ∧ settings.maxSessions ≤ daemon.workers.length then
        some { daemon with acceptor := afterListener settings connection.ldaps }
      else some { daemon with acceptor := .spawning connection }
  | .spawning connection =>
      some { daemon with
        threads := daemon.threads ++ [.serving (serveConnection connection)]
        acceptor := .pushing connection.ldaps daemon.threads.length }
  | .pushing ldaps worker =>
      some { daemon with
        workers := daemon.workers ++ [worker]
        acceptor := afterListener settings ldaps }
  | .ended => none

/-- A step of `stop` behind `running_ = false` and the end of the listeners. -/
def stopStep (daemon : LdapDaemon Store) : Option (LdapDaemon Store) :=
  match daemon.stopping with
  | .idle => none
  | .waiting =>
      match daemon.acceptor with
      | .absent => some { daemon with stopping := .collecting }
      | .ended => some { daemon with acceptor := .absent, stopping := .collecting }
      | _ => none
  | .collecting => some { daemon with workers := [], stopping := .joining daemon.workers }
  | .joining [] => some { daemon with stopping := .idle }
  | .joining (worker :: rest) =>
      (daemon.join worker).map fun joined => { joined with stopping := .joining rest }

/-- `start` is called only where the daemon has not been started or has been stopped. -/
def step (daemon : LdapDaemon Store) : DaemonMove → Option (LdapDaemon Store)
  | .start =>
      match daemon.stopping, daemon.acceptor with
      | .idle, .absent => some { daemon with running := true, acceptor := .polling }
      | _, _ => none
  | .stop =>
      match daemon.stopping with
      | .idle => some { daemon with running := false, stopping := .waiting }
      | _ => none
  | .stopper => stopStep daemon
  | .acceptor arrived =>
      if daemon.acceptor.takes arrived then acceptStep settings arrived daemon else none
  | .session thread move =>
      match daemon.threads[thread]? with
      | some (.serving session) =>
          (session.move settings daemon.running move).map fun after =>
            { daemon with threads := daemon.threads.set thread (.serving after) }
      | _ => none
  | .performs thread =>
      match daemon.threads[thread]? with
      | some (.serving session) =>
          match session.phase with
          | .handling (.call call next) =>
              some { daemon with
                threads := daemon.threads.set thread
                  (.serving { session with phase := .handling (next (exec call daemon.store).1) })
                store := (exec call daemon.store).2 }
          | _ => none
      | _ => none
  | .finish thread =>
      match daemon.threads[thread]? with
      | some (.serving session) =>
          match session.phase with
          | .returned => some { daemon with threads := daemon.threads.set thread .finished }
          | _ => none
      | _ => none
  | .leave thread =>
      match daemon.threads[thread]? with
      | some .finished => some { daemon with threads := daemon.threads.set thread .exited }
      | _ => none

/-- The handles of threads that are not joined yet. -/
def held (daemon : LdapDaemon Store) : List Nat :=
  daemon.workers ++ daemon.acceptor.held ++ daemon.stopping.held

section Threads

variable {settings exec} {daemon next : LdapDaemon Store}

/-- What one step does to the threads, the store and the handles that are held. -/
inductive Effect (settings : DaemonSettings)
    (exec : (call : BackendCall) → Store → call.Answer × Store) (move : DaemonMove)
    (daemon next : LdapDaemon Store) : Prop where
  | passed (threads : next.threads = daemon.threads) (store : next.store = daemon.store)
      (held : next.held.Perm daemon.held) (quiet : move.acted = none)
  | started (connection : AcceptedConnection)
      (threads : next.threads = daemon.threads ++ [.serving (serveConnection connection)])
      (store : next.store = daemon.store)
      (held : next.held.Perm (daemon.threads.length :: daemon.held)) (quiet : move.acted = none)
      (taken : daemon.acceptor.incoming = [connection]) (left : next.acceptor.incoming = [])
  | moved (thread : Nat) (act : SessionMove) (session after : OpenSession)
      (acted : move.acted = some (thread, act))
      (there : daemon.threads[thread]? = some (.serving session))
      (moves : session.move settings daemon.running act = some after)
      (threads : next.threads = daemon.threads.set thread (.serving after))
      (store : next.store = daemon.store) (held : next.held = daemon.held)
  | served (thread : Nat) (session : OpenSession) (call : BackendCall)
      (rest : call.Answer → BackendProgram (Option Session.Reply))
      (there : daemon.threads[thread]? = some (.serving session))
      (phase : session.phase = .handling (.call call rest))
      (threads : next.threads = daemon.threads.set thread
        (.serving { session with phase := .handling (rest (exec call daemon.store).1) }))
      (store : next.store = (exec call daemon.store).2) (held : next.held = daemon.held)
      (quiet : move.acted = none)
  | ended (thread : Nat) (session : OpenSession)
      (there : daemon.threads[thread]? = some (.serving session))
      (returned : session.phase = .returned)
      (threads : next.threads = daemon.threads.set thread .finished)
      (store : next.store = daemon.store) (held : next.held = daemon.held)
      (quiet : move.acted = none)
  | left (thread : Nat) (there : daemon.threads[thread]? = some .finished)
      (threads : next.threads = daemon.threads.set thread .exited)
      (store : next.store = daemon.store) (held : next.held = daemon.held)
      (quiet : move.acted = none)
  | joined (thread : Nat) (there : daemon.threads[thread]? = some .exited)
      (threads : next.threads = daemon.threads.set thread .joined)
      (store : next.store = daemon.store) (held : daemon.held.Perm (thread :: next.held))
      (quiet : move.acted = none)

theorem join_cases {thread : Nat} {joined : LdapDaemon Store}
    (done : daemon.join thread = some joined) :
    daemon.threads[thread]? = some .exited ∧
      joined = { daemon with threads := daemon.threads.set thread .joined } := by
  unfold join at done
  split at done
  · rename_i there
    exact ⟨there, (Option.some.inj done).symm⟩
  · cases done

theorem after_listener_cases (settings : DaemonSettings) (ldaps : Bool) :
    afterListener settings ldaps = .accepting true ∨ afterListener settings ldaps = .polling := by
  unfold afterListener
  split
  · exact Or.inl rfl
  · exact Or.inr rfl

/-- What the accept loop does in a step, branch by branch. -/
inductive AcceptTurn (settings : DaemonSettings) (daemon : LdapDaemon Store) :
    Option AcceptedConnection → LdapDaemon Store → Prop where
  | polls {arrived : Option AcceptedConnection} (here : daemon.acceptor = .polling)
      (running : daemon.running = true) :
      AcceptTurn settings daemon arrived { daemon with acceptor := .accepting false }
  | ends {arrived : Option AcceptedConnection} (here : daemon.acceptor = .polling)
      (halted : daemon.running = false) :
      AcceptTurn settings daemon arrived { daemon with acceptor := .ended }
  | findsNone {ldaps : Bool} (here : daemon.acceptor = .accepting ldaps) :
      AcceptTurn settings daemon none { daemon with acceptor := afterListener settings ldaps }
  | accepts {ldaps : Bool} {connection : AcceptedConnection}
      (here : daemon.acceptor = .accepting ldaps) :
      AcceptTurn settings daemon (some connection)
        { daemon with acceptor := .reaping connection 0 [] }
  | scanned {arrived : Option AcceptedConnection} {connection : AcceptedConnection} {index : Nat}
      {reaped : List Nat} (here : daemon.acceptor = .reaping connection index reaped) :
      AcceptTurn settings daemon arrived { daemon with acceptor := .joining connection reaped }
  | reaps {arrived : Option AcceptedConnection} {connection : AcceptedConnection}
      {index worker : Nat} {reaped : List Nat}
      (here : daemon.acceptor = .reaping connection index reaped)
      (found : daemon.workers[index]? = some worker) (flag : daemon.flagged worker = true) :
      AcceptTurn settings daemon arrived
        { daemon with
          workers := daemon.workers.eraseIdx index
          acceptor := .reaping connection index (reaped ++ [worker]) }
  | skips {arrived : Option AcceptedConnection} {connection : AcceptedConnection}
      {index worker : Nat} {reaped : List Nat}
      (here : daemon.acceptor = .reaping connection index reaped)
      (found : daemon.workers[index]? = some worker) :
      AcceptTurn settings daemon arrived
        { daemon with acceptor := .reaping connection (index + 1) reaped }
  | reaped {arrived : Option AcceptedConnection} {connection : AcceptedConnection}
      (here : daemon.acceptor = .joining connection []) :
      AcceptTurn settings daemon arrived { daemon with acceptor := .counting connection }
  | joins {arrived : Option AcceptedConnection} {connection : AcceptedConnection} {worker : Nat}
      {rest : List Nat} (here : daemon.acceptor = .joining connection (worker :: rest))
      (there : daemon.threads[worker]? = some .exited) :
      AcceptTurn settings daemon arrived
        { daemon with
          threads := daemon.threads.set worker .joined
          acceptor := .joining connection rest }
  | rejects {arrived : Option AcceptedConnection} {connection : AcceptedConnection}
      (here : daemon.acceptor = .counting connection) :
      AcceptTurn settings daemon arrived
        { daemon with acceptor := afterListener settings connection.ldaps }
  | admits {arrived : Option AcceptedConnection} {connection : AcceptedConnection}
      (here : daemon.acceptor = .counting connection)
      (free : ¬ (0 < settings.maxSessions ∧ settings.maxSessions ≤ daemon.workers.length)) :
      AcceptTurn settings daemon arrived { daemon with acceptor := .spawning connection }
  | spawns {arrived : Option AcceptedConnection} {connection : AcceptedConnection}
      (here : daemon.acceptor = .spawning connection) :
      AcceptTurn settings daemon arrived
        { daemon with
          threads := daemon.threads ++ [.serving (serveConnection connection)]
          acceptor := .pushing connection.ldaps daemon.threads.length }
  | pushes {arrived : Option AcceptedConnection} {ldaps : Bool} {worker : Nat}
      (here : daemon.acceptor = .pushing ldaps worker) :
      AcceptTurn settings daemon arrived
        { daemon with
          workers := daemon.workers ++ [worker]
          acceptor := afterListener settings ldaps }

theorem accept_turn {arrived : Option AcceptedConnection}
    (moved : acceptStep settings arrived daemon = some next) :
    AcceptTurn settings daemon arrived next := by
  unfold acceptStep at moved
  split at moved
  · cases moved
  · rename_i here
    cases moved
    by_cases running : daemon.running = true
    · rw [if_pos running]
      exact .polls here running
    · rw [if_neg running]
      exact .ends here (Bool.eq_false_of_not_eq_true running)
  · rename_i here
    split at moved
    · cases moved
      exact .findsNone here
    · cases moved
      exact .accepts here
  · rename_i here
    split at moved
    · cases moved
      exact .scanned here
    · rename_i found
      split at moved
      · rename_i flag
        cases moved
        exact .reaps here found flag
      · cases moved
        exact .skips here found
  · rename_i here
    cases moved
    exact .reaped here
  · rename_i here
    obtain ⟨joined, done, same⟩ := Option.map_eq_some_iff.mp moved
    obtain ⟨there, rfl⟩ := join_cases done
    cases same
    exact .joins here there
  · rename_i here
    split at moved
    · cases moved
      exact .rejects here
    · rename_i free
      cases moved
      exact .admits here free
  · rename_i here
    cases moved
    exact .spawns here
  · rename_i here
    cases moved
    exact .pushes here
  · cases moved

/-- What `stop` does in a step. -/
inductive StopTurn (daemon : LdapDaemon Store) : LdapDaemon Store → Prop where
  | findsNone (here : daemon.stopping = .waiting) (absent : daemon.acceptor = .absent) :
      StopTurn daemon { daemon with stopping := .collecting }
  | joinsAcceptor (here : daemon.stopping = .waiting) (ended : daemon.acceptor = .ended) :
      StopTurn daemon { daemon with acceptor := .absent, stopping := .collecting }
  | collects (here : daemon.stopping = .collecting) :
      StopTurn daemon { daemon with workers := [], stopping := .joining daemon.workers }
  | returns (here : daemon.stopping = .joining []) :
      StopTurn daemon { daemon with stopping := .idle }
  | joins {worker : Nat} {rest : List Nat} (here : daemon.stopping = .joining (worker :: rest))
      (there : daemon.threads[worker]? = some .exited) :
      StopTurn daemon
        { daemon with
          threads := daemon.threads.set worker .joined
          stopping := .joining rest }

theorem stop_turn (moved : stopStep daemon = some next) : StopTurn daemon next := by
  unfold stopStep at moved
  split at moved
  · cases moved
  · rename_i here
    split at moved
    · rename_i absent
      cases moved
      exact .findsNone here absent
    · rename_i ended
      cases moved
      exact .joinsAcceptor here ended
    · cases moved
  · rename_i here
    cases moved
    exact .collects here
  · rename_i here
    cases moved
    exact .returns here
  · rename_i here
    obtain ⟨joined, done, same⟩ := Option.map_eq_some_iff.mp moved
    obtain ⟨there, rfl⟩ := join_cases done
    cases same
    exact .joins here there

/-- What a move does. -/
inductive Turn (settings : DaemonSettings)
    (exec : (call : BackendCall) → Store → call.Answer × Store) (daemon : LdapDaemon Store) :
    DaemonMove → LdapDaemon Store → Prop where
  | start (idle : daemon.stopping = .idle) (absent : daemon.acceptor = .absent) :
      Turn settings exec daemon .start { daemon with running := true, acceptor := .polling }
  | stop (idle : daemon.stopping = .idle) :
      Turn settings exec daemon .stop { daemon with running := false, stopping := .waiting }
  | stopper {next : LdapDaemon Store} (turn : StopTurn daemon next) :
      Turn settings exec daemon .stopper next
  | acceptor {arrived : Option AcceptedConnection} {next : LdapDaemon Store}
      (takes : daemon.acceptor.takes arrived = true)
      (turn : AcceptTurn settings daemon arrived next) :
      Turn settings exec daemon (.acceptor arrived) next
  | session {thread : Nat} {act : SessionMove} {before after : OpenSession}
      (there : daemon.threads[thread]? = some (.serving before))
      (moves : before.move settings daemon.running act = some after) :
      Turn settings exec daemon (.session thread act)
        { daemon with threads := daemon.threads.set thread (.serving after) }
  | performs {thread : Nat} {before : OpenSession} {call : BackendCall}
      {rest : call.Answer → BackendProgram (Option Session.Reply)}
      (there : daemon.threads[thread]? = some (.serving before))
      (phase : before.phase = .handling (.call call rest)) :
      Turn settings exec daemon (.performs thread)
        { daemon with
          threads := daemon.threads.set thread
            (.serving { before with phase := .handling (rest (exec call daemon.store).1) })
          store := (exec call daemon.store).2 }
  | finish {thread : Nat} {before : OpenSession}
      (there : daemon.threads[thread]? = some (.serving before))
      (returned : before.phase = .returned) :
      Turn settings exec daemon (.finish thread)
        { daemon with threads := daemon.threads.set thread .finished }
  | leave {thread : Nat} (there : daemon.threads[thread]? = some .finished) :
      Turn settings exec daemon (.leave thread)
        { daemon with threads := daemon.threads.set thread .exited }

/-- The one place where a step is taken apart. -/
theorem step_turn {move : DaemonMove} (moved : step settings exec daemon move = some next) :
    Turn settings exec daemon move next := by
  cases move with
  | start =>
      simp only [step] at moved
      split at moved
      · rename_i idle absent
        cases moved
        exact .start idle absent
      · cases moved
  | stop =>
      simp only [step] at moved
      split at moved
      · rename_i idle
        cases moved
        exact .stop idle
      · cases moved
  | stopper => exact .stopper (stop_turn moved)
  | acceptor arrived =>
      simp only [step] at moved
      split at moved
      · rename_i takes
        exact .acceptor takes (accept_turn moved)
      · cases moved
  | session thread act =>
      simp only [step] at moved
      split at moved
      · rename_i there
        obtain ⟨after, moves, same⟩ := Option.map_eq_some_iff.mp moved
        cases same
        exact .session there moves
      · cases moved
  | performs thread =>
      simp only [step] at moved
      split at moved
      · rename_i there
        split at moved
        · rename_i phase
          cases moved
          exact .performs there phase
        · cases moved
      · cases moved
  | finish thread =>
      simp only [step] at moved
      split at moved
      · rename_i there
        split at moved
        · rename_i returned
          cases moved
          exact .finish there returned
        · cases moved
      · cases moved
  | leave thread =>
      simp only [step] at moved
      split at moved
      · rename_i there
        cases moved
        exact .leave there
      · cases moved

@[simp] theorem after_listener_held (ldaps : Bool) : (afterListener settings ldaps).held = [] := by
  rcases after_listener_cases settings ldaps with goesOn | polls
  · rw [goesOn, AcceptLoop.held_accepting]
  · rw [polls, AcceptLoop.held_polling]

theorem AcceptTurn.effect {arrived : Option AcceptedConnection}
    (turn : AcceptTurn settings daemon arrived next) :
    Effect settings exec (.acceptor arrived) daemon next := by
  cases turn with
  | polls here _ => exact .passed rfl rfl (by simp [held, here]) rfl
  | ends here _ => exact .passed rfl rfl (by simp [held, here]) rfl
  | findsNone here => exact .passed rfl rfl (by simp [held, here]) rfl
  | accepts here => exact .passed rfl rfl (by simp [held, here]) rfl
  | scanned here => exact .passed rfl rfl (by simp [held, here]) rfl
  | @reaps _ _ index worker reaped here found _ =>
      obtain ⟨inside, same⟩ := List.getElem?_eq_some_iff.mp found
      have taken := List.getElem_cons_eraseIdx_perm inside
      rw [same] at taken
      refine .passed rfl rfl ?_ rfl
      simp only [held, here, AcceptLoop.held_reaping]
      apply List.Perm.append_right
      rw [← List.append_assoc]
      exact (List.perm_append_singleton worker _).trans (taken.append_right reaped)
  | skips here _ => exact .passed rfl rfl (by simp [held, here]) rfl
  | reaped here => exact .passed rfl rfl (by simp [held, here]) rfl
  | joins here there =>
      refine .joined _ there rfl rfl ?_ rfl
      simp only [held, here, AcceptLoop.held_joining]
      exact List.Perm.append_right _ List.perm_middle
  | rejects here => exact .passed rfl rfl (by simp [held, here]) rfl
  | admits here _ => exact .passed rfl rfl (by simp [held, here]) rfl
  | spawns here =>
      refine .started _ rfl rfl ?_ rfl (by rw [here]; rfl) rfl
      simp only [held, here, AcceptLoop.held, List.append_nil]
      exact List.Perm.append_right _ (List.perm_append_singleton _ _)
  | pushes here => exact .passed rfl rfl (by simp [held, here]) rfl

theorem StopTurn.effect (turn : StopTurn daemon next) :
    Effect settings exec .stopper daemon next := by
  cases turn with
  | findsNone here _ => exact .passed rfl rfl (by simp [held, here]) rfl
  | joinsAcceptor here ended => exact .passed rfl rfl (by simp [held, here, ended]) rfl
  | collects here =>
      refine .passed rfl rfl ?_ rfl
      simp only [held, here, StopCall.held_collecting, StopCall.held_joining, List.nil_append,
        List.append_nil]
      exact List.perm_append_comm
  | returns here => exact .passed rfl rfl (by simp [held, here]) rfl
  | joins here there =>
      refine .joined _ there rfl rfl ?_ rfl
      simp only [held, here, StopCall.held_joining]
      exact List.perm_middle

theorem step_effect {move : DaemonMove} (moved : step settings exec daemon move = some next) :
    Effect settings exec move daemon next := by
  cases step_turn moved with
  | start idle absent => exact .passed rfl rfl (by simp [held, absent]) rfl
  | stop idle => exact .passed rfl rfl (by simp [held, idle]) rfl
  | stopper turn => exact turn.effect
  | acceptor _ turn => exact turn.effect
  | session there moves => exact .moved _ _ _ _ rfl there moves rfl rfl rfl
  | performs there phase => exact .served _ _ _ _ there phase rfl rfl rfl rfl
  | finish there returned => exact .ended _ _ there returned rfl rfl rfl rfl
  | leave there => exact .left _ there rfl rfl rfl rfl

theorem after_listener_incoming (ldaps : Bool) : (afterListener settings ldaps).incoming = [] := by
  rcases after_listener_cases settings ldaps with goesOn | polls
  · rw [goesOn]
    rfl
  · rw [polls]
    rfl

theorem AcceptTurn.incoming {arrived : Option AcceptedConnection}
    (turn : AcceptTurn settings daemon arrived next) :
    next.acceptor.incoming.Sublist
      (daemon.acceptor.incoming ++ (DaemonMove.acceptor arrived).arrived) := by
  have none (ldaps : Bool) (before : List AcceptedConnection) :
      (afterListener settings ldaps).incoming.Sublist before := by
    rw [after_listener_incoming]
    exact List.nil_sublist before
  have kept (loop : AcceptLoop) (same : daemon.acceptor.incoming = loop.incoming) :
      loop.incoming.Sublist
        (daemon.acceptor.incoming ++ (DaemonMove.acceptor arrived).arrived) := by
    rw [same]
    exact List.sublist_append_left _ _
  cases turn with
  | polls here _ => exact List.nil_sublist _
  | ends here _ => exact List.nil_sublist _
  | findsNone here => exact none _ _
  | accepts here =>
      rw [here]
      exact List.Sublist.refl _
  | scanned here => exact kept _ (by rw [here]; rfl)
  | reaps here _ _ => exact kept _ (by rw [here]; rfl)
  | skips here _ => exact kept _ (by rw [here]; rfl)
  | reaped here => exact kept _ (by rw [here]; rfl)
  | joins here _ => exact kept _ (by rw [here]; rfl)
  | rejects here => exact none _ _
  | admits here _ => exact kept _ (by rw [here]; rfl)
  | spawns here => exact List.nil_sublist _
  | pushes here => exact none _ _

/-- A connection without a session is one that has arrived. -/
theorem step_incoming {move : DaemonMove} (moved : step settings exec daemon move = some next) :
    next.acceptor.incoming.Sublist (daemon.acceptor.incoming ++ move.arrived) := by
  have kept : daemon.acceptor.incoming.Sublist (daemon.acceptor.incoming ++ move.arrived) :=
    List.sublist_append_left _ _
  cases step_turn moved with
  | start idle absent => exact List.nil_sublist _
  | stop idle => exact kept
  | stopper turn =>
      cases turn with
      | joinsAcceptor here ended => exact List.nil_sublist _
      | _ => exact kept
  | acceptor _ turn => exact turn.incoming
  | session there moves => exact kept
  | performs there phase => exact kept
  | finish there returned => exact kept
  | leave there => exact kept

end Threads

section Custody

def Unjoined (threads : List SessionThread) (thread : Nat) : Prop :=
  ∃ status, threads[thread]? = some status ∧ status.isJoined = false

/-- The handle of a thread is held in one place until the thread is joined. -/
structure Custody (daemon : LdapDaemon Store) : Prop where
  once : daemon.held.Nodup
  unjoined : ∀ thread, thread ∈ daemon.held ↔ Unjoined daemon.threads thread

theorem unjoined_set {threads : List SessionThread} {thread : Nat} {old : SessionThread}
    (there : threads[thread]? = some old) (new : SessionThread) (other : Nat) :
    Unjoined (threads.set thread new) other ↔
      if thread = other then new.isJoined = false else Unjoined threads other := by
  unfold Unjoined
  rw [List.getElem?_set]
  split
  · rename_i same
    subst same
    simp [(List.getElem?_eq_some_iff.mp there).1]
  · rfl

theorem unjoined_concat (threads : List SessionThread) {new : SessionThread}
    (unjoined : new.isJoined = false) (thread : Nat) :
    Unjoined (threads ++ [new]) thread ↔ thread = threads.length ∨ Unjoined threads thread := by
  unfold Unjoined
  rcases Nat.lt_trichotomy thread threads.length with earlier | same | later
  · rw [List.getElem?_append_left earlier]
    simp [Nat.ne_of_lt earlier]
  · rw [same, List.getElem?_concat_length]
    simp [unjoined]
  · rw [List.getElem?_eq_none (by simp; omega), List.getElem?_eq_none (by omega)]
    simp [Nat.ne_of_gt later]

variable {settings exec} {daemon next : LdapDaemon Store}

theorem Custody.exchanged (custody : Custody daemon) {thread : Nat} {old new : SessionThread}
    (there : daemon.threads[thread]? = some old) (was : old.isJoined = false)
    (unjoined : new.isJoined = false) (threads : next.threads = daemon.threads.set thread new)
    (held : next.held = daemon.held) : Custody next := by
  refine ⟨held ▸ custody.once, ?_⟩
  intro other
  rw [held, threads, custody.unjoined, unjoined_set there]
  split
  · rename_i same
    subst same
    exact ⟨fun _ => unjoined, fun _ => ⟨old, there, was⟩⟩
  · rfl

theorem Effect.custody {move : DaemonMove} (effect : Effect settings exec move daemon next)
    (custody : Custody daemon) : Custody next := by
  cases effect with
  | passed threads _ held _ =>
      refine ⟨held.nodup_iff.mpr custody.once, ?_⟩
      intro thread
      rw [held.mem_iff, threads, custody.unjoined]
  | started connection threads _ held _ _ _ =>
      have fresh : daemon.threads.length ∉ daemon.held := by
        rw [custody.unjoined]
        intro unjoined
        obtain ⟨status, there, _⟩ := unjoined
        simp at there
      refine ⟨held.nodup_iff.mpr (List.nodup_cons.mpr ⟨fresh, custody.once⟩), ?_⟩
      intro thread
      rw [held.mem_iff, threads, List.mem_cons, custody.unjoined, unjoined_concat _ rfl]
  | moved thread act session after _ there _ threads _ held =>
      exact custody.exchanged there rfl rfl threads held
  | served thread session call rest there _ threads _ held _ =>
      exact custody.exchanged there rfl rfl threads held
  | ended thread session there _ threads _ held _ =>
      exact custody.exchanged there rfl rfl threads held
  | left thread there threads _ held _ => exact custody.exchanged there rfl rfl threads held
  | joined thread there threads _ held _ =>
      have once := held.nodup_iff.mp custody.once
      refine ⟨(List.nodup_cons.mp once).2, ?_⟩
      intro other
      have before := custody.unjoined other
      rw [held.mem_iff, List.mem_cons] at before
      rw [threads, unjoined_set there]
      split
      · rename_i same
        subst same
        simpa [SessionThread.isJoined] using (List.nodup_cons.mp once).1
      · rename_i different
        rw [← before]
        simp [Ne.symm different]

end Custody

section Control

/-- How the accept loop, `stop` and `workers_` hang together. -/
structure Orderly (daemon : LdapDaemon Store) : Prop where
  stopped : daemon.stopping ≠ .idle → daemon.running = false
  alone : daemon.stopping.Past → daemon.acceptor = .absent
  rested : daemon.stopping = .idle → daemon.running = false → daemon.acceptor = .absent
  emptied : daemon.acceptor = .absent → daemon.stopping ≠ .collecting → daemon.workers = []

variable {settings exec} {daemon next : LdapDaemon Store}

/-- The accept loop is in the hands of `start` and `stop` alone. -/
theorem AcceptTurn.control {arrived : Option AcceptedConnection}
    (turn : AcceptTurn settings daemon arrived next) :
    daemon.acceptor ≠ .absent ∧ next.acceptor ≠ .absent ∧ next.running = daemon.running ∧
      next.stopping = daemon.stopping := by
  have goesOn (ldaps : Bool) : afterListener settings ldaps ≠ .absent := by
    rcases after_listener_cases settings ldaps with accepting | polls
    · simp [accepting]
    · simp [polls]
  cases turn with
  | findsNone here => exact ⟨by simp [here], goesOn _, rfl, rfl⟩
  | rejects here => exact ⟨by simp [here], goesOn _, rfl, rfl⟩
  | pushes here => exact ⟨by simp [here], goesOn _, rfl, rfl⟩
  | polls here _ | ends here _ | accepts here | scanned here | reaps here _ _ | skips here _
  | reaped here | joins here _ | admits here _ | spawns here =>
      exact ⟨by simp [here], by simp, rfl, rfl⟩

theorem Orderly.accept (orderly : Orderly daemon) {arrived : Option AcceptedConnection}
    (turn : AcceptTurn settings daemon arrived next) : Orderly next := by
  obtain ⟨present, still, running, stopping⟩ := turn.control
  refine ⟨?_, ?_, ?_, fun absent => absurd absent still⟩
  · rw [stopping, running]
    exact orderly.stopped
  · rw [stopping]
    exact fun past => absurd (orderly.alone past) present
  · rw [stopping, running]
    exact fun idle halted => absurd (orderly.rested idle halted) present

theorem Orderly.stop (orderly : Orderly daemon) (turn : StopTurn daemon next) : Orderly next := by
  cases turn with
  | findsNone here absent =>
      have halted := orderly.stopped (by simp [here])
      exact ⟨fun _ => halted, fun _ => absent, nofun, fun _ other => absurd rfl other⟩
  | joinsAcceptor here _ =>
      have halted := orderly.stopped (by simp [here])
      exact ⟨fun _ => halted, fun _ => rfl, nofun, fun _ other => absurd rfl other⟩
  | collects here =>
      have halted := orderly.stopped (by simp [here])
      have absent := orderly.alone (by simp [here, StopCall.Past])
      exact ⟨fun _ => halted, fun _ => absent, nofun, fun _ _ => rfl⟩
  | returns here =>
      have absent := orderly.alone (by simp [here, StopCall.Past])
      have empty := orderly.emptied absent (by simp [here])
      exact ⟨fun unended => absurd rfl unended, fun _ => absent, fun _ _ => absent,
        fun _ _ => empty⟩
  | joins here _ =>
      have halted := orderly.stopped (by simp [here])
      have absent := orderly.alone (by simp [here, StopCall.Past])
      have empty := orderly.emptied absent (by simp [here])
      exact ⟨fun _ => halted, fun _ => absent, nofun, fun _ _ => empty⟩

theorem Orderly.step {move : DaemonMove} (orderly : Orderly daemon)
    (moved : step settings exec daemon move = some next) : Orderly next := by
  cases step_turn moved with
  | start idle absent =>
      exact ⟨fun unended => absurd idle unended,
        fun past => absurd past (by simp [idle, StopCall.Past]), nofun, nofun⟩
  | stop idle =>
      refine ⟨fun _ => rfl, nofun, nofun, ?_⟩
      exact fun absent _ => orderly.emptied absent (by simp [idle])
  | stopper turn => exact orderly.stop turn
  | acceptor _ turn => exact orderly.accept turn
  | session _ _ | performs _ _ | finish _ _ | leave _ =>
      exact ⟨orderly.stopped, orderly.alone, orderly.rested, orderly.emptied⟩

/-- The accept loop takes over only workers whose flag is set. -/
theorem AcceptTurn.reaps_flagged {arrived : Option AcceptedConnection}
    (turn : AcceptTurn settings daemon arrived next) {thread : Nat}
    (reaped : thread ∈ next.acceptor.reaped) :
    thread ∈ daemon.acceptor.reaped ∨ daemon.flagged thread = true := by
  have none (ldaps : Bool) : thread ∉ (afterListener settings ldaps).reaped := by
    rcases after_listener_cases settings ldaps with accepting | polls
    · simp [accepting, AcceptLoop.reaped]
    · simp [polls, AcceptLoop.reaped]
  cases turn with
  | scanned here =>
      rw [here]
      exact Or.inl reaped
  | reaps here _ flag =>
      rw [here]
      rcases List.mem_append.mp reaped with earlier | new
      · exact Or.inl earlier
      · rw [List.mem_singleton.mp new]
        exact Or.inr flag
  | skips here _ =>
      rw [here]
      exact Or.inl reaped
  | @joins _ _ worker _ here _ =>
      rw [here]
      exact Or.inl (List.mem_cons_of_mem worker reaped)
  | findsNone _ | rejects _ | pushes _ => exact absurd reaped (none _)
  | polls _ _ | ends _ _ | accepts _ | reaped _ | admits _ _ | spawns _ =>
      exact absurd reaped List.not_mem_nil

theorem step_reaped {move : DaemonMove} (moved : step settings exec daemon move = some next)
    {thread : Nat} (reaped : thread ∈ next.acceptor.reaped) :
    thread ∈ daemon.acceptor.reaped ∨ daemon.flagged thread = true := by
  cases step_turn moved with
  | start idle absent => exact absurd reaped List.not_mem_nil
  | stopper turn =>
      cases turn with
      | joinsAcceptor _ _ => exact absurd reaped List.not_mem_nil
      | _ => exact Or.inl reaped
  | acceptor _ turn => exact turn.reaps_flagged reaped
  | stop _ | session _ _ | performs _ _ | finish _ _ | leave _ => exact Or.inl reaped

theorem flagged_iff {thread : Nat} : daemon.flagged thread = true ↔
    ∃ status, daemon.threads[thread]? = some status ∧ status.flag = true := by
  unfold flagged
  cases found : daemon.threads[thread]? with
  | none => simp
  | some status => simp

theorem flagged_set {thread : Nat} {old new : SessionThread}
    (there : daemon.threads[thread]? = some old) (raised : old.flag = true → new.flag = true)
    (threads : next.threads = daemon.threads.set thread new) {other : Nat}
    (flag : daemon.flagged other = true) : next.flagged other = true := by
  obtain ⟨status, found, set⟩ := flagged_iff.mp flag
  rw [flagged_iff, threads, List.getElem?_set]
  split
  · rename_i same
    subst same
    rw [there] at found
    cases found
    exact ⟨new, by simp [(List.getElem?_eq_some_iff.mp there).1], raised set⟩
  · exact ⟨status, found, set⟩

/-- A flag that is set stays so. -/
theorem Effect.flagged {move : DaemonMove} (effect : Effect settings exec move daemon next)
    {thread : Nat}
    (flag : daemon.flagged thread = true) : next.flagged thread = true := by
  cases effect with
  | passed threads _ _ _ =>
      rw [flagged_iff, threads]
      exact flagged_iff.mp flag
  | started connection threads _ _ _ _ _ =>
      obtain ⟨status, found, set⟩ := flagged_iff.mp flag
      rw [flagged_iff, threads, List.getElem?_append_left (List.getElem?_eq_some_iff.mp found).1]
      exact ⟨status, found, set⟩
  | moved _ act session after _ there _ threads _ _ => exact flagged_set there nofun threads flag
  | served _ session call rest there _ threads _ _ _ =>
      exact flagged_set there nofun threads flag
  | ended _ session there _ threads _ _ _ =>
      exact flagged_set there (fun _ => rfl) threads flag
  | left _ there threads _ _ _ => exact flagged_set there (fun _ => rfl) threads flag
  | joined _ there threads _ _ _ => exact flagged_set there (fun _ => rfl) threads flag

/-- The sessions that `max_sessions` bounds: the workers, the one on its way there, and the
ones that `stop` has taken over. -/
def load (daemon : LdapDaemon Store) : Nat :=
  daemon.workers.length + daemon.acceptor.pending + daemon.stopping.held.length

/-- The load grows only behind the check against `max_sessions`. -/
theorem AcceptTurn.load {arrived : Option AcceptedConnection}
    (turn : AcceptTurn settings daemon arrived next) :
    next.workers.length + next.acceptor.pending ≤
        daemon.workers.length + daemon.acceptor.pending ∨
      ¬ (0 < settings.maxSessions ∧ settings.maxSessions ≤ daemon.workers.length) ∧
        next.workers.length + next.acceptor.pending = daemon.workers.length + 1 := by
  have none (ldaps : Bool) : (afterListener settings ldaps).pending = 0 := by
    rcases after_listener_cases settings ldaps with accepting | polls
    · rw [accepting]
      rfl
    · rw [polls]
      rfl
  cases turn with
  | reaps here _ _ =>
      rw [here]
      exact Or.inl (Nat.add_le_add_right (List.length_eraseIdx_le _ _) _)
  | admits _ free => exact Or.inr ⟨free, rfl⟩
  | spawns here =>
      rw [here]
      exact Or.inl (Nat.le_refl _)
  | pushes here =>
      rw [here, none, List.length_append]
      exact Or.inl (Nat.le_refl _)
  | findsNone _ | rejects _ =>
      rw [none]
      exact Or.inl (Nat.le_add_right _ _)
  | polls _ _ | ends _ _ | accepts _ | scanned _ | skips _ _ | reaped _ | joins _ _ =>
      exact Or.inl (Nat.le_add_right _ _)

def Capped (settings : DaemonSettings) (daemon : LdapDaemon Store) : Prop :=
  0 < settings.maxSessions → daemon.load ≤ settings.maxSessions

theorem Capped.accept (capped : Capped settings daemon) (orderly : Orderly daemon)
    {arrived : Option AcceptedConnection} (turn : AcceptTurn settings daemon arrived next) :
    Capped settings next := by
  obtain ⟨present, _, _, stopping⟩ := turn.control
  have none : daemon.stopping.held = [] :=
    StopCall.held_of_not_past fun past => present (orderly.alone past)
  intro limited
  have before := capped limited
  unfold LdapDaemon.load at before ⊢
  rw [stopping]
  rcases turn.load with lighter | ⟨free, heavier⟩
  · omega
  · rw [none, heavier, List.length_nil]
    omega

theorem StopTurn.load (turn : StopTurn daemon next) : next.load ≤ daemon.load := by
  cases turn with
  | findsNone here _ => simp [LdapDaemon.load, here]
  | joinsAcceptor here _ => simp [LdapDaemon.load, here, AcceptLoop.pending]
  | collects here =>
      simp [LdapDaemon.load, here]
      omega
  | returns here => simp [LdapDaemon.load, here]
  | joins here _ => simp [LdapDaemon.load, here]

theorem Capped.step {move : DaemonMove} (capped : Capped settings daemon)
    (orderly : Orderly daemon) (moved : step settings exec daemon move = some next) :
    Capped settings next := by
  have lighter (less : next.load ≤ daemon.load) : Capped settings next :=
    fun limited => less.trans (capped limited)
  cases step_turn moved with
  | start idle absent =>
      apply lighter
      simp [LdapDaemon.load, absent, AcceptLoop.pending]
  | stop idle =>
      apply lighter
      simp [LdapDaemon.load, idle]
  | stopper turn => exact lighter turn.load
  | acceptor _ turn => exact capped.accept orderly turn
  | session _ _ | performs _ _ | finish _ _ | leave _ => exact capped

end Control

end LdapDaemon

end SimpleLdapd
