import SimpleLdapd.Core.DaemonRuns

/-!
# The sessions of a daemon

What the listeners deliver and what the clients send is read off the moves of a run. To the
backend the daemon is an interleaving of the sessions of the connections it took on, each
one the loop of `serve` over the bytes that its client sent in the run.
-/

namespace SimpleLdapd

open Dn Message

namespace DaemonMove

variable (thread : Nat)

/-- What the move adds to what the requests of a session read from outside. -/
def contexts (move : DaemonMove) : List RequestContext :=
  match move.acted with
  | some (mover, act) => if mover = thread then act.contexts else []
  | none => []

def bytes (move : DaemonMove) : Bytes :=
  match move.acted with
  | some (mover, act) => if mover = thread then act.bytes else []
  | none => []

variable {thread} {move : DaemonMove}

theorem quiet_contexts (quiet : move.acted = none) : move.contexts thread = [] := by
  rw [contexts, quiet]

theorem quiet_bytes (quiet : move.acted = none) : move.bytes thread = [] := by
  rw [bytes, quiet]

theorem acted_contexts {mover : Nat} {act : SessionMove}
    (acted : move.acted = some (mover, act)) :
    move.contexts thread = if mover = thread then act.contexts else [] := by
  rw [contexts, acted]

theorem acted_bytes {mover : Nat} {act : SessionMove} (acted : move.acted = some (mover, act)) :
    move.bytes thread = if mover = thread then act.bytes else [] := by
  rw [bytes, acted]

end DaemonMove

/-- The connections in the order they arrived. -/
def arrivals (moves : List DaemonMove) : List AcceptedConnection :=
  moves.flatMap DaemonMove.arrived

/-- What the requests of a session read from outside, in their order. -/
def contextsOf (thread : Nat) (moves : List DaemonMove) : List RequestContext :=
  moves.flatMap (DaemonMove.contexts thread)

/-- The bytes that the client of a session sent. -/
def bytesOf (thread : Nat) (moves : List DaemonMove) : Bytes :=
  moves.flatMap (DaemonMove.bytes thread)

namespace SessionThread

/-- The loop is left. -/
def Done : SessionThread → Prop
  | serving session => session.phase = .returned
  | _ => True

/-- The program is what is left of the session: with these contexts and bytes to come. -/
def Stands (settings : DaemonSettings) (contexts : List RequestContext) (more : Bytes)
    (program : ServedProgram) (status : SessionThread) : Prop :=
  (status.Done → program.ended.isSome = true) ∧
    ∀ session, status = serving session → session.phase ≠ .returned →
      program = session.remainder settings contexts more

variable {settings : DaemonSettings} {contexts : List RequestContext} {more : Bytes}
variable {program : ServedProgram}

theorem Stands.of_done {status : SessionThread} (done : status.Done)
    (ended : program.ended.isSome = true) : Stands settings contexts more program status := by
  refine ⟨fun _ => ended, ?_⟩
  intro session same going
  rw [same] at done
  exact absurd done going

theorem Stands.of_going {session : OpenSession} (going : session.phase ≠ .returned)
    (same : program = session.remainder settings contexts more) :
    Stands settings contexts more program (serving session) := by
  refine ⟨fun returned => absurd returned going, ?_⟩
  intro other serves _
  rw [← SessionThread.serving.inj serves]
  exact same

end SessionThread

namespace LdapDaemon

variable {settings : DaemonSettings} {Store : Type}
variable {exec : (call : BackendCall) → Store → call.Answer × Store}
variable {daemon next : LdapDaemon Store}

section Done

/-- A session that is done takes no request more. -/
theorem Effect.done {move : DaemonMove} (effect : Effect settings exec move daemon next)
    {thread : Nat} {status : SessionThread} (there : daemon.threads[thread]? = some status)
    (done : status.Done) :
    move.contexts thread = [] ∧
      ∃ after : SessionThread, next.threads[thread]? = some after ∧ after.Done := by
  have set {mover : Nat} {old new : SessionThread} (found : daemon.threads[mover]? = some old)
      (threads : next.threads = daemon.threads.set mover new) (still : old.Done → new.Done) :
      ∃ after : SessionThread, next.threads[thread]? = some after ∧ after.Done := by
    by_cases same : mover = thread
    · subst same
      rw [there] at found
      cases found
      refine ⟨new, ?_, still done⟩
      rw [threads, List.getElem?_set_self (List.getElem?_eq_some_iff.mp there).1]
    · exact ⟨status, by rw [threads, List.getElem?_set_ne same, there], done⟩
  cases effect with
  | passed threads _ _ quiet =>
      exact ⟨DaemonMove.quiet_contexts quiet, status, threads ▸ there, done⟩
  | started connection threads _ _ quiet _ _ =>
      refine ⟨DaemonMove.quiet_contexts quiet, status, ?_, done⟩
      rw [threads, List.getElem?_append_left (List.getElem?_eq_some_iff.mp there).1, there]
  | moved mover act session after acted found moves threads _ _ =>
      constructor
      · rw [DaemonMove.acted_contexts acted]
        split
        · rename_i same
          rw [same, there] at found
          cases found
          exact (OpenSession.returned_moves done moves).2
        · rfl
      · exact set found threads fun returned => (OpenSession.returned_moves returned moves).1
  | served mover session call rest found phase threads _ _ quiet =>
      refine ⟨DaemonMove.quiet_contexts quiet, set found threads ?_⟩
      intro returned
      have never : session.phase = .returned := returned
      rw [phase] at never
      cases never
  | ended mover session found returned threads _ _ quiet =>
      exact ⟨DaemonMove.quiet_contexts quiet, set found threads fun _ => trivial⟩
  | left mover found threads _ _ quiet =>
      exact ⟨DaemonMove.quiet_contexts quiet, set found threads fun _ => trivial⟩
  | joined mover found threads _ _ quiet =>
      exact ⟨DaemonMove.quiet_contexts quiet, set found threads fun _ => trivial⟩

theorem done_contexts {moves : List DaemonMove} {later : LdapDaemon Store}
    (moved : moveAll (step settings exec) daemon moves = some later) {thread : Nat}
    {status : SessionThread} (there : daemon.threads[thread]? = some status)
    (done : status.Done) : contextsOf thread moves = [] := by
  induction moves generalizing daemon status with
  | nil => rfl
  | cons move rest ih =>
      obtain ⟨next, here, moved⟩ := Option.bind_eq_some_iff.mp moved
      obtain ⟨none_here, after, still, ending⟩ := (step_effect here).done there done
      have none_later : contextsOf thread rest = [] := ih moved still ending
      unfold contextsOf at none_later ⊢
      rw [List.flatMap_cons, none_here, none_later, List.append_nil]

end Done

section Interleaving

/-- A pool of sessions that stands where the daemon stands, for the moves to come. -/
structure Standing (settings : DaemonSettings) (daemon : LdapDaemon Store)
    (moves : List DaemonMove)
    (pool : Program.Pool Nat BackendCall BackendCall.Answer (Option (List LdapMessage)) Store) :
    Prop where
  state : pool.state = daemon.store
  threads : ∀ thread status, daemon.threads[thread]? = some status →
    SessionThread.Stands settings (contextsOf thread moves) (bytesOf thread moves)
      (pool.threads thread) status

/-- The sessions that are still to be started. -/
def Prepared (settings : DaemonSettings) (started : Nat) (connections : List AcceptedConnection)
    (moves : List DaemonMove)
    (pool : Program.Pool Nat BackendCall BackendCall.Answer (Option (List LdapMessage)) Store) :
    Prop :=
  ∀ index connection, connections[index]? = some connection →
    pool.threads (started + index) = (serveConnection connection).remainder settings
      (contextsOf (started + index) moves) (bytesOf (started + index) moves)

variable {pool : Program.Pool Nat BackendCall BackendCall.Answer (Option (List LdapMessage)) Store}
variable {move : DaemonMove} {rest : List DaemonMove}

theorem contexts_of_quiet (quiet : move.acted = none) (thread : Nat) :
    contextsOf thread (move :: rest) = contextsOf thread rest := by
  rw [contextsOf, List.flatMap_cons, DaemonMove.quiet_contexts quiet]
  rfl

theorem bytes_of_quiet (quiet : move.acted = none) (thread : Nat) :
    bytesOf thread (move :: rest) = bytesOf thread rest := by
  rw [bytesOf, List.flatMap_cons, DaemonMove.quiet_bytes quiet]
  rfl

theorem contexts_of_acted {thread : Nat} {act : SessionMove}
    (acted : move.acted = some (thread, act)) (index : Nat) :
    contextsOf index (move :: rest) =
      (if thread = index then act.contexts else []) ++ contextsOf index rest := by
  rw [contextsOf, List.flatMap_cons, DaemonMove.acted_contexts acted]
  rfl

theorem bytes_of_acted {thread : Nat} {act : SessionMove}
    (acted : move.acted = some (thread, act)) (index : Nat) :
    bytesOf index (move :: rest) =
      (if thread = index then act.bytes else []) ++ bytesOf index rest := by
  rw [bytesOf, List.flatMap_cons, DaemonMove.acted_bytes acted]
  rfl

theorem Prepared.quiet {started : Nat} {connections : List AcceptedConnection}
    (prepared : Prepared settings started connections (move :: rest) pool)
    (quiet : move.acted = none) : Prepared settings started connections rest pool := by
  intro index connection there
  have prepared := prepared index connection there
  rwa [contexts_of_quiet quiet, bytes_of_quiet quiet] at prepared

theorem Prepared.acted {started thread : Nat} {connections : List AcceptedConnection}
    {act : SessionMove} (prepared : Prepared settings started connections (move :: rest) pool)
    (acted : move.acted = some (thread, act)) (earlier : thread < started) :
    Prepared settings started connections rest pool := by
  intro index connection there
  have prepared := prepared index connection there
  have other : thread ≠ started + index := by omega
  rwa [contexts_of_acted acted, bytes_of_acted acted, if_neg other, if_neg other] at prepared

theorem Prepared.advanced {started thread : Nat} {connections : List AcceptedConnection}
    (prepared : Prepared settings started connections rest pool) (earlier : thread < started) :
    Prepared settings started connections rest (Program.advance exec pool thread) := by
  intro index connection there
  have other : thread ≠ started + index := by omega
  rw [Program.advance_other_thread exec pool other]
  exact prepared index connection there

/-- A thread exchanged for one that stands where its program stands. -/
theorem Standing.exchanged (standing : Standing settings daemon (move :: rest) pool)
    (quiet : move.acted = none) {thread : Nat} {new : SessionThread}
    (threads : next.threads = daemon.threads.set thread new) (store : next.store = daemon.store)
    (stands : SessionThread.Stands settings (contextsOf thread rest) (bytesOf thread rest)
      (pool.threads thread) new) : Standing settings next rest pool where
  state := standing.state.trans store.symm
  threads := by
    intro other status there
    rw [threads, List.getElem?_set] at there
    split at there
    · rename_i same
      subst same
      split at there
      · cases there
        exact stands
      · cases there
    · have stood := standing.threads other status there
      rwa [contexts_of_quiet quiet, bytes_of_quiet quiet] at stood

theorem moved_standing {thread : Nat} {act : SessionMove} {session after : OpenSession}
    (standing : Standing settings daemon (move :: rest) pool)
    (acted : move.acted = some (thread, act))
    (there : daemon.threads[thread]? = some (.serving session))
    (moves : session.move settings daemon.running act = some after)
    (threads : next.threads = daemon.threads.set thread (.serving after))
    (store : next.store = daemon.store) {later : LdapDaemon Store}
    (moved : moveAll (step settings exec) next rest = some later) :
    Standing settings next rest pool where
  state := standing.state.trans store.symm
  threads := by
    intro other status found
    have inside := (List.getElem?_eq_some_iff.mp there).1
    by_cases mine : thread = other
    · subst mine
      have stood := standing.threads thread _ there
      rw [contexts_of_acted acted, bytes_of_acted acted, if_pos rfl, if_pos rfl] at stood
      have mover := found
      rw [threads, List.getElem?_set_self inside] at mover
      cases mover
      by_cases returned : after.phase = .returned
      · have done : (SessionThread.serving after).Done := returned
        apply SessionThread.Stands.of_done done
        by_cases before : session.phase = .returned
        · exact stood.1 before
        · rw [stood.2 session rfl before, OpenSession.returned_contexts moves returned,
            done_contexts moved found returned]
          exact OpenSession.remainder_ended (OpenSession.move_returned moves returned) _
      · have before : session.phase ≠ .returned := fun returned' =>
          returned (OpenSession.returned_moves returned' moves).1
        apply SessionThread.Stands.of_going returned
        rw [stood.2 session rfl before]
        exact OpenSession.move_remainder moves returned _ _
    · rw [threads, List.getElem?_set_ne mine] at found
      have stood := standing.threads other status found
      rwa [contexts_of_acted acted, bytes_of_acted acted, if_neg mine, if_neg mine] at stood

theorem served_standing {thread : Nat} {session : OpenSession} {call : BackendCall}
    {handler : call.Answer → BackendProgram (Option Session.Reply)}
    (standing : Standing settings daemon (move :: rest) pool) (quiet : move.acted = none)
    (there : daemon.threads[thread]? = some (.serving session))
    (phase : session.phase = .handling (.call call handler))
    (threads : next.threads = daemon.threads.set thread
      (.serving { session with phase := .handling (handler (exec call daemon.store).1) }))
    (store : next.store = (exec call daemon.store).2) :
    Standing settings next rest (Program.advance exec pool thread) := by
  have going : session.phase ≠ .returned := by
    intro returned
    rw [phase] at returned
    cases returned
  have stood := (standing.threads thread _ there).2 session rfl going
  rw [contexts_of_quiet quiet, bytes_of_quiet quiet] at stood
  have pending : ∃ next, pool.threads thread = .call call next ∧ ∀ answer, next answer =
      handler answer >>= OpenSession.afterwards settings session.answered (contextsOf thread rest)
        (session.unread ++ bytesOf thread rest) := by
    refine ⟨_, ?_, fun _ => rfl⟩
    rw [stood]
    simp only [OpenSession.remainder, phase]
    rfl
  obtain ⟨later, pending, left⟩ := pending
  rw [Program.advance_call exec pending, standing.state]
  refine ⟨store.symm, ?_⟩
  intro other status found
  by_cases mine : thread = other
  · subst mine
    rw [threads, List.getElem?_set_self (List.getElem?_eq_some_iff.mp there).1] at found
    cases found
    simp only [Function.update_self]
    apply SessionThread.Stands.of_going _ (left _)
    intro returned
    cases returned
  · rw [threads, List.getElem?_set_ne mine] at found
    simp only [Function.update_of_ne (Ne.symm mine)]
    have stood := standing.threads other status found
    rwa [contexts_of_quiet quiet, bytes_of_quiet quiet] at stood

/-- What starts a session brings it to where the pool has it prepared. -/
theorem started_standing {connection : AcceptedConnection}
    (standing : Standing settings daemon (move :: rest) pool) (quiet : move.acted = none)
    (threads : next.threads = daemon.threads ++ [.serving (serveConnection connection)])
    (store : next.store = daemon.store)
    (prepared : pool.threads daemon.threads.length = (serveConnection connection).remainder settings
      (contextsOf daemon.threads.length rest) (bytesOf daemon.threads.length rest)) :
    Standing settings next rest pool where
  state := standing.state.trans store.symm
  threads := by
    intro thread status found
    rw [threads] at found
    rcases Nat.lt_or_ge thread daemon.threads.length with earlier | later
    · rw [List.getElem?_append_left earlier] at found
      have stood := standing.threads thread status found
      rwa [contexts_of_quiet quiet, bytes_of_quiet quiet] at stood
    · have inside := (List.getElem?_eq_some_iff.mp found).1
      rw [List.length_append, List.length_singleton] at inside
      have same : thread = daemon.threads.length := by omega
      subst same
      rw [List.getElem?_concat_length] at found
      cases found
      apply SessionThread.Stands.of_going _ prepared
      unfold serveConnection
      dsimp only
      split
      · exact nofun
      · exact nofun

/-- The step lemma: but for the start of a thread, the pool follows with a backend call or
with nothing. -/
theorem Effect.followed (effect : Effect settings exec move daemon next)
    {later : LdapDaemon Store} (moved : moveAll (step settings exec) next rest = some later) :
    (∃ connection, daemon.acceptor.incoming = [connection] ∧ next.acceptor.incoming = [] ∧
        next.threads = daemon.threads ++ [.serving (serveConnection connection)] ∧
        next.store = daemon.store ∧ move.acted = none) ∨
      next.threads.length = daemon.threads.length ∧ ∀ connections pool,
        Standing settings daemon (move :: rest) pool →
        Prepared settings daemon.threads.length connections (move :: rest) pool →
        ∃ schedule, Standing settings next rest (Program.interleave exec pool schedule) ∧
          Prepared settings daemon.threads.length connections rest
            (Program.interleave exec pool schedule) := by
  cases effect with
  | passed threads store _ quiet =>
      refine Or.inr ⟨by rw [threads], fun connections pool standing prepared => ?_⟩
      refine ⟨[], ⟨standing.state.trans store.symm, ?_⟩, prepared.quiet quiet⟩
      intro thread status found
      have stood := standing.threads thread status (threads ▸ found)
      rwa [contexts_of_quiet quiet, bytes_of_quiet quiet] at stood
  | started connection threads store _ quiet taken left =>
      exact Or.inl ⟨connection, taken, left, threads, store, quiet⟩
  | moved thread act session after acted there moves threads store _ =>
      refine Or.inr ⟨by rw [threads, List.length_set], fun connections pool standing prepared => ?_⟩
      have inside := (List.getElem?_eq_some_iff.mp there).1
      exact ⟨[], moved_standing standing acted there moves threads store moved,
        prepared.acted acted inside⟩
  | served thread session call handler there phase threads store _ quiet =>
      refine Or.inr ⟨by rw [threads, List.length_set], fun connections pool standing prepared => ?_⟩
      have inside := (List.getElem?_eq_some_iff.mp there).1
      exact ⟨[thread], served_standing standing quiet there phase threads store,
        (prepared.quiet quiet).advanced inside⟩
  | ended thread session there returned threads store _ quiet =>
      refine Or.inr ⟨by rw [threads, List.length_set], fun connections pool standing prepared => ?_⟩
      refine ⟨[], standing.exchanged quiet threads store ?_, prepared.quiet quiet⟩
      exact .of_done trivial ((standing.threads thread _ there).1 returned)
  | left thread there threads store _ quiet =>
      refine Or.inr ⟨by rw [threads, List.length_set], fun connections pool standing prepared => ?_⟩
      refine ⟨[], standing.exchanged quiet threads store ?_, prepared.quiet quiet⟩
      exact .of_done trivial ((standing.threads thread _ there).1 trivial)
  | joined thread there threads store _ quiet =>
      refine Or.inr ⟨by rw [threads, List.length_set], fun connections pool standing prepared => ?_⟩
      refine ⟨[], standing.exchanged quiet threads store ?_, prepared.quiet quiet⟩
      exact .of_done trivial ((standing.threads thread _ there).1 trivial)

/-- The run rule. The connections are those that get a session; the pool knows from the
start what their clients will send. -/
theorem run_standing {moves : List DaemonMove} {later : LdapDaemon Store}
    (moved : moveAll (step settings exec) daemon moves = some later) :
    ∃ connections : List AcceptedConnection,
      connections.Sublist (daemon.acceptor.incoming ++ arrivals moves) ∧
        daemon.threads.length + connections.length = later.threads.length ∧
        ∀ pool, Standing settings daemon moves pool →
          Prepared settings daemon.threads.length connections moves pool →
          ∃ schedule, Standing settings later [] (Program.interleave exec pool schedule) := by
  induction moves generalizing daemon with
  | nil =>
      cases moved
      exact ⟨[], List.nil_sublist _, rfl, fun pool standing _ => ⟨[], standing⟩⟩
  | cons move rest ih =>
      obtain ⟨next, here, moved⟩ := Option.bind_eq_some_iff.mp moved
      obtain ⟨connections, came, count, runs⟩ := ih moved
      rcases (step_effect here).followed moved with
        ⟨connection, taken, left, threads, store, quiet⟩ | ⟨length, follows⟩
      · rw [left] at came
        refine ⟨connection :: connections, ?_, ?_, ?_⟩
        · rw [taken, arrivals, List.flatMap_cons]
          exact (came.trans (List.sublist_append_right _ _)).cons_cons connection
        · rw [← count, threads, List.length_append, List.length_cons, List.length_singleton]
          omega
        · intro pool standing prepared
          have first := (prepared.quiet quiet) 0 connection rfl
          apply runs pool (started_standing standing quiet threads store first)
          intro index later there
          have second := (prepared.quiet quiet) (index + 1) later there
          rw [threads, List.length_append, List.length_singleton, Nat.add_right_comm,
            Nat.add_assoc]
          exact second
      · refine ⟨connections, ?_, length ▸ count, ?_⟩
        · rw [arrivals, List.flatMap_cons, ← List.append_assoc]
          exact came.trans ((step_incoming here).append_right _)
        · intro pool standing prepared
          obtain ⟨first, standing, prepared⟩ := follows connections pool standing prepared
          obtain ⟨second, reached⟩ := runs _ standing (length ▸ prepared)
          refine ⟨first ++ second, ?_⟩
          rw [Program.interleave, List.foldl_append]
          exact reached

/-- The requests that a session comes to handle of what its client sends. -/
def requestsOf (settings : DaemonSettings) (connection : AcceptedConnection)
    (contexts : List RequestContext) (stream : Bytes) : List (RequestContext × LdapMessage) :=
  if connection.ldaps && !connection.handshake then []
  else Session.delivered settings.maxPduSize contexts stream

/-- Sessions side by side, one for each connection, over what their clients send in a run. -/
def servedPool (settings : DaemonSettings) (connections : List AcceptedConnection)
    (moves : List DaemonMove) (store : Store) :
    Program.Pool Nat BackendCall BackendCall.Answer (Option (List LdapMessage)) Store where
  threads thread :=
    match connections[thread]? with
    | some connection =>
        Session.serve settings.server {}
          (requestsOf settings connection (contextsOf thread moves) (bytesOf thread moves))
    | none => pure (some [])
  state := store

/-- A session has everything in front of it at its start. -/
theorem serve_connection_remainder (connection : AcceptedConnection)
    (contexts : List RequestContext) (stream : Bytes) :
    (serveConnection connection).remainder settings contexts stream =
      Session.serve settings.server {} (requestsOf settings connection contexts stream) := by
  obtain ⟨ldaps, handshake⟩ := connection
  cases ldaps with
  | false =>
      simp only [OpenSession.remainder, serveConnection, requestsOf, OpenSession.saying_nil,
        Session.serve_stream_eq]
      rfl
  | true =>
      cases handshake with
      | true =>
          simp only [OpenSession.remainder, serveConnection, requestsOf, OpenSession.saying_nil,
            Session.serve_stream_eq]
          rfl
      | false => rfl

/-- Whatever the daemon did, started and stopped any number of times: of the connections
that arrived it took on some, in their order, and its backend is in a state that their
sessions, over what their clients sent, come to in some interleaving; there the sessions of
the daemon that are done have ended, and the others stand where they stand. -/
theorem daemon_interleaves_sessions {store : Store} {moves : List DaemonMove}
    (reached : moveAll (step settings exec) { store := store } moves = some daemon) :
    ∃ (connections : List AcceptedConnection) (schedule : List Nat),
      connections.Sublist (arrivals moves) ∧ connections.length = daemon.threads.length ∧
        let pool := Program.interleave exec (servedPool settings connections moves store) schedule
        pool.state = daemon.store ∧ ∀ thread status, daemon.threads[thread]? = some status →
          SessionThread.Stands settings [] [] (pool.threads thread) status := by
  obtain ⟨connections, came, count, runs⟩ := run_standing reached
  have standing : Standing settings { store := store } moves
      (servedPool settings connections moves store) := ⟨rfl, nofun⟩
  have prepared : Prepared settings 0 connections moves
      (servedPool settings connections moves store) := by
    intro index connection there
    rw [Nat.zero_add, serve_connection_remainder]
    simp only [servedPool, there]
  obtain ⟨schedule, ending⟩ := runs _ standing prepared
  exact ⟨connections, schedule, came, (Nat.zero_add _).symm.trans count, ending.state,
    ending.threads⟩

end Interleaving

section Examples

theorem stopped_run_interleaves :
    ∃ daemon, moveAll (step { maxSessions := 1 } MemoryBackend.exec)
        { store := OrderedMap.empty } stoppedRun = some daemon ∧
      ∃ (connections : List AcceptedConnection) (schedule : List Nat),
        connections.Sublist (arrivals stoppedRun) ∧ connections.length = daemon.threads.length ∧
          let pool := Program.interleave MemoryBackend.exec
            (servedPool { maxSessions := 1 } connections stoppedRun OrderedMap.empty) schedule
          pool.state = daemon.store ∧ ∀ thread status, daemon.threads[thread]? = some status →
            SessionThread.Stands { maxSessions := 1 } [] [] (pool.threads thread) status := by
  obtain ⟨daemon, _, reached, _⟩ := stopped_run_reached
  exact ⟨daemon, reached, daemon_interleaves_sessions reached⟩

end Examples

end LdapDaemon

end SimpleLdapd
