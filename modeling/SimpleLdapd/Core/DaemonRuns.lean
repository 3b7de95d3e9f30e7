import Mathlib.Data.List.Count
import SimpleLdapd.Core.Daemon

/-!
# Runs of the daemon

Whatever order the accept thread, the session threads, their clients and the owner of the
daemon make their steps in: the sessions that are served stay within `max_sessions`, and
every thread is held until it is joined. `stop` comes to its end and leaves no thread behind
if the clients let it, and a single one can keep it for ever. To the backend a daemon is an
interleaving of sessions over the bytes that its clients sent.
-/

namespace SimpleLdapd

def SessionThread.cost : SessionThread → Nat
  | serving session => session.phase.cost + 2
  | finished => 2
  | exited => 1
  | joined => 0

/-- What the thread handles. -/
def SessionThread.program : SessionThread → Option (BackendProgram (Option Session.Reply))
  | serving session =>
      match session.phase with
      | .handling program => some program
      | _ => none
  | _ => none

namespace LdapDaemon

open Dn Message

variable {settings : DaemonSettings} {Store : Type}
variable {exec : (call : BackendCall) → Store → call.Answer × Store}
variable {daemon next : LdapDaemon Store}

section Invariant

/-- What holds of a daemon wherever its threads stand. -/
structure Sound (settings : DaemonSettings) (daemon : LdapDaemon Store) : Prop where
  custody : Custody daemon
  orderly : Orderly daemon
  capped : Capped settings daemon
  reaped : ∀ thread ∈ daemon.acceptor.reaped, daemon.flagged thread = true

theorem start_sound (settings : DaemonSettings) (store : Store) :
    Sound settings { store := store } where
  custody := ⟨List.nodup_nil, fun thread => by simp [held, Unjoined]⟩
  orderly := ⟨fun started => absurd rfl started, False.elim, fun _ _ => rfl, fun _ _ => rfl⟩
  capped := fun limited => Nat.zero_le _
  reaped := nofun

theorem Sound.step {move : DaemonMove} (sound : Sound settings daemon)
    (moved : step settings exec daemon move = some next) : Sound settings next where
  custody := (step_effect moved).custody sound.custody
  orderly := sound.orderly.step moved
  capped := sound.capped.step sound.orderly moved
  reaped := by
    intro thread reaped
    rcases step_reaped moved reaped with earlier | flag
    · exact (step_effect moved).flagged (sound.reaped thread earlier)
    · exact (step_effect moved).flagged flag

theorem reached_sound {store : Store} {moves : List DaemonMove}
    (reached : moveAll (LdapDaemon.step settings exec) { store := store } moves = some daemon) :
    Sound settings daemon :=
  moves_keep (Sound settings) (fun _ _ _ sound moved => sound.step moved)
    (start_sound settings store) reached

/-- A session that is served is a worker, is about to become one, or waits to be joined
by `stop`. -/
theorem Sound.serving_held (sound : Sound settings daemon) {thread : Nat} {status : SessionThread}
    (there : daemon.threads[thread]? = some status) (serving : status.isServing = true) :
    thread ∈ daemon.workers ++ daemon.acceptor.entering ++ daemon.stopping.held := by
  have quiet : status.flag = false ∧ status.isJoined = false := by
    cases status with
    | serving session => exact ⟨rfl, rfl⟩
    | finished => cases serving
    | exited => cases serving
    | joined => cases serving
  have member := (sound.custody.unjoined thread).mpr ⟨status, there, quiet.2⟩
  rw [held, AcceptLoop.held_eq] at member
  simp only [List.mem_append] at member ⊢
  rcases member with (worker | reaped | entering) | live
  · exact Or.inl (Or.inl worker)
  · obtain ⟨other, same, flag⟩ := flagged_iff.mp (sound.reaped thread reaped)
    rw [there] at same
    cases same
    rw [quiet.1] at flag
    cases flag
  · exact Or.inl (Or.inr entering)
  · exact Or.inr live

theorem Sound.serving_le_load (sound : Sound settings daemon) :
    daemon.threads.countP SessionThread.isServing ≤ daemon.load := by
  have inside : daemon.threads.findIdxs SessionThread.isServing ⊆
      daemon.workers ++ daemon.acceptor.entering ++ daemon.stopping.held := by
    intro thread member
    obtain ⟨bound, serving⟩ := List.mem_findIdxs_iff_exists_getElem_pos.mp member
    exact sound.serving_held (List.getElem?_eq_getElem bound) serving
  have few := (List.subperm_of_subset List.nodup_findIdxs inside).length_le
  have entering := daemon.acceptor.entering_length
  rw [List.length_findIdxs, List.length_append, List.length_append] at few
  unfold load
  omega

/-- Where `stop` has returned no handle is left. -/
theorem Sound.all_joined (sound : Sound settings daemon) (idle : daemon.stopping = .idle)
    (halted : daemon.running = false) : ∀ status ∈ daemon.threads, status.isJoined = true := by
  have absent := sound.orderly.rested idle halted
  have empty := sound.orderly.emptied absent (by simp [idle])
  have none : daemon.held = [] := by simp [held, absent, empty, idle]
  intro status member
  obtain ⟨thread, there⟩ := List.mem_iff_getElem?.mp member
  by_contra unjoined
  have kept := (sound.custody.unjoined thread).mpr ⟨status, there, by simpa using unjoined⟩
  rw [none] at kept
  cases kept

/-- At any time: no more than `max_sessions` sessions are served, each thread that is not
joined is held exactly once, the accept loop joins only threads that are done with their
session, and between `stop` and the next `start` every thread is joined. -/
theorem sessions_are_accounted_for {store : Store} {moves : List DaemonMove}
    (reached : moveAll (LdapDaemon.step settings exec) { store := store } moves = some daemon) :
    (0 < settings.maxSessions →
        daemon.threads.countP SessionThread.isServing ≤ settings.maxSessions) ∧
      Custody daemon ∧
      (∀ thread ∈ daemon.acceptor.reaped, daemon.flagged thread = true) ∧
      (daemon.stopping = .idle → daemon.running = false →
        ∀ status ∈ daemon.threads, status.isJoined = true) := by
  have sound := reached_sound reached
  refine ⟨?_, sound.custody, sound.reaped, sound.all_joined⟩
  intro limited
  exact sound.serving_le_load.trans (sound.capped limited)

end Invariant

section Stop

/-- Bounds what the accept loop still does for a listener once `running_` is unset. -/
def listenerCost (ldaps : Bool) (workers : Nat) : Nat := if ldaps then 1 else workers + 16

def acceptorCost (workers : Nat) : AcceptLoop → Nat
  | .absent => 0
  | .polling => 1
  | .accepting ldaps => workers + listenerCost ldaps (workers + 1) + 15
  | .reaping connection index _ =>
      (workers - index) + listenerCost connection.ldaps (workers + 1) + 14
  | .joining connection _ => listenerCost connection.ldaps (workers + 1) + 13
  | .counting connection => listenerCost connection.ldaps (workers + 1) + 12
  | .spawning connection => listenerCost connection.ldaps (workers + 1) + 11
  | .pushing ldaps _ => listenerCost ldaps (workers + 1) + 1
  | .ended => 0

def stopCost : StopCall → Nat
  | .idle => 0
  | .waiting => 3
  | .collecting => 2
  | .joining _ => 1

/-- What is still to be done once `stop` is called: steps of the threads, and the
operations of the sessions. -/
def remaining (daemon : LdapDaemon Store) :
    Nat × Multiset (BackendProgram (Option Session.Reply)) :=
  ((daemon.threads.map SessionThread.cost).sum +
      acceptorCost daemon.workers.length daemon.acceptor + stopCost daemon.stopping,
    (daemon.threads.filterMap SessionThread.program : List (BackendProgram (Option Session.Reply))))

theorem lowered_of_lt {left right : Nat × Multiset (BackendProgram (Option Session.Reply))}
    (less : left.1 < right.1) :
    Program.Lowered left right := by
  obtain ⟨number, programs⟩ := left
  exact Prod.Lex.left _ _ less

theorem after_listener_cost (settings : DaemonSettings) (ldaps : Bool) (workers : Nat) :
    acceptorCost workers (afterListener settings ldaps) ≤ listenerCost ldaps workers := by
  unfold afterListener listenerCost
  cases ldaps with
  | true => exact Nat.le_refl 1
  | false =>
      cases settings.enableLdaps with
      | true => simp [acceptorCost, listenerCost]
      | false => simp [acceptorCost]

theorem listener_cost_mono (ldaps : Bool) (workers : Nat) :
    listenerCost ldaps workers ≤ listenerCost ldaps (workers + 1) := by
  unfold listenerCost
  split <;> omega

theorem cost_set {thread : Nat} {old : SessionThread} (there : daemon.threads[thread]? = some old)
    (new : SessionThread) (cheaper : new.cost < old.cost) :
    ((daemon.threads.set thread new).map SessionThread.cost).sum <
      (daemon.threads.map SessionThread.cost).sum := by
  have exchanged := sum_map_set SessionThread.cost there new
  omega

theorem connection_cost (connection : AcceptedConnection) :
    (SessionThread.serving (serveConnection connection)).cost ≤ 9 := by
  unfold serveConnection
  simp only [SessionThread.cost]
  split
  · exact Nat.le_refl 9
  · exact (by decide : 4 ≤ 9)

theorem AcceptTurn.cost {arrived : Option AcceptedConnection} (halted : daemon.running = false)
    (takes : daemon.acceptor.takes arrived = true)
    (turn : AcceptTurn settings daemon arrived next) :
    (next.threads.map SessionThread.cost).sum + acceptorCost next.workers.length next.acceptor <
      (daemon.threads.map SessionThread.cost).sum +
        acceptorCost daemon.workers.length daemon.acceptor := by
  have more (ldaps : Bool) := listener_cost_mono ldaps daemon.workers.length
  have goes (ldaps : Bool) (workers : Nat) := after_listener_cost settings ldaps workers
  cases turn with
  | polls here running =>
      rw [halted] at running
      cases running
  | ends here _ => simp [here, acceptorCost]
  | @findsNone ldaps here =>
      have next := goes ldaps daemon.workers.length
      have lasting := more ldaps
      simp only [here, acceptorCost] at next ⊢
      omega
  | @accepts ldaps connection here =>
      have polled : connection.ldaps = ldaps := by
        rw [here] at takes
        exact beq_iff_eq.mp takes
      simp only [here, acceptorCost, polled]
      omega
  | scanned here =>
      simp only [here, acceptorCost]
      omega
  | @reaps _ connection index _ _ here found _ =>
      have bound := (List.getElem?_eq_some_iff.mp found).1
      have fewer : (daemon.workers.eraseIdx index).length + 1 = daemon.workers.length :=
        List.length_eraseIdx_add_one bound
      have lasting := listener_cost_mono connection.ldaps
        ((daemon.workers.eraseIdx index).length + 1)
      simp only [here, acceptorCost]
      rw [← fewer]
      omega
  | skips here found =>
      have bound := (List.getElem?_eq_some_iff.mp found).1
      simp only [here, acceptorCost]
      omega
  | reaped here =>
      simp only [here, acceptorCost]
      omega
  | joins here there =>
      have cheaper := cost_set there .joined (Nat.zero_lt_one)
      simp only [here, acceptorCost]
      omega
  | @rejects _ connection here =>
      have next := goes connection.ldaps daemon.workers.length
      have lasting := more connection.ldaps
      simp only [here, acceptorCost] at next ⊢
      omega
  | admits here _ =>
      simp only [here, acceptorCost]
      omega
  | @spawns _ connection here =>
      have cheap := connection_cost connection
      simp only [here, acceptorCost, List.map_append, List.sum_append, List.map_cons,
        List.map_nil, List.sum_cons, List.sum_nil]
      omega
  | @pushes _ ldaps _ here =>
      have next := goes ldaps (daemon.workers.length + 1)
      simp only [here, acceptorCost, List.length_append, List.length_singleton] at next ⊢
      omega

theorem StopTurn.cost (orderly : Orderly daemon) (turn : StopTurn daemon next) :
    (remaining next).1 < (remaining daemon).1 := by
  cases turn with
  | findsNone here _ => simp [remaining, here, stopCost]
  | joinsAcceptor here ended => simp [remaining, here, ended, stopCost, acceptorCost]
  | collects here =>
      have absent := orderly.alone (by simp [here, StopCall.Past])
      simp [remaining, here, absent, stopCost, acceptorCost]
  | returns here => simp [remaining, here, stopCost]
  | joins here there =>
      have cheaper := cost_set there .joined Nat.zero_lt_one
      simp only [remaining, here, stopCost]
      omega

/-- What the clients do leaves `stop` where it is. -/
theorem client_waits {move : DaemonMove} (client : move.isClient = true)
    (moved : step settings exec daemon move = some next) :
    remaining next = remaining daemon ∧ next.stopping = daemon.stopping := by
  cases step_turn moved with
  | @session _ _ before after there moves =>
      have phase := OpenSession.client_move_phase client moves
      have cost := sum_map_set SessionThread.cost there (.serving after)
      have programs := filter_map_set_same SessionThread.program there
        (by simp only [SessionThread.program, phase] :
          SessionThread.program (.serving after) = SessionThread.program (.serving before))
      simp only [SessionThread.cost, phase, Nat.add_right_cancel_iff] at cost
      exact ⟨by simp only [remaining, cost, programs], rfl⟩
  | start _ _ | stop _ | stopper _ | acceptor _ _ | performs _ _ | finish _ _ | leave _ =>
      cases client

theorem thread_lowers {thread : Nat} {old new : SessionThread}
    (there : daemon.threads[thread]? = some old) (cheaper : new.cost < old.cost) :
    Program.Lowered (remaining { daemon with threads := daemon.threads.set thread new })
      (remaining daemon) := by
  have less := cost_set there new cheaper
  apply lowered_of_lt
  simp only [remaining]
  omega

/-- A backend call leaves the rest of its program. -/
theorem performed_lowers {thread : Nat} {session : OpenSession} {call : BackendCall}
    {rest : call.Answer → BackendProgram (Option Session.Reply)}
    (there : daemon.threads[thread]? = some (.serving session))
    (phase : session.phase = .handling (.call call rest)) (answer : call.Answer) (store : Store) :
    Program.Lowered
      (remaining { daemon with
        threads := daemon.threads.set thread
          (.serving { session with phase := .handling (rest answer) })
        store := store })
      (remaining daemon) := by
  have cost := sum_map_set SessionThread.cost there
    (.serving { session with phase := .handling (rest answer) })
  have handled : SessionThread.program (.serving session) = some (.call call rest) := by
    simp only [SessionThread.program, phase]
  have parts := filter_map_set SessionThread.program there
    (.serving { session with phase := .handling (rest answer) }) handled rfl
  simp only [SessionThread.cost, phase, ServePhase.cost, Nat.add_right_cancel_iff] at cost
  unfold remaining Program.Lowered
  dsimp only
  rw [cost]
  apply Prod.Lex.right
  refine ⟨{rest answer}, .call call rest, ?_, parts⟩
  intro program left
  rw [Multiset.mem_singleton.mp left]
  exact ⟨call, rest, _, rfl, rfl⟩

/-- The inside of `stop`: no step of the daemon but brings it nearer to its end. -/
theorem step_lowers {move : DaemonMove} (orderly : Orderly daemon)
    (called : daemon.stopping ≠ .idle) (own : move.isClient = false)
    (moved : step settings exec daemon move = some next) :
    Program.Lowered (remaining next) (remaining daemon) := by
  have halted := orderly.stopped called
  cases step_turn moved with
  | start idle _ => exact absurd idle called
  | stop idle => exact absurd idle called
  | stopper turn => exact lowered_of_lt (turn.cost orderly)
  | acceptor takes turn =>
      have stopping := turn.control.2.2.2
      have cheaper := turn.cost halted takes
      apply lowered_of_lt
      simp only [remaining, stopping]
      omega
  | session there moves =>
      rw [halted] at moves
      exact thread_lowers there (Nat.add_lt_add_right (OpenSession.own_move_cost own moves) 2)
  | performs there phase => exact performed_lowers there phase _ _
  | finish there returned =>
      apply thread_lowers there
      simp [SessionThread.cost, returned, ServePhase.cost]
  | leave there => exact thread_lowers there (by decide : 1 < 2)

theorem StopTurn.running (turn : StopTurn daemon next) : next.running = daemon.running := by
  cases turn <;> rfl

theorem step_halted {move : DaemonMove} (halted : daemon.running = false)
    (called : daemon.stopping ≠ .idle) (moved : step settings exec daemon move = some next) :
    next.running = false := by
  cases step_turn moved with
  | start idle _ => exact absurd idle called
  | stop idle => exact absurd idle called
  | stopper turn => exact turn.running.trans halted
  | acceptor _ turn => exact turn.control.2.2.1.trans halted
  | session _ _ | performs _ _ | finish _ _ | leave _ => exact halted

/-- The daemon makes a step without its clients. -/
def Goes (settings : DaemonSettings) (exec : (call : BackendCall) → Store → call.Answer × Store)
    (daemon : LdapDaemon Store) : Prop :=
  ∃ move next, move.isClient = false ∧ step settings exec daemon move = some next

/-- A session waits for its client. -/
def HeldUp (settings : DaemonSettings) (daemon : LdapDaemon Store) : Prop :=
  ∃ (thread : Nat) (session : OpenSession),
    daemon.threads[thread]? = some (.serving session) ∧ session.Blocked settings

/-- A thread that is not joined can be joined, makes a step of its own or waits for its
client. -/
theorem joinable_or_moves (settings : DaemonSettings)
    (exec : (call : BackendCall) → Store → call.Answer × Store) {thread : Nat}
    (unjoined : Unjoined daemon.threads thread) :
    (∃ joined, daemon.join thread = some joined) ∨ Goes settings exec daemon ∨
      HeldUp settings daemon := by
  obtain ⟨status, there, notJoined⟩ := unjoined
  cases status with
  | serving session =>
      right
      rcases session.blocked_or_can_go settings daemon.running with
        blocked | ⟨act, after, own, moves⟩ | returned | ⟨call, rest, phase⟩
      · exact Or.inr ⟨thread, session, there, blocked⟩
      · exact Or.inl ⟨.session thread act, _, own, by simp only [step, there, moves]; rfl⟩
      · exact Or.inl ⟨.finish thread, _, rfl, by simp only [step, there, returned]; rfl⟩
      · exact Or.inl ⟨.performs thread, _, rfl, by simp only [step, there, phase]; rfl⟩
  | finished => exact Or.inr (Or.inl ⟨.leave thread, _, rfl, by simp only [step, there]; rfl⟩)
  | exited => exact Or.inl ⟨_, by simp only [join, there]; rfl⟩
  | joined => cases notJoined

/-- The accept loop goes on, except where it joins a thread or has ended. -/
theorem accept_possible (settings : DaemonSettings) (present : daemon.acceptor ≠ .absent)
    (going : daemon.acceptor ≠ .ended)
    (free : ∀ connection worker rest, daemon.acceptor ≠ .joining connection (worker :: rest)) :
    ∃ next, acceptStep settings none daemon = some next := by
  unfold acceptStep
  split
  · rename_i absent
    exact absurd absent present
  · exact ⟨_, rfl⟩
  · exact ⟨_, rfl⟩
  · split
    · exact ⟨_, rfl⟩
    · split <;> exact ⟨_, rfl⟩
  · exact ⟨_, rfl⟩
  · rename_i joining
    exact absurd joining (free _ _ _)
  · split <;> exact ⟨_, rfl⟩
  · exact ⟨_, rfl⟩
  · exact ⟨_, rfl⟩
  · rename_i ended
    exact absurd ended going

theorem accept_goes {next : LdapDaemon Store}
    (moved : acceptStep settings none daemon = some next) : Goes settings exec daemon := by
  refine ⟨.acceptor none, next, rfl, ?_⟩
  have taken : daemon.acceptor.takes none = true := by cases daemon.acceptor <;> rfl
  simp only [step, taken]
  exact moved

/-- Until `stop` has returned the daemon makes a step, or it waits for a client. -/
theorem stop_possible (sound : Sound settings daemon) (called : daemon.stopping ≠ .idle) :
    Goes settings exec daemon ∨ HeldUp settings daemon := by
  have unjoined (thread : Nat) (member : thread ∈ daemon.held) : Unjoined daemon.threads thread :=
    (sound.custody.unjoined thread).mp member
  cases stopping : daemon.stopping with
  | idle => exact absurd stopping called
  | collecting => exact Or.inl ⟨.stopper, _, rfl, by simp only [step, stopStep, stopping]; rfl⟩
  | joining live =>
      cases live with
      | nil => exact Or.inl ⟨.stopper, _, rfl, by simp only [step, stopStep, stopping]; rfl⟩
      | cons worker rest =>
          rcases joinable_or_moves settings exec
            (unjoined worker (by simp [held, stopping])) with joined | moves
          · obtain ⟨joined, done⟩ := joined
            exact Or.inl ⟨.stopper, _, rfl, by simp only [step, stopStep, stopping, done]; rfl⟩
          · exact moves
  | waiting =>
      by_cases absent : daemon.acceptor = .absent
      · exact Or.inl ⟨.stopper, _, rfl, by simp only [step, stopStep, stopping, absent]; rfl⟩
      · by_cases ended : daemon.acceptor = .ended
        · exact Or.inl ⟨.stopper, _, rfl, by simp only [step, stopStep, stopping, ended]; rfl⟩
        · by_cases free : ∀ connection worker rest,
              daemon.acceptor ≠ .joining connection (worker :: rest)
          · obtain ⟨next, moved⟩ := accept_possible settings absent ended free
            exact Or.inl (accept_goes moved)
          · push Not at free
            obtain ⟨connection, worker, rest, joining⟩ := free
            rcases joinable_or_moves settings exec
              (unjoined worker (by simp [held, joining])) with joined | moves
            · obtain ⟨joined, done⟩ := joined
              have moved : acceptStep settings none daemon =
                  some { joined with acceptor := .joining connection rest } := by
                simp only [acceptStep, joining, done]
                rfl
              exact Or.inl (accept_goes moved)
            · exact moves

/-- The clients can always let the daemon go on, by closing if need be. -/
theorem round_possible (sound : Sound settings daemon) (called : daemon.stopping ≠ .idle) :
    ∃ round next, paced (step settings exec) DaemonMove.isClient daemon round = some next := by
  have possible : Goes settings exec daemon ∨ HeldUp settings daemon := stop_possible sound called
  rcases possible with ⟨move, next, own, moved⟩ | ⟨thread, session, there, blocked⟩
  · exact ⟨([], move), next, paced_eq_some_iff.mpr ⟨nofun, own, daemon, rfl, moved⟩⟩
  · have inside := (List.getElem?_eq_some_iff.mp there).1
    have closes : step settings exec daemon (.session thread .closes) =
        some { daemon with
          threads := daemon.threads.set thread (.serving { session with closed := true }) } := by
      simp only [step, there]
      rfl
    have ends : ∃ next, step settings exec
        { daemon with
          threads := daemon.threads.set thread (.serving { session with closed := true }) }
        (.session thread .goesOn) = some next := by
      simp only [step, List.getElem?_set_self inside, OpenSession.move,
        OpenSession.closed_goes_on blocked]
      exact ⟨_, rfl⟩
    obtain ⟨next, moved⟩ := ends
    refine ⟨([.session thread .closes], .session thread .goesOn), next, ?_⟩
    refine paced_eq_some_iff.mpr ⟨?_, rfl, _, ?_, moved⟩
    · intro wait member
      rw [List.mem_singleton.mp member]
      rfl
    · simp only [moveAll, closes]
      rfl

end Stop

section Silence

/-- A blocked session stays where it is as long as its client is silent. -/
theorem Effect.still_blocked {move : DaemonMove} (effect : Effect settings exec move daemon next)
    {thread : Nat} {session : OpenSession}
    (there : daemon.threads[thread]? = some (.serving session))
    (blocked : session.Blocked settings)
    (silent : ∀ act, move.acted = some (thread, act) → act.isClient = false) :
    next.threads[thread]? = some (.serving session) := by
  have elsewhere {mover : Nat} {new : SessionThread}
      (threads : next.threads = daemon.threads.set mover new) (different : mover ≠ thread) :
      next.threads[thread]? = some (.serving session) := by
    rw [threads, List.getElem?_set_ne different]
    exact there
  have other {mover : Nat} {status : SessionThread} (found : daemon.threads[mover]? = some status)
      (unlike : status ≠ .serving session) : mover ≠ thread := by
    intro same
    rw [same, there] at found
    exact unlike (Option.some.inj found).symm
  cases effect with
  | passed threads _ _ _ => exact threads ▸ there
  | started connection threads _ _ _ _ _ =>
      rw [threads, List.getElem?_append_left (List.getElem?_eq_some_iff.mp there).1]
      exact there
  | moved mover act before after acted found moves threads _ _ =>
      apply elsewhere threads
      intro same
      rw [same] at acted found
      rw [there] at found
      cases found
      rw [OpenSession.blocked_stays blocked (silent act acted)] at moves
      cases moves
  | served mover before call rest found phase threads _ _ _ =>
      apply elsewhere threads (other found _)
      intro same
      cases same
      have waits := blocked.2
      simp [phase] at waits
  | ended mover before found returned threads _ _ _ =>
      apply elsewhere threads (other found _)
      intro same
      cases same
      have waits := blocked.2
      simp [returned] at waits
  | left mover found threads _ _ _ => exact elsewhere threads (other found nofun)
  | joined mover found threads _ _ _ => exact elsewhere threads (other found nofun)

/-- A client that has sent a part of a PDU, does not go on with the handshake or takes no
answers, keeps `stop` from returning for as long as it does nothing: no step of the daemon
and of the other clients gets its session on. -/
theorem silent_client_holds_stop {store : Store} {moves : List DaemonMove}
    (reached : moveAll (step settings exec) { store := store } moves = some daemon)
    (called : daemon.stopping ≠ .idle) {thread : Nat} {session : OpenSession}
    (there : daemon.threads[thread]? = some (.serving session))
    (blocked : session.Blocked settings) {further : List DaemonMove} {later : LdapDaemon Store}
    (silent : ∀ act, .session thread act ∈ further → act.isClient = false)
    (moved : moveAll (step settings exec) daemon further = some later) :
    later.stopping ≠ .idle ∧ later.threads[thread]? = some (.serving session) := by
  have sound := reached_sound reached
  clear reached
  induction further generalizing daemon with
  | nil =>
      cases moved
      exact ⟨called, there⟩
  | cons move rest ih =>
      obtain ⟨next, here, later⟩ := Option.bind_eq_some_iff.mp moved
      have still : next.threads[thread]? = some (.serving session) := by
        apply (step_effect here).still_blocked there blocked
        intro act acted
        apply silent act
        cases move with
        | session mover moving =>
            cases acted
            exact List.mem_cons_self
        | _ => cases acted
      have safe := sound.step here
      have waiting : next.stopping ≠ .idle := by
        intro idle
        have joined := safe.all_joined idle
          (step_halted (sound.orderly.stopped called) called here) _ (List.mem_of_getElem? still)
        cases joined
      exact ih waiting still (fun act member => silent act (List.mem_cons_of_mem move member))
        later safe

end Silence

section Examples

/-- One connection is accepted, its client sends the first byte of a PDU, and `stop` is
called while the session reads on. -/
def stoppedRun : List DaemonMove :=
  [.start, .acceptor none, .acceptor (some {})] ++ List.replicate 5 (.acceptor none) ++
    [.session 0 .goesOn, .session 0 (.arrives [Ber.kBerSequence]), .session 0 .goesOn, .stop]

theorem stopped_run_reached :
    ∃ daemon later, moveAll (step { maxSessions := 1 } MemoryBackend.exec)
        { store := OrderedMap.empty } stoppedRun = some daemon ∧
      moveAll (step { maxSessions := 1 } MemoryBackend.exec) daemon [.acceptor none] = some later ∧
      daemon.workers = [0] ∧ daemon.stopping = .waiting ∧
      daemon.threads[0]? =
        some (.serving { phase := .receiving {}, unread := [Ber.kBerSequence] }) :=
  ⟨_, _, rfl, rfl, rfl, rfl, rfl⟩

theorem stopped_run_accounted_for :
    ∃ daemon, moveAll (step { maxSessions := 1 } MemoryBackend.exec)
        { store := OrderedMap.empty } stoppedRun = some daemon ∧
      daemon.workers = [0] ∧ daemon.threads.countP SessionThread.isServing ≤ 1 ∧
      Custody daemon := by
  obtain ⟨daemon, _, reached, _, workers, _, _⟩ := stopped_run_reached
  have accounted := sessions_are_accounted_for reached
  exact ⟨daemon, reached, workers, accounted.1 Nat.zero_lt_one, accounted.2.1⟩

theorem stopped_run_held :
    ∃ daemon later, moveAll (step { maxSessions := 1 } MemoryBackend.exec)
        { store := OrderedMap.empty } stoppedRun = some daemon ∧
      moveAll (step { maxSessions := 1 } MemoryBackend.exec) daemon [.acceptor none] = some later ∧
      later.stopping ≠ .idle ∧
      later.threads[0]? =
        some (.serving { phase := .receiving {}, unread := [Ber.kBerSequence] }) := by
  obtain ⟨daemon, later, reached, moved, _, waiting, there⟩ := stopped_run_reached
  refine ⟨daemon, later, reached, moved, ?_⟩
  exact silent_client_holds_stop reached (by simp [waiting]) there ⟨rfl, rfl⟩ (by simp) moved

end Examples

end LdapDaemon

end SimpleLdapd
