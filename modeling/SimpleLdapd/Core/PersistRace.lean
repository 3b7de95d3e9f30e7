import SimpleLdapd.Backend.Ldif
import SimpleLdapd.Core.WriteOutcome
import SimpleLdapd.Library.CallProtocol

/-!
# Concurrent writes and the LDIF file (`backend/ldif.cpp`)

`persist` takes its own mutex, truncates the file, reads a snapshot of the store
under the other mutex and writes it out, while other sessions go on writing the
store. Every successful write is followed by a persist of the same session, so
either somebody has yet to take a snapshot, or the last one taken is the store.
-/

namespace SimpleLdapd.Session

open Dn MemoryBackend

/-- Where a session stands in `persist`. -/
inductive PersistPhase where
  | outside
  | locked
  | opened
  | captured (entries : List DirectoryEntry)
  | written

/-- Sessions on one LDIF backend: the store, the file and who holds `persist_mutex_`.
The last two fields are history: the sessions between a successful write and the end of
the persist that follows it, and whether any persist has ended. -/
structure LdifSystem (Thread : Type*) where
  path : Bytes
  threads : Thread → BackendProgram (Option (List LdapMessage))
  phases : Thread → PersistPhase
  persistMutex : Option Thread
  store : MemoryStore
  file : Bytes
  unsaved : Thread → Bool
  exported : Bool

/-- The call was a write that the backend carried out. -/
def wrote : (call : BackendCall) → call.Answer → Bool
  | .add _, written | .modify _, written | .remove _, written | .rename _ _, written => written
  | .lookup _, _ | .search _ _ _, _ | .hasChildren _, _ | .persist, _ => false

/-- What the loop of `exportFile` writes for its snapshot. -/
def writeEntries (entries : List DirectoryEntry) : Bytes :=
  entries.flatMap fun entry =>
    (LdifBackend.entryLines entry).flatMap fun line => line ++ [LdifBackend.newline]

def snapshot (store : MemoryStore) : List DirectoryEntry := search store [] .subtree Filter.all

theorem write_snapshot (store : MemoryStore) :
    writeEntries (snapshot store) = LdifBackend.exportFile store := rfl

/-- Whether a session owes a persist. -/
inductive Saving where
  | clean
  | owing
  deriving DecidableEq

def savingOf (unsaved : Bool) : Saving := if unsaved then .owing else .clean

/-- A persist follows each successful write at once, and nothing else does one. -/
def writeThenPersist : Program.CallProtocol BackendCall BackendCall.Answer Saving where
  permits stage
    | .persist => stage = .owing
    | .rename _ _ => False
    | .lookup _ | .search _ _ _ | .hasChildren _ | .add _ | .modify _ | .remove _ => stage = .clean
  after _ op answer := savingOf (wrote op answer)

section Handlers

variable {server : Server} (context : RequestContext) (session : SessionState)

abbrev Saves {Value : Type} (program : BackendProgram Value) (stage : Saving) : Prop :=
  program.Follows writeThenPersist (fun reached _ => reached = .clean) stage

theorem reads_save {Value : Type} {program : BackendProgram Value}
    (reads : program.Issues BackendCall.Reads) : Saves program .clean := by
  apply Program.follows_of_issues (fun reached => reached = Saving.clean) _ reads rfl
  intro reached op here reading
  cases op with
  | lookup dn => exact ⟨here, fun _ => rfl⟩
  | search baseDn scope filter => exact ⟨here, fun _ => rfl⟩
  | hasChildren dn => exact ⟨here, fun _ => rfl⟩
  | _ => exact absurd reading id

theorem saves_bind {First Value : Type} {program : BackendProgram First}
    {rest : First → BackendProgram Value} {stage : Saving} (saves : Saves program stage)
    (next : ∀ value, Saves (rest value) .clean) : Saves (program >>= rest) stage := by
  apply Program.follows_bind
  apply Program.Follows.mono saves
  intro reached value here
  rw [here]
  exact next value

theorem saves_commit {failure success : LdapMessage} (done : Bool) :
    Saves (if !done then pure failure else do Backend.persist; pure success :
      BackendProgram LdapMessage) (savingOf done) := by
  cases done with
  | false => rfl
  | true => exact Program.follows_perform rfl fun _ => rfl

theorem handle_add_saves (request : LdapMessage) :
    Saves (handleAdd server context session request) .clean := by
  unfold handleAdd
  apply saves_bind (reads_save (may_write_read_only server session _))
  intro allowed
  split
  · rfl
  split
  · rfl
  apply Program.follows_perform rfl
  intro existing
  split
  · rfl
  apply saves_bind (reads_save (empty_or_stored_read_only _))
  intro placed
  split
  · rfl
  simp only
  split
  · rfl
  · exact Program.follows_perform rfl saves_commit

theorem handle_modify_saves (request : LdapMessage) :
    Saves (handleModify server context session request) .clean := by
  unfold handleModify
  apply saves_bind (reads_save (may_write_read_only server session _))
  intro allowed
  split
  · rfl
  apply Program.follows_perform rfl
  intro existing
  unfold modifyFound
  split
  · rfl
  simp only
  split
  · rfl
  split
  · rfl
  · exact Program.follows_perform rfl saves_commit

theorem handle_delete_saves (request : LdapMessage) :
    Saves (handleDelete server session request) .clean := by
  unfold handleDelete
  apply saves_bind (reads_save (may_write_read_only server session _))
  intro allowed
  split
  · rfl
  apply Program.follows_perform rfl
  intro existing
  split
  · rfl
  apply Program.follows_perform rfl
  intro parental
  split
  · rfl
  · exact Program.follows_perform rfl saves_commit

theorem handle_password_modify_saves (request : LdapMessage) :
    Saves (handlePasswordModify server context session request) .clean := by
  unfold handlePasswordModify
  simp only
  split
  · rfl
  split
  · rfl
  split
  · rfl
  split
  · rfl
  · rfl
  apply saves_bind (reads_save (SimpleBindAuthenticator.resolve_name_read_only server.config _))
  intro resolved
  split
  · rfl
  split
  · rfl
  apply saves_bind (reads_save (may_change_password_read_only server session _))
  intro allowed
  split
  · rfl
  apply saves_bind (reads_save (old_password_read_only server _ _))
  intro accepted
  split
  · rfl
  apply Program.follows_perform rfl
  intro existing
  split
  · rfl
  split
  · rfl
  split
  · rfl
  · exact Program.follows_perform rfl saves_commit

theorem handle_request_saves {request : LdapMessage} (notRename : request.op ≠ .modifyDnRequest) :
    Saves (handleRequest server context session request) .clean := by
  have replies {handler : BackendProgram LdapMessage} (saves : Saves handler .clean) :
      Saves (do let response ← handler; pure (reply session response) :
        BackendProgram (Option Reply)) .clean :=
    saves_bind saves fun _ => rfl
  by_cases isWrite : IsWrite request
  · unfold handleRequest
    rcases isWrite with op | op | op | op | ⟨op, oid⟩
    · rw [op]
      exact replies (handle_add_saves context session request)
    · rw [op]
      exact replies (handle_modify_saves context session request)
    · rw [op]
      exact replies (handle_delete_saves session request)
    · exact absurd op notRename
    · rw [op]
      simp only
      rw [handle_extended_password_modify server context session oid]
      exact replies (handle_password_modify_saves context session request)
  · exact reads_save (handle_other_read_only server context session isWrite)

theorem serve_saves {requests : List (RequestContext × LdapMessage)}
    (noRename : ∀ request ∈ requests, request.2.op ≠ .modifyDnRequest) :
    Saves (serve server session requests) .clean := by
  induction requests generalizing session with
  | nil => rfl
  | cons request rest ih =>
      unfold serve
      apply saves_bind (handle_request_saves request.1 session (noRename request (by simp)))
      intro outcome
      split
      · rfl
      · rename_i reply
        split
        · apply saves_bind (ih reply.session fun other member => noRename other (by simp [member]))
          exact fun _ => rfl
        · rfl

end Handlers

section Machine

variable {Thread : Type*} [DecidableEq Thread]

/-- The session returns from `persist`. -/
def endPersist (system : LdifSystem Thread) (thread : Thread)
    (rest : BackendProgram (Option (List LdapMessage))) : LdifSystem Thread :=
  { system with
    threads := Function.update system.threads thread rest
    phases := Function.update system.phases thread .outside
    persistMutex := none
    unsaved := Function.update system.unsaved thread false
    exported := true }

/-- One atomic call of the session on the store. -/
def performCall (system : LdifSystem Thread) (thread : Thread) (op : BackendCall)
    (next : op.Answer → BackendProgram (Option (List LdapMessage))) : LdifSystem Thread :=
  { system with
    threads := Function.update system.threads thread (next (exec op system.store).1)
    store := (exec op system.store).2
    unsaved := Function.update system.unsaved thread
      (system.unsaved thread || wrote op (exec op system.store).1) }

/-- The scheduled session takes its next step; one that waits for the mutex or has
ended takes none. -/
def ldifStep (system : LdifSystem Thread) (thread : Thread) : LdifSystem Thread :=
  match system.phases thread with
  | .outside =>
      match system.threads thread with
      | .done _ => system
      | .call .persist next =>
          if system.path = [] then
            { system with
              threads := Function.update system.threads thread (next ())
              unsaved := Function.update system.unsaved thread false
              exported := true }
          else
            match system.persistMutex with
            | some _ => system
            | none =>
                { system with
                  phases := Function.update system.phases thread .locked
                  persistMutex := some thread }
      | .call op next => performCall system thread op next
  | .locked =>
      { system with file := [], phases := Function.update system.phases thread .opened }
  | .opened =>
      { system with
        phases := Function.update system.phases thread (.captured (snapshot system.store)) }
  | .captured entries =>
      { system with
        file := writeEntries entries
        phases := Function.update system.phases thread .written }
  | .written =>
      match system.threads thread with
      | .call .persist next => endPersist system thread (next ())
      | _ => system

/-- The ways in which a step of a backend with a path changes the system. -/
inductive Stepped (system : LdifSystem Thread) (thread : Thread) : LdifSystem Thread → Prop where
  | waits : Stepped system thread system
  | performs (op : BackendCall) (next : op.Answer → BackendProgram (Option (List LdapMessage)))
      (outside : system.phases thread = .outside) (running : system.threads thread = .call op next)
      (call : op ≠ .persist) : Stepped system thread (performCall system thread op next)
  | locks (next : Unit → BackendProgram (Option (List LdapMessage)))
      (outside : system.phases thread = .outside)
      (running : system.threads thread = .call .persist next) (free : system.persistMutex = none) :
      Stepped system thread
        { system with
          phases := Function.update system.phases thread .locked, persistMutex := some thread }
  | opens (locked : system.phases thread = .locked) :
      Stepped system thread
        { system with file := [], phases := Function.update system.phases thread .opened }
  | captures (opened : system.phases thread = .opened) :
      Stepped system thread
        { system with
          phases := Function.update system.phases thread (.captured (snapshot system.store)) }
  | writes (entries : List DirectoryEntry) (captured : system.phases thread = .captured entries) :
      Stepped system thread
        { system with
          file := writeEntries entries
          phases := Function.update system.phases thread .written }
  | ends (next : Unit → BackendProgram (Option (List LdapMessage)))
      (written : system.phases thread = .written)
      (running : system.threads thread = .call .persist next) :
      Stepped system thread (endPersist system thread (next ()))

theorem ldif_step_stepped {system : LdifSystem Thread} (named : system.path ≠ []) (thread : Thread) :
    Stepped system thread (ldifStep system thread) := by
  unfold ldifStep
  split
  · rename_i outside
    split
    · exact .waits
    · rename_i next running
      rw [if_neg named]
      split
      · exact .waits
      · rename_i free
        exact .locks next outside running free
    · rename_i op next other running
      refine .performs op next outside running ?_
      intro isPersist
      subst isPersist
      exact other next rfl HEq.rfl
  · rename_i locked
    exact .opens locked
  · rename_i opened
    exact .captures opened
  · rename_i entries captured
    exact .writes entries captured
  · rename_i written
    split
    · rename_i next running
      exact .ends next written running
    · exact .waits

end Machine

section Invariant

variable {Thread : Type*}

/-- The last word on the file: somebody has yet to take a snapshot, or the one being
written is the store, or what was written is. -/
inductive Current (system : LdifSystem Thread) : Prop where
  | pending (thread : Thread) (owes : system.unsaved thread = true)
      (early : system.phases thread = .outside ∨ system.phases thread = .locked ∨
        system.phases thread = .opened)
  | caught (thread : Thread) (captured : system.phases thread = .captured (snapshot system.store))
  | saved (idle : ∀ thread entries, system.phases thread ≠ .captured entries)
      (same : (system.exported = true ∨ ∃ thread, system.phases thread = .written) →
        system.file = LdifBackend.exportFile system.store)

structure Consistent (system : LdifSystem Thread) : Prop where
  saves : ∀ thread, Saves (system.threads thread) (savingOf (system.unsaved thread))
  exclusive : ∀ thread, system.phases thread ≠ .outside → system.persistMutex = some thread
  owes : ∀ thread, system.phases thread ≠ .outside → system.unsaved thread = true
  current : Current system

variable {system : LdifSystem Thread} {thread : Thread}

theorem Consistent.alone (consistent : Consistent system) {other : Thread}
    (inside : system.phases thread ≠ .outside) (otherInside : system.phases other ≠ .outside) :
    other = thread := by
  have mine := consistent.exclusive thread inside
  rw [consistent.exclusive other otherInside] at mine
  exact Option.some.inj mine

/-- A session that owes a persist does nothing else first. -/
theorem Consistent.clean_call (consistent : Consistent system) {op : BackendCall}
    {next : op.Answer → BackendProgram (Option (List LdapMessage))}
    (running : system.threads thread = .call op next) (call : op ≠ .persist) :
    system.unsaved thread = false := by
  have permitted := (running ▸ consistent.saves thread).1
  cases owing : system.unsaved thread with
  | false => rfl
  | true =>
      rw [owing] at permitted
      cases op <;> first | exact absurd rfl call | cases permitted

theorem Consistent.owing_persist (consistent : Consistent system)
    {next : Unit → BackendProgram (Option (List LdapMessage))}
    (running : system.threads thread = .call .persist next) : system.unsaved thread = true := by
  have permitted := (running ▸ consistent.saves thread).1
  cases owing : system.unsaved thread with
  | true => rfl
  | false =>
      rw [owing] at permitted
      cases permitted

/-- A call that did not write left the store alone. -/
theorem store_of_not_wrote {stage : Saving} {op : BackendCall} {store : MemoryStore}
    (permitted : writeThenPersist.permits stage op)
    (silent : wrote op (exec op store).1 = false) : (exec op store).2 = store := by
  cases op with
  | add entry =>
      change (add store entry).1 = false at silent
      rcases add_cases store entry with ⟨_, _, added⟩ | ⟨_, refused⟩
      · rw [added] at silent
        cases silent
      · exact congrArg Prod.snd refused
  | modify entry => exact modify_refused silent
  | remove dn =>
      change (remove store dn).1 = false at silent
      rcases remove_cases store dn with ⟨_, _, _, _, _, removed⟩ | ⟨_, refused⟩
      · rw [removed] at silent
        cases silent
      · exact congrArg Prod.snd refused
  | rename source target => exact absurd permitted id
  | _ => rfl

/-- Only what the file is compared with matters for how current it is. -/
theorem Current.congr {other : LdifSystem Thread} (current : Current system)
    (phases : other.phases = system.phases) (store : other.store = system.store)
    (file : other.file = system.file) (unsaved : other.unsaved = system.unsaved)
    (exported : other.exported = system.exported) : Current other := by
  cases current with
  | pending thread owes early => exact .pending thread (by rwa [unsaved]) (by rwa [phases])
  | caught thread captured => exact .caught thread (by rwa [phases, store])
  | saved idle same => exact .saved (by rwa [phases]) (by rwa [exported, phases, file, store])

variable [DecidableEq Thread]

theorem performs_consistent (consistent : Consistent system) {op : BackendCall}
    {next : op.Answer → BackendProgram (Option (List LdapMessage))}
    (outside : system.phases thread = .outside) (running : system.threads thread = .call op next)
    (call : op ≠ .persist) : Consistent (performCall system thread op next) := by
  have clean := consistent.clean_call running call
  obtain ⟨permitted, follows⟩ := running ▸ consistent.saves thread
  refine ⟨?_, consistent.exclusive, ?_, ?_⟩
  · intro other
    by_cases same : other = thread
    · subst other
      simp only [performCall, Function.update_self, clean, Bool.false_or]
      exact follows _
    · simp only [performCall, Function.update_of_ne same]
      exact consistent.saves other
  · intro other inside
    have different : other ≠ thread := by
      intro same
      rw [same] at inside
      exact inside outside
    simp only [performCall, Function.update_of_ne different]
    exact consistent.owes other inside
  · cases written : wrote op (exec op system.store).1 with
    | true =>
        refine .pending thread ?_ (Or.inl outside)
        simp [performCall, written]
    | false =>
        refine consistent.current.congr rfl (store_of_not_wrote permitted written) rfl ?_ rfl
        simp only [performCall, written, Bool.or_false]
        exact Function.update_eq_self thread system.unsaved

/-- Moving on inside `persist`, or into it, keeps all but what is said of the file. -/
theorem inside_consistent (consistent : Consistent system) {phase : PersistPhase} {file : Bytes}
    {mutex : Option Thread} (held : mutex = some thread) (owing : system.unsaved thread = true)
    (alone : ∀ other, system.phases other ≠ .outside → other = thread)
    (current : Current { system with
      file := file, phases := Function.update system.phases thread phase
      persistMutex := mutex }) :
    Consistent { system with
      file := file, phases := Function.update system.phases thread phase
      persistMutex := mutex } := by
  refine ⟨consistent.saves, ?_, ?_, current⟩
  · intro other inside
    by_cases same : other = thread
    · rw [same]
      exact held
    · simp only [Function.update_of_ne same] at inside
      exact absurd (alone other inside) same
  · intro other inside
    by_cases same : other = thread
    · rw [same]
      exact owing
    · simp only [Function.update_of_ne same] at inside
      exact consistent.owes other inside

/-- The session whose snapshot is on its way to the file. -/
theorem writes_current (consistent : Consistent system) {entries : List DirectoryEntry}
    (captured : system.phases thread = .captured entries) :
    Current { system with
      file := writeEntries entries
      phases := Function.update system.phases thread .written } := by
  have inside : system.phases thread ≠ .outside := by
    rw [captured]
    exact nofun
  cases consistent.current with
  | pending other owes early =>
      have different : other ≠ thread := by
        intro same
        rw [same, captured] at early
        rcases early with phase | phase | phase <;> cases phase
      exact .pending other owes (by simpa only [Function.update_of_ne different] using early)
  | caught other caught =>
      have same : other = thread := by
        apply consistent.alone inside
        rw [caught]
        exact nofun
      rw [same, captured] at caught
      cases caught
      refine .saved ?_ fun _ => write_snapshot system.store
      intro some others
      by_cases mine : some = thread
      · simp [mine]
      · simp only [Function.update_of_ne mine]
        intro phase
        apply mine
        apply consistent.alone inside
        rw [phase]
        exact nofun
  | saved idle _ => exact absurd captured (idle thread entries)

theorem ends_consistent (consistent : Consistent system)
    {next : Unit → BackendProgram (Option (List LdapMessage))}
    (written : system.phases thread = .written)
    (running : system.threads thread = .call .persist next) :
    Consistent (endPersist system thread (next ())) := by
  have inside : system.phases thread ≠ .outside := by
    rw [written]
    exact nofun
  have othersOutside {other : Thread} (different : other ≠ thread) :
      system.phases other = .outside := by
    by_contra otherInside
    exact different (consistent.alone inside otherInside)
  refine ⟨?_, ?_, ?_, ?_⟩
  · intro other
    by_cases same : other = thread
    · subst other
      simp only [endPersist, Function.update_self]
      exact (running ▸ consistent.saves thread).2 ()
    · simp only [endPersist, Function.update_of_ne same]
      exact consistent.saves other
  · intro other otherInside
    by_cases same : other = thread
    · simp [endPersist, same] at otherInside
    · simp [endPersist, Function.update_of_ne same, othersOutside same] at otherInside
  · intro other otherInside
    by_cases same : other = thread
    · simp [endPersist, same] at otherInside
    · simp [endPersist, Function.update_of_ne same, othersOutside same] at otherInside
  · cases consistent.current with
    | pending other owes early =>
        have different : other ≠ thread := by
          intro same
          rw [same, written] at early
          rcases early with phase | phase | phase <;> cases phase
        refine .pending other ?_ ?_
        · simpa only [endPersist, Function.update_of_ne different] using owes
        · simpa only [endPersist, Function.update_of_ne different] using early
    | caught other caught =>
        by_cases same : other = thread
        · rw [same, written] at caught
          cases caught
        · rw [othersOutside same] at caught
          cases caught
    | saved idle saved =>
        refine .saved ?_ fun _ => saved (Or.inr ⟨thread, written⟩)
        intro other entries
        by_cases same : other = thread
        · simp [endPersist, same]
        · simp only [endPersist, Function.update_of_ne same]
          exact idle other entries

/-- One step of one session. -/
theorem ldif_step_consistent (named : system.path ≠ []) (consistent : Consistent system)
    (thread : Thread) : Consistent (ldifStep system thread) := by
  have alone (inside : system.phases thread ≠ .outside) (other : Thread)
      (otherInside : system.phases other ≠ .outside) : other = thread :=
    consistent.alone inside otherInside
  have stepped := ldif_step_stepped named thread
  generalize ldifStep system thread = reached at stepped ⊢
  cases stepped with
  | waits => exact consistent
  | performs op next outside running call => exact performs_consistent consistent outside running call
  | locks next outside running free =>
      have owing := consistent.owing_persist running
      apply inside_consistent consistent rfl owing
      · intro other otherInside
        have held := consistent.exclusive other otherInside
        rw [free] at held
        cases held
      · exact .pending thread owing (Or.inr (Or.inl (Function.update_self ..)))
  | opens locked =>
      have inside : system.phases thread ≠ .outside := by
        rw [locked]
        exact nofun
      have owing := consistent.owes thread inside
      apply inside_consistent consistent (consistent.exclusive thread inside) owing (alone inside)
      exact .pending thread owing (Or.inr (Or.inr (Function.update_self ..)))
  | captures opened =>
      have inside : system.phases thread ≠ .outside := by
        rw [opened]
        exact nofun
      apply inside_consistent consistent (consistent.exclusive thread inside)
        (consistent.owes thread inside) (alone inside)
      exact .caught thread (Function.update_self ..)
  | writes entries captured =>
      have inside : system.phases thread ≠ .outside := by
        rw [captured]
        exact nofun
      exact inside_consistent consistent (consistent.exclusive thread inside)
        (consistent.owes thread inside) (alone inside) (writes_current consistent captured)
  | ends next written running => exact ends_consistent consistent written running

theorem ldif_step_path (system : LdifSystem Thread) (thread : Thread) :
    (ldifStep system thread).path = system.path := by
  unfold ldifStep
  split
  · split
    · rfl
    · split
      · rfl
      · split <;> rfl
    · rfl
  · rfl
  · rfl
  · rfl
  · split <;> rfl

theorem steps_consistent (named : system.path ≠ []) (consistent : Consistent system)
    (schedule : List Thread) : Consistent (schedule.foldl ldifStep system) := by
  induction schedule generalizing system with
  | nil => exact consistent
  | cons thread rest ih =>
      apply ih _ (ldif_step_consistent named consistent thread)
      rw [ldif_step_path]
      exact named

/-- Sessions that are about to start on a backend with some file. -/
def ldifSystem (server : Server) (path : Bytes) (store : MemoryStore) (file : Bytes)
    (sessions : Thread → SessionState × List (RequestContext × LdapMessage)) :
    LdifSystem Thread where
  path := path
  threads thread := serve server (sessions thread).1 (sessions thread).2
  phases _ := .outside
  persistMutex := none
  store := store
  file := file
  unsaved _ := false
  exported := false

/-- Whatever the sessions do and in whatever order, once a persist has ended and nobody
owes one, the file is the export of the store. -/
theorem persisted_file_is_current {server : Server} {path : Bytes} (named : path ≠ [])
    (store : MemoryStore) (file : Bytes)
    {sessions : Thread → SessionState × List (RequestContext × LdapMessage)}
    (noRename : ∀ thread, ∀ request ∈ (sessions thread).2, request.2.op ≠ .modifyDnRequest)
    (schedule : List Thread)
    (exported : (schedule.foldl ldifStep (ldifSystem server path store file sessions)).exported = true)
    (saved : ∀ thread,
      (schedule.foldl ldifStep (ldifSystem server path store file sessions)).unsaved thread = false) :
    (schedule.foldl ldifStep (ldifSystem server path store file sessions)).file =
      LdifBackend.exportFile
        (schedule.foldl ldifStep (ldifSystem server path store file sessions)).store := by
  have start : Consistent (ldifSystem server path store file sessions) := by
    refine ⟨?_, fun _ inside => absurd rfl inside, fun _ inside => absurd rfl inside, ?_⟩
    · intro thread
      exact serve_saves (sessions thread).1 (noRename thread)
    · refine .saved (fun _ _ => nofun) ?_
      rintro (ended | ⟨thread, written⟩)
      · cases ended
      · cases written
  have consistent := steps_consistent named start schedule
  cases consistent.current with
  | pending thread owes early =>
      rw [saved thread] at owes
      cases owes
  | caught thread captured =>
      have owes := consistent.owes thread (by rw [captured]; exact nofun)
      rw [saved thread] at owes
      cases owes
  | saved idle same => exact same (Or.inl exported)

end Invariant

section Examples

/-- Two sessions add an entry each. -/
def twoAdds : Bool → SessionState × List (RequestContext × LdapMessage)
  | true => (administrator, [({}, { op := .addRequest, add := { dn := text "dc=one" } })])
  | false => (administrator, [({}, { op := .addRequest, add := { dn := text "dc=two" } })])

theorem two_adds_no_rename (thread : Bool) :
    ∀ request ∈ (twoAdds thread).2, request.2.op ≠ .modifyDnRequest := by
  intro request member
  cases thread with
  | true =>
      rw [List.mem_singleton.mp member]
      exact nofun
  | false =>
      rw [List.mem_singleton.mp member]
      exact nofun

/-- The second session writes while the first holds the mutex with an older snapshot, and
persists behind it. -/
def addDuringPersist : List Bool :=
  [true, true, true, true, true, false, false, false, true, true, false, false, false, false, false]

theorem both_adds_are_in_the_file :
    ((addDuringPersist.foldl ldifStep (ldifSystem {} (text "seed.ldif") OrderedMap.empty []
      twoAdds)).file =
      LdifBackend.exportFile (addDuringPersist.foldl ldifStep (ldifSystem {} (text "seed.ldif")
        OrderedMap.empty [] twoAdds)).store) ∧
      (addDuringPersist.foldl ldifStep (ldifSystem {} (text "seed.ldif") OrderedMap.empty []
        twoAdds)).store.entries.length = 2 :=
  ⟨persisted_file_is_current (by decide) OrderedMap.empty [] two_adds_no_rename addDuringPersist
    (by decide +kernel) (by decide +kernel), by decide +kernel⟩

end Examples

end SimpleLdapd.Session
