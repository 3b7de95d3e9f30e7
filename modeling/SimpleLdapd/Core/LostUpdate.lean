import Mathlib.Data.List.Infix
import SimpleLdapd.Core.WriteOutcome

/-!
# Two concurrent Modify requests

`handleModify` looks the entry up, changes its copy and writes the whole entry
back, with the backend lock released in between. When the two windows between
lookup and write never overlap, the final entry is a serial result; when they
do, the second write discards the first one.
-/

namespace SimpleLdapd.Session

open Dn MemoryBackend

/-- A session with one Modify request to handle. -/
structure Modifier where
  context : RequestContext := {}
  session : SessionState
  request : LdapMessage

variable (server : Server)

/-- The change list with its new passwords hashed. -/
def changesOf (modifier : Modifier) : List AttributeModification :=
  Password.encodeUserPasswordChanges server.openssl modifier.context.salts
    modifier.request.modify.changes

/-- Both lists apply without error, one after the other. -/
def AppliedInOrder (entry : DirectoryEntry) (first second : List AttributeModification)
    (final : DirectoryEntry) : Prop :=
  ∃ middle, Modify.applyModifications entry first = (.success, middle) ∧
    Modify.applyModifications middle second = (.success, final)

/-- The next backend call of the program is a whole-entry write. -/
def AboutToModify (program : BackendProgram LdapMessage) : Prop :=
  ∃ entry next, program = .call (.modify entry) next

def AnsweredSuccess (program : BackendProgram LdapMessage) : Prop :=
  ∃ response, program = .done response ∧ response.result = .success

section Stages

variable (modifier : Modifier)

def answerModify (code : ResultCode) (diagnostic : Bytes) : LdapMessage :=
  Message.makeLdapResult modifier.request.messageId .modifyResponse code diagnostic

/-- The handler from its access decision on. -/
def afterAccess (allowed : Bool) : BackendProgram LdapMessage :=
  if !allowed then
    pure (answerModify modifier .insufficientAccessRights (text "insufficient access"))
  else do
    let found ← Backend.lookup modifier.request.modify.dn
    modifyFound server modifier.context modifier.request found

/-- The handler from its write on. -/
def afterModify (modified : Bool) : BackendProgram LdapMessage :=
  if !modified then pure (answerModify modifier .operationsError (text "modify failed"))
  else do
    Backend.persist
    pure (answerModify modifier .success [])

/-- The session still decides about access. -/
def Reading (program : BackendProgram LdapMessage) : Prop :=
  ∃ access : BackendProgram Bool, access.Issues BackendCall.ReadOnly ∧
    program = access >>= afterAccess server modifier

/-- The session applied its changes to `snapshot` and writes the result next. -/
def Writing (snapshot : DirectoryEntry) (program : BackendProgram LdapMessage) : Prop :=
  ∃ changed, Modify.applyModifications snapshot (changesOf server modifier) = (.success, changed) ∧
    program = Backend.modify changed >>= afterModify modifier

def Refused (program : BackendProgram LdapMessage) : Prop :=
  ∃ response, response.result ≠ .success ∧ program = .done response

/-- The session has not written, and what it read, if anything, is `current`. -/
def Pending (current : DirectoryEntry) (program : BackendProgram LdapMessage) : Prop :=
  Reading server modifier program ∨ Writing server modifier current program ∨ Refused program

def Committed (program : BackendProgram LdapMessage) : Prop :=
  program = Backend.persist >>= (fun _ => pure (answerModify modifier .success [])) ∨
    program = .done (answerModify modifier .success [])

variable {server} {modifier} {store : MemoryStore} {current : DirectoryEntry} {dn : Bytes}

theorem handle_modify_pending :
    Pending server modifier current
      (handleModify server modifier.context modifier.session modifier.request) :=
  Or.inl ⟨mayWrite server modifier.session modifier.request.modify.dn,
    (may_write_read_only server modifier.session _).mono fun _ => BackendCall.Reads.readOnly, rfl⟩

/-- Once the entry is read, the session writes its changed copy or refuses. -/
theorem modify_found_pending :
    Pending server modifier current
      (modifyFound server modifier.context modifier.request (some current)) := by
  unfold modifyFound
  simp only
  split
  · rename_i failed
    exact Or.inr (Or.inr ⟨_, failed, rfl⟩)
  rename_i applied
  split
  · rename_i invalid
    exact Or.inr (Or.inr ⟨_, invalid, rfl⟩)
  · exact Or.inr (Or.inl ⟨_, Prod.ext (not_not.mp applied) rfl, rfl⟩)

theorem pending_not_answered {program : BackendProgram LdapMessage}
    (pending : Pending server modifier current program) : ¬ AnsweredSuccess program := by
  intro answered
  obtain ⟨response, finished, success⟩ := answered
  rw [finished] at pending
  rcases pending with ⟨access, _, same⟩ | ⟨changed, _, same⟩ | ⟨refusal, failed, same⟩
  · cases access with
    | done allowed =>
        cases allowed with
        | false =>
            cases same
            exact absurd success (by decide : ResultCode.insufficientAccessRights ≠ .success)
        | true => cases same
    | call op next => cases same
  · cases same
  · cases same
    exact failed success

/-- One call of a session that has not written: a read, or its write. -/
theorem pending_step (invariant : StoreInvariant store) (found : lookup store dn = some current)
    (same : toLowerAscii modifier.request.modify.dn = toLowerAscii dn) {op : BackendCall}
    {next : op.Answer → BackendProgram LdapMessage}
    (pending : Pending server modifier current (.call op next)) :
    (op.ReadOnly ∧ Pending server modifier current (next (exec op store).1)) ∨
      ∃ changed, Modify.applyModifications current (changesOf server modifier) =
          (.success, changed) ∧ AboutToModify (.call op next) ∧
        lookup (exec op store).2 dn = some changed ∧
        Committed modifier (next (exec op store).1) := by
  rcases pending with ⟨access, issued, stage⟩ | ⟨changed, applied, stage⟩ | ⟨_, _, stage⟩
  · cases access with
    | done allowed =>
        cases allowed with
        | false => cases stage
        | true =>
            cases stage
            refine Or.inl ⟨trivial, ?_⟩
            change Pending server modifier current (modifyFound server modifier.context
              modifier.request (lookup store modifier.request.modify.dn))
            rw [lookup_congr store same, found]
            exact modify_found_pending
    | call op' next' =>
        cases stage
        exact Or.inl ⟨issued.1, Or.inl ⟨next' _, issued.2 _, rfl⟩⟩
  · cases stage
    right
    have frame := (Modify.apply_modifications_frame current (changesOf server modifier)).1
    rw [applied] at frame
    have sameDn : toLowerAscii changed.dn = toLowerAscii dn := by
      rw [frame]
      exact invariant.lookup_dn found
    have written := modify_succeeds sameDn found
    refine ⟨changed, applied, ⟨changed, _, rfl⟩, ?_, ?_⟩
    · change lookup (modify store changed).2 dn = some changed
      rw [lookup_modified invariant written, if_pos sameDn]
    · change Committed modifier (afterModify modifier (modify store changed).1)
      rw [written]
      exact Or.inl rfl
  · cases stage

theorem committed_step (store : MemoryStore) {op : BackendCall} {next : op.Answer → BackendProgram LdapMessage}
    (committed : Committed modifier (.call op next)) :
    op.ReadOnly ∧ Committed modifier (next (exec op store).1) := by
  rcases committed with stage | stage
  · cases stage
    exact ⟨trivial, Or.inr rfl⟩
  · cases stage

/-- A session that has not read yet, or never will, is unaffected by a new entry. -/
theorem pending_of_not_writing {program : BackendProgram LdapMessage} {other : DirectoryEntry}
    (pending : Pending server modifier current program) (calm : ¬ AboutToModify program) :
    Pending server modifier other program := by
  rcases pending with reading | ⟨changed, _, stage⟩ | refused
  · exact Or.inl reading
  · exact absurd ⟨changed, _, stage⟩ calm
  · exact Or.inr (Or.inr refused)

end Stages

section Interleavings

abbrev ModifyPool := Program.Pool Bool BackendCall BackendCall.Answer LdapMessage MemoryStore

/-- Two sessions, each about to handle its Modify request. -/
def modifyPool (modifiers : Bool → Modifier) (store : MemoryStore) : ModifyPool where
  threads thread := handleModify server (modifiers thread).context (modifiers thread).session
    (modifiers thread).request
  state := store

/-- At this moment both sessions have read the entry and neither has written it. -/
def WindowsOverlap (pool : ModifyPool) : Prop :=
  AboutToModify (pool.threads true) ∧ AboutToModify (pool.threads false)

/-- The stages of two requests whose windows do not overlap. -/
inductive Serial (modifiers : Bool → Modifier) (dn : Bytes) (entry : DirectoryEntry)
    (pool : ModifyPool) : Prop where
  | untouched (found : lookup pool.state dn = some entry)
      (pending : ∀ thread, Pending server (modifiers thread) entry (pool.threads thread))
  | halfDone (first : Bool) (middle : DirectoryEntry)
      (applied : Modify.applyModifications entry (changesOf server (modifiers first)) =
        (.success, middle))
      (found : lookup pool.state dn = some middle)
      (committed : Committed (modifiers first) (pool.threads first))
      (pending : Pending server (modifiers !first) middle (pool.threads !first))
  | finished (first : Bool) (final : DirectoryEntry)
      (applied : AppliedInOrder entry (changesOf server (modifiers first))
        (changesOf server (modifiers !first)) final)
      (found : lookup pool.state dn = some final)
      (committed : ∀ thread, Committed (modifiers thread) (pool.threads thread))

variable {server} {modifiers : Bool → Modifier} {dn : Bytes} {entry : DirectoryEntry}

theorem calm_other {pool : ModifyPool} (apart : ¬ WindowsOverlap pool) {thread : Bool}
    (about : AboutToModify (pool.threads thread)) : ¬ AboutToModify (pool.threads !thread) := by
  intro other
  cases thread with
  | false => exact apart ⟨other, about⟩
  | true => exact apart ⟨about, other⟩

/-- One backend call of one of the two sessions. -/
theorem advance_serial
    (sameDn : ∀ thread, toLowerAscii (modifiers thread).request.modify.dn = toLowerAscii dn)
    {pool : ModifyPool} (invariant : StoreInvariant pool.state)
    (serial : Serial server modifiers dn entry pool) (apart : ¬ WindowsOverlap pool)
    (thread : Bool) : Serial server modifiers dn entry (Program.advance exec pool thread) := by
  rcases Program.advance_cases exec pool thread with ⟨_, same⟩ | ⟨op, next, running, moved⟩
  · rw [same]
    exact serial
  rw [moved]
  have others : (!thread) ≠ thread := Bool.not_ne_self thread
  cases serial with
  | untouched found pending =>
      have here := pending thread
      rw [running] at here
      rcases pending_step invariant found (sameDn thread) here with
        ⟨readOnly, later⟩ | ⟨changed, applied, about, written, committed⟩
      · apply Serial.untouched
        · rw [exec_read_only readOnly]
          exact found
        · exact (Function.forall_update_iff _ _).mpr ⟨later, fun other _ => pending other⟩
      · rw [← running] at about
        apply Serial.halfDone thread changed applied written
        · simpa using committed
        · simpa [Function.update_of_ne others] using
            pending_of_not_writing (pending !thread) (calm_other apart about)
  | halfDone first middle applied found committed pending =>
      by_cases equal : thread = first
      · subst equal
        rw [running] at committed
        have later := committed_step pool.state committed
        apply Serial.halfDone thread middle applied
        · rw [exec_read_only later.1]
          exact found
        · simpa using later.2
        · simpa [Function.update_of_ne others] using pending
      · have second : thread = !first := Bool.eq_not_of_ne equal
        rw [← second, running] at pending
        have kept : Function.update pool.threads thread (next (exec op pool.state).1) first =
            pool.threads first := Function.update_of_ne (Ne.symm equal) _ _
        rcases pending_step invariant found (sameDn thread) pending with
          ⟨readOnly, later⟩ | ⟨changed, appliedNext, _, written, committedNext⟩
        · apply Serial.halfDone first middle applied
          · rw [exec_read_only readOnly]
            exact found
          · simpa [kept] using committed
          · rw [← second]
            simpa using later
        · apply Serial.finished first changed ⟨middle, applied, second ▸ appliedNext⟩ written
          refine (Function.forall_update_iff _ _).mpr ⟨committedNext, fun other unmoved => ?_⟩
          have isFirst : other = first := by
            rw [second] at unmoved
            exact (Bool.eq_not_of_ne unmoved).trans (Bool.not_not first)
          rw [isFirst]
          exact committed
  | finished first final applied found committed =>
      have here := committed thread
      rw [running] at here
      have later := committed_step pool.state here
      apply Serial.finished first final applied
      · rw [exec_read_only later.1]
        exact found
      · exact (Function.forall_update_iff _ _).mpr ⟨later.2, fun other _ => committed other⟩

theorem interleave_serial
    (sameDn : ∀ thread, toLowerAscii (modifiers thread).request.modify.dn = toLowerAscii dn)
    {pool : ModifyPool} (reachable : Reachable pool.state)
    (serial : Serial server modifiers dn entry pool) {schedule : List Bool}
    (apart : ∀ earlier, earlier <+: schedule →
      ¬ WindowsOverlap (Program.interleave exec pool earlier)) :
    Serial server modifiers dn entry (Program.interleave exec pool schedule) := by
  induction schedule generalizing pool with
  | nil => exact serial
  | cons thread rest ih =>
      have here : ¬ WindowsOverlap pool := apart [] List.nil_prefix
      apply ih (reachable.after_advance thread)
        (advance_serial sameDn reachable.invariant serial here thread)
      intro earlier inside
      exact apart (thread :: earlier) (List.cons_prefix_cons.mpr ⟨rfl, inside⟩)

/-- In an interleaving whose windows never overlap, two successful Modify requests leave
the entry as if they had been handled one after the other. -/
theorem modifies_are_serial {store : MemoryStore} (reachable : Reachable store)
    (found : lookup store dn = some entry)
    (sameDn : ∀ thread, toLowerAscii (modifiers thread).request.modify.dn = toLowerAscii dn)
    {schedule : List Bool}
    (apart : ∀ earlier, earlier <+: schedule →
      ¬ WindowsOverlap (Program.interleave exec (modifyPool server modifiers store) earlier))
    (answered : ∀ thread, AnsweredSuccess
      ((Program.interleave exec (modifyPool server modifiers store) schedule).threads thread)) :
    ∃ final,
      lookup (Program.interleave exec (modifyPool server modifiers store) schedule).state dn =
        some final ∧
      (AppliedInOrder entry (changesOf server (modifiers true)) (changesOf server (modifiers false))
          final ∨
        AppliedInOrder entry (changesOf server (modifiers false)) (changesOf server (modifiers true))
          final) := by
  have start : Reachable (modifyPool server modifiers store).state := reachable
  have serial := interleave_serial sameDn start
    (Serial.untouched found fun thread => handle_modify_pending) apart
  cases serial with
  | untouched _ pending => exact absurd (answered true) (pending_not_answered (pending true))
  | halfDone first _ _ _ _ pending =>
      exact absurd (answered !first) (pending_not_answered pending)
  | finished first final applied ended _ =>
      refine ⟨final, ended, ?_⟩
      cases first with
      | true => exact Or.inl applied
      | false => exact Or.inr applied

end Interleavings

section Examples

def nextIsModify : BackendProgram LdapMessage → Bool
  | .call (.modify _) _ => true
  | _ => false

theorem next_is_modify_iff (program : BackendProgram LdapMessage) :
    nextIsModify program = true ↔ AboutToModify program := by
  constructor
  · intro isModify
    unfold nextIsModify at isModify
    split at isModify
    · exact ⟨_, _, rfl⟩
    · cases isModify
  · intro about
    obtain ⟨entry, next, same⟩ := about
    rw [same]
    rfl

instance (program : BackendProgram LdapMessage) : Decidable (AboutToModify program) :=
  decidable_of_iff _ (next_is_modify_iff program)

def answeredCode : BackendProgram LdapMessage → Option ResultCode
  | .done response => some response.result
  | .call _ _ => none

theorem answered_code_iff (program : BackendProgram LdapMessage) :
    answeredCode program = some .success ↔ AnsweredSuccess program := by
  cases program with
  | done response => simp [answeredCode, AnsweredSuccess]
  | call op next => simp [answeredCode, AnsweredSuccess]

instance (program : BackendProgram LdapMessage) : Decidable (AnsweredSuccess program) :=
  decidable_of_iff _ (answered_code_iff program)

instance (pool : ModifyPool) : Decidable (WindowsOverlap pool) :=
  inferInstanceAs (Decidable (_ ∧ _))

def personDn : Bytes := text "cn=a,ou=people,dc=example,dc=com"

def personWith (mail : List Bytes) : DirectoryEntry :=
  { dn := personDn
    attributes :=
      if mail = [] then OrderedMap.empty.insert (text "cn") [text "a"]
      else (OrderedMap.empty.insert (text "cn") [text "a"]).insert (text "mail") mail }

/-- The administrator adds a mail address in each of two sessions. -/
def twoAddresses (thread : Bool) : Modifier :=
  { session := administrator
    request := { op := .modifyRequest
                 modify := { dn := if thread then personDn else text "CN=A,ou=people,dc=example,dc=com"
                             changes := [{ op := .add, type := text "mail"
                                           values := [text (if thread then "one" else "two")] }] } } }

theorem separate_modifies_are_serial :
    ∃ final,
      lookup (Program.interleave exec (modifyPool {} twoAddresses smallDirectory)
        [true, true, false, true, false, false]).state personDn = some final ∧
      (AppliedInOrder (personWith []) (changesOf {} (twoAddresses true))
          (changesOf {} (twoAddresses false)) final ∨
        AppliedInOrder (personWith []) (changesOf {} (twoAddresses false))
          (changesOf {} (twoAddresses true)) final) := by
  apply modifies_are_serial small_directory_reachable
  · decide +kernel
  · decide +kernel
  · intro earlier inside
    rw [← List.mem_inits] at inside
    revert earlier
    decide +kernel
  · decide +kernel

/-- Both sessions read before either writes: both are answered success, and the first
address is lost. -/
theorem overlapping_modifies_lose_update :
    lookup smallDirectory personDn = some (personWith []) ∧
      (∀ thread, AnsweredSuccess
        ((Program.interleave exec (modifyPool {} twoAddresses smallDirectory)
          [true, false, true, false, true, false]).threads thread)) ∧
      ¬ ∃ final,
        lookup (Program.interleave exec (modifyPool {} twoAddresses smallDirectory)
          [true, false, true, false, true, false]).state personDn = some final ∧
        (AppliedInOrder (personWith []) (changesOf {} (twoAddresses true))
            (changesOf {} (twoAddresses false)) final ∨
          AppliedInOrder (personWith []) (changesOf {} (twoAddresses false))
            (changesOf {} (twoAddresses true)) final) := by
  refine ⟨by decide +kernel, by decide +kernel, ?_⟩
  intro serial
  obtain ⟨final, ended, order⟩ := serial
  have last : lookup (Program.interleave exec (modifyPool {} twoAddresses smallDirectory)
      [true, false, true, false, true, false]).state personDn =
        some (personWith [text "two"]) := by
    decide +kernel
  have both (thread : Bool) : (Modify.applyModifications
      (Modify.applyModifications (personWith []) (changesOf {} (twoAddresses thread))).2
      (changesOf {} (twoAddresses !thread))).2 ≠ personWith [text "two"] := by
    revert thread
    decide +kernel
  rw [last] at ended
  cases ended
  rcases order with ⟨middle, first, second⟩ | ⟨middle, first, second⟩
  · exact both true (by rw [first, Bool.not_true, second])
  · exact both false (by rw [first, Bool.not_false, second])

end Examples

end SimpleLdapd.Session
