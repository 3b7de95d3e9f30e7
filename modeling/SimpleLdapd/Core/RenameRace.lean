import SimpleLdapd.Core.AddDeleteRace

/-!
# A ModifyDN among concurrent sessions

`handleModifyDn` commits the changed attributes with one backend call and moves
the entry with the next. What it checked before the first may be gone at the
second: the entry, or the room for its new name. Then the request is refused
although its attributes are already written.
-/

namespace SimpleLdapd.Session

open Dn MemoryBackend

/-- How far a rename has come. -/
inductive RenameStage where
  | reading
  | written
  | stuck
  | settled
  deriving DecidableEq

/-- Reads, then one whole-entry write, then the move, and nothing but a persist behind it. -/
def writeThenMove (change : ModifyDnRequestData) :
    Program.CallProtocol BackendCall BackendCall.Answer RenameStage where
  permits stage
    | .lookup _ | .search _ _ _ | .hasChildren _ | .modify _ => stage = .reading
    | .persist => stage = .settled
    | .rename source target =>
        stage = .written ∧ source = change.dn ∧ target = newDn change ∧ newDn change ≠ []
    | .add _ | .remove _ => False
  after stage
    | .modify _, modified => if modified then .written else .reading
    | .rename _ _, moved => if moved then .settled else .stuck
    | _, _ => stage

/-- The request was answered with another code than success. -/
def AnsweredRefusal (program : BackendProgram (Option (List LdapMessage))) : Prop :=
  ∃ response, program = .done (some [response]) ∧ response.result ≠ .success

/-- A rename ends in the middle of nothing: refused while it read or when it could not
move, and answered success once it moved. -/
def Concluded (stage : RenameStage) (code : ResultCode) : Prop :=
  match stage with
  | .reading => True
  | .written => False
  | .stuck => code ≠ .success
  | .settled => code = .success

section Handler

variable {server : Server} (session : SessionState)

abbrev Renames (change : ModifyDnRequestData) (program : BackendProgram LdapMessage)
    (stage : RenameStage) : Prop :=
  program.Follows (writeThenMove change) (fun reached response => Concluded reached response.result)
    stage

theorem renames_reads {First : Type} {change : ModifyDnRequestData}
    {program : BackendProgram First} {rest : First → BackendProgram LdapMessage}
    (readOnly : program.Issues BackendCall.Reads)
    (next : ∀ value, Renames change (rest value) .reading) :
    Renames change (program >>= rest) .reading := by
  apply Program.follows_bind
  have reads : program.Follows (writeThenMove change)
      (fun reached _ => reached = RenameStage.reading) .reading := by
    apply Program.follows_of_issues (fun reached => reached = RenameStage.reading) _ readOnly rfl
    intro reached op here reading
    cases op with
    | lookup dn => exact ⟨here, fun _ => here⟩
    | search baseDn scope filter => exact ⟨here, fun _ => here⟩
    | hasChildren dn => exact ⟨here, fun _ => here⟩
    | _ => exact absurd reading id
  apply reads.mono
  intro reached value here
  rw [here]
  exact next value

theorem new_dn_nonempty {change : ModifyDnRequestData} (named : change.newRdn ≠ []) :
    newDn change ≠ [] := by
  unfold newDn composeDn
  split
  · exact named
  · simp [named]

theorem handle_modify_dn_renames (request : LdapMessage) :
    Renames request.modifyDn (handleModifyDn server session request) .reading := by
  unfold handleModifyDn
  simp only
  split
  · trivial
  rename_i named
  apply renames_reads (may_write_both_read_only server session _ _)
  intro allowed
  split
  · trivial
  apply Program.follows_perform rfl
  intro found
  split
  · trivial
  apply renames_reads (empty_or_stored_read_only _)
  intro placed
  split
  · trivial
  apply renames_reads (target_taken_read_only _)
  intro taken
  split
  · trivial
  split
  · trivial
  split
  · trivial
  apply Program.follows_perform rfl
  intro modified
  cases modified with
  | false => trivial
  | true =>
      refine Program.follows_perform ?_ ?_
      · exact ⟨rfl, rfl, rfl, new_dn_nonempty named⟩
      intro moved
      cases moved with
      | false => exact nofun
      | true => exact Program.follows_perform rfl fun _ => rfl

/-- From this stage on the session renames and answers its one request. -/
abbrev RenamesAndAnswers (change : ModifyDnRequestData)
    (program : BackendProgram (Option (List LdapMessage))) (stage : RenameStage) : Prop :=
  program.Follows (writeThenMove change)
    (fun reached sent => ∃ response, sent = some [response] ∧ Concluded reached response.result)
    stage

/-- A session with the rename as its only request. -/
theorem serve_renames (context : RequestContext) {request : LdapMessage}
    (isRename : request.op = .modifyDnRequest) :
    RenamesAndAnswers request.modifyDn (serve server session [(context, request)]) .reading := by
  unfold serve handleRequest
  rw [isRename]
  apply Program.follows_bind
  apply Program.follows_bind
  apply (handle_modify_dn_renames session request).mono
  intro reached response concluded
  exact ⟨response, rfl, concluded⟩

end Handler

section Interleavings

variable {Thread : Type*} [DecidableEq Thread]

/-- No step of this session changed the store. -/
def LeavesStore (me : Thread) (pool : SessionPool Thread) (schedule : List Thread) : Prop :=
  Along (Program.advance exec)
    (fun reached thread => thread = me → (Program.advance exec reached thread).state = reached.state)
    pool schedule

/-- The entry is stored, and its new name is free or only another spelling. -/
def RenameFits (store : MemoryStore) (change : ModifyDnRequestData) : Prop :=
  lookup store change.dn ≠ none ∧
    (toLowerAscii change.dn = toLowerAscii (newDn change) ∨ lookup store (newDn change) = none)

/-- The next backend call of the program is a move. -/
def aboutToRename : BackendProgram (Option (List LdapMessage)) → Bool
  | .call (.rename _ _) _ => true
  | _ => false

theorem about_to_rename {program : BackendProgram (Option (List LdapMessage))}
    (about : aboutToRename program = true) :
    ∃ source target next, program = .call (.rename source target) next := by
  unfold aboutToRename at about
  split at about
  · exact ⟨_, _, _, rfl⟩
  · cases about

variable {change : ModifyDnRequestData} {me : Thread} {pool : SessionPool Thread}

/-- What one call of the session did when it is still reading, or stuck, behind it. -/
theorem rename_call_effect {store : MemoryStore} (invariant : StoreInvariant store)
    {op : BackendCall} {next : op.Answer → BackendProgram (Option (List LdapMessage))}
    {stage : RenameStage} (renames : RenamesAndAnswers change (.call op next) stage) :
    ((writeThenMove change).after stage op (exec op store).1 = .reading →
        stage = .reading ∧ (exec op store).2 = store) ∧
      ((writeThenMove change).after stage op (exec op store).1 = .stuck →
        aboutToRename (.call op next) = true ∧ ¬ RenameFits store change ∧
          (exec op store).2 = store) := by
  have permitted := renames.1
  cases op with
  | lookup dn =>
      have reading : stage = .reading := permitted
      rw [reading]
      exact ⟨fun _ => ⟨rfl, rfl⟩, nofun⟩
  | search baseDn scope filter =>
      have reading : stage = .reading := permitted
      rw [reading]
      exact ⟨fun _ => ⟨rfl, rfl⟩, nofun⟩
  | hasChildren dn =>
      have reading : stage = .reading := permitted
      rw [reading]
      exact ⟨fun _ => ⟨rfl, rfl⟩, nofun⟩
  | persist =>
      have settled : stage = .settled := permitted
      rw [settled]
      exact ⟨nofun, nofun⟩
  | modify entry =>
      change ((if (modify store entry).1 then RenameStage.written else .reading) = .reading → _) ∧
        ((if (modify store entry).1 then RenameStage.written else .reading) = .stuck → _)
      cases modified : (modify store entry).1 with
      | true => exact ⟨nofun, nofun⟩
      | false => exact ⟨fun _ => ⟨permitted, modify_refused modified⟩, nofun⟩
  | rename source target =>
      obtain ⟨_, sameSource, sameTarget, named⟩ := permitted
      subst sameSource sameTarget
      change ((if (rename store change.dn (newDn change)).1 then RenameStage.settled else .stuck) =
          .reading → _) ∧
        ((if (rename store change.dn (newDn change)).1 then RenameStage.settled else .stuck) =
          .stuck → _)
      cases moved : (rename store change.dn (newDn change)).1 with
      | true => exact ⟨nofun, nofun⟩
      | false =>
          refine ⟨nofun, fun _ => ⟨rfl, ?_, rename_refused invariant moved⟩⟩
          intro fits
          rw [(rename_succeeds_iff invariant named).mpr fits] at moved
          cases moved
  | add entry => exact absurd permitted id
  | remove dn => exact absurd permitted id

/-- While the session reads, and once it is stuck, it has changed nothing, provided each
move behind a change fits. -/
theorem renames_without_trace (reachable : Reachable pool.state)
    (renames : RenamesAndAnswers change (pool.threads me) .reading) {schedule : List Thread}
    (fits : ∀ earlier, earlier ++ [me] <+: schedule →
      aboutToRename ((Program.interleave exec pool earlier).threads me) = true →
      ¬ LeavesStore me pool earlier →
      RenameFits (Program.interleave exec pool earlier).state change)
    {earlier : List Thread} (reached : earlier <+: schedule) :
    ∃ stage, RenamesAndAnswers change ((Program.interleave exec pool earlier).threads me) stage ∧
      (stage = .reading ∨ stage = .stuck → LeavesStore me pool earlier) := by
  induction earlier using List.reverseRecOn with
  | nil => exact ⟨.reading, renames, fun _ => trivial⟩
  | append_singleton earlier thread ih =>
      obtain ⟨stage, here, calm⟩ := ih ((List.prefix_append earlier [thread]).trans reached)
      have invariant := (reachable.after_interleave earlier).invariant
      rw [Program.interleave_concat]
      by_cases mine : thread = me
      · subst mine
        rcases Program.advance_cases exec (Program.interleave exec pool earlier) thread with
          ⟨_, same⟩ | ⟨op, next, running, moved⟩
        · rw [same]
          exact ⟨stage, here, fun stopped => along_concat.mpr ⟨calm stopped, fun _ => by
            change (Program.advance exec (Program.interleave exec pool earlier) thread).state = _
            rw [same]
            rfl⟩⟩
        · rw [running] at here
          obtain ⟨stillReading, nowStuck⟩ := rename_call_effect invariant here
          have silent (kept : (exec op (Program.interleave exec pool earlier).state).2 =
              (Program.interleave exec pool earlier).state) :
              (Program.advance exec (Program.interleave exec pool earlier) thread).state =
                (Program.interleave exec pool earlier).state := by
            rw [moved]
            exact kept
          refine ⟨_, by rw [moved]; simpa using here.2 _, ?_⟩
          rintro (reading | stuck)
          · obtain ⟨before, kept⟩ := stillReading reading
            exact along_concat.mpr ⟨calm (Or.inl before), fun _ => silent kept⟩
          · obtain ⟨about, unfit, kept⟩ := nowStuck stuck
            rw [← running] at about
            have untouched : LeavesStore thread pool earlier := by
              by_contra changed
              exact unfit (fits earlier reached about changed)
            exact along_concat.mpr ⟨untouched, fun _ => silent kept⟩
      · rw [Program.advance_other_thread exec _ mine]
        exact ⟨stage, here, fun stopped => along_concat.mpr
          ⟨calm stopped, fun same => absurd same mine⟩⟩

theorem stuck_is_refused {program : BackendProgram (Option (List LdapMessage))}
    (stuck : RenamesAndAnswers change program .stuck) : AnsweredRefusal program := by
  cases program with
  | done sent =>
      obtain ⟨response, same, refused⟩ := stuck
      rw [same]
      exact ⟨response, rfl, refused⟩
  | call op next =>
      have permitted := stuck.1
      cases op with
      | rename source target => exact absurd permitted.1 nofun
      | _ => contradiction

theorem stage_of_refused {program : BackendProgram (Option (List LdapMessage))}
    {stage : RenameStage} (renames : RenamesAndAnswers change program stage)
    (refused : AnsweredRefusal program) : stage = .reading ∨ stage = .stuck := by
  obtain ⟨response, finished, failed⟩ := refused
  rw [finished] at renames
  obtain ⟨answer, same, concluded⟩ := renames
  cases same
  cases stage with
  | reading => exact Or.inl rfl
  | written => exact absurd concluded id
  | stuck => exact Or.inr rfl
  | settled => exact absurd concluded failed

/-- A move that does not fit is answered with a refusal. -/
theorem unfit_move_refused (invariant : StoreInvariant pool.state) {stage : RenameStage}
    (renames : RenamesAndAnswers change (pool.threads me) stage)
    (about : aboutToRename (pool.threads me) = true) (unfit : ¬ RenameFits pool.state change) :
    AnsweredRefusal ((Program.advance exec pool me).threads me) := by
  obtain ⟨source, target, next, running⟩ := about_to_rename about
  rw [running] at renames
  obtain ⟨_, sameSource, sameTarget, named⟩ := renames.1
  subst sameSource sameTarget
  have moved : (rename pool.state change.dn (newDn change)).1 = false := by
    rw [← Bool.not_eq_true, rename_succeeds_iff invariant named]
    exact unfit
  rw [Program.advance_call exec running]
  simp only [Function.update_self]
  change AnsweredRefusal (next (rename pool.state change.dn (newDn change)).1)
  rw [moved]
  exact stuck_is_refused (renames.2 false)

/-- A refused ModifyDN leaves no trace in a run exactly if each of its moves behind a
change of the entry still fits the store that it is called on. -/
theorem refused_rename_leaves_store_iff {server : Server} {store : MemoryStore}
    (reachable : Reachable store) {me : Thread}
    {sessions : Thread → SessionState × List (RequestContext × LdapMessage)}
    {session : SessionState} {context : RequestContext} {request : LdapMessage}
    (handles : sessions me = (session, [(context, request)]))
    (isRename : request.op = .modifyDnRequest) (schedule : List Thread) :
    (∀ earlier, earlier <+: schedule →
        AnsweredRefusal
          ((Program.interleave exec (sessionPool server store sessions) earlier).threads me) →
        LeavesStore me (sessionPool server store sessions) earlier) ↔
      ∀ earlier, earlier ++ [me] <+: schedule →
        aboutToRename
          ((Program.interleave exec (sessionPool server store sessions) earlier).threads me) = true →
        ¬ LeavesStore me (sessionPool server store sessions) earlier →
        RenameFits (Program.interleave exec (sessionPool server store sessions) earlier).state
          request.modifyDn := by
  have renames : RenamesAndAnswers request.modifyDn
      ((sessionPool server store sessions).threads me) .reading := by
    change RenamesAndAnswers _ (serve server (sessions me).1 (sessions me).2) _
    rw [handles]
    exact serve_renames session context isRename
  constructor
  · intro leaves earlier reached about changed
    by_contra unfit
    obtain ⟨stage, here⟩ : ∃ stage, RenamesAndAnswers request.modifyDn
        ((Program.interleave exec (sessionPool server store sessions) earlier).threads me) stage :=
      Program.follows_interleave renames earlier
    have invariant : StoreInvariant
        (Program.interleave exec (sessionPool server store sessions) earlier).state :=
      (Reachable.after_interleave reachable earlier).invariant
    have refused := unfit_move_refused invariant here about unfit
    rw [← Program.interleave_concat] at refused
    exact changed (along_concat.mp (leaves _ reached refused)).1
  · intro fits earlier reached refused
    obtain ⟨stage, here, calm⟩ := renames_without_trace reachable renames fits reached
    exact calm (stage_of_refused here refused)

end Interleavings

section Examples

instance (store : MemoryStore) (change : ModifyDnRequestData) :
    Decidable (RenameFits store change) :=
  inferInstanceAs (Decidable (_ ∧ _))

def moveRequest : LdapMessage :=
  { op := .modifyDnRequest
    modifyDn := { dn := text "cn=a,ou=people,dc=example,dc=com", newRdn := text "cn=b"
                  deleteOldRdn := true } }

/-- One session renames the person while the other one adds an entry beside it. -/
def renameBeside (added : Bytes) : Bool → SessionState × List (RequestContext × LdapMessage)
  | true => (administrator, [({}, moveRequest)])
  | false => (administrator, [({}, { op := .addRequest, add := { dn := added } })])

theorem rename_beside_handles (added : Bytes) :
    renameBeside added true = (administrator, [({}, moveRequest)]) := rfl

/-- The Add runs between the write of the attributes and the move. -/
def addInsideRename : List Bool := [true, true, true, true, false, false, false, true]

theorem rename_beside_other_leaves_store :
    Reachable smallDirectory ∧ ∀ earlier, earlier <+: addInsideRename →
      AnsweredRefusal ((Program.interleave exec (sessionPool {} smallDirectory
        (renameBeside (text "cn=c,ou=people,dc=example,dc=com"))) earlier).threads true) →
      LeavesStore true (sessionPool {} smallDirectory
        (renameBeside (text "cn=c,ou=people,dc=example,dc=com"))) earlier := by
  refine ⟨small_directory_reachable, (refused_rename_leaves_store_iff small_directory_reachable
    (rename_beside_handles (text "cn=c,ou=people,dc=example,dc=com")) rfl addInsideRename).mpr ?_⟩
  have fits : ∀ earlier ∈ addInsideRename.inits,
      aboutToRename ((Program.interleave exec (sessionPool {} smallDirectory
        (renameBeside (text "cn=c,ou=people,dc=example,dc=com"))) earlier).threads true) = true →
      RenameFits (Program.interleave exec (sessionPool {} smallDirectory
        (renameBeside (text "cn=c,ou=people,dc=example,dc=com"))) earlier).state
        moveRequest.modifyDn := by
    decide +kernel
  intro earlier reached about _
  exact fits earlier ((List.mem_inits _ _).mpr ((List.prefix_append _ _).trans reached)) about

/-- The name that was free when the rename checked it is taken when it moves. -/
theorem refused_rename_leaves_attributes :
    Reachable smallDirectory ∧
      AnsweredRefusal ((Program.interleave exec (sessionPool {} smallDirectory
        (renameBeside (text "cn=b,ou=people,dc=example,dc=com"))) addInsideRename).threads true) ∧
      ¬ LeavesStore true (sessionPool {} smallDirectory
        (renameBeside (text "cn=b,ou=people,dc=example,dc=com"))) addInsideRename := by
  refine ⟨small_directory_reachable, ⟨_, rfl, by decide⟩, ?_⟩
  rintro ⟨_, _, _, unchanged, _⟩
  exact absurd (unchanged rfl) (by decide +kernel)

end Examples

end SimpleLdapd.Session
