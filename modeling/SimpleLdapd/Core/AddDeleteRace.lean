import SimpleLdapd.Core.SchemaInvariant
import SimpleLdapd.Core.TreeIntegrity
import SimpleLdapd.Library.CallProtocol

/-!
# Add and Delete in concurrent sessions

Add looks its parent up and then stores the entry; Delete asks for children and
then removes the entry. Each session keeps to that order, so what it checked
still holds at its commit unless another session commits in between: an Add
below the entry about to be removed, or the removal of the parent about to be
used. Without such a commit the tree stays whole.
-/

namespace SimpleLdapd.Session

open Dn MemoryBackend

/-- What the last answer told a session. -/
inductive Checked where
  | nothing
  | stored (dn : Bytes)
  | childless (dn : Bytes)

/-- An entry is stored right after its parent was found, and removed right after it was
found without children. -/
def checkThenCommit : Program.CallProtocol BackendCall BackendCall.Answer Checked where
  permits stage
    | .add entry => dnParent entry.dn = [] ∨ stage = .stored (dnParent entry.dn)
    | .remove dn => stage = .childless dn
    | .modify _ | .rename _ _ => False
    | .lookup _ | .search _ _ _ | .hasChildren _ | .persist => True
  after _
    | .lookup dn, found => if found.isSome then .stored dn else .nothing
    | .hasChildren dn, parental => if parental then .nothing else .childless dn
    | _, _ => .nothing

section Handlers

variable {server : Server} (context : RequestContext) (session : SessionState)

/-- Keeps to the protocol and says nothing about where it ends. -/
abbrev KeepsOrder {Value : Type} (program : BackendProgram Value) (stage : Checked) : Prop :=
  program.Follows checkThenCommit (fun _ _ => True) stage

theorem keeps_order_reads {First Value : Type} {program : BackendProgram First}
    {rest : First → BackendProgram Value} {stage : Checked}
    (readOnly : program.Issues BackendCall.Reads)
    (next : ∀ value reached, KeepsOrder (rest value) reached) :
    KeepsOrder (program >>= rest) stage := by
  apply Program.follows_bind
  have reads : KeepsOrder program stage := by
    apply Program.follows_of_issues (fun _ => True) _ readOnly trivial
    intro reached op _ reading
    exact ⟨by cases op <;> trivial, fun _ => trivial⟩
  exact reads.mono fun reached value _ => next value reached

/-- What follows a commit is at most a persist. -/
theorem keeps_order_commit {failure success : LdapMessage} (stage : Checked) (done : Bool) :
    KeepsOrder (if !done then pure failure else do Backend.persist; pure success :
      BackendProgram LdapMessage) stage := by
  split
  · trivial
  · exact Program.follows_perform trivial fun _ => trivial

/-- When the parent is accepted, the session has just found it. -/
theorem empty_or_stored_checked (dn : Bytes) (stage : Checked) :
    (emptyOrStored dn).Follows checkThenCommit
      (fun reached placed => placed = true → dn = [] ∨ reached = .stored dn) stage := by
  unfold emptyOrStored
  split
  · rename_i empty
    exact fun _ => Or.inl empty
  · apply Program.follows_perform trivial
    intro found placed
    right
    simpa [checkThenCommit, Option.isSome_iff_ne_none] using placed

theorem handle_add_keeps_order (request : LdapMessage) (stage : Checked) :
    KeepsOrder (handleAdd server context session request) stage := by
  unfold handleAdd
  apply keeps_order_reads (may_write_read_only server session _)
  intro allowed reached
  split
  · trivial
  split
  · trivial
  apply Program.follows_perform trivial
  intro existing
  split
  · trivial
  apply Program.follows_bind
  apply (empty_or_stored_checked _ _).mono
  intro reached placed checked
  split
  · trivial
  rename_i accepted
  simp only
  split
  · trivial
  apply Program.follows_perform
  · exact checked (by simpa using accepted)
  · exact keeps_order_commit _

theorem handle_delete_keeps_order (request : LdapMessage) (stage : Checked) :
    KeepsOrder (handleDelete server session request) stage := by
  unfold handleDelete
  apply keeps_order_reads (may_write_read_only server session _)
  intro allowed reached
  split
  · trivial
  apply Program.follows_perform trivial
  intro existing
  split
  · trivial
  apply Program.follows_perform trivial
  intro parental
  split
  · trivial
  rename_i childless
  apply Program.follows_perform
  · change (if parental then Checked.nothing else .childless request.deleteDn) =
      .childless request.deleteDn
    rw [if_neg childless]
  · exact keeps_order_commit _

/-- Only Add and Delete requests. -/
def AddOrDelete (request : LdapMessage) : Prop :=
  request.op = .addRequest ∨ request.op = .delRequest

theorem handle_request_keeps_order {request : LdapMessage} (addOrDelete : AddOrDelete request)
    (stage : Checked) :
    KeepsOrder (handleRequest server context session request) stage := by
  unfold handleRequest
  rcases addOrDelete with op | op
  · rw [op]
    apply Program.follows_bind
    exact (handle_add_keeps_order context session request stage).mono fun _ _ _ => trivial
  · rw [op]
    apply Program.follows_bind
    exact (handle_delete_keeps_order session request stage).mono fun _ _ _ => trivial

theorem serve_keeps_order {requests : List (RequestContext × LdapMessage)}
    (addOrDelete : ∀ request ∈ requests, AddOrDelete request.2) (stage : Checked) :
    KeepsOrder (serve server session requests) stage := by
  induction requests generalizing session stage with
  | nil => trivial
  | cons request rest ih =>
      unfold serve
      apply Program.follows_bind
      apply (handle_request_keeps_order request.1 session (addOrDelete request (by simp))
        stage).mono
      intro reached outcome _
      split
      · trivial
      · rename_i reply
        split
        · apply Program.follows_bind
          apply (ih reply.session (fun other member => addOrDelete other (by simp [member]))
            reached).mono
          exact fun _ _ _ => trivial
        · trivial

end Handlers

section Commits

variable {Value : Type} {store : MemoryStore}

/-- What a session checked for the commit it is about to make still holds. -/
def Timely (store : MemoryStore) : BackendProgram Value → Prop
  | .call (.add entry) _ => dnParent entry.dn = [] ∨ lookup store (dnParent entry.dn) ≠ none
  | .call (.remove dn) _ => hasChildren store dn = false
  | _ => True

/-- One session is about to store an entry right below the DN that the other one is
about to remove. -/
def collides : BackendProgram Value → BackendProgram Value → Bool
  | .call (.add entry) _, .call (.remove dn) _ => dnIsOneLevelChild entry.dn dn
  | .call (.remove dn) _, .call (.add entry) _ => dnIsOneLevelChild entry.dn dn
  | _, _ => false

def Checked.Holds (store : MemoryStore) : Checked → Prop
  | nothing => True
  | stored dn => lookup store dn ≠ none
  | childless dn => hasChildren store dn = false

/-- An answer is true of the store that gave it. -/
theorem checked_holds (stage : Checked) (op : BackendCall) (store : MemoryStore) :
    (checkThenCommit.after stage op (exec op store).1).Holds (exec op store).2 := by
  cases op with
  | lookup dn =>
      change (if (lookup store dn).isSome then Checked.stored dn else .nothing).Holds store
      split
      · rename_i found
        exact Option.isSome_iff_ne_none.mp found
      · trivial
  | hasChildren dn =>
      change (if hasChildren store dn then Checked.nothing else .childless dn).Holds store
      split
      · trivial
      · rename_i childless
        exact Bool.eq_false_of_not_eq_true childless
  | _ => trivial

theorem timely_of_checked {program : BackendProgram Value} {stage : Checked}
    (ordered : KeepsOrder program stage) (holds : stage.Holds store) : Timely store program := by
  cases program with
  | done value => trivial
  | call op next =>
      cases op with
      | add entry =>
          apply ordered.1.imp_right
          intro stage
          rwa [stage] at holds
      | remove dn =>
          have stage : stage = .childless dn := ordered.1
          rwa [stage] at holds
      | _ => trivial

theorem childless_add {entry : DirectoryEntry} {dn : Bytes}
    (childless : hasChildren store dn = false) (apart : dnIsOneLevelChild entry.dn dn = false) :
    hasChildren (add store entry).2 dn = false := by
  rcases add_cases store entry with ⟨_, _, added⟩ | ⟨_, refused⟩
  · rw [added]
    simp only [hasChildren, List.any_eq_false] at childless ⊢
    intro pair member
    rcases (OrderedMap.mem_insert store entry.dn entry pair).mp member with here | ⟨older, _⟩
    · rw [here, apart]
      exact Bool.false_ne_true
    · exact childless pair older
  · rw [refused]
    exact childless

theorem childless_remove {dn name : Bytes} (childless : hasChildren store dn = false) :
    hasChildren (remove store name).2 dn = false := by
  rcases remove_cases store name with ⟨key, _, _, _, _, removed⟩ | ⟨_, refused⟩
  · rw [removed]
    simp only [hasChildren, List.any_eq_false] at childless ⊢
    intro pair member
    exact childless pair ((OrderedMap.mem_erase store key pair).mp member).1
  · rw [refused]
    exact childless

theorem stored_add {entry : DirectoryEntry} {dn : Bytes}
    (stored : lookup store dn ≠ none) : lookup (add store entry).2 dn ≠ none := by
  cases written : (add store entry).1 with
  | true =>
      rw [lookup_added written]
      split
      · exact nofun
      · exact stored
  | false =>
      rcases add_cases store entry with ⟨_, _, added⟩ | ⟨_, refused⟩
      · rw [added] at written
        cases written
      · rw [refused]
        exact stored

/-- Removing an entry leaves the parent of an entry that is not right below it. -/
theorem placed_remove (invariant : StoreInvariant store) {dn name : Bytes}
    (placed : dnParent dn = [] ∨ lookup store (dnParent dn) ≠ none)
    (apart : dnIsOneLevelChild dn name = false) :
    dnParent dn = [] ∨ lookup (remove store name).2 (dnParent dn) ≠ none := by
  by_cases top : dnParent dn = []
  · exact Or.inl top
  have stored := placed.resolve_left top
  right
  rcases remove_cases store name with ⟨_, _, _, _, found, effect⟩ | ⟨_, refused⟩
  · rw [lookup_removed invariant (by rw [effect]), if_neg]
    · exact stored
    intro same
    have comma : chr ',' ∈ dn := by
      by_contra absent
      exact top (dn_parent_of_no_comma absent)
    have below := (one_level_child_iff dn (invariant.lookup_nonempty found)).mpr
      ⟨comma, same.symm⟩
    rw [apart] at below
    cases below
  · rw [refused]
    exact stored

/-- A commit of another session that does not collide leaves a session timely. -/
theorem timely_keeps (invariant : StoreInvariant store) {op : BackendCall}
    {next : op.Answer → BackendProgram Value} {stage : Checked}
    (ordered : KeepsOrder (.call op next) stage) {other : BackendProgram Value}
    (timely : Timely store other) (apart : collides (.call op next) other = false) :
    Timely (exec op store).2 other := by
  cases other with
  | done value => trivial
  | call otherOp otherNext =>
      cases op with
      | add entry =>
          cases otherOp with
          | add later => exact timely.imp_right stored_add
          | remove dn => exact childless_add timely apart
          | _ => trivial
      | remove name =>
          cases otherOp with
          | add entry => exact placed_remove invariant timely apart
          | remove dn => exact childless_remove timely
          | _ => trivial
      | modify entry => exact absurd ordered.1 id
      | rename source target => exact absurd ordered.1 id
      | _ => exact timely

/-- A timely commit keeps the tree whole. -/
theorem timely_keeps_tree (invariant : StoreInvariant store) (whole : NoOrphans store)
    {op : BackendCall} {next : op.Answer → BackendProgram Value} {stage : Checked}
    (ordered : KeepsOrder (.call op next) stage) (timely : Timely store (.call op next)) :
    NoOrphans (exec op store).2 := by
  have closed := (no_orphans_iff invariant).mp whole
  cases op with
  | add entry =>
      rcases add_cases store entry with ⟨_, _, added⟩ | ⟨_, refused⟩
      · rw [no_orphans_iff (exec_invariant invariant (.add entry))]
        change ParentClosed parentName (names (add store entry).2)
        rw [names_add (by rw [added])]
        exact closed.insert (placed_of_parent timely)
      · change NoOrphans (add store entry).2
        rw [refused]
        exact whole
  | remove dn =>
      rcases remove_cases store dn with ⟨_, _, _, _, found, removed⟩ | ⟨_, refused⟩
      · rw [no_orphans_iff (exec_invariant invariant (.remove dn))]
        change ParentClosed parentName (names (remove store dn).2)
        rw [names_remove invariant (by rw [removed])]
        exact closed.remove (leaf_of_childless (invariant.lookup_nonempty found) timely)
      · change NoOrphans (remove store dn).2
        rw [refused]
        exact whole
  | modify entry => exact absurd ordered.1 id
  | rename source target => exact absurd ordered.1 id
  | _ => exact whole

end Commits

section Interleavings

variable {Thread : Type*} [DecidableEq Thread]

abbrev SessionPool (Thread : Type*) :=
  Program.Pool Thread BackendCall BackendCall.Answer (Option (List LdapMessage)) MemoryStore

/-- The scheduled session commits nothing that collides with what another one checked. -/
def Undisturbed (pool : SessionPool Thread) (thread : Thread) : Prop :=
  ∀ other, collides (pool.threads thread) (pool.threads other) = false

/-- Every session keeps to its order and its checks are still true. -/
structure Orderly (pool : SessionPool Thread) : Prop where
  invariant : StoreInvariant pool.state
  whole : NoOrphans pool.state
  ordered : ∀ thread, ∃ stage, KeepsOrder (pool.threads thread) stage
  timely : ∀ thread, Timely pool.state (pool.threads thread)

/-- One backend call of one session. -/
theorem advance_orderly (pool : SessionPool Thread) (thread : Thread) (orderly : Orderly pool)
    (undisturbed : Undisturbed pool thread) : Orderly (Program.advance exec pool thread) := by
  rcases Program.advance_cases exec pool thread with ⟨_, same⟩ | ⟨op, next, running, moved⟩
  · rw [same]
    exact orderly
  rw [moved]
  obtain ⟨stage, ordered⟩ := orderly.ordered thread
  have timely := orderly.timely thread
  rw [running] at ordered timely
  refine ⟨exec_invariant orderly.invariant op,
    timely_keeps_tree orderly.invariant orderly.whole ordered timely, ?_, ?_⟩
  · exact (Function.forall_update_iff _ fun _ program => ∃ stage, KeepsOrder program stage).mpr
      ⟨⟨_, ordered.2 _⟩, fun other _ => orderly.ordered other⟩
  · refine (Function.forall_update_iff _ fun _ program =>
      Timely (exec op pool.state).2 program).mpr ⟨?_, ?_⟩
    · exact timely_of_checked (ordered.2 _) (checked_holds stage op pool.state)
    · intro other _
      have apart := undisturbed other
      rw [running] at apart
      exact timely_keeps orderly.invariant ordered (orderly.timely other) apart

/-- In an interleaving of Add and Delete requests in which no commit invalidates the
check of another session, no store reached has an orphan. -/
theorem adds_and_deletes_keep_tree {server : Server} {store : MemoryStore}
    (reachable : Reachable store) (whole : NoOrphans store)
    {sessions : Thread → SessionState × List (RequestContext × LdapMessage)}
    (addOrDelete : ∀ thread, ∀ request ∈ (sessions thread).2, AddOrDelete request.2)
    {schedule : List Thread}
    (undisturbed : Along (Program.advance exec) Undisturbed (sessionPool server store sessions)
      schedule)
    {earlier : List Thread} (reached : earlier <+: schedule) :
    NoOrphans (Program.interleave exec (sessionPool server store sessions) earlier).state := by
  have start : Orderly (sessionPool server store sessions) := by
    have ordered (thread : Thread) :
        KeepsOrder (serve server (sessions thread).1 (sessions thread).2) .nothing :=
      serve_keeps_order (sessions thread).1 (addOrDelete thread) .nothing
    refine ⟨reachable.invariant, whole, fun thread => ⟨.nothing, ordered thread⟩, ?_⟩
    intro thread
    exact timely_of_checked (ordered thread) trivial
  exact (invariant_along Orderly advance_orderly start undisturbed reached).whole

end Interleavings

section Examples

instance (pool : SessionPool Bool) (thread : Bool) : Decidable (Undisturbed pool thread) :=
  inferInstanceAs (Decidable (∀ other,
    collides (pool.threads thread) (pool.threads other) = false))

/-- One session adds an entry below the person that the other one deletes. -/
def addBelowDeleted : Bool → SessionState × List (RequestContext × LdapMessage)
  | true => (administrator, [({}, { op := .addRequest
                                    add := { dn := text "cn=b,cn=a,ou=people,dc=example,dc=com" } })])
  | false => (administrator, [({}, { op := .delRequest
                                     deleteDn := text "cn=a,ou=people,dc=example,dc=com" })])

theorem add_below_deleted_requests (thread : Bool) :
    ∀ request ∈ (addBelowDeleted thread).2, AddOrDelete request.2 := by
  intro request member
  cases thread with
  | true => exact Or.inl (by rw [List.mem_singleton.mp member])
  | false => exact Or.inr (by rw [List.mem_singleton.mp member])

/-- The Add commits before the Delete asks for children, and the Delete is refused. -/
theorem add_before_child_check_keeps_tree :
    NoOrphans (Program.interleave exec (sessionPool {} smallDirectory addBelowDeleted)
      [true, true, false, true, true, false]).state := by
  apply adds_and_deletes_keep_tree small_directory_reachable (by decide +kernel)
    add_below_deleted_requests _ (List.prefix_refl _)
  refine ⟨?_, ?_, ?_, ?_, ?_, ?_, trivial⟩ <;> decide +kernel

/-- The Delete runs between the parent lookup of the Add and its commit. -/
theorem delete_inside_add_orphans_child :
    Reachable smallDirectory ∧ NoOrphans smallDirectory ∧
      (∀ thread, ∀ request ∈ (addBelowDeleted thread).2, AddOrDelete request.2) ∧
      ¬ NoOrphans (Program.interleave exec (sessionPool {} smallDirectory addBelowDeleted)
        [true, true, false, false, false, true]).state :=
  ⟨small_directory_reachable, by decide +kernel, add_below_deleted_requests, by decide +kernel⟩

end Examples

end SimpleLdapd.Session
