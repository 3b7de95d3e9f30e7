import SimpleLdapd.Core.BindRace

/-!
# What a refused session learns about an entry

A session that may neither search nor write a DN asks about it, once in a store
that has the entry and once in the same store without it. Compare, Modify,
Delete and ModifyDN decide on access before they look. Search looks for its base
first, and Password Modify resolves the name first, so there the answer tells
the two stores apart except where it is given before that lookup, or where the
name stands for another entry once this one is gone.
-/

namespace SimpleLdapd.Session

open Dn MemoryBackend SimpleBindAuthenticator

variable (server : Server) (context : RequestContext) (session : SessionState)

/-- The session may neither search nor write the DN. -/
structure Hidden (store : MemoryStore) (dn : Bytes) : Prop where
  search : ((maySearch server session dn).run exec store).1 = false
  write : ((AccessControl.mayWrite server.config session.bindDn dn).run exec store).1 = false

/-- The access decisions for the session are the same in both stores. -/
def SameDecisions (left right : MemoryStore) : Prop :=
  ∀ dn, ((maySearch server session dn).run exec left).1 =
      ((maySearch server session dn).run exec right).1 ∧
    ((AccessControl.mayWrite server.config session.bindDn dn).run exec left).1 =
      ((AccessControl.mayWrite server.config session.bindDn dn).run exec right).1

/-- The messages that the session sends for the request. -/
def sentFor (store : MemoryStore) (request : LdapMessage) : Option (List LdapMessage) :=
  ((handleRequest server context session request).run exec store).1.map Reply.messages

/-- Whose password a Password Modify is about, as the client wrote it. -/
def passwordIdentity (change : PasswordModifyRequest) : Bytes :=
  if change.userIdentity = [] then session.bindDn else change.userIdentity

/-- The request asks for the DN: as its own field says, or, for a Password Modify, as its
identity resolves. -/
def NamesTarget (store : MemoryStore) (dn : Bytes) (request : LdapMessage) : Prop :=
  match request.op with
  | .searchRequest => dnEquals request.search.baseDn dn = true
  | .compareRequest => dnEquals request.compare.dn dn = true
  | .modifyRequest => dnEquals request.modify.dn dn = true
  | .delRequest => dnEquals request.deleteDn dn = true
  | .modifyDnRequest => dnEquals request.modifyDn.dn dn = true
  | .extendedRequest =>
      request.extendedOid = Message.kPasswordModifyOid ∧
        ∃ change, Message.decodePasswordModifyValue request.extendedValue = some change ∧
          resolvesTo server.config store (passwordIdentity session change) =
            some (toLowerAscii dn)
  | _ => False

/-- A Password Modify that ends before its identity is resolved. -/
def RefusedUnresolved (change : PasswordModifyRequest) : Prop :=
  session.bound = false ∨ session.bindDn = [] ∨
    (server.config.requireConfidentiality = true ∧ context.tls = false) ∨
    change.newPassword = none ∨ change.newPassword = some []

/-- In the store without the DN the answer is given before the lookup, or the identity
stands for another DN of the same kind: the root DN again, or one that is refused too. -/
def Conceals (store : MemoryStore) (dn : Bytes) (request : LdapMessage) : Prop :=
  match request.op with
  | .searchRequest =>
      request.search.filter.valid = false ∨
        ∃ refusal, pagingOf (-1) [] request.controls = .error refusal
  | .extendedRequest =>
      ∀ change, Message.decodePasswordModifyValue request.extendedValue = some change →
        RefusedUnresolved server context session change ∨
          ∃ other, ((resolveName server.config (passwordIdentity session change)).run exec
              store).1 = some other ∧
            isRootDn server.config other = isRootDn server.config dn ∧
            (isRootDn server.config dn = false →
              ((mayChangePassword server session other).run exec store).1 = false)
  | _ => True

section Refusals

variable {server context session} {store : MemoryStore} {dn : Bytes} {request : LdapMessage}

theorem Hidden.congr (hidden : Hidden server session store dn) {other : Bytes}
    (same : dnEquals other dn = true) : Hidden server session store other := by
  rw [dn_equals_iff] at same
  constructor
  · unfold maySearch
    rw [AccessControl.may_search_congr server.config session.bindDn same]
    exact hidden.search
  · rw [AccessControl.may_write_congr server.config session.bindDn same]
    exact hidden.write

theorem Hidden.may_write (hidden : Hidden server session store dn) :
    ((mayWrite server session dn).run exec store).1 = false := by
  unfold mayWrite
  split
  · exact hidden.write
  · rfl

theorem Hidden.named (hidden : Hidden server session store dn) : dn ≠ [] := by
  intro empty
  have denied := hidden.search
  rw [empty, maySearch, AccessControl.maySearch] at denied
  cases denied

theorem Hidden.not_root (hidden : Hidden server session store dn) :
    isRootDn server.config session.bindDn = false := by
  by_contra root
  have denied := hidden.search
  simp only [isRootDn, Bool.not_eq_false, Bool.and_eq_true, decide_eq_true_eq] at root
  have named : session.bindDn ≠ [] := by
    intro empty
    have same := (dn_equals_iff _ _).mp root.2
    rw [empty] at same
    exact root.1 ((to_lower_eq_nil _).mp same.symm)
  rw [maySearch, AccessControl.maySearch, if_pos (by
    simp [AccessControl.isRoot, named, root.1, root.2])] at denied
  cases denied

/-- A check that denies decides how the handler goes on. -/
theorem run_denied {Value : Type} {check : BackendProgram Bool} (reads : check.Issues
    BackendCall.Reads) (denied : (check.run exec store).1 = false)
    (rest : Bool → BackendProgram Value) :
    ((check >>= rest).run exec store).1 = ((rest false).run exec store).1 := by
  rw [Program.run_bind, run_read_only reads, denied]

theorem may_search_reads (dn : Bytes) : (maySearch server session dn).Issues BackendCall.Reads :=
  AccessControl.may_search_read_only server.config session.bindDn dn

theorem hidden_compare (hidden : Hidden server session store request.compare.dn) :
    ((handleCompare server session request).run exec store).1 =
      if request.compare.attributeName = [] then
        Message.makeLdapResult request.messageId .compareResponse .protocolError
          (text "invalid compare request")
      else Message.makeLdapResult request.messageId .compareResponse .insufficientAccessRights
        (text "insufficient access") := by
  unfold handleCompare
  simp only [hidden.named, false_or]
  split
  · rfl
  · rw [run_denied (may_search_reads _) hidden.search]
    rfl

theorem hidden_modify (hidden : Hidden server session store request.modify.dn) :
    ((handleModify server context session request).run exec store).1 =
      Message.makeLdapResult request.messageId .modifyResponse .insufficientAccessRights
        (text "insufficient access") := by
  unfold handleModify
  rw [run_denied (may_write_read_only server session _) hidden.may_write]
  rfl

theorem hidden_delete (hidden : Hidden server session store request.deleteDn) :
    ((handleDelete server session request).run exec store).1 =
      Message.makeLdapResult request.messageId .delResponse .insufficientAccessRights
        (text "insufficient access") := by
  unfold handleDelete
  rw [run_denied (may_write_read_only server session _) hidden.may_write]
  rfl

theorem hidden_modify_dn (hidden : Hidden server session store request.modifyDn.dn) :
    ((handleModifyDn server session request).run exec store).1 =
      if request.modifyDn.newRdn = [] then
        Message.makeLdapResult request.messageId .modifyDnResponse .invalidDnSyntax
          (text "empty new RDN")
      else Message.makeLdapResult request.messageId .modifyDnResponse .insufficientAccessRights
        (text "insufficient access") := by
  have denied : ((mayWriteBoth server session request.modifyDn.dn
      (newDn request.modifyDn)).run exec store).1 = false := by
    unfold mayWriteBoth
    rw [run_denied (may_write_read_only server session _) hidden.may_write]
    rfl
  unfold handleModifyDn
  simp only
  split
  · rfl
  · rw [run_denied (may_write_both_read_only server session _ _) denied]
    rfl

/-- A search for a stored base that the session may not see. -/
theorem hidden_search (hidden : Hidden server session store request.search.baseDn)
    (stored : lookup store request.search.baseDn ≠ none)
    (valid : request.search.filter.valid = true) {paging : Int32 × Bytes}
    (accepted : pagingOf (-1) [] request.controls = .ok paging) :
    ((handleSearch server context session request).run exec store).1 =
      some [Message.makeSearchDone request.messageId .insufficientAccessRights
        (text "insufficient access")] := by
  have found : ((emptyOrStored request.search.baseDn).run exec store).1 = true :=
    (empty_or_stored_iff store _).mpr (Or.inr stored)
  unfold handleSearch
  simp only [valid, Bool.not_true, Bool.false_eq_true, if_false, accepted]
  rw [Program.run_bind, run_read_only (empty_or_stored_read_only _), found]
  simp only [Bool.not_true, Bool.false_eq_true, if_false]
  rw [maySearchBase, if_neg hidden.named, run_denied (may_search_reads _) hidden.search]
  rfl

theorem absent_search (named : request.search.baseDn ≠ [])
    (absent : lookup store request.search.baseDn = none)
    (valid : request.search.filter.valid = true) {paging : Int32 × Bytes}
    (accepted : pagingOf (-1) [] request.controls = .ok paging) :
    ((handleSearch server context session request).run exec store).1 =
      some [Message.makeSearchDone request.messageId .noSuchObject (text "no such object")] := by
  have missing : ((emptyOrStored request.search.baseDn).run exec store).1 = false := by
    rw [← Bool.not_eq_true, empty_or_stored_iff]
    rintro (empty | stored)
    · exact named empty
    · exact stored absent
  unfold handleSearch
  simp only [valid, Bool.not_true, Bool.false_eq_true, if_false, accepted]
  rw [run_denied (empty_or_stored_read_only _) missing]
  rfl

/-- A search that is refused before its base is looked up. -/
theorem unread_search (early : request.search.filter.valid = false ∨
      ∃ refusal, pagingOf (-1) [] request.controls = .error refusal) (other : MemoryStore) :
    ((handleSearch server context session request).run exec store).1 =
      ((handleSearch server context session request).run exec other).1 := by
  unfold handleSearch
  simp only
  rcases early with invalid | ⟨refusal, refused⟩
  · simp only [invalid, Bool.not_false, if_true]
    rfl
  · split
    · rfl
    · rw [refused]
      rfl

/-- What a Password Modify is answered once its identity is resolved. -/
inductive AnswersResolved (server : Server) (session : SessionState) (store : MemoryStore)
    (messageId : Int32) (response : LdapMessage) : Option Bytes → Prop where
  | missing
      (same : response = Message.makeLdapResult messageId .extendedResponse .noSuchObject
        (text "no such object")) :
      AnswersResolved server session store messageId response none
  | root {target : Bytes} (isRoot : isRootDn server.config target = true)
      (same : response = Message.makeLdapResult messageId .extendedResponse .unwillingToPerform
        (text "root_password is configured, not an entry")) :
      AnswersResolved server session store messageId response (some target)
  | denied {target : Bytes} (notRoot : isRootDn server.config target = false)
      (refused : ((mayChangePassword server session target).run exec store).1 = false)
      (same : response = Message.makeLdapResult messageId .extendedResponse
        .insufficientAccessRights (text "cannot change another password")) :
      AnswersResolved server session store messageId response (some target)
  | granted {target : Bytes} (notRoot : isRootDn server.config target = false)
      (allowed : ((mayChangePassword server session target).run exec store).1 = true)
      (apart : response.result ≠ .unwillingToPerform ∧
        response.result ≠ .insufficientAccessRights) :
      AnswersResolved server session store messageId response (some target)

theorem password_modify_answers {change : PasswordModifyRequest}
    (decoded : Message.decodePasswordModifyValue request.extendedValue = some change)
    (resolves : ¬ RefusedUnresolved server context session change) :
    Program.Ensures exec (handlePasswordModify server context session request) store
      fun response _ => AnswersResolved server session store request.messageId response
        ((resolveName server.config (passwordIdentity session change)).run exec store).1 := by
  simp only [RefusedUnresolved, not_or, not_and, Bool.not_eq_false] at resolves
  obtain ⟨bound, named, confidential, given, nonempty⟩ := resolves
  have content {code : ResultCode} (about : code ∈ ResultCode.contentCodes) :
      code ≠ .unwillingToPerform ∧ code ≠ .insufficientAccessRights :=
    ⟨ResultCode.content_code_ne about (by decide), ResultCode.content_code_ne about (by decide)⟩
  have answered (code : ResultCode) (diagnostic : Bytes) (reached : MemoryStore)
      (apart : code ≠ .unwillingToPerform ∧ code ≠ .insufficientAccessRights) :
      Program.Ensures exec
        (pure (Message.makeLdapResult request.messageId .extendedResponse code diagnostic)) reached
        fun response _ => response.result ≠ .unwillingToPerform ∧
          response.result ≠ .insufficientAccessRights :=
    apart
  unfold handlePasswordModify
  simp only [bound, named, Bool.not_true, Bool.false_eq_true, or_self, if_false, decoded]
  split
  · rename_i plain
    exact absurd (confidential plain.1) (by simpa using plain.2)
  split
  · rename_i missing
    exact absurd missing given
  · rename_i empty
    exact absurd empty nonempty
  apply ensures_read (resolve_name_read_only server.config _)
  intro resolved found
  change Program.Ensures exec _ store fun response _ => AnswersResolved server session store
    request.messageId response ((resolveName server.config
      (if change.userIdentity = [] then session.bindDn else change.userIdentity)).run exec store).1
  rw [found]
  cases resolved with
  | none => exact Program.ensures_pure (.missing rfl)
  | some target =>
      simp only
      split
      · rename_i isRoot
        exact Program.ensures_pure (.root isRoot rfl)
      rename_i notRoot
      rw [Bool.not_eq_true] at notRoot
      apply ensures_read (may_change_password_read_only server session target)
      intro allowed decided
      cases allowed with
      | false => exact Program.ensures_pure (.denied notRoot decided rfl)
      | true =>
          simp only [Bool.not_true, Bool.false_eq_true, if_false]
          refine Program.Ensures.mono ?_ fun response _ => .granted notRoot decided
          apply ensures_read (old_password_read_only server target _)
          intro accepted _
          split
          · exact answered .invalidCredentials _ _ (by decide)
          apply ensures_lookup
          intro existing _
          cases existing with
          | none => exact answered .noSuchObject _ _ (by decide)
          | some entry =>
              simp only
              split
              · exact answered _ _ _ (content (Modify.apply_modifications_frame entry _).2)
              split
              · exact answered _ _ _ (content (check_schema_codes server _))
              apply Program.ensures_perform
              intro modified _
              split
              · exact answered .operationsError _ _ (by decide)
              · exact ensures_persist (answered .success _ _ (by decide))

end Refusals

section TwoStores

variable {server context session} {store : MemoryStore} {dn : Bytes} {request : LdapMessage}

/-- A request that is handled by one response. -/
theorem sent_response {handler : BackendProgram LdapMessage}
    (handled : handleRequest server context session request =
      (handler >>= fun response => pure (reply session response))) (reached : MemoryStore) :
    sentFor server context session reached request = some [(handler.run exec reached).1] := by
  unfold sentFor
  rw [handled, Program.run_bind]
  rfl

theorem sent_alike {handler : BackendProgram LdapMessage} {response : LdapMessage}
    (handled : handleRequest server context session request =
      (handler >>= fun response => pure (reply session response)))
    {left right : MemoryStore} (here : (handler.run exec left).1 = response)
    (there : (handler.run exec right).1 = response) :
    sentFor server context session left request = sentFor server context session right request := by
  rw [sent_response handled, sent_response handled, here, there]

theorem sent_search (op : request.op = .searchRequest) (reached : MemoryStore) :
    sentFor server context session reached request =
      ((handleSearch server context session request).run exec reached).1 := by
  unfold sentFor handleRequest
  rw [op]
  simp only [Program.run_bind, Program.run_pure]
  cases ((handleSearch server context session request).run exec reached).1 <;> rfl

/-- The two stores of a search: one has the base, the other one has not. -/
theorem search_told_apart {without : MemoryStore}
    (hidden : Hidden server session store request.search.baseDn)
    (stored : lookup store request.search.baseDn ≠ none)
    (absent : lookup without request.search.baseDn = none) :
    ((handleSearch server context session request).run exec store).1 =
        ((handleSearch server context session request).run exec without).1 ↔
      request.search.filter.valid = false ∨
        ∃ refusal, pagingOf (-1) [] request.controls = .error refusal := by
  constructor
  · intro equal
    by_contra read
    push Not at read
    have valid : request.search.filter.valid = true := by simpa using read.1
    cases accepted : pagingOf (-1) [] request.controls with
    | error refusal => exact read.2 refusal accepted
    | ok paging =>
        rw [hidden_search hidden stored valid accepted,
          absent_search hidden.named absent valid accepted] at equal
        have codes : ResultCode.insufficientAccessRights = .noSuchObject :=
          congrArg LdapMessage.result (List.head_eq_of_cons_eq (Option.some.inj equal))
        exact absurd codes (by decide)
  · intro early
    exact unread_search early without

/-- The two answers to a Password Modify that is refused in the first store. -/
theorem password_told_apart {without : MemoryStore} {messageId : Int32} {target : Bytes}
    {here there : LdapMessage} {found : Option Bytes}
    (denied : isRootDn server.config target = false →
      ((mayChangePassword server session target).run exec store).1 = false)
    (answersHere : AnswersResolved server session store messageId here (some target))
    (answersThere : AnswersResolved server session without messageId there found) :
    here = there ↔ ∃ other, found = some other ∧
      isRootDn server.config other = isRootDn server.config target ∧
      (isRootDn server.config target = false →
        ((mayChangePassword server session other).run exec without).1 = false) := by
  have codes {left right : ResultCode} {first second : Bytes} (apart : left ≠ right) :
      Message.makeLdapResult messageId .extendedResponse left first ≠
        Message.makeLdapResult messageId .extendedResponse right second :=
    fun same => apart (congrArg LdapMessage.result same)
  cases answersHere with
  | root isRoot same =>
      subst same
      cases answersThere with
      | missing sameThere =>
          subst sameThere
          exact iff_of_false (codes (by decide)) (by simp)
      | root otherRoot sameThere =>
          subst sameThere
          exact iff_of_true rfl ⟨_, rfl, by rw [otherRoot, isRoot], by simp [isRoot]⟩
      | denied otherNotRoot _ sameThere =>
          subst sameThere
          exact iff_of_false (codes (by decide)) (by simp [isRoot, otherNotRoot])
      | granted otherNotRoot _ apart =>
          refine iff_of_false ?_ (by simp [isRoot, otherNotRoot])
          intro equal
          exact apart.1 (congrArg LdapMessage.result equal).symm
  | denied notRoot _ same =>
      subst same
      cases answersThere with
      | missing sameThere =>
          subst sameThere
          exact iff_of_false (codes (by decide)) (by simp)
      | root otherRoot sameThere =>
          subst sameThere
          exact iff_of_false (codes (by decide)) (by simp [notRoot, otherRoot])
      | denied otherNotRoot refused sameThere =>
          subst sameThere
          exact iff_of_true rfl ⟨_, rfl, by rw [otherNotRoot, notRoot], fun _ => refused⟩
      | granted otherNotRoot allowed apart =>
          refine iff_of_false ?_ (by simp [notRoot, allowed])
          intro equal
          exact apart.2 (congrArg LdapMessage.result equal).symm
  | granted notRoot allowed _ =>
      rw [denied notRoot] at allowed
      cases allowed

theorem unresolved_password_modify {change : PasswordModifyRequest}
    (decoded : Message.decodePasswordModifyValue request.extendedValue = some change)
    (early : RefusedUnresolved server context session change) (other : MemoryStore) :
    ((handlePasswordModify server context session request).run exec store).1 =
      ((handlePasswordModify server context session request).run exec other).1 := by
  unfold handlePasswordModify
  simp only [decoded]
  split
  · rfl
  rename_i identified
  split
  · rfl
  rename_i confidential
  split
  · rfl
  · rfl
  rename_i newPassword nonempty given
  rcases early with unbound | unnamed | plain | missing | empty
  · exact absurd (Or.inl (by simp [unbound])) identified
  · exact absurd (Or.inr unnamed) identified
  · exact absurd ⟨plain.1, by simp [plain.2]⟩ confidential
  · rw [given] at missing
    cases missing
  · rw [given] at empty
    exact absurd (Option.some.inj empty) nonempty

/-- The password of an entry that the session may not write, and that is not its own. -/
theorem hidden_password (hidden : Hidden server session store dn)
    (other : dnEquals dn session.bindDn = false) {target : Bytes}
    (same : toLowerAscii target = toLowerAscii dn) :
    ((mayChangePassword server session target).run exec store).1 = false := by
  have foreign : dnEquals session.bindDn target = false := by
    rw [← Bool.not_eq_true, dn_equals_iff] at other ⊢
    exact fun equal => other (same.symm.trans equal.symm)
  unfold mayChangePassword
  rw [hidden.not_root, foreign]
  exact (hidden.congr ((dn_equals_iff _ _).mpr same)).may_write

theorem password_modify_concealed_iff {without : MemoryStore}
    (hidden : Hidden server session store dn) (other : dnEquals dn session.bindDn = false)
    {change : PasswordModifyRequest}
    (decoded : Message.decodePasswordModifyValue request.extendedValue = some change)
    (resolved : resolvesTo server.config store (passwordIdentity session change) =
      some (toLowerAscii dn)) :
    ((handlePasswordModify server context session request).run exec store).1 =
        ((handlePasswordModify server context session request).run exec without).1 ↔
      RefusedUnresolved server context session change ∨
        ∃ other, ((resolveName server.config (passwordIdentity session change)).run exec
            without).1 = some other ∧
          isRootDn server.config other = isRootDn server.config dn ∧
          (isRootDn server.config dn = false →
            ((mayChangePassword server session other).run exec without).1 = false) := by
  by_cases early : RefusedUnresolved server context session change
  · exact iff_of_true (unresolved_password_modify decoded early without) (Or.inl early)
  obtain ⟨target, found, spelled⟩ := Option.map_eq_some_iff.mp resolved
  have sameRoot : isRootDn server.config target = isRootDn server.config dn := by
    simp only [isRootDn, dnEquals, iequals, spelled]
  have here : AnswersResolved server session store request.messageId _ (some target) :=
    found ▸ password_modify_answers decoded early
  rw [or_iff_right early, ← sameRoot]
  exact password_told_apart (fun _ => hidden_password hidden other spelled) here
    (password_modify_answers decoded early)

/-- A session that may not see an entry gets the same answer whether it is stored or
not, exactly if the request conceals it. -/
theorem existence_concealed_iff (reachable : Reachable store) (stored : lookup store dn ≠ none)
    (other : dnEquals dn session.bindDn = false) (hidden : Hidden server session store dn)
    (same : SameDecisions server session store (remove store dn).2)
    (names : NamesTarget server session store dn request) :
    sentFor server context session store request =
        sentFor server context session (remove store dn).2 request ↔
      Conceals server context session (remove store dn).2 dn request := by
  have invariant := reachable.invariant
  have removed : (remove store dn).1 = true := (remove_succeeds_iff store dn).mpr stored
  have hiddenThere : Hidden server session (remove store dn).2 dn :=
    ⟨(same dn).1 ▸ hidden.search, (same dn).2 ▸ hidden.write⟩
  unfold NamesTarget at names
  unfold Conceals
  split at names
  · rename_i op
    have sameBase := (dn_equals_iff _ _).mp names
    rw [op, sent_search op, sent_search op]
    apply search_told_apart (hidden.congr names)
    · rwa [lookup_congr store sameBase]
    · rw [lookup_removed invariant removed, if_pos sameBase.symm]
  · rename_i op
    have handled : handleRequest server context session request =
        (handleCompare server session request >>= fun response =>
          pure (reply session response)) := by
      unfold handleRequest
      rw [op]
    rw [op]
    exact iff_of_true (sent_alike handled (hidden_compare (hidden.congr names))
      (hidden_compare (hiddenThere.congr names))) trivial
  · rename_i op
    have handled : handleRequest server context session request =
        (handleModify server context session request >>= fun response =>
          pure (reply session response)) := by
      unfold handleRequest
      rw [op]
    rw [op]
    exact iff_of_true (sent_alike handled (hidden_modify (hidden.congr names))
      (hidden_modify (hiddenThere.congr names))) trivial
  · rename_i op
    have handled : handleRequest server context session request =
        (handleDelete server session request >>= fun response =>
          pure (reply session response)) := by
      unfold handleRequest
      rw [op]
    rw [op]
    exact iff_of_true (sent_alike handled (hidden_delete (hidden.congr names))
      (hidden_delete (hiddenThere.congr names))) trivial
  · rename_i op
    have handled : handleRequest server context session request =
        (handleModifyDn server session request >>= fun response =>
          pure (reply session response)) := by
      unfold handleRequest
      rw [op]
    rw [op]
    exact iff_of_true (sent_alike handled (hidden_modify_dn (hidden.congr names))
      (hidden_modify_dn (hiddenThere.congr names))) trivial
  · rename_i op
    obtain ⟨oid, change, decoded, resolved⟩ := names
    have handled : handleRequest server context session request =
        (handlePasswordModify server context session request >>= fun response =>
          pure (reply session response)) := by
      unfold handleRequest
      rw [op]
      exact handle_extended_password_modify server context session oid
    rw [op, sent_response handled, sent_response handled]
    simp only [decoded, Option.some.injEq, List.cons.injEq, and_true, forall_eq']
    exact password_modify_concealed_iff hidden other decoded resolved
  · exact absurd names id

end TwoStores

section Examples

/-- Rules that name no group decide without reading the directory. -/
theorem any_rule_without_groups {rules : List AclRule} (plain : ∀ rule ∈ rules, rule.who ≠ .group)
    (write : Bool) (bindDn entryDn : Bytes) (left right : MemoryStore) :
    ((AccessControl.anyRule write bindDn entryDn rules).run exec left).1 =
      ((AccessControl.anyRule write bindDn entryDn rules).run exec right).1 := by
  induction rules with
  | nil => rfl
  | cons rule rest ih =>
      have later := ih fun other member => plain other (by simp [member])
      have fixed : ∃ matched, AccessControl.whoMatches rule bindDn = pure matched := by
        unfold AccessControl.whoMatches
        cases who : rule.who with
        | group => exact absurd who (plain rule (by simp))
        | _ => exact ⟨_, rfl⟩
      obtain ⟨matched, decided⟩ := fixed
      unfold AccessControl.anyRule
      rw [decided]
      simp only [Program.pure_eq_done, Program.bind_done]
      split
      · rfl
      · exact later

theorem same_decisions_without_groups {server : Server} (session : SessionState)
    (plain : ∀ rule ∈ server.config.acls, rule.who ≠ .group) (left right : MemoryStore) :
    SameDecisions server session left right := by
  intro dn
  constructor
  · unfold maySearch AccessControl.maySearch
    split
    · rfl
    split
    · rfl
    · exact any_rule_without_groups plain false _ _ _ _
  · unfold AccessControl.mayWrite
    split
    · rfl
    split
    · rfl
    · exact any_rule_without_groups plain true _ _ _ _

/-- Users may search another part of the tree than the one asked about. -/
def partlyOpenServer : Server :=
  { config := { acls := [{ who := .users, target := text "ou=public,dc=example,dc=com" }] } }

def user : SessionState := { bound := true, bindDn := text "cn=b,ou=people,dc=example,dc=com" }

def hiddenDn : Bytes := text "cn=a,ou=people,dc=example,dc=com"

theorem hidden_from_user : Hidden partlyOpenServer user smallDirectory hiddenDn :=
  ⟨by decide +kernel, by decide +kernel⟩

theorem user_decisions (left right : MemoryStore) :
    SameDecisions partlyOpenServer user left right :=
  same_decisions_without_groups user (by decide) left right

def compareHidden : LdapMessage :=
  { op := .compareRequest, compare := { dn := hiddenDn, attributeName := text "cn" } }

def searchHidden : LdapMessage := { op := .searchRequest, search := { baseDn := hiddenDn } }

theorem compare_conceals_entry :
    sentFor partlyOpenServer {} user smallDirectory compareHidden =
      sentFor partlyOpenServer {} user (remove smallDirectory hiddenDn).2 compareHidden := by
  have names : NamesTarget partlyOpenServer user smallDirectory hiddenDn compareHidden :=
    (by decide +kernel : dnEquals hiddenDn hiddenDn = true)
  exact (existence_concealed_iff small_directory_reachable (by decide +kernel)
    (by decide +kernel) hidden_from_user (user_decisions _ _) names).mpr trivial

/-- A search with the hidden entry as its base is refused if the entry exists, and finds
no such object otherwise. -/
theorem search_reveals_entry :
    Reachable smallDirectory ∧ lookup smallDirectory hiddenDn ≠ none ∧
      dnEquals hiddenDn user.bindDn = false ∧
      Hidden partlyOpenServer user smallDirectory hiddenDn ∧
      SameDecisions partlyOpenServer user smallDirectory (remove smallDirectory hiddenDn).2 ∧
      NamesTarget partlyOpenServer user smallDirectory hiddenDn searchHidden ∧
      sentFor partlyOpenServer {} user smallDirectory searchHidden ≠
        sentFor partlyOpenServer {} user (remove smallDirectory hiddenDn).2 searchHidden :=
  ⟨small_directory_reachable, by decide +kernel, by decide +kernel, hidden_from_user,
    user_decisions _ _, (by decide +kernel : dnEquals hiddenDn hiddenDn = true), by decide +kernel⟩

end Examples

end SimpleLdapd.Session
