import SimpleLdapd.Core.WriteOutcome

/-!
# What a search reveals about passwords

Two stores are twins when they differ only in the values of `userPassword`
attributes. The access decisions and the entries sent are the same in both, so
a search reveals exactly what its filter reveals: the filter runs on the entry
before the attribute is stripped.
-/

namespace SimpleLdapd.Session

open Dn MemoryBackend

/-- Attributes with the same name, and the same values unless it is `userPassword`. -/
def TwinAttributes (left right : Bytes × List Bytes) : Prop :=
  left.1 = right.1 ∧ (isUserPassword left.1 = false → left.2 = right.2)

def PasswordTwins (left right : DirectoryEntry) : Prop :=
  left.dn = right.dn ∧ List.Forall₂ TwinAttributes left.attributes.entries right.attributes.entries

def TwinRows (left right : Bytes × DirectoryEntry) : Prop :=
  left.1 = right.1 ∧ PasswordTwins left.2 right.2

def TwinStores (left right : MemoryStore) : Prop :=
  List.Forall₂ TwinRows left.entries right.entries

/-- The filter does not tell entries apart that differ only in password values. -/
def PasswordBlind (filter : SearchFilter) : Prop :=
  ∀ left right, PasswordTwins left right → filter.matchesEntry left = filter.matchesEntry right

section Entries

/-- A search through related lists finds related items, or nothing in both. -/
theorem find_related {Item : Type} {Related : Item → Item → Prop} {left right : List Item}
    (related : List.Forall₂ Related left right) (chosen : Item → Bool)
    (agree : ∀ old new, Related old new → chosen old = chosen new) :
    (left.find? chosen = none ∧ right.find? chosen = none) ∨
      ∃ old new, left.find? chosen = some old ∧ right.find? chosen = some new ∧
        Related old new := by
  induction related with
  | nil => exact Or.inl ⟨rfl, rfl⟩
  | @cons old new _ _ head _ ih =>
      rw [List.find?_cons, List.find?_cons, agree old new head]
      split
      · exact Or.inr ⟨old, new, rfl, rfl, head⟩
      · exact ih

variable {left right : DirectoryEntry}

theorem PasswordTwins.refl (entry : DirectoryEntry) : PasswordTwins entry entry :=
  ⟨rfl, List.forall₂_same.mpr fun _ _ => ⟨rfl, fun _ => rfl⟩⟩

/-- The attribute found under a name in two twins. -/
theorem twin_attribute (twins : PasswordTwins left right) (name : Bytes) :
    (left.findAttribute name = none ∧ right.findAttribute name = none) ∨
      ∃ old new, left.findAttribute name = some old.2 ∧ right.findAttribute name = some new.2 ∧
        TwinAttributes old new ∧ toLowerAscii old.1 = toLowerAscii name := by
  have related := find_related twins.2 (fun pair => toLowerAscii pair.1 = toLowerAscii name)
    (fun old new same => by rw [same.1])
  unfold DirectoryEntry.findAttribute OrderedMap.findBy
  rcases related with ⟨here, there⟩ | ⟨old, new, here, there, twin⟩
  · left
    rw [here, there]
    exact ⟨rfl, rfl⟩
  · right
    have spelled := (OrderedMap.findBy_some toLowerAscii here).2
    rw [here, there]
    exact ⟨old, new, rfl, rfl, twin, spelled⟩

theorem twins_find (twins : PasswordTwins left right) {name : Bytes}
    (other : isUserPassword name = false) :
    left.findAttribute name = right.findAttribute name := by
  rcases twin_attribute twins name with ⟨here, there⟩ | ⟨old, new, here, there, twin, spelled⟩
  · rw [here, there]
  · have shown : isUserPassword old.1 = false := by
      unfold isUserPassword iequals at other ⊢
      rw [spelled]
      exact other
    rw [here, there, twin.2 shown]

theorem twins_present (twins : PasswordTwins left right) (name : Bytes) :
    (left.findAttribute name).isSome = (right.findAttribute name).isSome := by
  rcases twin_attribute twins name with ⟨here, there⟩ | ⟨old, new, here, there, _⟩
  · rw [here, there]
  · rw [here, there]
    rfl

theorem twins_has_value (twins : PasswordTwins left right) {name : Bytes}
    (other : isUserPassword name = false) (value : Bytes) (asDn : Bool) :
    AccessControl.hasValue left name value asDn = AccessControl.hasValue right name value asDn := by
  unfold AccessControl.hasValue
  rw [twins_find twins other]

/-- What is sent of two twins is the same when passwords are stripped. -/
theorem twins_rendered {server : Server} {session : SessionState}
    (hidden : revealPassword server session = false) (request : SearchRequestData)
    (twins : PasswordTwins left right) :
    toSearchEntry server session request left = toSearchEntry server session request right := by
  unfold toSearchEntry
  rw [twins.1]
  congr 2
  have related := twins.2
  generalize left.attributes.entries = old at related
  generalize right.attributes.entries = new at related
  induction related with
  | nil => rfl
  | @cons first second _ _ head _ ih =>
      rw [List.filterMap_cons, List.filterMap_cons, ih, head.1, hidden]
      by_cases secret : isUserPassword second.1 = true
      · simp [secret]
      · rw [head.2 (by rw [head.1]; simpa using secret)]

end Entries

section Programs

variable {left right : MemoryStore}

theorem twin_lookup (twins : TwinStores left right) (dn : Bytes) :
    (lookup left dn = none ∧ lookup right dn = none) ∨
      ∃ old new, lookup left dn = some old ∧ lookup right dn = some new ∧
        PasswordTwins old new := by
  have related := find_related twins (fun pair => toLowerAscii pair.1 = toLowerAscii dn)
    (fun old new same => by rw [same.1])
  unfold lookup OrderedMap.findBy
  rcases related with ⟨here, there⟩ | ⟨old, new, here, there, twin⟩
  · left
    rw [here, there]
    exact ⟨rfl, rfl⟩
  · right
    rw [here, there]
    exact ⟨old.2, new.2, rfl, rfl, twin.2⟩

theorem twin_search (twins : TwinStores left right) {filter : SearchFilter}
    (blind : PasswordBlind filter) (baseDn : Bytes) (scope : SearchScope) :
    List.Forall₂ PasswordTwins (search left baseDn scope filter)
      (search right baseDn scope filter) := by
  unfold search
  have related : List.Forall₂ TwinRows left.entries right.entries := twins
  generalize left.entries = old at related
  generalize right.entries = new at related
  induction related with
  | nil => exact List.Forall₂.nil
  | @cons first second _ _ head _ ih =>
      rw [List.filter_cons, List.filter_cons, head.1, blind first.2 second.2 head.2]
      split
      · exact List.Forall₂.cons head.2 ih
      · exact ih

/-- The program gives the same answer on both stores. -/
def Agree {Value : Type} (left right : MemoryStore) (program : BackendProgram Value) : Prop :=
  (program.run exec left).1 = (program.run exec right).1

theorem agree_bind {First Value : Type} {program : BackendProgram First}
    {rest : First → BackendProgram Value} (readOnly : program.Issues BackendCall.Reads)
    (first : Agree left right program) (next : ∀ value, Agree left right (rest value)) :
    Agree left right (program >>= rest) := by
  unfold Agree at first ⊢
  rw [Program.run_bind, Program.run_bind, run_read_only readOnly, run_read_only readOnly, first]
  exact next _

theorem agree_empty_or_stored (twins : TwinStores left right) (dn : Bytes) :
    Agree left right (emptyOrStored dn) := by
  unfold emptyOrStored
  split
  · rfl
  · change (lookup left dn).isSome = (lookup right dn).isSome
    rcases twin_lookup twins dn with ⟨here, there⟩ | ⟨_, _, here, there, _⟩
    · rw [here, there]
    · rw [here, there]
      rfl

/-- The decision of `inGroup` as a function of the two entries it reads. -/
def groupDecision (bindDn groupDn : Bytes) (group user : Option DirectoryEntry) : Bool :=
  bindDn ≠ [] && group.any fun group =>
    AccessControl.hasValue group (text "member") bindDn true ||
      AccessControl.hasValue group (text "uniqueMember") bindDn true ||
      (user.any fun entry => AccessControl.hasValue entry (text "memberOf") groupDn true) ||
      (AccessControl.userUid user bindDn ≠ [] &&
        AccessControl.hasValue group (text "memberUid") (AccessControl.userUid user bindDn) false)

theorem in_group_run (store : MemoryStore) (bindDn groupDn : Bytes) :
    Program.Ensures exec (AccessControl.inGroup bindDn groupDn) store fun decision _ =>
      decision = groupDecision bindDn groupDn (lookup store groupDn) (lookup store bindDn) := by
  unfold AccessControl.inGroup groupDecision
  split
  · rename_i anonymous
    exact Program.ensures_pure (by simp [anonymous])
  rename_i named
  apply ensures_lookup
  intro group foundGroup
  rw [foundGroup]
  split
  · exact Program.ensures_pure (by simp)
  rename_i group
  simp only [Option.any_some, named, ne_eq, not_false_eq_true, decide_true, Bool.true_and]
  split
  · rename_i direct
    rw [direct]
    exact Program.ensures_pure rfl
  rename_i indirect
  rw [Bool.eq_false_iff.mpr indirect, Bool.false_or]
  apply ensures_lookup
  intro user foundUser
  rw [foundUser]
  split
  · rename_i listed
    rw [listed]
    exact Program.ensures_pure rfl
  · rename_i unlisted
    rw [Bool.eq_false_iff.mpr unlisted, Bool.false_or]
    exact Program.ensures_pure rfl

theorem twins_user_uid {old new : DirectoryEntry} (twins : PasswordTwins old new)
    (bindDn : Bytes) :
    AccessControl.userUid (some old) bindDn = AccessControl.userUid (some new) bindDn := by
  unfold AccessControl.userUid
  simp only [Option.bind_some, twins_find twins (by decide : isUserPassword (text "uid") = false)]

theorem agree_in_group (twins : TwinStores left right) (bindDn groupDn : Bytes) :
    Agree left right (AccessControl.inGroup bindDn groupDn) := by
  refine (in_group_run left bindDn groupDn).trans (Eq.trans ?_ (in_group_run right bindDn groupDn).symm)
  have userTwins := twin_lookup twins bindDn
  rcases twin_lookup twins groupDn with ⟨here, there⟩ | ⟨old, new, here, there, groupTwins⟩
  · rw [here, there]
    rfl
  · have shown (name : Bytes) (value : Bytes) (asDn : Bool)
        (other : isUserPassword name = false) :
        AccessControl.hasValue old name value asDn = AccessControl.hasValue new name value asDn :=
      twins_has_value groupTwins other value asDn
    unfold groupDecision
    rw [here, there]
    simp only [Option.any_some, shown (text "member") _ _ (by decide),
      shown (text "uniqueMember") _ _ (by decide), shown (text "memberUid") _ _ (by decide)]
    rcases userTwins with ⟨mine, theirs⟩ | ⟨mine, theirs, foundLeft, foundRight, same⟩
    · rw [mine, theirs]
    · rw [foundLeft, foundRight, twins_user_uid same]
      simp only [Option.any_some,
        twins_has_value same (by decide : isUserPassword (text "memberOf") = false)]

theorem agree_any_rule (twins : TwinStores left right) (write : Bool) (bindDn entryDn : Bytes)
    (rules : List AclRule) :
    Agree left right (AccessControl.anyRule write bindDn entryDn rules) := by
  induction rules with
  | nil => rfl
  | cons rule rest ih =>
      unfold AccessControl.anyRule
      apply agree_bind (AccessControl.who_matches_read_only rule bindDn)
      · unfold AccessControl.whoMatches
        split
        · rfl
        · rfl
        · rfl
        · rfl
        · exact agree_in_group twins bindDn rule.whoValue
      · intro matched
        split
        · rfl
        · exact ih

/-- Access to entries does not depend on password values. -/
theorem agree_may_search (twins : TwinStores left right) (server : Server)
    (session : SessionState) (entryDn : Bytes) :
    Agree left right (maySearch server session entryDn) := by
  unfold maySearch AccessControl.maySearch
  split
  · rfl
  split
  · rfl
  · exact agree_any_rule twins false session.bindDn entryDn server.config.acls

theorem twin_visible (twins : TwinStores left right) (server : Server) (session : SessionState)
    {old new : List DirectoryEntry} (related : List.Forall₂ PasswordTwins old new) :
    List.Forall₂ PasswordTwins ((visibleEntries server session old).run exec left).1
      ((visibleEntries server session new).run exec right).1 := by
  induction related with
  | nil => exact List.Forall₂.nil
  | @cons first second _ _ head _ ih =>
      unfold visibleEntries
      have decided := agree_may_search twins server session second.dn
      unfold Agree at decided
      have silent (store : MemoryStore) (dn : Bytes) :
          ((maySearch server session dn).run exec store).2 = store :=
        run_read_only (AccessControl.may_search_read_only server.config session.bindDn dn) store
      simp only [Program.run_bind, Program.run_pure, silent, head.1, decided]
      split
      · exact List.Forall₂.cons head ih
      · exact ih

theorem twin_matches (twins : TwinStores left right) (server : Server)
    {request : SearchRequestData} (blind : PasswordBlind request.filter) :
    List.Forall₂ PasswordTwins ((searchMatches server request).run exec left).1
      ((searchMatches server request).run exec right).1 := by
  have found := twin_search twins blind request.baseDn request.scope
  have itself (entries : List DirectoryEntry) : List.Forall₂ PasswordTwins entries entries :=
    List.forall₂_same.mpr fun entry _ => PasswordTwins.refl entry
  unfold searchMatches
  split
  · simp only
    split
    · exact itself _
    · exact List.rel_append (itself _) found
  · exact found

end Programs

section Messages

variable (context : RequestContext)

theorem read_visible_map {Item Image : Type} (render : Item → Image) (visible : List Item)
    (index : Int) :
    readVisible (visible.map render) index = (readVisible visible index).map render := by
  unfold readVisible
  split
  · rfl
  · exact List.getElem?_map

/-- The send loop never looks at the entries it sends. -/
theorem send_loop_map {Item Image : Type} (render : Item → Image) (request : SearchRequestData)
    (pageSize : Int32) (visible : List Item) (turns : Nat) (index : Int) (sent : Nat) :
    sendLoop context request pageSize (visible.map render) turns index sent =
      (sendLoop context request pageSize visible turns index sent).map fun found =>
        (found.1.map render, found.2) := by
  induction turns generalizing index sent with
  | zero => rfl
  | succ turns ih =>
      unfold sendLoop
      rw [read_visible_map]
      split
      · rfl
      split
      · rfl
      split
      · rfl
      cases readVisible visible index with
      | none => rfl
      | some entry =>
          simp only [Option.map_some, ih, Option.map_map]
          rfl

variable {server : Server} {session : SessionState}

theorem send_page_congr {request : LdapMessage} {pageSize : Int32} {cookie : Bytes}
    {left right : List DirectoryEntry}
    (same : left.map (renderMessage server session request) =
      right.map (renderMessage server session request)) :
    sendPage server context session request pageSize cookie left =
      sendPage server context session request pageSize cookie right := by
  have lengths : left.length = right.length := by
    simpa using congrArg List.length same
  unfold sendPage
  simp only [lengths]
  split
  · rfl
  rename_i parsed _
  split
  · rfl
  have loops := congrArg
    (fun messages => sendLoop context request.search pageSize messages
      ((Int32.ofNat right.length).toInt - (Int32.ofInt parsed).toInt).toNat
      (Int32.ofInt parsed).toInt 0) same
  simp only [send_loop_map] at loops
  generalize sendLoop context request.search pageSize left _ _ _ = mine at loops
  generalize sendLoop context request.search pageSize right _ _ _ = theirs at loops
  cases mine with
  | none =>
      cases theirs with
      | none => rfl
      | some found => cases loops
  | some found =>
      cases theirs with
      | none => cases loops
      | some other =>
          simp only [Option.map_some, Option.some.injEq, Prod.mk.injEq] at loops
          have sizes : found.1.length = other.1.length := by
            simpa using congrArg List.length loops.1
          have rendered := loops.1
          unfold renderMessage at rendered
          simp only [sizes, loops.2, rendered]

theorem twins_map_rendered (hidden : revealPassword server session = false)
    (request : LdapMessage) {left right : List DirectoryEntry}
    (related : List.Forall₂ PasswordTwins left right) :
    left.map (renderMessage server session request) =
      right.map (renderMessage server session request) := by
  induction related with
  | nil => rfl
  | cons head _ ih =>
      rw [List.map_cons, List.map_cons, ih, renderMessage, renderMessage,
        twins_rendered hidden request.search head]

/-- A search with a blind filter sends the same messages from twin stores. -/
theorem blind_search_agrees {left right : MemoryStore} (twins : TwinStores left right)
    (hidden : revealPassword server session = false) {request : LdapMessage}
    (blind : PasswordBlind request.search.filter) :
    Agree left right (handleSearch server context session request) := by
  unfold handleSearch
  simp only
  split
  · rfl
  split
  · rfl
  apply agree_bind (empty_or_stored_read_only _) (agree_empty_or_stored twins _)
  intro found
  split
  · rfl
  apply agree_bind (may_search_base_read_only server session _)
  · unfold maySearchBase
    split
    · rfl
    · exact agree_may_search twins server session _
  intro allowed
  split
  · rfl
  rename_i pageSize cookie _ _ _
  have matched := twin_matches twins server blind
  have visible := twin_visible twins server session matched
  unfold Agree
  simp only [Program.run_bind, Program.run_pure,
    run_read_only (search_matches_read_only server request.search)]
  exact send_page_congr context (twins_map_rendered hidden request visible)

end Messages

section Probe

def probeDn : Bytes := text "cn=probe"

/-- The store that holds the entry alone, under a fixed name. -/
def holding (entry : DirectoryEntry) : MemoryStore :=
  (add OrderedMap.empty { entry with dn := probeDn }).2

theorem holding_entries (entry : DirectoryEntry) :
    (holding entry).entries = [(probeDn, { entry with dn := probeDn })] := rfl

theorem holding_twins {left right : DirectoryEntry} (twins : PasswordTwins left right) :
    TwinStores (holding left) (holding right) := by
  unfold TwinStores
  rw [holding_entries, holding_entries]
  exact List.Forall₂.cons ⟨rfl, rfl, twins.2⟩ List.Forall₂.nil

/-- A base search for the entry. -/
def probe (filter : SearchFilter) : LdapMessage :=
  { op := .searchRequest, search := { baseDn := probeDn, scope := .base, filter := filter } }

theorem probe_finds (filter : SearchFilter) (entry : DirectoryEntry) :
    search (holding entry) probeDn .base filter =
      if filter.matchesEntry entry then [{ entry with dn := probeDn }] else [] := by
  have same : filter.matchesEntry { entry with dn := probeDn } = filter.matchesEntry entry :=
    filter.matches_congr fun _ => rfl
  unfold search
  rw [holding_entries, List.filter_cons, same]
  have inside : Backend.inScope .base probeDn probeDn = true := by decide
  simp only [inside, Bool.true_and, List.filter_nil]
  split
  · rfl
  · rfl

/-- Without access rules every entry is visible. -/
theorem visible_without_rules (server : Server) (free : server.config.acls = [])
    (session : SessionState) (entries : List DirectoryEntry) :
    visibleEntries server session entries = pure entries := by
  induction entries with
  | nil => rfl
  | cons entry rest ih =>
      have allowed : maySearch server session entry.dn = pure true := by
        unfold maySearch AccessControl.maySearch
        rw [if_pos free, ite_self]
      unfold visibleEntries
      rw [allowed, ih]
      rfl

/-- An anonymous client learns from the length of the answer whether the entry matches. -/
theorem probe_answer_length {filter : SearchFilter} (valid : filter.valid = true)
    (entry : DirectoryEntry) :
    ((handleSearch {} {} {} (probe filter)).run exec (holding entry)).1.map List.length =
      some (if filter.matchesEntry entry then 2 else 1) := by
  have answered : ((handleSearch {} {} {} (probe filter)).run exec (holding entry)).1 =
      sendPage {} {} {} (probe filter) (-1) []
        (search (holding entry) probeDn .base filter) := by
    unfold handleSearch
    simp only [visible_without_rules {} rfl]
    rw [show (probe filter).search.filter.valid = true from valid]
    rfl
  rw [answered, probe_finds]
  split
  · rfl
  · rfl

end Probe

section Filters

mutual

/-- Some comparison in the filter is with the values of `userPassword`. -/
def comparesPassword : FilterNode → Bool
  | ⟨type, name, _, children, _, _, _⟩ =>
      match type with
      | .and | .or | .not => someComparesPassword children
      | .equality | .substring => isUserPassword name
      | .present | .true | .false => false

def someComparesPassword : List FilterNode → Bool
  | [] => false
  | child :: rest => comparesPassword child || someComparesPassword rest

end

variable {left right : DirectoryEntry}

mutual

/-- A tree that compares no password value does not tell twins apart. -/
theorem twins_node_matches (twins : PasswordTwins left right) :
    (node : FilterNode) → comparesPassword node = false →
      Filter.nodeMatches left node = Filter.nodeMatches right node
  | ⟨type, name, value, children, initial, any, final⟩, silent => by
      cases type with
      | and => simp only [Filter.nodeMatches, (twins_lists_match twins children silent).1]
      | or => simp only [Filter.nodeMatches, (twins_lists_match twins children silent).2]
      | not => simp only [Filter.nodeMatches, (twins_lists_match twins children silent).1]
      | equality => simp only [Filter.nodeMatches, twins_find twins silent]
      | substring => simp only [Filter.nodeMatches, twins_find twins silent]
      | present => simp only [Filter.nodeMatches, twins_present twins name]
      | true => rfl
      | false => rfl

theorem twins_lists_match (twins : PasswordTwins left right) :
    (children : List FilterNode) → someComparesPassword children = false →
      Filter.allMatch left children = Filter.allMatch right children ∧
        Filter.anyMatches left children = Filter.anyMatches right children
  | [], _ => ⟨rfl, rfl⟩
  | child :: rest, silent => by
      rw [someComparesPassword, Bool.or_eq_false_iff] at silent
      have head := twins_node_matches twins child silent.1
      have tail := twins_lists_match twins rest silent.2
      simp only [Filter.allMatch, Filter.anyMatches, head, tail, and_self]

end

/-- Testing that a password is present is harmless, as is every test of another attribute. -/
theorem password_blind_of_no_comparison {filter : SearchFilter}
    (silent : comparesPassword filter.root = false) : PasswordBlind filter := by
  intro left right twins
  unfold SearchFilter.matchesEntry
  rw [twins_node_matches twins filter.root silent]

end Filters

/-- A search with the filter sends the same messages from any two twin stores, to any
session that is not bound as the root DN. -/
def HidesPasswords (filter : SearchFilter) : Prop :=
  ∀ (server : Server) (context : RequestContext) (session : SessionState) (request : LdapMessage)
    (left right : MemoryStore),
    revealPassword server session = false → request.search.filter = filter →
      TwinStores left right →
      ((handleSearch server context session request).run exec left).1 =
        ((handleSearch server context session request).run exec right).1

/-- Exactly the filters that are blind to password values keep them secret. -/
theorem hides_passwords_iff_blind (filter : SearchFilter) :
    HidesPasswords filter ↔ PasswordBlind filter := by
  constructor
  · intro hides left right twins
    by_cases valid : filter.valid = true
    · have same := hides {} {} {} (probe filter) (holding left) (holding right) rfl rfl
        (holding_twins twins)
      have lengths := congrArg (Option.map List.length) same
      rw [probe_answer_length valid, probe_answer_length valid, Option.some.injEq] at lengths
      cases here : filter.matchesEntry left <;> cases there : filter.matchesEntry right <;>
        simp [here, there] at lengths ⊢
    · have rejected (entry : DirectoryEntry) : filter.matchesEntry entry = false := by
        unfold SearchFilter.matchesEntry
        rw [Bool.eq_false_iff.mpr valid, Bool.false_and]
      rw [rejected left, rejected right]
  · intro blind server context session request left right hidden asked twins
    subst asked
    exact blind_search_agrees context twins hidden blind

def passwordHolder (password : Bytes) : DirectoryEntry :=
  { attributes := (OrderedMap.empty.insert (text "cn") [text "probe"]).insert
      (text "userPassword") [password] }

/-- An anonymous search that compares passwords guesses one. -/
theorem equality_filter_reveals_password :
    revealPassword {} {} = false ∧
      TwinStores (holding (passwordHolder (text "secret")))
        (holding (passwordHolder (text "other"))) ∧
      ((handleSearch {} {} {} (probe (Filter.equality (text "userPassword") (text "secret")))).run
        exec (holding (passwordHolder (text "secret")))).1 ≠
      ((handleSearch {} {} {} (probe (Filter.equality (text "userPassword") (text "secret")))).run
        exec (holding (passwordHolder (text "other")))).1 := by
  refine ⟨rfl, holding_twins ⟨rfl, ?_⟩, by decide +kernel⟩
  refine List.Forall₂.cons ⟨rfl, fun _ => rfl⟩ (List.Forall₂.cons ⟨rfl, ?_⟩ List.Forall₂.nil)
  intro shown
  revert shown
  decide

end SimpleLdapd.Session
