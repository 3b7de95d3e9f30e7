import SimpleLdapd.Auth.DigestStrength
import SimpleLdapd.Core.Session

/-!
# DIGEST-MD5 nonces over a whole session

The nonce of a session is set where a challenge goes out and dropped by every
response to it and by every simple bind that gets past the version and the rate
limit. So a nonce that is answered is the one issued last, and a nonce that was
answered once never comes back unless the random source repeats itself.

A bind may end in any value that its program can end in: what it reads of the
directory plays no part, and other sessions may write to it in between.
-/

namespace SimpleLdapd.Session

open Dn Sasl

/-- A BindRequest that was handled, with the session state around it. -/
structure BindTurn where
  context : RequestContext
  request : LdapMessage
  before : SessionState
  response : LdapMessage
  after : SessionState

/-- The binds of one session, one after another. -/
def BindRun (server : Server) : SessionState → List BindTurn → Prop
  | _, [] => True
  | session, turn :: rest =>
      turn.before = session ∧
        (handleBind server turn.context turn.before turn.request).MayEnd
          (turn.response, turn.after) ∧
        BindRun server turn.after rest

namespace BindTurn

variable (turn : BindTurn)

def isDigest : Bool :=
  !turn.request.bind.simple &&
    parseSaslMechanism turn.request.bind.saslMechanism = some .digestMd5

/-- A simple bind behind the version and the rate check. -/
def admittedSimple : Bool :=
  turn.request.bind.version = 3 && turn.context.rateAllowed && turn.request.bind.simple

/-- The nonce of the challenge that the turn sent, if it sent one. -/
def issued : Option Bytes :=
  if turn.isDigest && turn.response.result = .saslBindInProgress then
    some turn.after.saslDigestNonce
  else none

/-- A response to the outstanding `nonce` was accepted or rejected. -/
def Completes (nonce : Bytes) : Prop :=
  turn.isDigest = true ∧
    (turn.response.result = .success ∨ turn.response.result = .invalidCredentials) ∧
    turn.before.saslDigestNonce = nonce

/-- A DIGEST-MD5 Success whose response is about `nonce`. -/
def Accepts (nonce : Bytes) : Prop :=
  turn.isDigest = true ∧ turn.response.result = .success ∧
    (digestFields turn.request.bind.saslCredentials).nonce = nonce

/-- Neither a challenge nor the answer to a response. -/
def Quiet (result : ResultCode) : Prop :=
  result ≠ .saslBindInProgress ∧ result ≠ .success ∧ result ≠ .invalidCredentials

instance quietDecidable (result : ResultCode) : Decidable (Quiet result) :=
  inferInstanceAs (Decidable (_ ∧ _))

def Silent : Prop := turn.isDigest = true → Quiet turn.response.result

end BindTurn

/-- What one bind does to the nonce of the session. -/
inductive NonceStep (server : Server) (turn : BindTurn) : Prop where
  | issue (digest : turn.isDigest = true)
      (challenged : turn.response.result = .saslBindInProgress)
      (wire : turn.response.serverSaslCreds =
        digestChallenge server.config turn.after.saslDigestNonce)
      (nonempty : turn.after.saslDigestNonce ≠ [])
      (drawn : turn.context.nonce.map Text.toHex = some turn.after.saslDigestNonce)
  | complete (digest : turn.isDigest = true) (outstanding : turn.before.saslDigestNonce ≠ [])
      (answered : turn.response.result = .success ∨ turn.response.result = .invalidCredentials)
      (own : turn.response.result = .success →
        (digestFields turn.request.bind.saslCredentials).nonce = turn.before.saslDigestNonce)
      (dropped : turn.after.saslDigestNonce = [])
  | drop (silent : turn.Silent) (dropped : turn.after.saslDigestNonce = [])
  | keep (silent : turn.Silent) (notSimple : turn.admittedSimple = false)
      (kept : turn.after.saslDigestNonce = turn.before.saslDigestNonce)

section Step

open BindTurn

variable {config : LdapConfig} {openssl : Option OpenSsl}

/-- The outcome of a DIGEST-MD5 bind and the nonce behind it. -/
inductive DigestOutcome (config : LdapConfig) (context : BindContext) (before : Bytes)
    (request : BindRequestData) (outcome : SaslBindResult × Bytes) : Prop where
  | issue (challenged : outcome.1.result = .saslBindInProgress)
      (wire : outcome.1.serverCreds = digestChallenge config outcome.2) (nonempty : outcome.2 ≠ [])
      (drawn : context.nonce.map Text.toHex = some outcome.2)
  | complete (outstanding : before ≠ [])
      (answered : outcome.1.result = .success ∨ outcome.1.result = .invalidCredentials)
      (own : outcome.1.result = .success → (digestFields request.saslCredentials).nonce = before)
      (dropped : outcome.2 = [])
  | fail (quiet : Quiet outcome.1.result) (left : outcome.2 = [] ∨ outcome.2 = before)

theorem answer_digest_answers (ssl : OpenSsl) (nonce : Bytes) (request : BindRequestData) :
    (answerDigest config ssl nonce request).Yields fun outcome =>
      (outcome.result = .success ∨ outcome.result = .invalidCredentials) ∧
        (outcome.result = .success → (digestFields request.saslCredentials).nonce = nonce) := by
  have refused {outcome : SaslBindResult} (failed : outcome.result = .invalidCredentials) :
      (pure outcome : BackendProgram SaslBindResult).Yields fun outcome =>
        (outcome.result = .success ∨ outcome.result = .invalidCredentials) ∧
          (outcome.result = .success → (digestFields request.saslCredentials).nonce = nonce) := by
    refine Program.yields_pure ⟨Or.inr failed, fun success => ?_⟩
    rw [failed] at success
    cases success
  unfold answerDigest
  simp only
  split
  · exact refused rfl
  rename_i complete
  simp only [not_or, ne_eq, not_not] at complete
  apply Program.yields_then
  intro resolved
  split
  · exact refused rfl
  apply Program.yields_then
  intro disabled
  split
  · exact refused rfl
  apply Program.yields_then
  intro stored
  split
  · exact refused rfl
  split
  · exact refused rfl
  · exact Program.yields_pure ⟨Or.inl rfl, fun _ => complete.2.1⟩

theorem bind_digest_outcome (context : BindContext) (before : Bytes) (request : BindRequestData) :
    (bindDigest config openssl context before request).Yields
      (DigestOutcome config context before request) := by
  have unsupported : Quiet .authMethodNotSupported := by decide
  have failed : Quiet .operationsError := by decide
  unfold bindDigest
  split
  · exact Program.yields_pure (.fail unsupported (Or.inr rfl))
  split
  · split
    · exact Program.yields_pure (.fail failed (Or.inl rfl))
    simp only
    split
    · exact Program.yields_pure (.fail failed (Or.inl ‹_›))
    · rename_i raw drawn nonempty
      exact Program.yields_pure (.issue rfl rfl nonempty (by rw [drawn]; rfl))
  · rename_i started
    rw [not_or] at started
    apply Program.yields_bind (answer_digest_answers _ before request)
    intro outcome answers
    exact Program.yields_pure (.complete started.1 answers.1 answers.2 rfl)

variable {context : BindContext} {request : BindRequestData}

theorem sasl_digest_outcome (sasl : SaslAuthenticator) (before : Bytes)
    (isDigest : parseSaslMechanism request.saslMechanism = some .digestMd5) :
    (Sasl.bind config openssl sasl context before request).Yields
      (DigestOutcome config context before request) := by
  have unsupported : Quiet .authMethodNotSupported := by decide
  unfold Sasl.bind
  simp only [isDigest]
  split
  · exact Program.yields_pure (.fail unsupported (Or.inr rfl))
  · exact bind_digest_outcome context before request

/-- Only DIGEST-MD5 touches the nonce. -/
theorem sasl_other_keeps_nonce (sasl : SaslAuthenticator) (before : Bytes)
    (notDigest : parseSaslMechanism request.saslMechanism ≠ some .digestMd5) :
    (Sasl.bind config openssl sasl context before request).Yields fun outcome =>
      outcome.2 = before := by
  unfold Sasl.bind
  simp only
  split
  · exact Program.yields_pure rfl
  rename_i mechanism parsed
  split
  · exact Program.yields_pure rfl
  split
  · exact Program.yields_then fun outcome => Program.yields_pure rfl
  · exact absurd parsed notDigest
  · exact Program.yields_then fun outcome => Program.yields_pure rfl
  · exact Program.yields_then fun outcome => Program.yields_pure rfl
  · exact Program.yields_pure rfl

theorem digest_outcome_step {server : Server} {turn : BindTurn} {outcome : SaslBindResult × Bytes}
    (digest : turn.isDigest = true) (notSimple : turn.admittedSimple = false)
    (step : DigestOutcome server.config turn.context.toBindContext turn.before.saslDigestNonce
      turn.request.bind outcome)
    (result : turn.response.result = outcome.1.result)
    (creds : turn.response.serverSaslCreds = outcome.1.serverCreds)
    (after : turn.after.saslDigestNonce = outcome.2) : NonceStep server turn := by
  cases step with
  | issue challenged wire nonempty drawn =>
      exact .issue digest (result.trans challenged) (by rw [creds, wire, after]) (by rwa [after])
        (by rwa [after])
  | complete outstanding answered own dropped =>
      exact .complete digest outstanding (by rwa [result]) (by rwa [result]) (by rw [after, dropped])
  | fail quiet left =>
      have silent : turn.Silent := fun _ => by rwa [result]
      rcases left with empty | same
      · exact .drop silent (by rw [after, empty])
      · exact .keep silent notSimple (by rw [after, same])

theorem handle_bind_nonce (server : Server) (context : RequestContext) (session : SessionState)
    (request : LdapMessage) :
    (handleBind server context session request).Yields fun outcome =>
      NonceStep server
        { context := context, request := request, before := session, response := outcome.1
          after := outcome.2 } := by
  have protocolError : Quiet .protocolError := by decide
  have busy : Quiet .busy := by decide
  have unsupported : Quiet .authMethodNotSupported := by decide
  unfold handleBind
  simp only
  split
  · rename_i version
    exact Program.yields_pure (.keep (fun _ => protocolError) (by simp [admittedSimple, version])
      rfl)
  split
  · rename_i limited
    rw [Bool.not_eq_true'] at limited
    exact Program.yields_pure (.keep (fun _ => busy) (by simp [admittedSimple, limited]) rfl)
  split
  · rename_i isSasl
    have notSimple : request.bind.simple = false := by simpa using isSasl
    split
    · exact Program.yields_pure (.keep (fun _ => unsupported)
        (by simp [admittedSimple, notSimple]) rfl)
    rename_i sasl _
    by_cases digest : parseSaslMechanism request.bind.saslMechanism = some .digestMd5
    · apply Program.yields_bind (sasl_digest_outcome sasl session.saslDigestNonce digest)
      intro outcome step
      have isDigest : ∀ response after,
          (BindTurn.mk context request session response after).isDigest = true := by
        intro response after
        simp [BindTurn.isDigest, notSimple, digest]
      split
      · exact Program.yields_pure (digest_outcome_step (isDigest _ _)
          (by simp [admittedSimple, notSimple]) step rfl rfl rfl)
      · exact Program.yields_pure (digest_outcome_step (isDigest _ _)
          (by simp [admittedSimple, notSimple]) step rfl rfl rfl)
    · apply Program.yields_bind (sasl_other_keeps_nonce sasl session.saslDigestNonce digest)
      intro outcome kept
      have silent : ∀ response after, (BindTurn.mk context request session response after).Silent := by
        intro response after isDigest
        simp [BindTurn.isDigest, digest] at isDigest
      split
      · exact Program.yields_pure (.keep (silent _ _) (by simp [admittedSimple, notSimple]) kept)
      · exact Program.yields_pure (.keep (silent _ _) (by simp [admittedSimple, notSimple]) kept)
  · rename_i isSimple
    have simple : request.bind.simple = true := by simpa using isSimple
    have silent : ∀ response after, (BindTurn.mk context request session response after).Silent := by
      intro response after digest
      simp [isDigest, simple] at digest
    split
    · exact Program.yields_pure (.drop (silent _ _) rfl)
    apply Program.yields_then
    intro result
    split
    · split
      · exact Program.yields_pure (.drop (silent _ _) rfl)
      · apply Program.yields_then
        intro resolved
        exact Program.yields_pure (.drop (silent _ _) rfl)
    · exact Program.yields_pure (.drop (silent _ _) rfl)

end Step

section Run

open BindTurn

variable {server : Server}

theorem BindRun.step {session : SessionState} {turn : BindTurn} {rest : List BindTurn}
    (run : BindRun server session (turn :: rest)) : NonceStep server turn :=
  (handle_bind_nonce server turn.context turn.before turn.request).may_end run.2.1

/-- A turn that leaves the outstanding nonce alone. -/
def LeavesNonce (turn : BindTurn) : Prop :=
  turn.issued = none ∧ turn.admittedSimple = false ∧ ∀ nonce, ¬ turn.Completes nonce

theorem issued_eq_none {turn : BindTurn}
    (other : turn.isDigest = true → turn.response.result ≠ .saslBindInProgress) :
    turn.issued = none := by
  unfold BindTurn.issued
  rw [if_neg]
  simpa using other

theorem silent_not_completes {turn : BindTurn} (silent : turn.Silent) (nonce : Bytes) :
    ¬ turn.Completes nonce := by
  rintro ⟨digest, answered, -⟩
  obtain ⟨-, notSuccess, notInvalid⟩ := silent digest
  rcases answered with success | invalid
  · exact notSuccess success
  · exact notInvalid invalid

theorem silent_leaves {turn : BindTurn} (silent : turn.Silent)
    (notSimple : turn.admittedSimple = false) : LeavesNonce turn :=
  ⟨issued_eq_none fun digest => (silent digest).1, notSimple, silent_not_completes silent⟩

/-- The session state behind a run. -/
def endState : SessionState → List BindTurn → SessionState
  | session, [] => session
  | _, turn :: rest => endState turn.after rest

theorem BindRun.append {session : SessionState} {front back : List BindTurn}
    (run : BindRun server session (front ++ back)) :
    BindRun server session front ∧ BindRun server (endState session front) back := by
  induction front generalizing session with
  | nil => exact ⟨trivial, run⟩
  | cons turn rest ih =>
      obtain ⟨same, ends, later⟩ := run
      obtain ⟨front, back⟩ := ih later
      exact ⟨⟨same, ends, front⟩, back⟩

/-- Where the nonce of the session comes from: it was there, or a turn issued it; no turn
since has touched it. -/
inductive Outstanding (session : SessionState) (nonce : Bytes) (turns : List BindTurn) : Prop where
  | initial (same : session.saslDigestNonce = nonce) (quiet : ∀ turn ∈ turns, LeavesNonce turn)
  | issued (before between : List BindTurn) (turn : BindTurn)
      (split : turns = before ++ turn :: between) (challenge : turn.issued = some nonce)
      (quiet : ∀ other ∈ between, LeavesNonce other)

theorem outstanding_nonce {session : SessionState} {turns : List BindTurn}
    (run : BindRun server session turns) {nonce : Bytes}
    (held : (endState session turns).saslDigestNonce = nonce) (nonempty : nonce ≠ []) :
    Outstanding session nonce turns := by
  induction turns generalizing session with
  | nil => exact .initial held (by simp)
  | cons turn rest ih =>
      have step := run.step
      obtain ⟨same, -, later⟩ := run
      cases ih later held with
      | issued before between challenge split own quiet =>
          exact .issued (turn :: before) between challenge (by rw [split]; rfl) own quiet
      | initial after quiet =>
          -- The nonce was the one behind this turn: it was issued here, or it was there before.
          cases step with
          | issue digest challenged _ _ _ =>
              have here : turn.issued = some nonce := by
                simp [BindTurn.issued, digest, challenged, after]
              exact .issued [] rest turn rfl here quiet
          | complete digest outstanding answered own dropped =>
              exact absurd (after.symm.trans dropped) nonempty
          | drop silent dropped => exact absurd (after.symm.trans dropped) nonempty
          | keep silent notSimple kept =>
              refine .initial (by rw [← same, ← kept, after]) ?_
              intro other member
              rcases List.mem_cons.mp member with rfl | later
              · exact silent_leaves silent notSimple
              · exact quiet other later

theorem completes_not_challenge {turn : BindTurn} {nonce : Bytes}
    (completes : turn.Completes nonce) : turn.response.result ≠ .saslBindInProgress := by
  obtain ⟨-, answered, -⟩ := completes
  intro challenged
  rw [challenged] at answered
  rcases answered with success | invalid
  · cases success
  · cases invalid

/-- A response is completed only where a nonce is outstanding. -/
theorem NonceStep.outstanding {turn : BindTurn} (step : NonceStep server turn) {nonce : Bytes}
    (completes : turn.Completes nonce) : nonce ≠ [] := by
  cases step with
  | issue _ challenged _ _ _ => exact absurd challenged (completes_not_challenge completes)
  | complete _ outstanding _ _ _ =>
      obtain ⟨-, -, rfl⟩ := completes
      exact outstanding
  | drop silent _ => exact absurd completes (silent_not_completes silent nonce)
  | keep silent _ _ => exact absurd completes (silent_not_completes silent nonce)

/-- An accepted response is about the outstanding nonce, and completes it. -/
theorem NonceStep.accepts {turn : BindTurn} (step : NonceStep server turn) {nonce : Bytes}
    (accepts : turn.Accepts nonce) : turn.Completes nonce := by
  obtain ⟨digest, success, about⟩ := accepts
  cases step with
  | issue _ challenged _ _ _ =>
      rw [challenged] at success
      cases success
  | complete _ _ answered own _ => exact ⟨digest, answered, (own success).symm.trans about⟩
  | drop silent _ => exact absurd success (silent digest).2.1
  | keep silent _ _ => exact absurd success (silent digest).2.1

/-- The challenge that a completed response answers, with the turns since. -/
theorem challenge_of_completes {earlier later : List BindTurn} {turn : BindTurn}
    (run : BindRun server {} (earlier ++ turn :: later)) {nonce : Bytes}
    (completes : turn.Completes nonce) :
    ∃ before challenge between, earlier = before ++ challenge :: between ∧
      challenge.issued = some nonce ∧ ∀ other ∈ between, LeavesNonce other := by
  obtain ⟨front, back⟩ := run.append
  have nonempty := back.step.outstanding completes
  obtain ⟨same, -, -⟩ := back
  have held : (endState {} earlier).saslDigestNonce = nonce := by
    rw [← same]
    exact completes.2.2
  cases outstanding_nonce front held nonempty with
  | initial none _ => exact absurd none.symm nonempty
  | issued before between challenge split own quiet =>
      exact ⟨before, challenge, between, split, own, quiet⟩

theorem issued_of_split {before between : List BindTurn} {challenge : BindTurn} {nonce : Bytes}
    (own : challenge.issued = some nonce) :
    nonce ∈ (before ++ challenge :: between).filterMap (·.issued) :=
  List.mem_filterMap.mpr ⟨challenge, by simp, own⟩

/-- A completed nonce is not accepted again. -/
theorem completed_not_accepted {earlier later : List BindTurn} {turn : BindTurn}
    (run : BindRun server {} (earlier ++ turn :: later))
    (distinct : ((earlier ++ turn :: later).filterMap (·.issued)).Nodup) {nonce : Bytes}
    (completes : turn.Completes nonce) : ∀ other ∈ later, ¬ other.Accepts nonce := by
  intro other member accepts
  obtain ⟨middle, rest, rfl⟩ := List.append_of_mem member
  have whole : earlier ++ turn :: (middle ++ other :: rest) =
      (earlier ++ turn :: middle) ++ other :: rest := by
    simp
  obtain ⟨first, issue, between, split, own, -⟩ := challenge_of_completes run completes
  rw [whole] at run distinct
  obtain ⟨-, back⟩ := run.append
  obtain ⟨before, challenge, since, later, again, quiet⟩ :=
    challenge_of_completes run (back.step.accepts accepts)
  have inEarlier : nonce ∈ earlier.filterMap (·.issued) := by
    rw [split]
    exact issued_of_split own
  -- The later challenge stands behind the completed response, so the nonce was issued twice.
  have inMiddle : nonce ∈ middle.filterMap (·.issued) := by
    rcases List.append_eq_append_iff.mp later with ⟨gap, front, tail⟩ | ⟨gap, front, tail⟩
    · cases gap with
      | nil =>
          obtain ⟨rfl, -⟩ := List.cons.inj tail
          rw [issued_eq_none fun _ => completes_not_challenge completes] at again
          cases again
      | cons first gap =>
          obtain ⟨-, rfl⟩ := List.cons.inj tail
          exact issued_of_split again
    · cases gap with
      | nil =>
          obtain ⟨rfl, -⟩ := List.cons.inj tail
          rw [issued_eq_none fun _ => completes_not_challenge completes] at again
          cases again
      | cons first gap =>
          obtain ⟨-, rfl⟩ := List.cons.inj tail
          exact absurd completes ((quiet turn (by simp)).2.2 nonce)
  rw [List.filterMap_append, List.filterMap_append, List.nodup_append] at distinct
  have apart := (List.nodup_append.mp distinct.1).2.2
  refine apart nonce inEarlier nonce ?_ rfl
  rw [List.filterMap_cons_none (issued_eq_none fun _ => completes_not_challenge completes)]
  exact inMiddle

theorem pairwise_of_splits {Item : Type} {relation : Item → Item → Prop} {items : List Item}
    (ordered : ∀ earlier item later, items = earlier ++ item :: later →
      ∀ other ∈ later, relation item other) : items.Pairwise relation := by
  induction items with
  | nil => exact List.Pairwise.nil
  | cons item rest ih =>
      refine List.Pairwise.cons (ordered [] item rest rfl) (ih ?_)
      intro earlier next later split
      exact ordered (item :: earlier) next later (by rw [split]; rfl)

/-- If the random source never repeats a nonce: a nonce is accepted at most once; an accepted
response answers the last challenge, and no admitted simple bind came in between; and a nonce
that was answered is never accepted later. -/
theorem digest_nonce_single_use {turns : List BindTurn} (run : BindRun server {} turns)
    (distinct : (turns.filterMap (·.issued)).Nodup) :
    turns.Pairwise (fun first second => ∀ nonce, ¬ (first.Accepts nonce ∧ second.Accepts nonce)) ∧
      (∀ earlier turn later nonce, turns = earlier ++ turn :: later → turn.Accepts nonce →
        ∃ before challenge between, earlier = before ++ challenge :: between ∧
          challenge.issued = some nonce ∧
          ∀ other ∈ between, other.issued = none ∧ other.admittedSimple = false) ∧
      ∀ earlier turn later nonce, turns = earlier ++ turn :: later → turn.Completes nonce →
        ∀ other ∈ later, ¬ other.Accepts nonce := by
  refine ⟨pairwise_of_splits ?_, ?_, ?_⟩
  · rintro earlier turn later rfl other member nonce ⟨accepts, again⟩
    have step := (run.append.2).step
    exact completed_not_accepted run distinct (step.accepts accepts) other member again
  · rintro earlier turn later nonce rfl accepts
    have step := (run.append.2).step
    obtain ⟨before, challenge, between, split, own, quiet⟩ :=
      challenge_of_completes run (step.accepts accepts)
    exact ⟨before, challenge, between, split, own,
      fun other member => ⟨(quiet other member).1, (quiet other member).2.1⟩⟩
  · rintro earlier turn later nonce rfl completes
    exact completed_not_accepted run distinct completes

/-- The turns of a session on a directory that nobody writes to. -/
def turnsOn (server : Server) (store : MemoryStore) :
    SessionState → List (RequestContext × LdapMessage) → List BindTurn
  | _, [] => []
  | session, (context, request) :: rest =>
      let outcome := ((handleBind server context session request).run MemoryBackend.exec store).1
      { context := context, request := request, before := session, response := outcome.1
        after := outcome.2 } :: turnsOn server store outcome.2 rest

theorem turns_on_run (store : MemoryStore) (session : SessionState)
    (requests : List (RequestContext × LdapMessage)) :
    BindRun server session (turnsOn server store session requests) := by
  induction requests generalizing session with
  | nil => trivial
  | cons first rest ih => exact ⟨rfl, Program.may_end_run _ _ _, ih _⟩

def digestServer : Server := { openssl := some labOpenssl, sasl := some [.digestMd5] }

def bindAs (request : BindRequestData) : LdapMessage := { op := .bindRequest, bind := request }

/-- A challenge, its response, and the same response once more. -/
def replayedResponse : List (RequestContext × LdapMessage) :=
  [({ nonce := some [0, 1, 2, 3, 4, 5, 6, 7, 8, 9, 10, 11, 12, 13, 14, 15] },
      bindAs { simple := false, saslMechanism := text "DIGEST-MD5" }),
    ({}, bindAs (labRequest (text "alice") (text "wonder"))),
    ({ nonce := some [16, 17, 18, 19, 20, 21, 22, 23, 24, 25, 26, 27, 28, 29, 30, 31] },
      bindAs (labRequest (text "alice") (text "wonder")))]

theorem replayed_response_not_accepted :
    ((turnsOn digestServer labStore {} replayedResponse)[1]?.map (·.response.result)) =
        some .success ∧
      ∀ other ∈ (turnsOn digestServer labStore {} replayedResponse).drop 2,
        ¬ other.Accepts labNonce := by
  have run : BindRun digestServer {} (turnsOn digestServer labStore {} replayedResponse) :=
    turns_on_run labStore {} replayedResponse
  obtain ⟨-, -, single⟩ := digest_nonce_single_use run (by decide +kernel)
  refine ⟨by decide +kernel, ?_⟩
  apply single ((turnsOn digestServer labStore {} replayedResponse).take 1) _ _ labNonce rfl
  exact ⟨by decide +kernel, Or.inl (by decide +kernel), by decide +kernel⟩

end Run

end SimpleLdapd.Session
