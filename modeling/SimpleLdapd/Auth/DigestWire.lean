import SimpleLdapd.Auth.DigestStrength
import SimpleLdapd.Auth.PrintedPairs

/-!
# Client and server of DIGEST-MD5 over the wire

The server reads back the fields that the client wrote exactly if none of them needs
an escape. Then it accepts the response exactly where its password is the client's.
-/

namespace SimpleLdapd.Sasl

open Dn Text MemoryBackend SimpleBindAuthenticator

theorem client_text_is_printed (fields : DigestFields) :
    clientText fields = printed (fieldPairs fields) := client_text_printed fields

section Fields

variable {fields : DigestFields}

theorem field_keys_lower (fields : DigestFields) :
    ∀ pair ∈ fieldPairs fields, toLowerAscii pair.key = pair.key := by
  simp only [fieldPairs, laterPairs, List.forall_mem_cons, PrintedPair.key]
  refine ⟨?_, ?_, ?_, ?_, ?_, ?_, ?_, ?_, ?_, by simp⟩ <;> decide

theorem field_keys_distinct (fields : DigestFields) :
    ((fieldPairs fields).map (·.key)).Nodup := by
  change [text "username", text "realm", text "nonce", text "cnonce", text "nc", text "qop",
    text "digest-uri", text "response", text "charset"].Nodup
  decide +kernel

/-- The fields that the client always fills in, and those that it writes as they are. -/
structure Filled (fields : DigestFields) : Prop where
  username : fields.username ≠ []
  nonce : fields.nonce ≠ []
  cnonce : fields.cnonce ≠ []
  uri : fields.uri ≠ []
  nc : fields.nc = text "00000001"
  response : fields.response ≠ []
  plain : (PrintedPair.plain (text "response") fields.response).Verbatim

/-- The values of the text, each looked up under its key. -/
structure FieldsReadBack (pairs : List (Bytes × Bytes)) (fields : DigestFields) : Prop where
  username : ReadBack pairs (.quoted (text "username") fields.username)
  realm : fields.realm = [] ∨ ReadBack pairs (.quoted (text "realm") fields.realm)
  nonce : ReadBack pairs (.quoted (text "nonce") fields.nonce)
  cnonce : ReadBack pairs (.quoted (text "cnonce") fields.cnonce)
  nc : ReadBack pairs (.plain (text "nc") fields.nc)
  qop : fields.qop = text "auth" ∨ ReadBack pairs (.plain (text "qop") fields.qop)
  uri : ReadBack pairs (.quoted (text "digest-uri") fields.uri)
  response : ReadBack pairs (.plain (text "response") fields.response)

theorem read_back_or_default {pairs : List (Bytes × Bytes)} (pair : PrintedPair)
    (fallback : Bytes)
    (same : unquote (pairValue pairs pair.key fallback) = pair.value) :
    pair.value = unquote fallback ∨ ReadBack pairs pair := by
  rw [pair_value_eq] at same
  cases last : lastValue pairs pair.key with
  | none =>
      rw [last] at same
      exact Or.inl same.symm
  | some read =>
      rw [last] at same
      exact Or.inr ⟨read, last, same⟩

theorem Filled.read_back (filled : Filled fields) {credentials : Bytes}
    (same : digestFields credentials = fields) :
    FieldsReadBack (parsePairs toLowerAscii credentials) fields := by
  have always (pair : PrintedPair) (value : pair.value ≠ [])
      (read : unquote (pairValue (parsePairs toLowerAscii credentials) pair.key []) = pair.value) :
      ReadBack (parsePairs toLowerAscii credentials) pair :=
    (read_back_or_default pair [] read).resolve_left value
  have counted : unquote fields.nc = fields.nc := unquote_of_head (by rw [filled.nc]; decide)
  have nc : fields.nc ≠ [] := by rw [filled.nc]; decide
  have qop := read_back_or_default (.plain (text "qop") fields.qop) (text "auth")
    (congrArg DigestFields.qop same)
  rw [show unquote (text "auth") = text "auth" by decide] at qop
  exact
    { username := always (.quoted (text "username") fields.username) filled.username
        (congrArg DigestFields.username same)
      realm := read_back_or_default (.quoted (text "realm") fields.realm) []
        (congrArg DigestFields.realm same)
      nonce := always (.quoted (text "nonce") fields.nonce) filled.nonce
        (congrArg DigestFields.nonce same)
      cnonce := always (.quoted (text "cnonce") fields.cnonce) filled.cnonce
        (congrArg DigestFields.cnonce same)
      nc := always (.plain (text "nc") fields.nc) nc
        ((congrArg (unquote ∘ DigestFields.nc) same).trans counted)
      qop := qop
      uri := always (.quoted (text "digest-uri") fields.uri) filled.uri
        (congrArg DigestFields.uri same)
      response := always (.plain (text "response") fields.response) filled.response
        (congrArg DigestFields.response same) }

theorem FieldsReadBack.all {pairs : List (Bytes × Bytes)} (readBack : FieldsReadBack pairs fields)
    {letter : Byte} (realm : fields.realm = [] → letterCount letter (text "realm") = 0)
    (qop : fields.qop = text "auth" →
      letterCount letter (text "qop") = 0 ∧ letterCount letter (text "auth") = 0)
    (charset : letterCount letter (text "charset") = 0 ∧ letterCount letter (text "utf-8") = 0) :
    ∀ pair ∈ fieldPairs fields, ReadBack pairs pair ∨ Weightless letter pair := by
  have realmRead : ReadBack pairs (.quoted (text "realm") fields.realm) ∨
      Weightless letter (.quoted (text "realm") fields.realm) := by
    rcases readBack.realm with empty | read
    · exact Or.inr ⟨realm empty, by rw [PrintedPair.value, empty, letter_count_nil]⟩
    · exact Or.inl read
  have qopRead : ReadBack pairs (.plain (text "qop") fields.qop) ∨
      Weightless letter (.plain (text "qop") fields.qop) := by
    rcases readBack.qop with auth | read
    · exact Or.inr ⟨(qop auth).1, by rw [PrintedPair.value, auth, (qop auth).2]⟩
    · exact Or.inl read
  simp only [fieldPairs, laterPairs, List.forall_mem_cons]
  exact ⟨Or.inl readBack.username, realmRead, Or.inl readBack.nonce, Or.inl readBack.cnonce,
    Or.inl readBack.nc, qopRead, Or.inl readBack.uri, Or.inl readBack.response,
    Or.inr charset, by simp⟩

/-- Each key has a letter of its own, so no value runs into it unnoticed. -/
theorem field_keys_spelled : ∀ key ∈ [text "realm", text "nonce", text "cnonce", text "nc",
    text "digest-uri", text "response"], Spelled key := by
  have spelled {key : Bytes} (free : chr '"' ∉ key ∧ chr '\\' ∉ key)
      (letter : letterCount (chr 'e') key + letterCount (chr 'n') key ≠ 0) : Spelled key := by
    refine ⟨free, ?_⟩
    by_cases none : letterCount (chr 'e') key = 0
    · exact ⟨chr 'n', rfl, by omega⟩
    · exact ⟨chr 'e', rfl, none⟩
  intro key member
  simp only [List.mem_cons, List.not_mem_nil, or_false] at member
  rcases member with rfl | rfl | rfl | rfl | rfl | rfl <;> exact spelled (by decide) (by decide)

/-- The server reads back exactly the fields that need no escape. -/
theorem fields_read_iff (filled : Filled fields) :
    digestFields (clientText fields) = fields ↔
      ∀ pair ∈ fieldPairs fields, pair.Verbatim := by
  refine ⟨fun same => ?_, digest_fields_read⟩
  have readBack := filled.read_back same
  rw [client_text_is_printed] at readBack
  have keyed : ∀ pair ∈ fieldPairs fields,
      pairKey pair.key = true ∧ toLowerAscii pair.key = pair.key :=
    fun pair member => ⟨field_pairs_keyed fields pair member, field_keys_lower fields pair member⟩
  have distinct := field_keys_distinct fields
  have spelled := field_keys_spelled
  simp only [List.forall_mem_cons] at spelled
  obtain ⟨realmKey, nonceKey, cnonceKey, ncKey, uriKey, responseKey, -⟩ := spelled
  have byN : ∀ pair ∈ fieldPairs fields, ReadBack (parsePairs toLowerAscii
      (printed (fieldPairs fields))) pair ∨ Weightless (chr 'n') pair :=
    readBack.all (fun _ => rfl) (fun _ => ⟨rfl, rfl⟩) ⟨rfl, rfl⟩
  -- From left to right: each pair is at its place as long as those before it are.
  have username : (PrintedPair.quoted (text "username") fields.username).Verbatim :=
    verbatim_of_read_back [] _ _ (.quoted (text "realm") fields.realm) (chr 'n') rfl keyed distinct
      (by simp) realmKey (show letterCount _ (text "username") ≠ 0 by decide) byN
  have realm : (PrintedPair.quoted (text "realm") fields.realm).Verbatim := by
    by_cases empty : fields.realm = []
    · rw [empty]
      exact ⟨List.not_mem_nil, List.not_mem_nil⟩
    · have byL : ∀ pair ∈ fieldPairs fields, ReadBack (parsePairs toLowerAscii
          (printed (fieldPairs fields))) pair ∨ Weightless (chr 'l') pair :=
        readBack.all (fun none => absurd none empty) (fun _ => ⟨rfl, rfl⟩) ⟨rfl, rfl⟩
      exact verbatim_of_read_back [.quoted (text "username") fields.username] _ _
        (.quoted (text "nonce") fields.nonce) (chr 'l') rfl keyed distinct
        (by simpa using username) nonceKey (show letterCount _ (text "realm") ≠ 0 by decide) byL
  have nonce : (PrintedPair.quoted (text "nonce") fields.nonce).Verbatim :=
    verbatim_of_read_back [.quoted (text "username") fields.username,
        .quoted (text "realm") fields.realm] _ _ (.quoted (text "cnonce") fields.cnonce)
      (chr 'n') rfl keyed distinct (by simpa using ⟨username, realm⟩) cnonceKey
      (show letterCount _ (text "nonce") ≠ 0 by decide) byN
  have cnonce : (PrintedPair.quoted (text "cnonce") fields.cnonce).Verbatim :=
    verbatim_of_read_back [.quoted (text "username") fields.username,
        .quoted (text "realm") fields.realm, .quoted (text "nonce") fields.nonce] _ _
      (.plain (text "nc") fields.nc) (chr 'n') rfl keyed distinct
      (by simpa using ⟨username, realm, nonce⟩) ncKey
      (show letterCount _ (text "cnonce") ≠ 0 by decide) byN
  have nc : (PrintedPair.plain (text "nc") fields.nc).Verbatim := by
    rw [filled.nc]
    constructor <;> decide
  have qop : (PrintedPair.plain (text "qop") fields.qop).Verbatim := by
    by_cases auth : fields.qop = text "auth"
    · rw [auth]
      constructor <;> decide
    · have byQ : ∀ pair ∈ fieldPairs fields, ReadBack (parsePairs toLowerAscii
          (printed (fieldPairs fields))) pair ∨ Weightless (chr 'q') pair :=
        readBack.all (fun _ => rfl) (fun same => absurd same auth) ⟨rfl, rfl⟩
      exact verbatim_of_read_back [.quoted (text "username") fields.username,
          .quoted (text "realm") fields.realm, .quoted (text "nonce") fields.nonce,
          .quoted (text "cnonce") fields.cnonce, .plain (text "nc") fields.nc] _ _
        (.quoted (text "digest-uri") fields.uri) (chr 'q') rfl keyed distinct
        (by simpa using ⟨username, realm, nonce, cnonce, nc⟩) uriKey
        (show letterCount _ (text "qop") ≠ 0 by decide) byQ
  have uri : (PrintedPair.quoted (text "digest-uri") fields.uri).Verbatim := by
    have byG : ∀ pair ∈ fieldPairs fields, ReadBack (parsePairs toLowerAscii
        (printed (fieldPairs fields))) pair ∨ Weightless (chr 'g') pair :=
      readBack.all (fun _ => rfl) (fun _ => ⟨rfl, rfl⟩) ⟨rfl, rfl⟩
    exact verbatim_of_read_back [.quoted (text "username") fields.username,
        .quoted (text "realm") fields.realm, .quoted (text "nonce") fields.nonce,
        .quoted (text "cnonce") fields.cnonce, .plain (text "nc") fields.nc,
        .plain (text "qop") fields.qop] _ _ (.plain (text "response") fields.response)
      (chr 'g') rfl keyed distinct (by simpa using ⟨username, realm, nonce, cnonce, nc, qop⟩)
      responseKey (show letterCount _ (text "digest-uri") ≠ 0 by decide) byG
  have charset : (PrintedPair.plain (text "charset") (text "utf-8")).Verbatim := by
    constructor <;> decide
  simp only [fieldPairs, laterPairs, List.forall_mem_cons]
  exact ⟨username, realm, nonce, cnonce, nc, qop, uri, filled.plain, charset, by simp⟩

end Fields

section Check

variable {config : LdapConfig} {store : MemoryStore} {ssl : OpenSsl}

/-- What the server checks of a response, with the password that it has for the name. -/
def digestChecks (ssl : OpenSsl) (nonce : Bytes) (fields : DigestFields) (stored : Bytes) : Bool :=
  fields.username ≠ [] && fields.nonce = nonce && fields.cnonce ≠ [] && fields.response ≠ [] &&
    iequals (digestOf ssl fields (digestHa1 ssl fields stored) (text "AUTHENTICATE"))
      fields.response

theorem answer_digest_iff (nonce : Bytes) (request : BindRequestData) :
    ((answerDigest config ssl nonce request).run exec store).1.result = .success ↔
      ∃ dn stored,
        DigestAccount config store (digestFields request.saslCredentials).username dn stored ∧
          digestChecks ssl nonce (digestFields request.saslCredentials) stored = true := by
  unfold answerDigest
  simp only
  generalize digestFields request.saslCredentials = fields
  by_cases incomplete :
      fields.username = [] ∨ fields.nonce ≠ nonce ∨ fields.cnonce = [] ∨ fields.response = []
  · rw [if_pos incomplete]
    refine iff_of_false (show ResultCode.invalidCredentials ≠ .success by decide) ?_
    rintro ⟨dn, stored, -, checked⟩
    simp only [digestChecks, Bool.and_eq_true, decide_eq_true_eq] at checked
    obtain ⟨⟨⟨⟨named, issued⟩, drawn⟩, answered⟩, -⟩ := checked
    rcases incomplete with empty | other | empty | empty
    · exact named empty
    · exact other issued
    · exact drawn empty
    · exact answered empty
  rw [if_neg incomplete]
  simp only [not_or, ne_eq, not_not] at incomplete
  obtain ⟨named, issued, drawn, answered⟩ := incomplete
  have checks (stored : Bytes) : digestChecks ssl nonce fields stored =
      iequals (digestOf ssl fields (digestHa1 ssl fields stored) (text "AUTHENTICATE"))
        fields.response := by
    simp [digestChecks, named, issued, drawn, answered]
  have unchanged := run_read_only (resolve_name_read_only config fields.username) store
  rw [Program.run_bind, unchanged]
  cases resolved : ((resolveName config fields.username).run exec store).1 with
  | none =>
      refine iff_of_false (show ResultCode.invalidCredentials ≠ .success by decide) ?_
      rintro ⟨dn, stored, account, -⟩
      rw [account.resolved] at resolved
      cases resolved
  | some dn =>
      have only {other stored : Bytes}
          (account : DigestAccount config store fields.username other stored) : other = dn := by
        have found := account.resolved
        rw [resolved] at found
        exact (Option.some.inj found).symm
      simp only
      rw [Program.run_bind, run_read_only (is_account_disabled_read_only config dn) store]
      cases disabled : ((isAccountDisabled config dn).run exec store).1 with
      | true =>
          refine iff_of_false (show ResultCode.invalidCredentials ≠ .success by decide) ?_
          rintro ⟨other, stored, account, -⟩
          have enabled := account.enabled
          rw [only account, disabled] at enabled
          cases enabled
      | false =>
          simp only [Bool.false_eq_true, if_false]
          rw [Program.run_bind, run_read_only (password_for_read_only config dn) store]
          cases handed : ((passwordFor config dn).run exec store).1 with
          | none =>
              refine iff_of_false (show ResultCode.invalidCredentials ≠ .success by decide) ?_
              rintro ⟨other, stored, account, -⟩
              have found := account.handed
              rw [only account, handed] at found
              cases found
          | some password =>
              have account : DigestAccount config store fields.username dn password :=
                ⟨named, resolved, disabled, handed⟩
              simp only [← checks]
              cases checked : digestChecks ssl nonce fields password with
              | true => exact iff_of_true rfl ⟨dn, password, account, checked⟩
              | false =>
                  refine iff_of_false (show ResultCode.invalidCredentials ≠ .success by decide) ?_
                  rintro ⟨other, stored, found, agreed⟩
                  have same := found.handed
                  rw [only found, handed] at same
                  cases same
                  rw [checked] at agreed
                  cases agreed

/-- A DIGEST-MD5 response, as the bind answers it. -/
theorem digest_response_iff {sasl : SaslAuthenticator} {nonce : Bytes} {request : BindRequestData}
    (isDigest : parseSaslMechanism request.saslMechanism = some .digestMd5)
    (supported : SaslMechanism.digestMd5 ∈ sasl) (issued : nonce ≠ [])
    (answered : request.saslCredentials ≠ []) (context : BindContext) :
    ((Sasl.bind config (some ssl) sasl context nonce request).run exec store).1.1.result =
        .success ↔
      ∃ dn stored,
        DigestAccount config store (digestFields request.saslCredentials).username dn stored ∧
          digestChecks ssl nonce (digestFields request.saslCredentials) stored = true := by
  rw [← answer_digest_iff]
  unfold Sasl.bind bindDigest
  simp only [isDigest, not_not.mpr supported, if_false, issued, answered, or_self,
    Program.run_bind, Program.run_pure]

end Check

section Exchange

variable {config : LdapConfig} {ssl : OpenSsl}

/-- A value that can stand between quotes as it is. -/
def Unescaped (value : Bytes) : Prop := chr '"' ∉ value ∧ chr '\\' ∉ value

/-- A field of the challenge, as both ends of the source read their fields. -/
def challengeField (challenge key fallback : Bytes) : Bytes :=
  unquote (pairValue (parsePairs toLowerAscii challenge) key fallback)

/-- A challenge that can be answered: what is read from it goes back as it stands, and the
nonce is the one that was issued. -/
structure Answerable (challenge nonce : Bytes) : Prop where
  realm : Unescaped (challengeField challenge (text "realm") [])
  nonce : challengeField challenge (text "nonce") [] = nonce
  qop : (challengeField challenge (text "qop") (text "auth")).head? ≠ some (chr '"') ∧
    chr ',' ∉ challengeField challenge (text "qop") (text "auth")

/-- Client and server agree on one exchange: the server reads the client's fields, and in every
directory it accepts the response exactly where its password is the client's. -/
structure AgreeOnWire (config : LdapConfig) (ssl : OpenSsl) (nonce credentials : Bytes)
    (sent : DigestFields) (password : Bytes) : Prop where
  fields : digestFields credentials = sent
  checks : ∀ stored,
    digestChecks ssl nonce (digestFields credentials) stored = true ↔ stored = password
  accepts : ∀ (store : MemoryStore) (sasl : SaslAuthenticator) (context : BindContext)
    (request : BindRequestData), parseSaslMechanism request.saslMechanism = some .digestMd5 →
      SaslMechanism.digestMd5 ∈ sasl → request.saslCredentials = credentials →
        (((Sasl.bind config (some ssl) sasl context nonce request).run exec store).1.1.result =
            .success ↔
          ∃ dn, DigestAccount config store sent.username dn password)

theorem to_hex_plain {data : Bytes} {byte : Byte} (plain : byte ∈ text "\",\\") :
    byte ∉ toHex data := by
  have apart : ∀ digit ∈ text "0123456789abcdef", digit ∉ text "\",\\" := by decide +kernel
  exact fun member => apart byte (mem_to_hex member) plain

theorem to_hex_ne_nil {data : Bytes} (nonempty : data ≠ []) : toHex data ≠ [] := by
  obtain ⟨byte, rest, rfl⟩ := List.exists_cons_of_ne_nil nonempty
  exact List.cons_ne_nil _ _

theorem client_response_sent {cnonce challenge username password digestUri credentials : Bytes}
    (sent : saslDigestClientResponse ssl cnonce challenge username password digestUri =
      .ok credentials) :
    username ≠ [] ∧ (clientFields ssl cnonce challenge username password digestUri).nonce ≠ [] ∧
      credentials = clientText (clientFields ssl cnonce challenge username password digestUri) := by
  unfold saslDigestClientResponse at sent
  simp only at sent
  split at sent
  · cases sent
  · rename_i filled
    rw [not_or] at filled
    exact ⟨filled.2, filled.1, (Except.ok.inj sent).symm⟩

theorem client_response_of_named {cnonce challenge username password digestUri : Bytes}
    (named : username ≠ []) (issued : challengeField challenge (text "nonce") [] ≠ []) :
    saslDigestClientResponse ssl cnonce challenge username password digestUri =
      .ok (clientText (clientFields ssl cnonce challenge username password digestUri)) := by
  unfold saslDigestClientResponse
  simp only
  rw [if_neg]
  rintro (empty | empty)
  · exact issued empty
  · exact named empty

/-- MD5 and the random source never give the empty string. -/
theorem client_fields_filled (hashed : ∀ data, ssl.md5 data ≠ []) {draw : Bytes}
    (drawn : draw ≠ []) {challenge username password digestUri credentials : Bytes}
    (sent : saslDigestClientResponse ssl (toHex draw) challenge username password digestUri =
      .ok credentials) :
    Filled (clientFields ssl (toHex draw) challenge username password digestUri) := by
  obtain ⟨named, issued, -⟩ := client_response_sent sent
  refine ⟨named, issued, to_hex_ne_nil drawn, ?_, rfl, to_hex_ne_nil (hashed _), ?_,
    to_hex_plain (by decide)⟩
  · change (if digestUri = [] then text "ldap/" else digestUri) ≠ []
    split
    · decide
    · assumption
  · intro first
    exact to_hex_plain (by decide) (List.mem_of_head? first)

theorem unescaped_hex (data : Bytes) : Unescaped (toHex data) :=
  ⟨to_hex_plain (by decide), to_hex_plain (by decide)⟩

theorem unescaped_uri_iff (digestUri : Bytes) :
    Unescaped (if digestUri = [] then text "ldap/" else digestUri) ↔ Unescaped digestUri := by
  by_cases empty : digestUri = []
  · rw [if_pos empty, empty]
    exact iff_of_true (by constructor <;> decide) ⟨List.not_mem_nil, List.not_mem_nil⟩
  · rw [if_neg empty]

/-- What a client that answers the issued nonce has to write as it stands. -/
theorem client_fields_verbatim_iff {draw challenge username password digestUri : Bytes} :
    (∀ pair ∈ fieldPairs
        (clientFields ssl (toHex draw) challenge username password digestUri), pair.Verbatim) ↔
      Unescaped username ∧ Unescaped digestUri ∧
        Unescaped (challengeField challenge (text "realm") []) ∧
        Unescaped (challengeField challenge (text "nonce") []) ∧
        (challengeField challenge (text "qop") (text "auth")).head? ≠ some (chr '"') ∧
          chr ',' ∉ challengeField challenge (text "qop") (text "auth") := by
  have response : (PrintedPair.plain (text "response") (clientFields ssl (toHex draw) challenge
      username password digestUri).response).Verbatim :=
    ⟨fun first => to_hex_plain (by decide) (List.mem_of_head? first), to_hex_plain (by decide)⟩
  have nc : (PrintedPair.plain (text "nc") (text "00000001")).Verbatim := by
    constructor <;> decide
  have charset : (PrintedPair.plain (text "charset") (text "utf-8")).Verbatim := by
    constructor <;> decide
  simp only [fieldPairs, laterPairs, List.forall_mem_cons]
  constructor
  · rintro ⟨named, realm, nonce, -, -, qop, uri, -⟩
    exact ⟨named, (unescaped_uri_iff digestUri).mp uri, realm, nonce, qop⟩
  · rintro ⟨named, uri, realm, nonce, qop⟩
    exact ⟨named, realm, nonce, unescaped_hex draw, nc, qop, (unescaped_uri_iff digestUri).mpr uri,
      response, charset, by simp⟩

theorem digest_checks_nonce {nonce stored : Bytes} {fields : DigestFields}
    (checked : digestChecks ssl nonce fields stored = true) : fields.nonce = nonce := by
  simp only [digestChecks, Bool.and_eq_true, decide_eq_true_eq] at checked
  exact checked.1.1.1.2

theorem client_fields_nonce (cnonce challenge username password digestUri : Bytes) :
    (clientFields ssl cnonce challenge username password digestUri).nonce =
      challengeField challenge (text "nonce") [] := rfl

theorem client_response_checked (collisionFree : Function.Injective ssl.md5)
    {cnonce challenge username password digestUri nonce : Bytes}
    (filled : Filled (clientFields ssl cnonce challenge username password digestUri))
    (answered : challengeField challenge (text "nonce") [] = nonce) (stored : Bytes) :
    digestChecks ssl nonce (clientFields ssl cnonce challenge username password digestUri) stored =
      true ↔ stored = password := by
  have issued : (clientFields ssl cnonce challenge username password digestUri).nonce = nonce := by
    rw [client_fields_nonce, answered]
  simp only [digestChecks, filled.username, issued, filled.cnonce, filled.response, ne_eq,
    not_false_eq_true, decide_true, Bool.true_and]
  constructor
  · exact digest_determines_password collisionFree
  · intro same
    rw [same, iequals_iff]
    rfl

/-- A realm without quotes and backslashes makes a challenge that can be answered. -/
theorem challenge_answerable {draw : Bytes} (realm : Unescaped (realmFromBase config.baseDn)) :
    Answerable (digestChallenge config (toHex draw)) (toHex draw) := by
  have first : text "realm=\"" = text "realm" ++ [chr '=', chr '"'] := by decide
  have nonce : text "\",nonce=\"" = chr '"' :: chr ',' :: (text "nonce" ++ [chr '=', chr '"']) := by
    decide
  have rest : text "\",qop=\"auth\",algorithm=md5-sess,charset=utf-8" =
      chr '"' :: continued [.quoted (text "qop") (text "auth"),
        .plain (text "algorithm") (text "md5-sess"), .plain (text "charset") (text "utf-8")] := by
    decide
  have shape : digestChallenge config (toHex draw) =
      (PrintedPair.quoted (text "realm") (realmFromBase config.baseDn)).bytes ++
        continued [.quoted (text "nonce") (toHex draw), .quoted (text "qop") (text "auth"),
          .plain (text "algorithm") (text "md5-sess"), .plain (text "charset") (text "utf-8")] := by
    rw [digestChallenge, first, nonce, rest]
    simp [continued, PrintedPair.bytes]
  have keyed : ∀ pair ∈ PrintedPair.quoted (text "realm") (realmFromBase config.baseDn) ::
      [.quoted (text "nonce") (toHex draw), .quoted (text "qop") (text "auth"),
        .plain (text "algorithm") (text "md5-sess"), .plain (text "charset") (text "utf-8")],
      pairKey pair.key = true ∧ pair.Verbatim := by
    simp only [List.forall_mem_cons]
    exact ⟨⟨show pairKey (text "realm") = true by decide, realm⟩,
      ⟨show pairKey (text "nonce") = true by decide, unescaped_hex draw⟩,
      ⟨by decide, by constructor <;> decide⟩, ⟨by decide, by constructor <;> decide⟩,
      ⟨by decide, by constructor <;> decide⟩, by simp⟩
  have pairs := parse_printed toLowerAscii keyed
  rw [← shape] at pairs
  have unquoted {value : Bytes} (plain : Unescaped value) : unquote value = value :=
    unquote_of_head fun head => plain.1 (List.mem_of_head? head)
  constructor
  · unfold challengeField
    rw [pairs]
    change Unescaped (unquote (realmFromBase config.baseDn))
    rwa [unquoted realm]
  · unfold challengeField
    rw [pairs]
    exact unquoted (unescaped_hex draw)
  · unfold challengeField
    rw [pairs]
    change (unquote (text "auth")).head? ≠ _ ∧ _ ∉ unquote (text "auth")
    constructor <;> decide

/-- Over the wire the two ends agree exactly where nothing they write needs an escape. -/
theorem digest_wire_agrees_iff (collisionFree : Function.Injective ssl.md5)
    (hashed : ∀ data, ssl.md5 data ≠ []) {serverDraw clientDraw : Bytes} (issued : serverDraw ≠ [])
    (drawn : clientDraw ≠ []) {username password digestUri credentials : Bytes}
    (sent : saslDigestClientResponse ssl (toHex clientDraw)
      (digestChallenge config (toHex serverDraw)) username password digestUri = .ok credentials) :
    AgreeOnWire config ssl (toHex serverDraw) credentials
        (clientFields ssl (toHex clientDraw) (digestChallenge config (toHex serverDraw)) username
          password digestUri) password ↔
      Unescaped username ∧ Unescaped digestUri ∧
        Answerable (digestChallenge config (toHex serverDraw)) (toHex serverDraw) := by
  have filled := client_fields_filled hashed drawn sent
  obtain ⟨-, -, rfl⟩ := client_response_sent sent
  constructor
  · rintro ⟨fields, checks, -⟩
    have verbatim := client_fields_verbatim_iff.mp ((fields_read_iff filled).mp fields)
    obtain ⟨named, uri, realm, -, qop⟩ := verbatim
    have accepted := digest_checks_nonce ((checks password).mpr rfl)
    rw [fields, client_fields_nonce] at accepted
    exact ⟨named, uri, realm, accepted, qop⟩
  · rintro ⟨named, uri, realm, nonce, qop⟩
    have plainNonce : Unescaped (challengeField (digestChallenge config (toHex serverDraw))
        (text "nonce") []) := by
      rw [nonce]
      exact unescaped_hex serverDraw
    have fields := (fields_read_iff filled).mpr
      (client_fields_verbatim_iff.mpr ⟨named, uri, realm, plainNonce, qop⟩)
    have checks := client_response_checked collisionFree filled nonce
    refine ⟨fields, by rwa [fields], ?_⟩
    intro store sasl context request isDigest supported given
    have answered : request.saslCredentials ≠ [] := by
      rw [given]
      exact List.cons_ne_nil _ _
    rw [digest_response_iff isDigest supported (to_hex_ne_nil issued) answered, given, fields]
    simp only [checks, exists_eq_right]

theorem recorded_digest_ne_nil {records : List (Bytes × Bytes)}
    (long : ∀ record ∈ records, record.2 ≠ []) (data : Bytes) :
    recordedDigest records data ≠ [] := by
  unfold recordedDigest
  split
  · rename_i digest found
    obtain ⟨before, after, split, -⟩ := List.lookup_eq_some_iff.mp found
    exact long (data, digest) (by simp [split])
  · simp

theorem alice_agrees_on_wire :
    AgreeOnWire {} labOpenssl labNonce
      (clientText (clientFields labOpenssl labCnonce (digestChallenge {} labNonce) (text "alice")
        (text "wonder") []))
      (clientFields labOpenssl labCnonce (digestChallenge {} labNonce) (text "alice")
        (text "wonder") []) (text "wonder") := by
  have sent : saslDigestClientResponse labOpenssl labCnonce (digestChallenge {} labNonce)
      (text "alice") (text "wonder") [] = .ok (clientText (clientFields labOpenssl labCnonce
        (digestChallenge {} labNonce) (text "alice") (text "wonder") [])) :=
    client_response_of_named (by decide) (by decide +kernel)
  have plain : Unescaped (realmFromBase (text "dc=example,dc=com")) := by
    constructor <;> decide +kernel
  have hashed : ∀ data, labOpenssl.md5 data ≠ [] :=
    recorded_digest_ne_nil (by decide +kernel)
  exact (digest_wire_agrees_iff lab_md5_injective hashed (by decide) (by decide) sent).mpr
    ⟨by constructor <;> decide, by constructor <;> decide, challenge_answerable plain⟩

/-- The digests of a client that answers as `a"b`. -/
def quotedDigests : List (Bytes × Bytes) :=
  [(text "a\"b:example.com:wonder",
      [50, 115, 160, 170, 157, 109, 76, 222, 235, 206, 44, 178, 83, 9, 128, 158]),
    ([50, 115, 160, 170, 157, 109, 76, 222, 235, 206, 44, 178, 83, 9, 128, 158] ++
        colon ++ labNonce ++ colon ++ labCnonce,
      [97, 30, 166, 224, 50, 115, 193, 169, 9, 149, 216, 223, 152, 203, 60, 119]),
    (text "611ea6e03273c1a90995d8df98cb3c77:" ++ labNonce ++ text ":00000001:" ++ labCnonce ++
        text ":auth:1fe01dc1953d626536a983c31b299bd5",
      [128, 9, 235, 210, 232, 160, 83, 47, 236, 96, 79, 137, 2, 18, 233, 143])]

def quotedOpenssl : OpenSsl :=
  { labOpenssl with md5 := recordedDigest (methodDigests ++ quotedDigests) }

def quotedRequest : BindRequestData where
  simple := false
  saslMechanism := text "DIGEST-MD5"
  saslCredentials := clientText (clientFields quotedOpenssl labCnonce
    (digestChallenge {} labNonce) (text "a\"b") (text "wonder") [])

def quotedStore : MemoryStore :=
  (add OrderedMap.empty
    { dn := text "uid=ab,dc=example,dc=com"
      attributes := (OrderedMap.empty.insert (text "uid") [text "a\"b"]).insert
        (text "userPassword") [text "{CLEARTEXT}wonder"] }).2

/-- With its right password, the account of `a"b` is refused: the server reads the name `a`. -/
theorem quoted_name_refused :
    saslDigestClientResponse quotedOpenssl labCnonce (digestChallenge {} labNonce) (text "a\"b")
        (text "wonder") [] = .ok quotedRequest.saslCredentials ∧
      (digestFields quotedRequest.saslCredentials).username = text "a" ∧
      DigestAccount {} quotedStore (text "a\"b") (text "uid=ab,dc=example,dc=com")
        (text "wonder") ∧
      ((Sasl.bind {} (some quotedOpenssl) [.digestMd5] {} labNonce quotedRequest).run exec
        quotedStore).1.1.result ≠ .success := by
  refine ⟨client_response_of_named (by decide) (by decide +kernel), by decide +kernel,
    ⟨?_, ?_, ?_, ?_⟩, ?_⟩
  · decide
  · decide +kernel
  · decide +kernel
  · decide +kernel
  · decide +kernel

end Exchange

end SimpleLdapd.Sasl
