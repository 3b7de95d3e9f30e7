import SimpleLdapd.Auth.DigestClient
import SimpleLdapd.Auth.PasswordRoundTrip

/-!
# DIGEST-MD5 compared with the simple bind

Both mechanisms resolve the name and look at the same account, but they get the
secret in different ways: the simple bind verifies every stored value under its
scheme, the digest recomputes the response from the one password that
`passwordFor` hands out. For an entry this is the recoverable password of its
first value; for the root DN it is `root_password` as it is configured.
-/

namespace SimpleLdapd.Sasl

open Dn Text MemoryBackend Password SimpleBindAuthenticator

/-- The response as the client computes it from a name and a password, over the realm, the
nonces and the other fields that the server reads with it. -/
def ComputedFrom (ssl : OpenSsl) (fields : DigestFields) (username password : Bytes) : Prop :=
  fields.username = username ∧
    fields.response = digestOf ssl fields (digestHa1 ssl fields password) (text "AUTHENTICATE")

/-- What the digest needs besides the password: an enabled account under the name, whose
password is handed out. -/
structure DigestAccount (config : LdapConfig) (store : MemoryStore) (username dn password : Bytes) :
    Prop where
  named : username ≠ []
  resolved : ((resolveName config username).run exec store).1 = some dn
  enabled : ((isAccountDisabled config dn).run exec store).1 = false
  handed : ((passwordFor config dn).run exec store).1 = some password

section Digest

variable {ssl : OpenSsl}

/-- What the client sends is such a response, unless a field needs an escape. -/
theorem client_computed_from {cnonce challenge username password digestUri credentials : Bytes}
    (writable : Writable (clientFields ssl cnonce challenge username password digestUri))
    (sent : saslDigestClientResponse ssl cnonce challenge username password digestUri =
      .ok credentials) :
    ComputedFrom ssl (digestFields credentials) username password := by
  unfold saslDigestClientResponse at sent
  simp only at sent
  split at sent
  · cases sent
  · cases sent
    rw [digest_fields_read writable.verbatim]
    exact ⟨rfl, rfl⟩

theorem hex_pair_lower : ∀ byte : Byte,
    toLowerAscii [hexDigit (byte.val >>> 4), hexDigit (byte.val &&& 0x0f)] =
      [hexDigit (byte.val >>> 4), hexDigit (byte.val &&& 0x0f)] := by
  decide +kernel

theorem to_hex_lower (data : Bytes) : toLowerAscii (toHex data) = toHex data := by
  induction data with
  | nil => rfl
  | cons byte rest ih =>
      unfold toHex toLowerAscii at ih ⊢
      rw [List.flatMap_cons, List.map_append, ih]
      congr 1
      exact hex_pair_lower byte

theorem hex_digit_mem : ∀ nibble : Fin 16, hexDigit nibble.val ∈ text "0123456789abcdef" := by
  decide +kernel

theorem mem_to_hex {data : Bytes} {byte : Byte} (member : byte ∈ toHex data) :
    byte ∈ text "0123456789abcdef" := by
  simp only [toHex, List.mem_flatMap, List.mem_cons, List.not_mem_nil, or_false] at member
  obtain ⟨source, -, rfl | rfl⟩ := member
  · have small : source.val >>> 4 < 16 := by
      rw [Nat.shiftRight_eq_div_pow]
      omega
    exact hex_digit_mem ⟨_, small⟩
  · have small : source.val &&& 0x0f < 16 := Nat.lt_succ_of_le Nat.and_le_right
    exact hex_digit_mem ⟨_, small⟩

/-- The value of a pair of lower case digits. -/
def pairValueOf (high low : Byte) : Nat :=
  (text "0123456789abcdef").idxOf high * 16 + (text "0123456789abcdef").idxOf low

theorem pair_value_hex : ∀ byte : Byte,
    pairValueOf (hexDigit (byte.val >>> 4)) (hexDigit (byte.val &&& 0x0f)) = byte.val := by
  decide +kernel

theorem to_hex_injective : Function.Injective toHex := by
  intro left
  induction left with
  | nil =>
      intro right same
      cases right with
      | nil => rfl
      | cons other others => cases same
  | cons byte rest ih =>
      intro right same
      cases right with
      | nil => cases same
      | cons other others =>
          simp only [toHex, List.flatMap_cons, List.cons_append, List.nil_append,
            List.cons.injEq] at same
          obtain ⟨high, low, later⟩ := same
          have value := pair_value_hex byte
          rw [high, low, pair_value_hex] at value
          rw [Fin.val_injective value, ih later]

theorem md5_hex_injective (collisionFree : Function.Injective ssl.md5) :
    Function.Injective (md5Hex ssl) :=
  to_hex_injective.comp collisionFree

/-- Without collisions the response tells the password: the fields around it are the same. -/
theorem digest_determines_password (collisionFree : Function.Injective ssl.md5)
    {fields : DigestFields} {method left right : Bytes}
    (same : iequals (digestOf ssl fields (digestHa1 ssl fields left) method)
      (digestOf ssl fields (digestHa1 ssl fields right) method) = true) : left = right := by
  have hex := md5_hex_injective collisionFree
  rw [iequals_iff] at same
  unfold digestOf at same
  simp only [md5Hex, to_hex_lower] at same
  have sameHa1 : digestHa1 ssl fields left = digestHa1 ssl fields right := by
    have inputs := collisionFree (to_hex_injective same)
    simp only [List.append_assoc, List.append_cancel_right_eq] at inputs
    exact inputs
  have inputs := hex sameHa1
  simp only [List.append_assoc, List.append_cancel_right_eq] at inputs
  have secrets := collisionFree inputs
  simpa using secrets

end Digest

section Schemes

/-- A `{SSHA}` or `{SHA}` value whose payload is the hash of the whole value. -/
def HashOfItself (openssl : Option OpenSsl) (value : Bytes) : Prop :=
  ∃ scheme payload, schemePrefix value = some (scheme, payload) ∧
    (iequals scheme (text "SSHA") = true ∧ verifySsha openssl payload value = true ∨
      iequals scheme (text "SHA") = true ∧ verifySha openssl payload value = true)

theorem scheme_prefix_length {value scheme rest : Bytes}
    (split : schemePrefix value = some (scheme, rest)) :
    value.length = scheme.length + 2 + rest.length := by
  unfold schemePrefix at split
  split at split
  · cases split
  cases found : findByte (chr '}') value with
  | none => simp [found] at split
  | some close =>
      obtain ⟨before, after, whole, position, -⟩ := find_byte_some found
      simp only [found] at split
      split at split
      · cases split
      · cases split
        have length : value.length = close + (after.length + 1) := by
          rw [whole, List.length_append, position, List.length_cons]
        simp only [substr, List.length_take, List.length_drop, length]
        omega

/-- A `{CLEARTEXT}` value is longer than the password in it, by no multiple of 256. -/
theorem cleartext_not_itself {value scheme rest : Bytes}
    (split : schemePrefix value = some (scheme, rest))
    (named : iequals scheme (text "CLEARTEXT") = true) : passwordsEqual value rest = false := by
  have size : scheme.length = 9 := by
    rw [iequals_iff] at named
    rw [← to_lower_length scheme, named]
    decide
  have length := scheme_prefix_length split
  rw [Bool.eq_false_iff, ne_eq, passwords_equal_iff]
  rintro ⟨congruent, -⟩
  omega

theorem iequals_exclusive {scheme left right : Bytes} (named : iequals scheme left = true)
    (different : toLowerAscii left ≠ toLowerAscii right) : iequals scheme right = false := by
  rw [Bool.eq_false_iff, ne_eq, iequals_iff]
  rw [iequals_iff] at named
  rwa [named]

theorem verifies_itself_iff (openssl : Option OpenSsl) (value : Bytes) :
    verifyUserPassword openssl value value = true ↔
      schemePrefix value = none ∨ HashOfItself openssl value := by
  unfold verifyUserPassword HashOfItself
  cases split : schemePrefix value with
  | none => simp [passwords_equal_self]
  | some parts =>
      obtain ⟨scheme, rest⟩ := parts
      simp only [reduceCtorEq, false_or, Option.some.injEq, Prod.mk.injEq, and_assoc,
        exists_and_left, exists_eq_left']
      by_cases clear : iequals scheme (text "CLEARTEXT") = true
      · have notSsha := iequals_exclusive clear (show _ ≠ toLowerAscii (text "SSHA") by decide)
        have notSha := iequals_exclusive clear (show _ ≠ toLowerAscii (text "SHA") by decide)
        simp [clear, cleartext_not_itself split clear, notSsha, notSha]
      by_cases salted : iequals scheme (text "SSHA") = true
      · have notSha := iequals_exclusive salted (show _ ≠ toLowerAscii (text "SHA") by decide)
        simp [clear, salted, notSha]
      by_cases plain : iequals scheme (text "SHA") = true
      · simp [clear, salted, plain]
      · simp [clear, salted, plain]

end Schemes

section Account

variable {config : LdapConfig} {store : MemoryStore}

theorem recoverable_cleartext {stored password : Bytes}
    (recovered : recoverablePassword stored = some password) : Cleartext stored password := by
  unfold recoverablePassword at recovered
  split at recovered
  · rename_i plain
    exact Or.inl ⟨plain, Option.some.inj recovered⟩
  · rename_i scheme rest split
    split at recovered
    · rename_i named
      cases recovered
      exact Or.inr ⟨scheme, split, named⟩
    · cases recovered

theorem password_for_root {dn password : Bytes} (root : isRootDn config dn = true)
    (handed : ((passwordFor config dn).run exec store).1 = some password) :
    config.rootPassword = password ∧ config.rootPassword ≠ [] := by
  unfold passwordFor at handed
  rw [if_pos root, Program.run_pure] at handed
  split at handed
  · cases handed
  · rename_i set
    exact ⟨Option.some.inj handed, set⟩

/-- For an entry the password that is handed out is a stored value, in the clear. -/
theorem password_for_entry {dn password : Bytes} (notRoot : isRootDn config dn = false)
    (handed : ((passwordFor config dn).run exec store).1 = some password) :
    ∃ entry values, lookup store dn = some entry ∧
      entry.findAttribute (text "userPassword") = some values ∧
        ∃ value ∈ values, Cleartext value password := by
  unfold passwordFor at handed
  simp only [notRoot, Bool.false_eq_true, if_false, Program.run_bind, Backend.lookup,
    Program.run_perform, exec] at handed
  split at handed
  · cases handed
  rename_i entry located
  split at handed
  · cases handed
  · cases handed
  · rename_i value rest stored
    exact ⟨entry, value :: rest, located, stored, value, by simp, recoverable_cleartext handed⟩

theorem enabled_entry {dn : Bytes} (notRoot : isRootDn config dn = false)
    (enabled : ((isAccountDisabled config dn).run exec store).1 = false) {entry : DirectoryEntry}
    (located : lookup store dn = some entry) : accountDisabled entry = false := by
  unfold isAccountDisabled at enabled
  simpa [notRoot, Program.run_bind, Backend.lookup, exec, located] using enabled

/-- The simple bind with the handed out password, read at the account. -/
theorem DigestAccount.bind_iff {username dn password : Bytes}
    (account : DigestAccount config store username dn password) (openssl : Option OpenSsl) :
    ((SimpleBindAuthenticator.bind config openssl username password).run exec store).1 =
        .success ↔
      (isRootDn config dn = true →
        verifyUserPassword openssl config.rootPassword config.rootPassword = true) := by
  rw [bind_resolved_iff openssl account.named account.resolved]
  cases root : isRootDn config dn with
  | true =>
      obtain ⟨same, set⟩ := password_for_root root account.handed
      simp [Authenticated, root, ← same, set]
  | false =>
      obtain ⟨entry, values, located, stored, value, inside, clear⟩ :=
        password_for_entry root account.handed
      have verified : verifyUserPassword openssl value password = true := by
        rw [verify_cleartext clear]
        exact passwords_equal_self password
      have authenticated : Authenticated config openssl store dn password :=
        Or.inr ⟨root, entry, located, enabled_entry root account.enabled located, values, stored,
          value, inside, verified⟩
      simp [authenticated]

end Account

section Exchange

variable {config : LdapConfig} {store : MemoryStore} {ssl : OpenSsl}

/-- The server's own response for the account `dn` agrees with the one it was sent. -/
def DigestAccepted (config : LdapConfig) (ssl : OpenSsl) (store : MemoryStore)
    (fields : DigestFields) (dn : Bytes) : Prop :=
  ∃ password, DigestAccount config store fields.username dn password ∧
    iequals (digestOf ssl fields (digestHa1 ssl fields password) (text "AUTHENTICATE"))
      fields.response = true

theorem answer_digest_accepted (nonce : Bytes) (request : BindRequestData) :
    Program.Ensures exec (answerDigest config ssl nonce request) store fun outcome _ =>
      outcome.result = .success →
        DigestAccepted config ssl store (digestFields request.saslCredentials) outcome.bindDn := by
  have refused {outcome : SaslBindResult} (failed : outcome.result ≠ .success) :
      Program.Ensures exec (pure outcome : BackendProgram SaslBindResult) store fun outcome _ =>
        outcome.result = .success →
          DigestAccepted config ssl store (digestFields request.saslCredentials)
            outcome.bindDn :=
    Program.ensures_pure fun success => absurd success failed
  unfold answerDigest
  simp only
  split
  · exact refused (show ResultCode.invalidCredentials ≠ .success by decide)
  rename_i complete
  apply ensures_read (resolve_name_read_only config _)
  intro answer resolved
  split
  · exact refused (show ResultCode.invalidCredentials ≠ .success by decide)
  rename_i dn
  apply ensures_read (is_account_disabled_read_only config dn)
  intro disabled decided
  split
  · exact refused (show ResultCode.invalidCredentials ≠ .success by decide)
  rename_i enabled
  apply ensures_read (password_for_read_only config dn)
  intro stored handed
  split
  · exact refused (show ResultCode.invalidCredentials ≠ .success by decide)
  rename_i password
  split
  · exact refused (show ResultCode.invalidCredentials ≠ .success by decide)
  rename_i agrees
  apply Program.ensures_pure
  intro _
  refine ⟨password, ⟨?_, resolved, ?_, handed⟩, by simpa using agrees⟩
  · intro empty
    exact complete (Or.inl empty)
  · change ((isAccountDisabled config dn).run exec store).1 = false
    rw [decided]
    simpa using enabled

/-- A success of either step of the exchange is one of the second step. -/
theorem bind_digest_accepted (openssl : Option OpenSsl) (context : BindContext)
    (digestNonce : Bytes) (request : BindRequestData) :
    Program.Ensures exec (bindDigest config openssl context digestNonce request) store
      fun outcome _ => outcome.1.result = .success → ∃ ssl, openssl = some ssl ∧
        DigestAccepted config ssl store (digestFields request.saslCredentials)
          outcome.1.bindDn := by
  have refused {outcome : SaslBindResult × Bytes} (failed : outcome.1.result ≠ .success) :
      Program.Ensures exec (pure outcome : BackendProgram (SaslBindResult × Bytes)) store
        fun outcome _ => outcome.1.result = .success → ∃ ssl, openssl = some ssl ∧
          DigestAccepted config ssl store (digestFields request.saslCredentials)
            outcome.1.bindDn :=
    Program.ensures_pure fun success => absurd success failed
  unfold bindDigest
  split
  · exact refused (show ResultCode.authMethodNotSupported ≠ .success by decide)
  rename_i ssl
  split
  · split
    · exact refused (show ResultCode.operationsError ≠ .success by decide)
    simp only
    split
    · exact refused (show ResultCode.operationsError ≠ .success by decide)
    · exact refused (show ResultCode.saslBindInProgress ≠ .success by decide)
  · apply Program.ensures_bind
    apply (answer_digest_accepted digestNonce request).mono
    intro outcome after accepted
    exact Program.ensures_pure fun success => ⟨ssl, rfl, accepted success⟩

theorem sasl_digest_accepted {sasl : SaslAuthenticator} {context : BindContext}
    {digestNonce : Bytes} {request : BindRequestData}
    (isDigest : parseSaslMechanism request.saslMechanism = some .digestMd5)
    (accepted : ((Sasl.bind config (some ssl) sasl context digestNonce request).run exec
      store).1.1.result = .success) :
    ∃ dn, DigestAccepted config ssl store (digestFields request.saslCredentials) dn := by
  unfold Sasl.bind at accepted
  simp only [isDigest] at accepted
  split at accepted
  · cases accepted
  · obtain ⟨own, same, found⟩ := bind_digest_accepted _ _ _ _ accepted
    cases same
    exact ⟨_, found⟩

/-- An accepted response that was computed from a name and a password: the simple bind
accepts the two as well, exactly if the name is not the root DN's or `root_password` has
no scheme in front (or hashes itself). -/
theorem digest_no_weaker_iff (collisionFree : Function.Injective ssl.md5)
    {sasl : SaslAuthenticator} {context : BindContext} {digestNonce : Bytes}
    {request : BindRequestData} {username password : Bytes}
    (isDigest : parseSaslMechanism request.saslMechanism = some .digestMd5)
    (computed : ComputedFrom ssl (digestFields request.saslCredentials) username password)
    (accepted : ((Sasl.bind config (some ssl) sasl context digestNonce request).run exec
      store).1.1.result = .success) :
    ((SimpleBindAuthenticator.bind config (some ssl) username password).run exec store).1 =
        .success ↔
      ∀ dn, ((resolveName config username).run exec store).1 = some dn →
        isRootDn config dn = true →
          schemePrefix config.rootPassword = none ∨
            HashOfItself (some ssl) config.rootPassword := by
  obtain ⟨dn, handed, account, agrees⟩ := sasl_digest_accepted isDigest accepted
  obtain ⟨named, response⟩ := computed
  rw [response] at agrees
  have same := digest_determines_password collisionFree agrees
  rw [named, same] at account
  rw [account.bind_iff, verifies_itself_iff]
  constructor
  · intro verifies other resolved root
    rw [account.resolved] at resolved
    cases resolved
    exact verifies root
  · intro verifies
    exact verifies dn account.resolved

/-- A digest that is known on some inputs; the others are only told apart. -/
def recordedDigest (records : List (Bytes × Bytes)) (data : Bytes) : Bytes :=
  match records.lookup data with
  | some digest => digest
  | none => data ++ List.replicate 17 0

theorem recorded_digest_injective {records : List (Bytes × Bytes)}
    (distinct : (records.map Prod.snd).Nodup) (short : ∀ record ∈ records, record.2.length = 16) :
    Function.Injective (recordedDigest records) := by
  have known {data digest : Bytes} (found : records.lookup data = some digest) :
      (data, digest) ∈ records := by
    obtain ⟨before, after, split, -⟩ := List.lookup_eq_some_iff.mp found
    rw [split]
    simp
  have long (data : Bytes) : (data ++ List.replicate 17 (0 : Byte)).length ≠ 16 := by
    rw [List.length_append, List.length_replicate]
    omega
  intro left right same
  unfold recordedDigest at same
  cases first : records.lookup left with
  | none =>
      cases second : records.lookup right with
      | none =>
          simp only [first, second] at same
          exact List.append_cancel_right same
      | some digest =>
          simp only [first, second] at same
          exact absurd (same ▸ short _ (known second)) (long left)
  | some digest =>
      cases second : records.lookup right with
      | none =>
          simp only [first, second] at same
          exact absurd (same ▸ short _ (known first)) (long right)
      | some other =>
          simp only [first, second] at same
          rw [← same] at second
          exact congrArg Prod.fst
            (List.inj_on_of_nodup_map distinct (known first) (known second) rfl)

def labNonce : Bytes := toHex [0, 1, 2, 3, 4, 5, 6, 7, 8, 9, 10, 11, 12, 13, 14, 15]

def labCnonce : Bytes := toHex [16, 17, 18, 19, 20, 21, 22, 23, 24, 25, 26, 27, 28, 29, 30, 31]

/-- The hash of `secret` with a salt of eight bytes. -/
def leakedHash : Bytes := text "{SSHA}lHFzXul4wnzRItssVcTnvXWRjNgBAgMEBQYHCA=="

/-- The digests of the method with the URI, in both directions. -/
def methodDigests : List (Bytes × Bytes) :=
  [(text "AUTHENTICATE:ldap/",
      [31, 224, 29, 193, 149, 61, 98, 101, 54, 169, 131, 195, 27, 41, 155, 213]),
    (text ":ldap/",
      [212, 217, 93, 221, 57, 241, 41, 70, 42, 161, 114, 86, 64, 174, 218, 3])]

/-- The digests of an exchange as `alice`. -/
def aliceDigests : List (Bytes × Bytes) :=
  [(text "alice:example.com:" ++ text "wonder",
      [46, 166, 138, 113, 11, 150, 162, 209, 28, 180, 44, 43, 55, 88, 40, 122]),
    ([46, 166, 138, 113, 11, 150, 162, 209, 28, 180, 44, 43, 55, 88, 40, 122] ++
        colon ++ labNonce ++ colon ++ labCnonce,
      [18, 49, 157, 142, 151, 73, 16, 187, 108, 156, 54, 48, 12, 110, 60, 64]),
    (text "12319d8e974910bb6c9c36300c6e3c40:" ++ labNonce ++ text ":00000001:" ++ labCnonce ++
        text ":auth:1fe01dc1953d626536a983c31b299bd5",
      [229, 232, 55, 166, 105, 77, 38, 162, 55, 162, 152, 178, 164, 167, 87, 217]),
    (text "12319d8e974910bb6c9c36300c6e3c40:" ++ labNonce ++ text ":00000001:" ++ labCnonce ++
        text ":auth:d4d95ddd39f129462aa1725640aeda03",
      [78, 11, 137, 123, 0, 177, 86, 188, 209, 239, 55, 181, 244, 251, 85, 174])]

/-- The digests of an exchange as `admin`. -/
def adminDigests : List (Bytes × Bytes) :=
  [(text "admin:example.com:" ++ leakedHash,
      [118, 211, 203, 201, 159, 186, 118, 59, 162, 8, 206, 37, 169, 198, 76, 216]),
    ([118, 211, 203, 201, 159, 186, 118, 59, 162, 8, 206, 37, 169, 198, 76, 216] ++
        colon ++ labNonce ++ colon ++ labCnonce,
      [161, 1, 152, 56, 116, 73, 0, 160, 167, 238, 170, 72, 110, 24, 250, 6]),
    (text "a1019838744900a0a7eeaa486e18fa06:" ++ labNonce ++ text ":00000001:" ++ labCnonce ++
        text ":auth:1fe01dc1953d626536a983c31b299bd5",
      [176, 205, 254, 213, 197, 92, 137, 134, 19, 202, 87, 141, 14, 237, 209, 181]),
    (text "a1019838744900a0a7eeaa486e18fa06:" ++ labNonce ++ text ":00000001:" ++ labCnonce ++
        text ":auth:d4d95ddd39f129462aa1725640aeda03",
      [106, 120, 38, 89, 127, 44, 108, 154, 128, 60, 182, 135, 96, 39, 90, 109])]

/-- MD5 and SHA-1 as they are on everything that is hashed below. -/
def labOpenssl : OpenSsl where
  sha1 data := some (if data = text "secret" ++ [1, 2, 3, 4, 5, 6, 7, 8] then
      [148, 113, 115, 94, 233, 120, 194, 124, 209, 34, 219, 44, 85, 196, 231, 189, 117, 145, 140, 216]
    else
      [142, 72, 12, 251, 49, 219, 199, 30, 108, 189, 241, 249, 207, 212, 122, 183, 39, 138, 185, 181])
  md5 := recordedDigest (methodDigests ++ aliceDigests ++ adminDigests)
  hmacSha256 _ data := data

theorem lab_md5_injective : Function.Injective labOpenssl.md5 :=
  recorded_digest_injective (by decide +kernel) (by decide +kernel)

/-- The answer of the client to the challenge of the server. -/
def labRequest (username password : Bytes) : BindRequestData where
  simple := false
  saslMechanism := text "DIGEST-MD5"
  saslCredentials := (saslDigestClientResponse labOpenssl labCnonce (digestChallenge {} labNonce)
    username password []).toOption.getD []

def labStore : MemoryStore :=
  (add OrderedMap.empty
    { dn := text "uid=alice,dc=example,dc=com"
      attributes := (OrderedMap.empty.insert (text "uid") [text "alice"]).insert
        (text "userPassword") [text "{CLEARTEXT}wonder"] }).2

theorem alice_accepted_by_both :
    ((Sasl.bind {} (some labOpenssl) [.digestMd5] {} labNonce
        (labRequest (text "alice") (text "wonder"))).run exec labStore).1.1.result = .success ∧
      ((SimpleBindAuthenticator.bind {} (some labOpenssl) (text "alice") (text "wonder")).run exec
        labStore).1 = .success := by
  have accepted : ((Sasl.bind {} (some labOpenssl) [.digestMd5] {} labNonce
      (labRequest (text "alice") (text "wonder"))).run exec labStore).1.1.result = .success := by
    decide +kernel
  have resolved : ((resolveName {} (text "alice")).run exec labStore).1 =
      some (text "uid=alice,dc=example,dc=com") := by
    decide +kernel
  refine ⟨accepted, (digest_no_weaker_iff lab_md5_injective (by decide +kernel)
    ⟨by decide +kernel, by decide +kernel⟩ accepted).mpr ?_⟩
  intro dn found root
  rw [resolved] at found
  cases found
  exact absurd root (by decide +kernel)

/-- With a hash for `root_password`, the hash itself opens the root account. -/
theorem leaked_hash_accepted_by_digest :
    Function.Injective labOpenssl.md5 ∧
      ComputedFrom labOpenssl
        (digestFields (labRequest (text "admin") leakedHash).saslCredentials) (text "admin")
        leakedHash ∧
      ((Sasl.bind { rootPassword := leakedHash } (some labOpenssl) [.digestMd5] {} labNonce
        (labRequest (text "admin") leakedHash)).run exec OrderedMap.empty).1.1.result = .success ∧
      ((SimpleBindAuthenticator.bind { rootPassword := leakedHash } (some labOpenssl)
        (text "admin") leakedHash).run exec OrderedMap.empty).1 ≠ .success := by
  refine ⟨lab_md5_injective, ⟨?_, ?_⟩, ?_, ?_⟩
  · decide +kernel
  · decide +kernel
  · decide +kernel
  · decide +kernel

end Exchange

end SimpleLdapd.Sasl
