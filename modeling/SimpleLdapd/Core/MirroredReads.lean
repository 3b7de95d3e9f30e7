import SimpleLdapd.Backend.Mirroring
import SimpleLdapd.Core.Session

/-!
# What a session reads, over both backends

Access decisions, name resolution and every bind mechanism read the directory and do
not write it. Fed with texts that have no NUL byte they run alike on the two backends,
and the DN they end with has none either.
-/

namespace SimpleLdapd

open SqliteBackend

namespace Text

theorem quoted_value_subset (source : Bytes) :
    (quotedValue source).1 ⊆ source ∧ (quotedValue source).2 ⊆ source := by
  induction source using quotedValue.induct with
  | case1 => simp [quotedValue]
  | case2 => simp [quotedValue]
  | case3 byte other => simp [quotedValue, other]
  | case4 next rest => simp [quotedValue]
  | case5 next rest value remaining split notQuote ih =>
      simp only [quotedValue, split, notQuote, if_true, if_false]
      grind
  | case6 byte next rest other plain value remaining split ih =>
      simp only [quotedValue, split, other, plain, if_false]
      grind

theorem parse_pairs_subset (normal : Bytes → Bytes) (fuel : Nat) (source : Bytes) :
    ∀ pair ∈ parsePairsWith normal fuel source, pair.2 ⊆ source := by
  induction fuel generalizing source with
  | zero => simp [parsePairsWith]
  | succ fuel ih =>
      have skipped : source.dropWhile (fun byte => byte = chr ',' || isSpace byte) ⊆ source :=
        (List.dropWhile_suffix _).subset
      intro pair member
      unfold parsePairsWith at member
      simp only at member
      split at member
      · cases member
      rename_i position located
      split at member
      · rw [List.mem_singleton.mp member]
        exact List.nil_subset source
      rename_i byte tail after
      have inside : byte :: tail ⊆ source := by
        rw [← after]
        exact List.Subset.trans (List.drop_subset _ _) skipped
      have within : tail ⊆ source := List.Subset.trans (List.subset_cons_self byte tail) inside
      split at member
      · rcases List.mem_cons.mp member with here | later
        · rw [here]
          exact List.Subset.trans (quoted_value_subset tail).1 within
        · have read := ih (quotedValue tail).2 pair later
          exact List.Subset.trans read (List.Subset.trans (quoted_value_subset tail).2 within)
      · rcases List.mem_cons.mp member with here | later
        · rw [here]
          exact List.Subset.trans (List.takeWhile_prefix _).subset inside
        · have read := ih _ pair later
          exact List.Subset.trans read
            (List.Subset.trans (List.dropWhile_suffix _).subset inside)

/-- An unquoted field of a list of pairs is made of bytes of the list. -/
theorem unquoted_field_subset (normal : Bytes → Bytes) (source key : Bytes) :
    unquote (pairValue (parsePairs normal source) key []) ⊆ source := by
  have unquoted (value : Bytes) : unquote value ⊆ value := by
    unfold unquote
    split
    · exact List.Subset.trans (List.take_subset _ _) (List.drop_subset _ _)
    · exact List.Subset.refl value
  apply List.Subset.trans (unquoted _)
  unfold pairValue
  cases found : (parsePairs normal source).reverse.find? (·.1 = key) with
  | none => exact List.nil_subset source
  | some pair =>
      have member := List.mem_reverse.mp (List.mem_of_find?_eq_some found)
      exact parse_pairs_subset normal _ source pair member

end Text

/-- No text that the configuration hands to the backend has a NUL byte. -/
structure CleanConfig (config : LdapConfig) : Prop where
  base : 0 ∉ config.baseDn
  root : 0 ∉ config.rootDn
  groups : ∀ rule ∈ config.acls, rule.who = .group → 0 ∉ rule.whoValue

variable {config : LdapConfig} {db : Database} {store : MemoryStore}

namespace AccessControl

theorem in_group_reads (mirrors : Mirrors db store) {bindDn groupDn : Bytes}
    (cleanUser : 0 ∉ bindDn) (cleanGroup : 0 ∉ groupDn) :
    ReadsAlike (inGroup bindDn groupDn) store db fun _ => True := by
  unfold inGroup
  split
  · exact reads_pure trivial
  · apply alike_after_reading (reads_lookup mirrors cleanGroup)
    intro group _
    split
    · exact reads_pure trivial
    · split
      · exact reads_pure trivial
      · apply alike_after_reading (reads_lookup mirrors cleanUser)
        intro user _
        split
        · exact reads_pure trivial
        · exact reads_pure trivial

theorem any_rule_reads (mirrors : Mirrors db store) {bindDn : Bytes} (cleanUser : 0 ∉ bindDn)
    (write : Bool) (entryDn : Bytes) (rules : List AclRule)
    (groups : ∀ rule ∈ rules, rule.who = .group → 0 ∉ rule.whoValue) :
    ReadsAlike (anyRule write bindDn entryDn rules) store db fun _ => True := by
  induction rules with
  | nil => exact reads_pure trivial
  | cons rule rest ih =>
      have asked : ReadsAlike (whoMatches rule bindDn) store db fun _ => True := by
        unfold whoMatches
        split
        · exact reads_pure trivial
        · exact reads_pure trivial
        · exact reads_pure trivial
        · exact reads_pure trivial
        · rename_i isGroup
          exact in_group_reads mirrors cleanUser (groups rule (by simp) isGroup)
      unfold anyRule
      apply alike_after_reading asked
      intro matched _
      split
      · exact reads_pure trivial
      · exact ih fun other member => groups other (by simp [member])

theorem may_search_reads (mirrors : Mirrors db store) (clean : CleanConfig config)
    {bindDn : Bytes} (cleanUser : 0 ∉ bindDn) (entryDn : Bytes) :
    ReadsAlike (maySearch config bindDn entryDn) store db fun _ => True := by
  unfold maySearch
  split
  · exact reads_pure trivial
  · split
    · exact reads_pure trivial
    · exact any_rule_reads mirrors cleanUser false entryDn config.acls clean.groups

theorem may_write_reads (mirrors : Mirrors db store) (clean : CleanConfig config)
    {bindDn : Bytes} (cleanUser : 0 ∉ bindDn) (entryDn : Bytes) :
    ReadsAlike (mayWrite config bindDn entryDn) store db fun _ => True := by
  unfold mayWrite
  split
  · exact reads_pure trivial
  · split
    · exact reads_pure trivial
    · exact any_rule_reads mirrors cleanUser true entryDn config.acls clean.groups

end AccessControl

namespace SimpleBindAuthenticator

/-- A name resolved to no DN with a NUL byte. -/
def CleanName (found : Option Bytes) : Prop := ∀ dn, found = some dn → 0 ∉ dn

theorem clean_none : CleanName none := by
  intro dn found
  cases found

theorem clean_some {dn : Bytes} (clean : 0 ∉ dn) : CleanName (some dn) := by
  intro other found
  cases found
  exact clean

theorem find_account_reads (mirrors : Mirrors db store) (clean : CleanConfig config)
    (name : Bytes) : ReadsAlike (findAccount config name) store db CleanName := by
  unfold findAccount
  split
  · exact reads_pure clean_none
  · apply alike_after_reading (reads_search mirrors clean.base _ _)
    intro found held
    split
    · rename_i entry
      exact reads_pure (clean_some (held entry (by simp)).2.dn)
    · exact reads_pure clean_none

theorem resolve_name_reads (mirrors : Mirrors db store) (clean : CleanConfig config)
    {name : Bytes} (cleanName : 0 ∉ name) :
    ReadsAlike (resolveName config name) store db CleanName := by
  unfold resolveName
  split
  · exact reads_pure clean_none
  · split
    · split
      · exact reads_pure (clean_some clean.root)
      · apply alike_after_reading (reads_lookup mirrors cleanName)
        intro found held
        split
        · rename_i entry
          exact reads_pure (clean_some (held entry rfl).2.dn)
        · split
          · exact reads_pure clean_none
          · exact find_account_reads mirrors clean _
    · split
      · split
        · exact reads_pure (clean_some clean.root)
        · exact find_account_reads mirrors clean _
      · exact find_account_reads mirrors clean _

theorem bind_reads (mirrors : Mirrors db store) (clean : CleanConfig config)
    (openssl : Option OpenSsl) {dn : Bytes} (cleanName : 0 ∉ dn) (password : Bytes) :
    ReadsAlike (bind config openssl dn password) store db fun _ => True := by
  unfold bind
  split
  · exact reads_pure trivial
  · apply alike_after_reading (resolve_name_reads mirrors clean cleanName)
    intro found cleanFound
    split
    · exact reads_pure trivial
    · rename_i resolved
      split
      · split
        · exact reads_pure trivial
        · exact reads_pure trivial
      · apply alike_after_reading (reads_lookup mirrors (cleanFound resolved rfl))
        intro stored _
        split
        · exact reads_pure trivial
        · split
          · exact reads_pure trivial
          · split
            · exact reads_pure trivial
            · split
              · exact reads_pure trivial
              · exact reads_pure trivial

theorem password_for_reads (mirrors : Mirrors db store) {dn : Bytes} (clean : 0 ∉ dn) :
    ReadsAlike (passwordFor config dn) store db fun _ => True := by
  unfold passwordFor
  split
  · exact reads_pure trivial
  · apply alike_after_reading (reads_lookup mirrors clean)
    intro found _
    split
    · exact reads_pure trivial
    · split
      · exact reads_pure trivial
      · exact reads_pure trivial
      · exact reads_pure trivial

theorem is_account_disabled_reads (mirrors : Mirrors db store) {dn : Bytes} (clean : 0 ∉ dn) :
    ReadsAlike (isAccountDisabled config dn) store db fun _ => True := by
  unfold isAccountDisabled
  split
  · exact reads_pure trivial
  · apply alike_after_reading (reads_lookup mirrors clean)
    intro found _
    split
    · exact reads_pure trivial
    · exact reads_pure trivial

end SimpleBindAuthenticator

namespace Sasl

open SimpleBindAuthenticator

/-- A bind that ends bound to no DN with a NUL byte. -/
def CleanOutcome (outcome : SaslBindResult) : Prop := 0 ∉ outcome.bindDn

theorem clean_fail (code : ResultCode) (diagnostic : Bytes) :
    CleanOutcome (fail code diagnostic) := by
  simp [CleanOutcome, fail]

theorem parse_plain_clean {credentials authzid authcid password : Bytes}
    (parsed : parsePlain credentials = some (authzid, authcid, password)) : 0 ∉ authcid := by
  unfold parsePlain at parsed
  split at parsed
  · cases parsed
  simp only at parsed
  split at parsed
  · cases parsed
  rename_i first _ second located
  split at parsed
  · cases parsed
  cases parsed
  obtain ⟨before, after, split, here, absent⟩ := Dn.find_byte_some located
  rw [split, ← here, List.take_left]
  exact absent

theorem bind_plain_reads (mirrors : Mirrors db store) (clean : CleanConfig config)
    (openssl : Option OpenSsl) (context : BindContext) (request : BindRequestData) :
    ReadsAlike (bindPlain config openssl context request) store db CleanOutcome := by
  unfold bindPlain
  split
  · exact reads_pure (clean_fail _ _)
  · split
    · exact reads_pure (clean_fail _ _)
    · rename_i authzid authcid password parsed
      apply alike_after_reading (resolve_name_reads mirrors clean (parse_plain_clean parsed))
      intro found cleanFound
      split
      · exact reads_pure (clean_fail _ _)
      · rename_i dn
        split
        · exact reads_pure (clean_fail _ _)
        · apply alike_after_reading (bind_reads mirrors clean openssl (cleanFound dn rfl) password)
          intro code _
          split
          · exact reads_pure (clean_fail _ _)
          · exact reads_pure (cleanFound dn rfl)

theorem answer_digest_reads (mirrors : Mirrors db store) (clean : CleanConfig config)
    (ssl : OpenSsl) (nonce : Bytes) {request : BindRequestData}
    (cleanCredentials : 0 ∉ request.saslCredentials) :
    ReadsAlike (answerDigest config ssl nonce request) store db CleanOutcome := by
  have cleanName : 0 ∉ (digestFields request.saslCredentials).username := by
    intro member
    exact cleanCredentials (Text.unquoted_field_subset _ _ _ member)
  unfold answerDigest
  simp only
  split
  · exact reads_pure (clean_fail _ _)
  · apply alike_after_reading (resolve_name_reads mirrors clean cleanName)
    intro found cleanFound
    split
    · exact reads_pure (clean_fail _ _)
    · rename_i dn
      apply alike_after_reading (is_account_disabled_reads mirrors (cleanFound dn rfl))
      intro disabled _
      split
      · exact reads_pure (clean_fail _ _)
      · apply alike_after_reading (password_for_reads mirrors (cleanFound dn rfl))
        intro stored _
        split
        · exact reads_pure (clean_fail _ _)
        · split
          · exact reads_pure (clean_fail _ _)
          · exact reads_pure (cleanFound dn rfl)

theorem bind_digest_reads (mirrors : Mirrors db store) (clean : CleanConfig config)
    (openssl : Option OpenSsl) (context : BindContext) (digestNonce : Bytes)
    {request : BindRequestData} (cleanCredentials : 0 ∉ request.saslCredentials) :
    ReadsAlike (bindDigest config openssl context digestNonce request) store db
      fun outcome => CleanOutcome outcome.1 := by
  unfold bindDigest
  split
  · exact reads_pure (clean_fail _ _)
  · split
    · split
      · exact reads_pure (clean_fail _ _)
      · simp only
        split
        · exact reads_pure (clean_fail _ _)
        · exact reads_pure (by simp [CleanOutcome])
    · apply alike_after_reading (answer_digest_reads mirrors clean _ _ cleanCredentials)
      intro outcome cleanOutcome
      exact reads_pure cleanOutcome

theorem bind_external_reads (mirrors : Mirrors db store) (clean : CleanConfig config)
    {context : BindContext} (cleanPeer : 0 ∉ context.peerIdentity) {request : BindRequestData}
    (cleanDn : 0 ∉ request.dn) (cleanCredentials : 0 ∉ request.saslCredentials) :
    ReadsAlike (bindExternal config context request) store db CleanOutcome := by
  unfold bindExternal
  split
  · exact reads_pure (clean_fail _ _)
  · split
    · exact reads_pure (clean_fail _ _)
    · apply alike_after_reading (resolve_name_reads mirrors clean cleanPeer)
      intro found cleanFound
      split
      · exact reads_pure (clean_fail _ _)
      · rename_i certDn
        have agreement (requested : Bytes) (cleanRequested : 0 ∉ requested) :
            ReadsAlike (identityAgrees config requested certDn) store db fun _ => True := by
          unfold identityAgrees
          split
          · exact reads_pure trivial
          · apply alike_after_reading (resolve_name_reads mirrors clean cleanRequested)
            intro requestedDn _
            split
            · exact reads_pure trivial
            · exact reads_pure trivial
        apply alike_after_reading (agreement _ (by split <;> assumption))
        intro agreed _
        split
        · exact reads_pure (clean_fail _ _)
        · apply alike_after_reading (is_account_disabled_reads mirrors (cleanFound certDn rfl))
          intro disabled _
          split
          · exact reads_pure (clean_fail _ _)
          · exact reads_pure (cleanFound certDn rfl)

theorem principal_clean {openssl : Option OpenSsl} {now : Int} {keytab : GssapiKeytab}
    {credentials principal : Bytes} (clean : 0 ∉ credentials)
    (verified : Gssapi.verifyGssapiTicket openssl now keytab credentials = .ok principal) :
    0 ∉ principal := by
  unfold Gssapi.verifyGssapiTicket at verified
  split at verified
  · cases verified
  split at verified
  · cases verified
  simp only at verified
  split at verified
  · cases verified
  split at verified
  · cases verified
  split at verified
  · split at verified
    · cases verified
    split at verified
    · cases verified
    cases verified
    intro member
    exact clean (Text.unquoted_field_subset _ _ _ member)
  · cases verified

theorem bind_gssapi_reads (mirrors : Mirrors db store) (clean : CleanConfig config)
    (openssl : Option OpenSsl) (context : BindContext) {request : BindRequestData}
    (cleanCredentials : 0 ∉ request.saslCredentials) :
    ReadsAlike (bindGssapi config openssl context request) store db CleanOutcome := by
  unfold bindGssapi
  split
  · exact reads_pure (clean_fail _ _)
  · split
    · exact reads_pure (clean_fail _ _)
    · simp only
      split
      · exact reads_pure (by simp [CleanOutcome])
      · split
        · exact reads_pure (clean_fail _ _)
        · rename_i principal verified
          have cleanPrincipal := principal_clean cleanCredentials verified
          apply alike_after_reading (resolve_name_reads mirrors clean cleanPrincipal)
          intro found cleanFound
          split
          · exact reads_pure (clean_fail _ _)
          · rename_i dn
            apply alike_after_reading (is_account_disabled_reads mirrors (cleanFound dn rfl))
            intro disabled _
            split
            · exact reads_pure (clean_fail _ _)
            · exact reads_pure (cleanFound dn rfl)

/-- The texts of a SASL bind that can reach the backend: the parts of a PLAIN message are
cut at its NUL bytes. -/
structure CleanBind (context : BindContext) (request : BindRequestData) : Prop where
  dn : 0 ∉ request.dn
  peer : 0 ∉ context.peerIdentity
  credentials : request.simple = false → parseSaslMechanism request.saslMechanism ≠ some .plain →
    0 ∉ request.saslCredentials

theorem sasl_bind_reads (mirrors : Mirrors db store) (clean : CleanConfig config)
    (openssl : Option OpenSsl) (sasl : SaslAuthenticator) {context : BindContext}
    (digestNonce : Bytes) {request : BindRequestData} (isSasl : request.simple = false)
    (cleanBind : CleanBind context request) :
    ReadsAlike (bind config openssl sasl context digestNonce request) store db
      fun outcome => CleanOutcome outcome.1 := by
  have credentials := cleanBind.credentials isSasl
  unfold bind
  simp only
  split
  · exact reads_pure (clean_fail _ _)
  · rename_i mechanism parsed
    rw [parsed] at credentials
    split
    · exact reads_pure (clean_fail _ _)
    · cases mechanism with
      | plain =>
          apply alike_after_reading (bind_plain_reads mirrors clean openssl context request)
          intro outcome cleanOutcome
          exact reads_pure cleanOutcome
      | digestMd5 =>
          exact bind_digest_reads mirrors clean openssl context digestNonce
            (credentials (by decide))
      | external =>
          apply alike_after_reading
            (bind_external_reads mirrors clean cleanBind.peer cleanBind.dn (credentials (by decide)))
          intro outcome cleanOutcome
          exact reads_pure cleanOutcome
      | gssapi =>
          apply alike_after_reading
            (bind_gssapi_reads mirrors clean openssl context (credentials (by decide)))
          intro outcome cleanOutcome
          exact reads_pure cleanOutcome
      | anonymous => exact reads_pure (clean_fail _ _)

end Sasl

end SimpleLdapd
