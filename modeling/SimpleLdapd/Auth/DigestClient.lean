import SimpleLdapd.Auth.Sasl

/-!
# The client's half of DIGEST-MD5 (`saslDigestClientResponse` in `auth/sasl.cpp`)

The client writes its fields as text and the server parses them back. Nothing is
escaped on the way, so the two agree on fields without quotes and backslashes.
-/

namespace SimpleLdapd.Text

open Dn

inductive PrintedPair where
  | quoted (key value : Bytes)
  | plain (key value : Bytes)

namespace PrintedPair

def bytes : PrintedPair → Bytes
  | quoted key value => key ++ chr '=' :: chr '"' :: (value ++ [chr '"'])
  | plain key value => key ++ chr '=' :: value

def parsed (normal : Bytes → Bytes) : PrintedPair → Bytes × Bytes
  | quoted key value | plain key value => (normal key, value)

def key : PrintedPair → Bytes
  | quoted key _ | plain key _ => key

def value : PrintedPair → Bytes
  | quoted _ value | plain _ value => value

/-- A value that is read back without an escape. -/
def Readable : PrintedPair → Prop
  | quoted _ value => chr '"' ∉ value ∧ chr '\\' ∉ value
  | plain _ value => chr '"' ∉ value ∧ chr ',' ∉ value

/-- The exact form of it: a plain value may have quotes, but not as its first byte. -/
def Verbatim : PrintedPair → Prop
  | quoted _ value => chr '"' ∉ value ∧ chr '\\' ∉ value
  | plain _ value => value.head? ≠ some (chr '"') ∧ chr ',' ∉ value

theorem Readable.verbatim {pair : PrintedPair} (readable : pair.Readable) : pair.Verbatim := by
  cases pair with
  | quoted key value => exact readable
  | plain key value => exact ⟨fun first => readable.1 (List.mem_of_head? first), readable.2⟩

end PrintedPair

/-- A key that a pair can start with. -/
def pairKey (key : Bytes) : Bool :=
  key.head?.any (fun first => first ≠ chr ',' && !isSpace first) && !key.contains (chr '=')

/-- Pairs behind another one, each with a comma in front. -/
def continued (pairs : List PrintedPair) : Bytes :=
  pairs.flatMap fun pair => chr ',' :: pair.bytes

section Pairs

variable (normal : Bytes → Bytes) {key value : Bytes}

theorem quoted_value_plain (unquoted : chr '"' ∉ value) (unescaped : chr '\\' ∉ value)
    (rest : Bytes) : quotedValue (value ++ chr '"' :: rest) = (value, rest) := by
  induction value with
  | nil =>
      cases rest with
      | nil => rfl
      | cons next rest => rfl
  | cons byte tail ih =>
      have later := ih (fun member => unquoted (by simp [member]))
        (fun member => unescaped (by simp [member]))
      have noQuote : byte ≠ chr '"' := fun same => unquoted (by simp [same])
      have noEscape : byte ≠ chr '\\' := fun same => unescaped (by simp [same])
      obtain ⟨next, more, shape⟩ : ∃ next more, tail ++ chr '"' :: rest = next :: more :=
        List.exists_cons_of_ne_nil (by simp)
      rw [List.cons_append, shape, quotedValue, if_neg noQuote, if_neg noEscape, ← shape, later]

theorem drop_key (rest : Bytes) : (key ++ chr '=' :: rest).drop (key.length + 1) = rest := by
  rw [List.append_cons, List.drop_left' (by simp)]

theorem skip_separator {between : Bytes} (separates : ∀ byte ∈ between, byte = chr ',')
    (keyed : pairKey key = true) (rest : Bytes) :
    (between ++ (key ++ rest)).dropWhile (fun byte => byte = chr ',' || isSpace byte) =
      key ++ rest := by
  have skipped : ∀ byte ∈ between, (byte = chr ',' || isSpace byte) = true := by
    intro byte member
    simp [separates byte member]
  rw [List.dropWhile_append_of_pos skipped]
  cases key with
  | nil => cases keyed
  | cons first tail =>
      simp only [pairKey, List.head?_cons, Option.any_some, Bool.and_eq_true] at keyed
      rw [List.cons_append, List.dropWhile_cons_of_neg (by simpa using keyed.1)]

theorem find_key_end (keyed : pairKey key = true) (rest : Bytes) :
    findByte (chr '=') (key ++ chr '=' :: rest) = some key.length := by
  apply find_byte_append
  simp only [pairKey, Bool.and_eq_true, Bool.not_eq_true'] at keyed
  simpa using keyed.2

theorem parse_nothing (fuel : Nat) : parsePairsWith normal fuel [] = [] := by
  cases fuel with
  | zero => rfl
  | succ fuel => rfl

theorem plain_value_ends {rest : Bytes} (unsplit : chr ',' ∉ value)
    (ended : rest = [] ∨ rest.head? = some (chr ',')) :
    (value ++ rest).takeWhile (· ≠ chr ',') = value ∧
      (value ++ rest).dropWhile (· ≠ chr ',') = rest := by
  have kept : ∀ byte ∈ value, decide (byte ≠ chr ',') = true := by
    intro byte member
    exact decide_eq_true fun same => unsplit (same ▸ member)
  rw [List.takeWhile_append_of_pos kept, List.dropWhile_append_of_pos kept]
  rcases ended with none | comma
  · rw [none]
    simp
  · obtain ⟨more, same⟩ := List.head?_eq_some_iff.mp comma
    rw [same]
    simp

section Place

variable {between rest : Bytes} (separates : ∀ byte ∈ between, byte = chr ',')
  (keyed : pairKey key = true) (fuel : Nat)

include separates keyed

/-- What stands behind the key of a pair, read as a quoted value. -/
theorem parse_quoted :
    parsePairsWith normal (fuel + 1) (between ++ (key ++ chr '=' :: chr '"' :: rest)) =
      (normal key, (quotedValue rest).1) :: parsePairsWith normal fuel (quotedValue rest).2 := by
  rw [parsePairsWith]
  simp only [skip_separator separates keyed, find_key_end keyed, List.take_left', drop_key, if_true]

theorem parse_unquoted (unquoted : rest.head? ≠ some (chr '"')) :
    parsePairsWith normal (fuel + 1) (between ++ (key ++ chr '=' :: rest)) =
      (normal key, rest.takeWhile (· ≠ chr ',')) ::
        parsePairsWith normal fuel (rest.dropWhile (· ≠ chr ',')) := by
  rw [parsePairsWith]
  simp only [skip_separator separates keyed, find_key_end keyed, List.take_left', drop_key]
  cases rest with
  | nil => rw [List.takeWhile_nil, List.dropWhile_nil, parse_nothing]
  | cons first more =>
      have noQuote : first ≠ chr '"' := fun same => unquoted (by rw [same, List.head?_cons])
      simp only [if_neg noQuote]

end Place

/-- A value is read up to its closing quote, or up to the comma of the next pair. -/
theorem parse_pair {between rest : Bytes} (separates : ∀ byte ∈ between, byte = chr ',')
    {pair : PrintedPair} (keyed : pairKey pair.key = true) (verbatim : pair.Verbatim)
    (ended : rest = [] ∨ rest.head? = some (chr ',')) (fuel : Nat) :
    parsePairsWith normal (fuel + 1) (between ++ (pair.bytes ++ rest)) =
      pair.parsed normal :: parsePairsWith normal fuel rest := by
  cases pair with
  | quoted key value =>
      have named : pairKey key = true := keyed
      have shape : (PrintedPair.quoted key value).bytes ++ rest =
          key ++ chr '=' :: chr '"' :: (value ++ chr '"' :: rest) := by
        simp [PrintedPair.bytes]
      rw [shape, parse_quoted normal separates named,
        quoted_value_plain verbatim.1 verbatim.2]
      rfl
  | plain key value =>
      have named : pairKey key = true := keyed
      have shape : (PrintedPair.plain key value).bytes ++ rest =
          key ++ chr '=' :: (value ++ rest) := by
        simp [PrintedPair.bytes]
      have unquoted : (value ++ rest).head? ≠ some (chr '"') := by
        cases value with
        | nil =>
            rcases ended with none | comma
            · simp [none]
            · rw [List.nil_append, comma]
              decide
        | cons first more => exact verbatim.1
      obtain ⟨taken, left⟩ := plain_value_ends verbatim.2 ended
      rw [shape, parse_unquoted normal separates named fuel unquoted, taken, left]
      rfl

theorem continued_head (pairs : List PrintedPair) :
    continued pairs = [] ∨ (continued pairs).head? = some (chr ',') := by
  cases pairs with
  | nil => exact Or.inl rfl
  | cons pair rest => exact Or.inr rfl

/-- Pairs printed one after another are parsed one after another, whatever comes next. -/
theorem parse_continued {pairs : List PrintedPair}
    (verbatim : ∀ pair ∈ pairs, pairKey pair.key = true ∧ pair.Verbatim) {rest : Bytes}
    (ended : rest = [] ∨ rest.head? = some (chr ',')) (fuel : Nat) :
    parsePairsWith normal (pairs.length + fuel) (continued pairs ++ rest) =
      pairs.map (·.parsed normal) ++ parsePairsWith normal fuel rest := by
  induction pairs with
  | nil => rw [List.length_nil, Nat.zero_add]; rfl
  | cons pair others ih =>
      obtain ⟨keyed, free⟩ := verbatim pair (by simp)
      have later := ih fun other member => verbatim other (by simp [member])
      have comma : ∀ byte ∈ [chr ','], byte = chr ',' := by simp
      have shape : continued (pair :: others) ++ rest =
          [chr ','] ++ (pair.bytes ++ (continued others ++ rest)) := by
        simp [continued]
      have boundary : continued others ++ rest = [] ∨
          (continued others ++ rest).head? = some (chr ',') := by
        cases others with
        | nil => exact ended
        | cons other more => exact Or.inr rfl
      rw [shape, List.length_cons, Nat.succ_add, parse_pair normal comma keyed free boundary,
        later, List.map_cons, List.cons_append]

theorem continued_length (pairs : List PrintedPair) : pairs.length ≤ (continued pairs).length :=
  Ber.length_le_flat_map pairs fun _ _ => List.cons_ne_nil _ _

/-- The round trip of a list of pairs. -/
theorem parse_printed {pair : PrintedPair} {rest : List PrintedPair}
    (verbatim : ∀ other ∈ pair :: rest, pairKey other.key = true ∧ other.Verbatim) :
    parsePairs normal (pair.bytes ++ continued rest) =
      (pair :: rest).map (·.parsed normal) := by
  obtain ⟨keyed, free⟩ := verbatim pair (by simp)
  have long : rest.length ≤ (pair.bytes ++ continued rest).length := by
    have printed := continued_length rest
    rw [List.length_append]
    omega
  obtain ⟨spare, enough⟩ := Nat.exists_eq_add_of_le long
  have nothing : ∀ byte ∈ ([] : Bytes), byte = chr ',' := by simp
  have first := parse_pair normal nothing keyed free (continued_head rest)
    (pair.bytes ++ continued rest).length
  have others : ∀ other ∈ rest, pairKey other.key = true ∧ other.Verbatim :=
    fun other member => verbatim other (by simp [member])
  have later := parse_continued normal others (Or.inl rfl) spare
  rw [List.append_nil, parse_nothing, List.append_nil] at later
  rw [List.nil_append] at first
  rw [parsePairs, first, List.map_cons, enough, later]

end Pairs

end SimpleLdapd.Text

namespace SimpleLdapd.Sasl

open Dn Text

/-- The fields a client sends: the response is computed over all the others. -/
def clientFields (ssl : OpenSsl) (cnonce challenge username password digestUri : Bytes) :
    DigestFields :=
  let pairs := parsePairs toLowerAscii challenge
  let unanswered : DigestFields :=
    { username := username
      realm := unquote (pairValue pairs (text "realm") [])
      nonce := unquote (pairValue pairs (text "nonce") [])
      cnonce := cnonce
      nc := text "00000001"
      qop := unquote (pairValue pairs (text "qop") (text "auth"))
      uri := if digestUri = [] then text "ldap/" else digestUri
      response := [] }
  { unanswered with
    response := digestOf ssl unanswered (digestHa1 ssl unanswered password) (text "AUTHENTICATE") }

def clientText (fields : DigestFields) : Bytes :=
  text "username=\"" ++ fields.username ++ text "\",realm=\"" ++ fields.realm ++
    text "\",nonce=\"" ++ fields.nonce ++ text "\",cnonce=\"" ++ fields.cnonce ++
    text "\",nc=" ++ fields.nc ++ text ",qop=" ++ fields.qop ++ text ",digest-uri=\"" ++
    fields.uri ++ text "\",response=" ++ fields.response ++ text ",charset=utf-8"

/-- `cnonce` is the client's own random nonce. -/
def saslDigestClientResponse (ssl : OpenSsl) (cnonce challenge username password digestUri : Bytes) :
    Except Bytes Bytes :=
  let fields := clientFields ssl cnonce challenge username password digestUri
  if fields.nonce = [] ∨ username = [] then .error (text "invalid DIGEST-MD5 challenge")
  else .ok (clientText fields)

/-- Fields that can be written without escapes. -/
structure Writable (fields : DigestFields) : Prop where
  quoted : ∀ value ∈ [fields.username, fields.realm, fields.nonce, fields.cnonce, fields.uri],
    chr '"' ∉ value ∧ chr '\\' ∉ value
  plain : ∀ value ∈ [fields.nc, fields.qop, fields.response], chr '"' ∉ value ∧ chr ',' ∉ value

/-- The pairs of the client's text behind the first one. -/
def laterPairs (fields : DigestFields) : List PrintedPair :=
  [.quoted (text "realm") fields.realm, .quoted (text "nonce") fields.nonce,
    .quoted (text "cnonce") fields.cnonce, .plain (text "nc") fields.nc,
    .plain (text "qop") fields.qop, .quoted (text "digest-uri") fields.uri,
    .plain (text "response") fields.response, .plain (text "charset") (text "utf-8")]

theorem client_text_printed (fields : DigestFields) :
    clientText fields =
      (PrintedPair.quoted (text "username") fields.username).bytes ++
        continued (laterPairs fields) := by
  have username : text "username=\"" = text "username" ++ [chr '=', chr '"'] := by decide
  have realm : text "\",realm=\"" = chr '"' :: chr ',' :: (text "realm" ++ [chr '=', chr '"']) := by
    decide
  have nonce : text "\",nonce=\"" = chr '"' :: chr ',' :: (text "nonce" ++ [chr '=', chr '"']) := by
    decide
  have cnonce : text "\",cnonce=\"" =
      chr '"' :: chr ',' :: (text "cnonce" ++ [chr '=', chr '"']) := by
    decide
  have nc : text "\",nc=" = chr '"' :: chr ',' :: (text "nc" ++ [chr '=']) := by decide
  have qop : text ",qop=" = chr ',' :: (text "qop" ++ [chr '=']) := by decide
  have uri : text ",digest-uri=\"" = chr ',' :: (text "digest-uri" ++ [chr '=', chr '"']) := by
    decide
  have response : text "\",response=" = chr '"' :: chr ',' :: (text "response" ++ [chr '=']) := by
    decide
  have charset : text ",charset=utf-8" =
      chr ',' :: (text "charset" ++ chr '=' :: text "utf-8") := by
    decide
  simp only [clientText, laterPairs, continued, PrintedPair.bytes, username, realm, nonce, cnonce,
    nc, qop, uri, response, charset, List.flatMap_cons, List.flatMap_nil, List.append_assoc,
    List.cons_append, List.nil_append, List.append_nil]

/-- All the pairs of the client's text. -/
def fieldPairs (fields : DigestFields) : List PrintedPair :=
  .quoted (text "username") fields.username :: laterPairs fields

theorem field_pairs_keyed (fields : DigestFields) :
    ∀ pair ∈ fieldPairs fields, pairKey pair.key = true := by
  simp only [fieldPairs, laterPairs, List.forall_mem_cons, PrintedPair.key]
  refine ⟨?_, ?_, ?_, ?_, ?_, ?_, ?_, ?_, ?_, by simp⟩ <;> decide

theorem Writable.verbatim {fields : DigestFields} (writable : Writable fields) :
    ∀ pair ∈ fieldPairs fields, pair.Verbatim := by
  obtain ⟨quoted, plain⟩ := writable
  simp only [List.forall_mem_cons, List.not_mem_nil] at quoted plain
  obtain ⟨username, realm, nonce, cnonce, uri, -⟩ := quoted
  obtain ⟨nc, qop, response, -⟩ := plain
  have readable {key value : Bytes} (free : chr '"' ∉ value ∧ chr ',' ∉ value) :
      (PrintedPair.plain key value).Verbatim :=
    PrintedPair.Readable.verbatim free
  have charset : (PrintedPair.plain (text "charset") (text "utf-8")).Verbatim := by
    constructor <;> decide
  simp only [fieldPairs, laterPairs, List.forall_mem_cons]
  exact ⟨username, realm, nonce, cnonce, readable nc, readable qop, uri, readable response,
    charset, by simp⟩

theorem client_text_pairs {fields : DigestFields}
    (verbatim : ∀ pair ∈ fieldPairs fields, pair.Verbatim) :
    parsePairs toLowerAscii (clientText fields) =
      [(text "username", fields.username), (text "realm", fields.realm),
        (text "nonce", fields.nonce), (text "cnonce", fields.cnonce), (text "nc", fields.nc),
        (text "qop", fields.qop), (text "digest-uri", fields.uri),
        (text "response", fields.response), (text "charset", text "utf-8")] := by
  rw [client_text_printed, parse_printed]
  · rfl
  · intro pair member
    exact ⟨field_pairs_keyed fields pair member, verbatim pair member⟩

theorem unquote_of_head {value : Bytes} (unquoted : value.head? ≠ some (chr '"')) :
    unquote value = value := by
  unfold unquote
  rw [if_neg]
  rintro ⟨-, first, -⟩
  exact unquoted first

theorem unquote_verbatim {pair : PrintedPair} (verbatim : pair.Verbatim) :
    unquote pair.value = pair.value := by
  cases pair with
  | quoted key value =>
      exact unquote_of_head fun first => verbatim.1 (List.mem_of_head? first)
  | plain key value => exact unquote_of_head verbatim.1

/-- The server reads back what the client wrote. -/
theorem digest_fields_read {fields : DigestFields}
    (verbatim : ∀ pair ∈ fieldPairs fields, pair.Verbatim) :
    digestFields (clientText fields) = fields := by
  have pairs := client_text_pairs verbatim
  have unquoted : ∀ pair ∈ fieldPairs fields, unquote pair.value = pair.value :=
    fun pair member => unquote_verbatim (verbatim pair member)
  simp only [fieldPairs, laterPairs, List.forall_mem_cons, PrintedPair.value] at unquoted
  obtain ⟨username, realm, nonce, cnonce, -, qop, uri, response, -⟩ := unquoted
  unfold digestFields
  rw [pairs]
  change DigestFields.mk (unquote fields.username) (unquote fields.realm) (unquote fields.nonce)
    (unquote fields.cnonce) fields.nc (unquote fields.qop) (unquote fields.uri)
    (unquote fields.response) = fields
  rw [username, realm, nonce, cnonce, qop, uri, response]

end SimpleLdapd.Sasl
