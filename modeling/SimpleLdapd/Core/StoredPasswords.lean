import SimpleLdapd.Core.RenameEffect

/-!
# Stored password values

Each write path hashes the password values it knows of before it commits them:
the attributes of an Add, the change list of a Modify, the new value of a Password
Modify. The naming value that a ModifyDN adds to the entry passes none of them.
-/

namespace SimpleLdapd.Session

open Dn MemoryBackend

/-- Empty, or of the form `{scheme}rest`. -/
def Sealed (value : Bytes) : Prop := value = [] ∨ (Password.schemePrefix value).isSome = true

instance (value : Bytes) : Decidable (Sealed value) := inferInstanceAs (Decidable (_ ∨ _))

def EntrySealed (entry : DirectoryEntry) : Prop :=
  ∀ item ∈ entry.attributes.entries, isUserPassword item.1 = true → ∀ value ∈ item.2, Sealed value

/-- No value of an attribute named `userPassword` is plaintext. -/
def PasswordsSealed (store : MemoryStore) : Prop := AllEntries EntrySealed store

instance (store : MemoryStore) : Decidable (PasswordsSealed store) :=
  inferInstanceAs (Decidable (∀ pair ∈ store.entries, ∀ item ∈ pair.2.attributes.entries,
    isUserPassword item.1 = true → ∀ value ∈ item.2, Sealed value))

section Values

/-- Braces have no case, so the form of a value does not depend on its spelling. -/
theorem scheme_prefix_lower (value : Bytes) :
    (Password.schemePrefix (toLowerAscii value)).isSome = (Password.schemePrefix value).isSome := by
  have opening : ∀ other, toLowerByte other = chr '{' ↔ other = chr '{' := by decide +kernel
  have closing : ∀ other, toLowerByte other = chr '}' ↔ other = chr '}' := by decide +kernel
  have head : (toLowerAscii value).head? ≠ some (chr '{') ↔ value.head? ≠ some (chr '{') := by
    unfold toLowerAscii
    rw [List.head?_map]
    cases value.head? with
    | none => simp
    | some first => simp [opening]
  unfold Password.schemePrefix
  rw [find_byte_lower closing, to_lower_length]
  simp only [head]
  split
  · rfl
  cases findByte (chr '}') value with
  | none => rfl
  | some close =>
      simp only
      split
      · rfl
      · rfl

theorem sealed_congr {left right : Bytes} (same : iequals left right = true)
    (held : Sealed left) (written : right ≠ []) : (Password.schemePrefix right).isSome = true := by
  rw [iequals_iff] at same
  rcases held with empty | schemed
  · rw [empty] at same
    exact absurd ((to_lower_eq_nil right).mp same.symm) written
  · rw [← scheme_prefix_lower, ← same, scheme_prefix_lower]
    exact schemed

/-- Hashing works: OpenSSL is built in and its digest succeeds. -/
structure Hashes (openssl : Option OpenSsl) : Prop where
  digests : ∀ data, ∃ digest, Password.sha1 openssl data = some digest

theorem ssha_schemed (payload : Bytes) :
    (Password.schemePrefix (text "{SSHA}" ++ payload)).isSome = true := by
  have spelled : text "{SSHA}" = [chr '{', chr 'S', chr 'S', chr 'H', chr 'A', chr '}'] := by decide
  rw [spelled]
  rfl

theorem encode_user_password_sealed {openssl : Option OpenSsl} (hashes : Hashes openssl)
    {salt : Option Bytes} (salted : salt ≠ none) (value : Bytes) :
    Sealed (Password.encodeUserPassword openssl salt value) := by
  obtain ⟨drawn, same⟩ := Option.ne_none_iff_exists'.mp salted
  obtain ⟨digest, digested⟩ := hashes.digests (value ++ drawn)
  unfold Password.encodeUserPassword
  split
  · rename_i schemed
    exact Or.inr schemed
  split
  · rename_i empty
    exact Or.inl empty
  · right
    have hashed : Password.hashSsha openssl salt value =
        text "{SSHA}" ++ Password.base64Encode (digest ++ drawn) := by
      simp only [Password.hashSsha, same, digested]
    have written : text "{SSHA}" ++ Password.base64Encode (digest ++ drawn) ≠ [] := by
      simp [text]
    simp only [hashed, if_neg written]
    exact ssha_schemed _

end Values

section Entries

variable {server : Server} {context : RequestContext} {Good : Bytes → Prop}

/-- Every value of an attribute named `userPassword` has the property. -/
def PasswordValues (Good : Bytes → Prop) (entry : DirectoryEntry) : Prop :=
  ∀ item ∈ entry.attributes.entries, isUserPassword item.1 = true → ∀ value ∈ item.2, Good value

/-- Every value that the change writes to a password attribute has the property. -/
def WrittenValues (Good : Bytes → Prop) (change : AttributeModification) : Prop :=
  change.op ≠ .delete → isUserPassword change.type = true → ∀ value ∈ change.values, Good value

/-- The values that the change writes to a password attribute are no plaintext. -/
def ChangeSealed (change : AttributeModification) : Prop :=
  change.op ≠ .delete → isUserPassword change.type = true → ∀ value ∈ change.values, Sealed value

theorem is_user_password_congr {left right : Bytes}
    (same : toLowerAscii left = toLowerAscii right) : isUserPassword left = isUserPassword right := by
  unfold isUserPassword iequals
  rw [same]

theorem apply_modification_values {change : AttributeModification}
    (safe : WrittenValues Good change) {entry : DirectoryEntry} (kept : PasswordValues Good entry) :
    PasswordValues Good (Modify.applyModification entry change).2 := by
  rcases Modify.apply_modification_cases entry change with
    same | ⟨absent, written, same⟩ | ⟨name, existing, found, same | ⟨values, same, origin⟩⟩
  · rw [same]
    exact kept
  · rw [same]
    intro item member secret
    rcases (OrderedMap.mem_insert _ _ _ _).mp member with here | ⟨older, _⟩
    · rw [here] at secret ⊢
      exact safe written secret
    · exact kept item older secret
  · rw [same]
    intro item member
    exact kept item ((OrderedMap.mem_erase _ _ _).mp member).1
  · rw [same]
    intro item member secret value inside
    obtain ⟨stored, spelled⟩ := OrderedMap.findBy_some toLowerAscii found
    rcases (OrderedMap.mem_insert _ _ _ _).mp member with here | ⟨older, _⟩
    · rw [here] at secret inside
      rcases origin value inside with older | ⟨written, new⟩
      · exact kept (name, existing) stored secret value older
      · exact safe written ((is_user_password_congr spelled).symm.trans secret) value new
    · exact kept item older secret value inside

theorem apply_modifications_values {changes : List AttributeModification}
    (safe : ∀ change ∈ changes, WrittenValues Good change) {entry : DirectoryEntry}
    (kept : PasswordValues Good entry) :
    PasswordValues Good (Modify.applyModifications entry changes).2 :=
  Modify.apply_modifications_invariant
    (fun _ change member => apply_modification_values (safe change member)) kept

theorem encoded_changes_values {openssl : Option OpenSsl} {salts : Salts}
    {changes : List AttributeModification}
    (each : ∀ position change, changes[position]? = some change → change.op ≠ .delete →
      isUserPassword change.type = true → ∀ index value, change.values[index]? = some value →
        Good (Password.encodeUserPassword openssl (salts (.changed position index)) value)) :
    ∀ change ∈ Password.encodeUserPasswordChanges openssl salts changes,
      WrittenValues Good change := by
  intro change member
  obtain ⟨position, inside, same⟩ := List.mem_mapIdx.mp member
  rw [← same]
  split
  · rename_i skipped
    intro written secret
    rcases skipped with deletes | other
    · exact absurd deletes written
    · unfold isUserPassword at secret
      rw [secret] at other
      cases other
  · intro written secret value valueMember
    obtain ⟨index, within, hashed⟩ := List.mem_mapIdx.mp valueMember
    rw [← hashed]
    exact each position _ (List.getElem?_eq_getElem inside) written secret index _
      (List.getElem?_eq_getElem within)

theorem encoded_changes_sealed {openssl : Option OpenSsl} (hashes : Hashes openssl)
    {salts : Salts} (salted : ∀ draw, salts draw ≠ none) (changes : List AttributeModification) :
    ∀ change ∈ Password.encodeUserPasswordChanges openssl salts changes, ChangeSealed change := by
  apply encoded_changes_values
  intro position change _ _ _ index value _
  exact encode_user_password_sealed hashes (salted _) value

theorem added_entry_values {request : LdapMessage}
    (each : ∀ item ∈ (Message.toDirectoryEntry request.add).attributes.entries,
      isUserPassword item.1 = true → ∀ index value, item.2[index]? = some value →
        Good (Password.encodeUserPassword server.openssl (context.salts (.added item.1 index))
          value)) :
    PasswordValues Good (addedEntry server context request) := by
  intro item member secret value inside
  obtain ⟨values, stored, same⟩ := (OrderedMap.mem_mapValues _ _ _).mp member
  have named := secret
  unfold isUserPassword at named
  rw [same, if_pos named] at inside
  obtain ⟨index, within, hashed⟩ := List.mem_mapIdx.mp inside
  rw [← hashed]
  exact each (item.1, values) stored secret index _ (List.getElem?_eq_getElem within)

theorem renamed_entry_values {change : ModifyDnRequestData}
    (each : ∀ type value, parseRdn change.newRdn = some (type, value) →
      isUserPassword type = true → Good value)
    {old entry : DirectoryEntry} (kept : PasswordValues Good old)
    (applied : renamedEntry change old = .ok entry) : PasswordValues Good entry := by
  refine renamed_entry_invariant ?_ ?_ kept applied
  · intro type value other
    apply apply_modification_values
    intro written
    exact absurd rfl written
  · intro type value parsed other
    apply apply_modification_values
    intro _ secret stored member
    rw [List.mem_singleton.mp member]
    exact each type value parsed secret

/-- The naming value of the request, if it names the password attribute, is no plaintext. -/
def RdnSealed (change : ModifyDnRequestData) : Prop :=
  ∀ type value, parseRdn change.newRdn = some (type, value) → isUserPassword type = true →
    (Password.schemePrefix value).isSome = true

end Entries

section Runs

variable {server : Server}

/-- A ModifyDN request that passes the checks of the handler adds no plaintext password. -/
def RenamesSealed (server : Server) (store : MemoryStore) (handling : Handling) : Prop :=
  handling.request.op = .modifyDnRequest →
    RenameAccepted server handling.session store handling.request.modifyDn →
    RdnSealed handling.request.modifyDn

/-- Every random salt that the request asks for is delivered. -/
def Salted (handling : Handling) : Prop := ∀ draw, handling.context.salts draw ≠ none

/-- One handled request. -/
theorem request_keeps_sealed_iff (hashes : Hashes server.openssl) {store : MemoryStore}
    (reachable : Reachable store) (kept : PasswordsSealed store) {handling : Handling}
    (salted : Salted handling) :
    PasswordsSealed (afterRequest server store handling) ↔
      RenamesSealed server store handling := by
  have effect := handle_request_effect server handling.context handling.session
    reachable.invariant handling.request
  constructor
  · intro after isRename accepted type value parsed secret
    unfold afterRequest at after
    generalize ((handleRequest server handling.context handling.session handling.request).run
      exec store).2 = reached at effect after
    cases effect with
    | unchanged _ notRenamed => exact absurd accepted (notRenamed isRename)
    | added isAdd => cases isRename.symm.trans isAdd
    | modified isModify => cases isRename.symm.trans isModify
    | removed isDelete => cases isRename.symm.trans isDelete
    | passwordChanged isPasswordModify => cases isRename.symm.trans isPasswordModify.1
    | renamed _ _ old entry found applied =>
        obtain ⟨item, first, has⟩ := renamed_entry_gains applied parsed
        obtain ⟨member, spelled⟩ := OrderedMap.findBy_some toLowerAscii first
        obtain ⟨stored, inside, same⟩ := List.any_eq_true.mp has
        obtain ⟨moved, located, attributes⟩ :=
          accepted.stored reachable.invariant found applied
        rw [← attributes] at member
        have held := after.lookup located item member
          ((is_user_password_congr spelled).trans secret) stored inside
        exact sealed_congr same held (parse_rdn_some parsed).2.2
  · intro safe
    apply effect.keeps (fun _ _ held => held) _ _ _ _ kept
    · intro _ _
      apply added_entry_values
      intro item _ _ index value _
      exact encode_user_password_sealed hashes (salted _) value
    · intro old held
      exact apply_modifications_values (encoded_changes_sealed hashes salted _) held
    · intro isRename accepted old entry held applied
      apply renamed_entry_values _ held applied
      intro type value parsed secret
      exact Or.inr (safe isRename accepted type value parsed secret)
    · intro old newPassword held
      apply apply_modifications_values _ held
      intro change member
      rw [List.mem_singleton.mp member]
      intro _ _ value inside
      rw [List.mem_singleton.mp inside]
      exact encode_user_password_sealed hashes (salted _) newPassword

/-- From the empty backend on, no stored password value is plaintext exactly as long as no
accepted ModifyDN names an entry by a plaintext password. -/
theorem passwords_stay_sealed_iff (hashes : Hashes server.openssl) {handlings : List Handling}
    (salted : ∀ handling ∈ handlings, Salted handling) :
    (∀ earlier, earlier <+: handlings →
        PasswordsSealed (afterRequests server OrderedMap.empty earlier)) ↔
      Along (afterRequest server) (RenamesSealed server) OrderedMap.empty handlings := by
  apply stays_good_iff_along PasswordsSealed Reachable Salted
  · intro store handling reachable
    exact after_request_reachable reachable handling
  · intro store handling reachable kept delivered
    exact request_keeps_sealed_iff hashes reachable kept delivered
  · exact Reachable.empty
  · exact all_entries_empty
  · exact salted

def drawnSalt : Bytes := [1, 2, 3, 4, 5, 6, 7, 8]

/-- A server whose SHA-1 is recorded for `secret` with the salt above. -/
def hashingServer : Server :=
  { openssl := some
      { sha1 := fun data => some (if data = text "secret" ++ drawnSalt then
          [148, 113, 115, 94, 233, 120, 194, 124, 209, 34, 219, 44, 85, 196, 231, 189, 117, 145,
            140, 216] else List.replicate 20 0)
        md5 := fun data => data
        hmacSha256 := fun _ data => data } }

theorem hashing_server_hashes : Hashes hashingServer.openssl := by
  constructor
  intro data
  rw [← Option.isSome_iff_exists]
  by_cases recorded : data = text "secret" ++ drawnSalt
  · simp [Password.sha1, hashingServer, recorded, Password.kSha1Length]
  · simp [Password.sha1, hashingServer, recorded, Password.kSha1Length]

/-- The administrator adds a person with a password. -/
def addPerson : Handling :=
  { context := { salts := fun _ => some drawnSalt }
    session := administrator
    request := { op := .addRequest
                 add := { dn := text "cn=a"
                          attributes := [{ type := text "cn", values := [text "a"] },
                            { type := text "userPassword", values := [text "secret"] }] } } }

/-- The administrator names the person by an attribute value. -/
def nameBy (newRdn : Bytes) : Handling :=
  { context := { salts := fun _ => some drawnSalt }
    session := administrator
    request := { op := .modifyDnRequest, modifyDn := { dn := text "cn=a", newRdn := newRdn } } }

theorem added_person_is_sealed :
    PasswordsSealed (afterRequests hashingServer OrderedMap.empty
      [addPerson, nameBy (text "uid=b")]) := by
  have salted : ∀ handling ∈ [addPerson, nameBy (text "uid=b")], Salted handling := by
    simp [Salted, addPerson, nameBy]
  refine (passwords_stay_sealed_iff hashing_server_hashes salted).mpr ?_ _ (List.prefix_refl _)
  refine ⟨nofun, fun _ _ type value parsed secret => ?_, trivial⟩
  have named : parseRdn (nameBy (text "uid=b")).request.modifyDn.newRdn =
      some (text "uid", text "b") := by decide +kernel
  rw [named] at parsed
  cases parsed
  exact absurd secret (by decide +kernel)

/-- Naming the person by a password stores it as it is. -/
theorem naming_value_is_plaintext :
    Hashes hashingServer.openssl ∧ Salted addPerson ∧ Salted (nameBy (text "userPassword=new")) ∧
      ¬ PasswordsSealed (afterRequests hashingServer OrderedMap.empty
        [addPerson, nameBy (text "userPassword=new")]) :=
  ⟨hashing_server_hashes, nofun, nofun, by decide +kernel⟩

end Runs

end SimpleLdapd.Session
