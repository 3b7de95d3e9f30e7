import SimpleLdapd.Core.WriteOutcome

/-!
# What an Add request stores

The request lists partial attributes, in which a type may come again; the entry is
a map that the list is assigned into. A value is kept when some attribute of its
type that is not assigned over has it.
-/

namespace SimpleLdapd.Session

open Dn MemoryBackend OrderedMap

/-- Every listed value, user passwords apart, stands under a name of its type. -/
def KeepsValues (attributes : List PartialAttribute) (entry : DirectoryEntry) : Prop :=
  ∀ item ∈ attributes, iequals item.type (text "userPassword") = false → ∀ value ∈ item.values,
    ∃ pair ∈ entry.attributes.entries, iequals pair.1 item.type = true ∧ value ∈ pair.2

/-- Every stored value is one that the request lists under that name, or the encoding
of a listed user password. -/
def InventsNothing (openssl : Option OpenSsl) (attributes : List PartialAttribute)
    (entry : DirectoryEntry) : Prop :=
  ∀ pair ∈ entry.attributes.entries, ∀ value ∈ pair.2, ∃ item ∈ attributes, item.type = pair.1 ∧
    (value ∈ item.values ∨
      (iequals pair.1 (text "userPassword") = true ∧ ∃ salt, ∃ password ∈ item.values,
        value = Password.encodeUserPassword openssl salt password))

/-- The entry stored under the DN of the request holds what the request lists. -/
def StoresRequest (server : Server) (request : LdapMessage) (store : MemoryStore) : Prop :=
  ∃ entry, lookup store request.add.dn = some entry ∧
    KeepsValues request.add.attributes entry ∧
    InventsNothing server.openssl request.add.attributes entry

/-- Every value, user passwords apart, is listed under a spelling of its type in the
last attribute with that spelling. -/
def NoneOverwritten (attributes : List PartialAttribute) : Prop :=
  ∀ item ∈ attributes, iequals item.type (text "userPassword") = false → ∀ value ∈ item.values,
    ∃ kept ∈ attributes, LastWith PartialAttribute.type attributes kept ∧
      iequals kept.type item.type = true ∧ value ∈ kept.values

instance (attributes : List PartialAttribute) (entry : DirectoryEntry) :
    Decidable (KeepsValues attributes entry) :=
  inferInstanceAs (Decidable (∀ item ∈ attributes, _ → ∀ value ∈ item.values,
    ∃ pair ∈ entry.attributes.entries, iequals pair.1 item.type = true ∧ value ∈ pair.2))

instance (attributes : List PartialAttribute) : Decidable (NoneOverwritten attributes) :=
  inferInstanceAs (Decidable (∀ item ∈ attributes, _ → ∀ value ∈ item.values,
    ∃ kept ∈ attributes, LastWith PartialAttribute.type attributes kept ∧
      iequals kept.type item.type = true ∧ value ∈ kept.values))

section Entry

variable (server : Server) (context : RequestContext) (request : LdapMessage)

/-- The values that `encodeUserPasswords` leaves under a name. -/
def encodedValues (name : Bytes) (values : List Bytes) : List Bytes :=
  if iequals name (text "userPassword") then
    values.mapIdx fun index value =>
      Password.encodeUserPassword server.openssl (context.salts (.added name index)) value
  else values

theorem mem_added (pair : Bytes × List Bytes) :
    pair ∈ (addedEntry server context request).attributes.entries ↔
      ∃ item, LastWith PartialAttribute.type request.add.attributes item ∧
        pair = (item.type, encodedValues server context item.type item.values) := by
  have assigned := mem_foldl_assign PartialAttribute.type PartialAttribute.values
    request.add.attributes empty
  simp only [mem_empty, false_and, or_false] at assigned
  change pair ∈ ((request.add.attributes.foldl
    (fun attributes item => attributes.insert item.type item.values) empty).mapValues
      (encodedValues server context)).entries ↔ _
  rw [mem_mapValues]
  simp only [assigned, Prod.mk.injEq]
  constructor
  · rintro ⟨values, ⟨item, last, sameName, sameValues⟩, encoded⟩
    rw [sameName, sameValues] at encoded
    exact ⟨item, last, Prod.ext sameName encoded⟩
  · rintro ⟨item, last, same⟩
    rw [same]
    exact ⟨item.values, ⟨item, last, rfl, rfl⟩, rfl⟩

theorem encoded_values_other {name : Bytes} (other : iequals name (text "userPassword") = false)
    (values : List Bytes) : encodedValues server context name values = values := by
  unfold encodedValues
  rw [other]
  exact if_neg Bool.false_ne_true

theorem keeps_values_iff :
    KeepsValues request.add.attributes (addedEntry server context request) ↔
      NoneOverwritten request.add.attributes := by
  -- a spelling of another type is not a spelling of `userPassword`
  have other {kept item : PartialAttribute} (same : iequals kept.type item.type = true)
      (notPassword : iequals item.type (text "userPassword") = false) :
      iequals kept.type (text "userPassword") = false := by
    unfold iequals at notPassword ⊢
    rw [(iequals_iff _ _).mp same]
    exact notPassword
  constructor
  · intro keeps item member notPassword value listed
    obtain ⟨pair, stored, sameType, found⟩ := keeps item member notPassword value listed
    obtain ⟨kept, last, same⟩ := (mem_added server context request pair).mp stored
    rw [same] at sameType found
    rw [encoded_values_other server context (other sameType notPassword)] at found
    exact ⟨kept, last.mem, last, sameType, found⟩
  · intro kept item member notPassword value listed
    obtain ⟨last, _, isLast, sameType, found⟩ := kept item member notPassword value listed
    refine ⟨_, (mem_added server context request _).mpr ⟨last, isLast, rfl⟩, sameType, ?_⟩
    rw [encoded_values_other server context (other sameType notPassword)]
    exact found

theorem added_invents_nothing :
    InventsNothing server.openssl request.add.attributes (addedEntry server context request) := by
  intro pair stored value found
  obtain ⟨item, last, same⟩ := (mem_added server context request pair).mp stored
  rw [same] at found ⊢
  refine ⟨item, last.mem, rfl, ?_⟩
  simp only [encodedValues] at found
  split at found
  · rename_i isPassword
    obtain ⟨index, bound, encoded⟩ := List.mem_mapIdx.mp found
    exact Or.inr ⟨isPassword, context.salts (.added item.type index), _,
      List.getElem_mem bound, encoded.symm⟩
  · exact Or.inl found

end Entry

/-- An Add request answered success stores what it lists exactly when no later attribute
of the same spelling drops a value. -/
theorem add_loses_nothing_iff (server : Server) (context : RequestContext)
    (session : SessionState) (store : MemoryStore) (request : LdapMessage)
    (answered : ((handleAdd server context session request).run exec store).1.result = .success) :
    StoresRequest server request ((handleAdd server context session request).run exec store).2 ↔
      NoneOverwritten request.add.attributes := by
  have settled : Program.Ensures exec (handleAdd server context session request) store _ :=
    handle_add_settles server context session request
  rcases settled with ⟨_, accepted, same⟩ | ⟨_, refusal, _⟩
  · have stored := lookup_added accepted.written request.add.dn
    rw [if_pos (show toLowerAscii (addedEntry server context request).dn =
      toLowerAscii request.add.dn from rfl), ← same] at stored
    rw [← keeps_values_iff server context request]
    constructor
    · rintro ⟨entry, found, keeps, _⟩
      rw [stored, Option.some.injEq] at found
      rw [found]
      exact keeps
    · intro keeps
      exact ⟨_, stored, keeps, added_invents_nothing server context request⟩
  · exact absurd answered refusal.1

/-- The later `cn` lists the value of the earlier one again. -/
def repeatedType : LdapMessage :=
  { op := .addRequest
    add := { dn := text "cn=b,ou=people,dc=example,dc=com"
             attributes := [{ type := text "cn", values := [text "b"] },
               { type := text "sn", values := [text "c"] },
               { type := text "cn", values := [text "d", text "b"] }] } }

theorem repeated_value_kept :
    NoneOverwritten repeatedType.add.attributes ∧ StoresRequest {} repeatedType
      ((handleAdd {} {} administrator repeatedType).run exec smallDirectory).2 := by
  have kept : NoneOverwritten repeatedType.add.attributes := by decide
  exact ⟨kept, (add_loses_nothing_iff {} {} administrator smallDirectory repeatedType
    (by decide +kernel)).mpr kept⟩

/-- Two values of `cn`, each in an attribute of its own. -/
def splitType : LdapMessage :=
  { op := .addRequest
    add := { dn := text "cn=b,ou=people,dc=example,dc=com"
             attributes := [{ type := text "cn", values := [text "b"] },
               { type := text "cn", values := [text "d"] }] } }

theorem first_value_lost :
    ((handleAdd {} {} administrator splitType).run exec smallDirectory).1.result = .success ∧
      ¬ StoresRequest {} splitType
        ((handleAdd {} {} administrator splitType).run exec smallDirectory).2 := by
  refine ⟨by decide +kernel, ?_⟩
  rintro ⟨entry, found, keeps, _⟩
  have lost : (lookup ((handleAdd {} {} administrator splitType).run exec smallDirectory).2
      splitType.add.dn).all (fun entry => decide (¬ KeepsValues splitType.add.attributes entry)) =
        true := by
    decide +kernel
  rw [found, Option.all_some, decide_eq_true_eq] at lost
  exact lost keeps

end SimpleLdapd.Session
