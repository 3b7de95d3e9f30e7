import SimpleLdapd.Library.Respect
import SimpleLdapd.Core.WriteOutcome

/-!
# The texts that requests write

Which texts may stand in a stored entry is a rule about DNs, attribute names and values.
Requests that bring only such texts, and no list of values that is empty, store only
entries that fit the rule.
-/

namespace SimpleLdapd

open Dn Message

section Texts

theorem base64_encode_letters {Letter : Byte → Prop}
    (letters : ∀ position : Fin 64, Letter (Password.base64Table.getD position 0))
    (padding : Letter (chr '=')) (data : Bytes) :
    ∀ byte ∈ Password.base64Encode data, Letter byte := by
  have letter (position : Nat) (small : position < 64) :
      Letter (Password.base64Table.getD position 0) := letters ⟨position, small⟩
  have sextet (bits shift : Nat) : Letter (Password.base64Table.getD (bits >>> shift &&& 63) 0) :=
    letter _ (Nat.lt_of_le_of_lt Nat.and_le_right (by decide))
  have last (bits : Nat) : Letter (Password.base64Table.getD (bits &&& 63) 0) :=
    letter _ (Nat.lt_of_le_of_lt Nat.and_le_right (by decide))
  induction data using Password.base64Encode.induct with
  | case1 => simp [Password.base64Encode]
  | case2 first =>
      simp only [Password.base64Encode, List.forall_mem_cons, sextet, padding, true_and]
      simp
  | case3 first second =>
      simp only [Password.base64Encode, List.forall_mem_cons, sextet, padding, true_and]
      simp
  | case4 first second third rest ih =>
      simp only [Password.base64Encode, List.forall_mem_cons, sextet, last, true_and]
      exact ih

/-- A value is stored as it came or as printable text. -/
theorem encoded_password_printable (openssl : Option OpenSsl) (salt : Option Bytes)
    (value : Bytes) :
    Password.encodeUserPassword openssl salt value = value ∨
      ∀ byte ∈ Password.encodeUserPassword openssl salt value, chr ' ' < byte := by
  have table : ∀ position : Fin 64, chr ' ' < Password.base64Table.getD position 0 := by
    decide +kernel
  have scheme : ∀ byte ∈ text "{SSHA}", chr ' ' < byte := by decide +kernel
  have hashed : ∀ byte ∈ Password.hashSsha openssl salt value, chr ' ' < byte := by
    unfold Password.hashSsha
    split
    · simp
    · split
      · simp
      · intro byte member
        rcases List.mem_append.mp member with label | code
        · exact scheme byte label
        · exact base64_encode_letters table (by decide) _ byte code
  unfold Password.encodeUserPassword
  split
  · exact Or.inl rfl
  · split
    · exact Or.inl rfl
    · simp only
      split
      · exact Or.inl rfl
      · exact Or.inr hashed

end Texts

/-- The texts that may stand in a stored entry. A hashed password is such a value if the
password was one. -/
structure TextRules where
  dn : Bytes → Prop
  name : Bytes → Prop
  value : Bytes → Prop
  password : name (text "userPassword")
  hashed : ∀ openssl salt password, value password →
    value (Password.encodeUserPassword openssl salt password)

namespace TextRules

variable (rules : TextRules)

structure FitsRow (pair : Bytes × List Bytes) : Prop where
  name : rules.name pair.1
  written : pair.2 ≠ []
  values : ∀ value ∈ pair.2, rules.value value

structure Fits (entry : DirectoryEntry) : Prop where
  dn : rules.dn entry.dn
  rows : ∀ pair ∈ entry.attributes.entries, rules.FitsRow pair

/-- A deletion may name anything. -/
structure FitsChange (change : AttributeModification) : Prop where
  name : change.op ≠ .delete → rules.name change.type
  values : change.op ≠ .delete → ∀ value ∈ change.values, rules.value value
  written : change.op = .add → change.values ≠ []

variable {rules}

section Changes

variable {entry : DirectoryEntry}

theorem Fits.insert (fits : rules.Fits entry) {name : Bytes} {values : List Bytes}
    (row : rules.FitsRow (name, values)) :
    rules.Fits { entry with attributes := entry.attributes.insert name values } where
  dn := fits.dn
  rows := by
    intro other member
    rcases (OrderedMap.mem_insert _ _ _ _).mp member with here | ⟨older, _⟩
    · rw [here]
      exact row
    · exact fits.rows other older

theorem Fits.erase (fits : rules.Fits entry) (name : Bytes) :
    rules.Fits { entry with attributes := entry.attributes.erase name } where
  dn := fits.dn
  rows := fun pair member => fits.rows pair ((OrderedMap.mem_erase _ _ _).mp member).1

theorem add_values_keeps (existing added : List Bytes) :
    existing ⊆ (Modify.addValues existing added).2 := by
  induction added generalizing existing with
  | nil => exact List.Subset.refl existing
  | cons value rest ih =>
      unfold Modify.addValues
      split
      · exact List.Subset.refl existing
      · exact List.Subset.trans (List.subset_append_left existing [value]) (ih _)

/-- A refused deletion of more than one value can leave an attribute without values, which
no handler stores. -/
theorem Fits.change (fits : rules.Fits entry) {change : AttributeModification}
    (brings : rules.FitsChange change)
    (whole : (Modify.applyModification entry change).1 = .success ∨ change.values.length ≤ 1) :
    rules.Fits (Modify.applyModification entry change).2 := by
  unfold Modify.applyModification at whole ⊢
  split
  · exact fits
  rename_i named
  rw [if_neg named] at whole
  split
  · rename_i op absent
    have writes : change.op ≠ .delete := by simp [op]
    exact fits.insert ⟨brings.name writes, brings.written op, brings.values writes⟩
  · rename_i name existing op found
    have writes : change.op ≠ .delete := by simp [op]
    have old := fits.rows _ (OrderedMap.findBy_some toLowerAscii found).1
    apply fits.insert
    refine ⟨old.name, ?_, ?_⟩
    · intro empty
      have kept := add_values_keeps existing change.values
      rw [empty] at kept
      exact old.written (List.subset_nil.mp kept)
    · intro value member
      rcases Modify.mem_add_values member with before | new
      · exact old.values value before
      · exact brings.values writes value new
  · exact fits
  · rename_i name existing op found
    have old := fits.rows _ (OrderedMap.findBy_some toLowerAscii found).1
    have kept : ∀ value ∈ (Modify.deleteValues existing change.values).2, rules.value value :=
      fun value member => old.values value (Modify.mem_delete_values member)
    simp only [op, found] at whole
    split
    · exact fits.erase name
    rename_i some
    rw [if_neg some] at whole
    simp only
    split
    · split
      · exact fits.erase name
      · rename_i remaining
        exact fits.insert ⟨old.name, remaining, kept⟩
    · rename_i refused
      rw [if_neg refused] at whole
      rcases whole with success | short
      · cases success
      · -- A single value that is not there leaves the list as it was.
        obtain ⟨value, only⟩ := List.length_eq_one_iff.mp
          (Nat.le_antisymm short (List.length_pos_iff.mpr some))
        have missing : Modify.hasValue existing value = false := by
          cases present : Modify.hasValue existing value with
          | false => rfl
          | true => simp [only, Modify.deleteValues, present] at refused
        have unchanged : (Modify.deleteValues existing change.values).2 = existing := by
          simp [only, Modify.deleteValues, missing]
        rw [unchanged]
        exact fits.insert old
  · rename_i op absent
    have writes : change.op ≠ .delete := by simp [op]
    split
    · exact fits
    · rename_i some
      exact fits.insert ⟨brings.name writes, some, brings.values writes⟩
  · rename_i name existing op found
    have writes : change.op ≠ .delete := by simp [op]
    have old := fits.rows _ (OrderedMap.findBy_some toLowerAscii found).1
    split
    · exact fits.erase name
    · rename_i some
      exact fits.insert ⟨old.name, some, brings.values writes⟩
  · exact fits

theorem Fits.changes (fits : rules.Fits entry) {changes : List AttributeModification}
    (brings : ∀ change ∈ changes, rules.FitsChange change)
    (succeeded : (Modify.applyModifications entry changes).1 = .success) :
    rules.Fits (Modify.applyModifications entry changes).2 := by
  induction changes generalizing entry with
  | nil => exact fits
  | cons change rest ih =>
      unfold Modify.applyModifications at succeeded ⊢
      simp only at succeeded ⊢
      split
      · rename_i first
        rw [if_pos first] at succeeded
        have here := fits.change (brings change (by simp)) (Or.inl first)
        exact ih here (fun other member => brings other (by simp [member])) succeeded
      · rename_i failed
        rw [if_neg failed] at succeeded
        exact absurd succeeded failed

theorem encoded_changes_fit (openssl : Option OpenSsl) (salts : Salts)
    {changes : List AttributeModification} (brings : ∀ change ∈ changes, rules.FitsChange change) :
    ∀ change ∈ Password.encodeUserPasswordChanges openssl salts changes,
      rules.FitsChange change := by
  intro change member
  obtain ⟨position, inside, rfl⟩ := List.mem_mapIdx.mp member
  have original := brings changes[position] (List.getElem_mem inside)
  split
  · exact original
  · refine ⟨original.name, ?_, ?_⟩
    · intro writes value written
      obtain ⟨index, within, rfl⟩ := List.mem_mapIdx.mp written
      exact rules.hashed openssl _ _ (original.values writes _ (List.getElem_mem within))
    · intro isAdd empty
      exact original.written isAdd (List.mapIdx_eq_nil_iff.mp empty)

theorem built_fits {dn : Bytes} {items : List PartialAttribute} {built : Attributes}
    (before : rules.Fits { dn := dn, attributes := built })
    (brings : ∀ item ∈ items, rules.FitsRow (item.type, item.values)) :
    rules.Fits (DirectoryEntry.mk dn
      (items.foldl (fun attributes item => attributes.insert item.type item.values) built)) := by
  induction items generalizing built with
  | nil => exact before
  | cons item rest ih =>
      apply ih (before.insert (brings item (by simp)))
      exact fun other member => brings other (by simp [member])

theorem added_entry_fits (openssl : Option OpenSsl) (salts : Salts) {add : AddRequestData}
    (named : rules.dn add.dn)
    (brings : ∀ item ∈ add.attributes, rules.FitsRow (item.type, item.values)) :
    rules.Fits (Password.encodeUserPasswords openssl salts (toDirectoryEntry add)) := by
  have empty : rules.Fits { dn := add.dn, attributes := OrderedMap.empty } := ⟨named, by simp⟩
  have plain : rules.Fits (toDirectoryEntry add) := built_fits empty brings
  refine ⟨plain.dn, ?_⟩
  intro pair member
  obtain ⟨values, stored, same⟩ := (OrderedMap.mem_mapValues _ _ _).mp member
  have before := plain.rows _ stored
  refine ⟨before.name, ?_, ?_⟩
  · rw [same]
    split
    · intro none
      exact before.written (List.mapIdx_eq_nil_iff.mp none)
    · exact before.written
  · rw [same]
    split
    · intro value written
      obtain ⟨index, within, rfl⟩ := List.mem_mapIdx.mp written
      exact rules.hashed openssl _ _ (before.values _ (List.getElem_mem within))
    · exact before.values

theorem Fits.naming (fits : rules.Fits entry) {op : ModifyOp} {type value : Bytes}
    (name : op ≠ .delete → rules.name type) (brings : op ≠ .delete → rules.value value) :
    rules.Fits
      (Modify.applyModification entry { op := op, type := type, values := [value] }).2 := by
  apply fits.change _ (Or.inr (by simp))
  refine ⟨name, ?_, by simp⟩
  intro writes other member
  rw [List.mem_singleton.mp member]
  exact brings writes

theorem Fits.renamed (fits : rules.Fits entry) {change : ModifyDnRequestData}
    (brings : ∀ type value, parseRdn change.newRdn = some (type, value) →
      rules.name type ∧ rules.value value) {renamed : DirectoryEntry}
    (applied : Session.renamedEntry change entry = .ok renamed) : rules.Fits renamed := by
  apply Session.renamed_entry_invariant _ _ fits applied
  · intro type value other good
    exact good.naming (absurd rfl) (absurd rfl)
  · intro type value parsed other good
    exact good.naming (fun _ => (brings type value parsed).1) fun _ => (brings type value parsed).2

theorem password_change_fits (openssl : Option OpenSsl) (salt : Option Bytes) {password : Bytes}
    (brings : rules.value password) :
    ∀ change ∈ [AttributeModification.mk .replace (text "userPassword")
      [Password.encodeUserPassword openssl salt password]], rules.FitsChange change := by
  intro change member
  rw [List.mem_singleton.mp member]
  refine ⟨fun _ => rules.password, ?_, by simp⟩
  intro _ value written
  rw [List.mem_singleton.mp written]
  exact rules.hashed openssl salt password brings

end Changes

end TextRules

namespace Session

open MemoryBackend

variable {rules : TextRules} {server : Server} {context : RequestContext}
variable {session : SessionState}

/-- The calls that store only texts of the rule. -/
def WritesFit (rules : TextRules) : BackendCall → Prop
  | .add entry | .modify entry => rules.Fits entry
  | .rename _ target => rules.dn target
  | .lookup _ | .search _ _ _ | .remove _ | .hasChildren _ | .persist => True

theorem writes_fit_keep (call : BackendCall) (store : MemoryStore) (fit : WritesFit rules call)
    (all : AllEntries rules.Fits store) : AllEntries rules.Fits (exec call store).2 := by
  cases call with
  | add entry => exact all.add fit
  | modify entry => exact all.modify fit
  | remove dn => exact all.remove dn
  | rename source target => exact all.rename_to (fun _ good => ⟨fit, good.rows⟩) source
  | lookup dn => exact all
  | search baseDn scope filter => exact all
  | hasChildren dn => exact all
  | persist => exact all

/-- The program stores only texts of the rule, as long as it reads only such. -/
abbrev KeepsTexts {Value : Type} (rules : TextRules) (program : BackendProgram Value) : Prop :=
  program.Respects exec (AllEntries rules.Fits) (WritesFit rules)

section Handlers

theorem texts_pure {Value : Type} (value : Value) : KeepsTexts rules (pure value) :=
  Program.respects_pure value

theorem reading_keeps_texts {Value : Type} {program : BackendProgram Value}
    (issued : program.Issues BackendCall.Reads) : KeepsTexts rules program := by
  apply Program.respects_of_issues _ issued
  intro call reads
  cases call with
  | lookup dn => trivial
  | search baseDn scope filter => trivial
  | hasChildren dn => trivial
  | add entry => exact reads.elim
  | modify entry => exact reads.elim
  | remove dn => exact reads.elim
  | rename source target => exact reads.elim
  | persist => exact reads.elim

theorem texts_after_reading {First Value : Type} {program : BackendProgram First}
    {rest : First → BackendProgram Value} (issued : program.Issues BackendCall.Reads)
    (next : ∀ value, KeepsTexts rules (rest value)) : KeepsTexts rules (program >>= rest) :=
  Program.respects_then (reading_keeps_texts issued) next

theorem texts_lookup {Value : Type} {dn : Bytes}
    {rest : Option DirectoryEntry → BackendProgram Value}
    (next : ∀ found, (∀ entry, found = some entry → rules.Fits entry) →
      KeepsTexts rules (rest found)) : KeepsTexts rules (Backend.lookup dn >>= rest) := by
  apply Program.respects_perform (show WritesFit rules (.lookup dn) from trivial)
  intro store all
  exact next _ fun _ found => all.lookup found

theorem texts_call {Value : Type} {call : BackendCall} {rest : call.Answer → BackendProgram Value}
    (fit : WritesFit rules call) (next : ∀ answer, KeepsTexts rules (rest answer)) :
    KeepsTexts rules (Program.perform call >>= rest) :=
  Program.respects_perform fit fun _ _ => next _

theorem commit_keeps_texts {response refusal : LdapMessage} (written : Bool) :
    KeepsTexts rules (if !written then pure refusal else do
      Backend.persist
      pure response) := by
  split
  · exact texts_pure _
  · exact texts_call (show WritesFit rules .persist from trivial) fun _ => texts_pure _

theorem handle_add_texts {request : LdapMessage} (named : rules.dn request.add.dn)
    (brings : ∀ item ∈ request.add.attributes, rules.FitsRow (item.type, item.values)) :
    KeepsTexts rules (handleAdd server context session request) := by
  unfold handleAdd
  simp only
  apply texts_after_reading (may_write_read_only server session _)
  intro allowed
  split
  · exact texts_pure _
  split
  · exact texts_pure _
  apply texts_lookup
  intro existing _
  split
  · exact texts_pure _
  apply texts_after_reading (empty_or_stored_read_only _)
  intro placed
  split
  · exact texts_pure _
  split
  · exact texts_pure _
  exact texts_call (TextRules.added_entry_fits server.openssl context.salts named brings)
    commit_keeps_texts

theorem handle_modify_texts {request : LdapMessage}
    (brings : ∀ change ∈ request.modify.changes, rules.FitsChange change) :
    KeepsTexts rules (handleModify server context session request) := by
  unfold handleModify
  apply texts_after_reading (may_write_read_only server session _)
  intro allowed
  split
  · exact texts_pure _
  apply texts_lookup
  intro found fits
  cases found with
  | none => exact texts_pure _
  | some entry =>
      unfold modifyFound
      simp only
      split
      · exact texts_pure _
      rename_i succeeded
      split
      · exact texts_pure _
      have changed := (fits entry rfl).changes
        (TextRules.encoded_changes_fit server.openssl context.salts brings) (not_not.mp succeeded)
      exact texts_call changed commit_keeps_texts

theorem handle_delete_texts {request : LdapMessage} :
    KeepsTexts rules (handleDelete server session request) := by
  unfold handleDelete
  simp only
  apply texts_after_reading (may_write_read_only server session _)
  intro allowed
  split
  · exact texts_pure _
  apply texts_lookup
  intro found _
  split
  · exact texts_pure _
  apply texts_call (show WritesFit rules (.hasChildren _) from trivial)
  intro parental
  split
  · exact texts_pure _
  exact texts_call (show WritesFit rules (.remove _) from trivial) commit_keeps_texts

/-- The texts of a rename that it stores. -/
structure RenameTexts (rules : TextRules) (change : ModifyDnRequestData) : Prop where
  target : rules.dn (newDn change)
  naming : ∀ type value, parseRdn change.newRdn = some (type, value) →
    rules.name type ∧ rules.value value

theorem handle_modify_dn_texts {request : LdapMessage}
    (fit : RenameTexts rules request.modifyDn) :
    KeepsTexts rules (handleModifyDn server session request) := by
  unfold handleModifyDn
  simp only
  split
  · exact texts_pure _
  apply texts_after_reading (may_write_both_read_only server session _ _)
  intro allowed
  split
  · exact texts_pure _
  apply texts_lookup
  intro found fits
  split
  · exact texts_pure _
  rename_i entry
  apply texts_after_reading (empty_or_stored_read_only _)
  intro placed
  split
  · exact texts_pure _
  apply texts_after_reading (target_taken_read_only _)
  intro taken
  split
  · exact texts_pure _
  split
  · exact texts_pure _
  rename_i renamed applied
  split
  · exact texts_pure _
  have modifiedFits : WritesFit rules (.modify renamed) :=
    (fits entry rfl).renamed fit.naming applied
  apply texts_call modifiedFits
  intro modified
  split
  · exact texts_pure _
  have targetFits : WritesFit rules (.rename request.modifyDn.dn (newDn request.modifyDn)) :=
    fit.target
  exact texts_call targetFits commit_keeps_texts

/-- The new password of a password modify request. -/
def PasswordTexts (rules : TextRules) (request : LdapMessage) : Prop :=
  ∀ change, decodePasswordModifyValue request.extendedValue = some change →
    ∀ newPassword, change.newPassword = some newPassword → rules.value newPassword

theorem handle_password_modify_texts {request : LdapMessage}
    (fit : PasswordTexts rules request) :
    KeepsTexts rules (handlePasswordModify server context session request) := by
  unfold handlePasswordModify
  simp only
  split
  · exact texts_pure _
  split
  · exact texts_pure _
  split
  · exact texts_pure _
  rename_i change decoded
  split
  · exact texts_pure _
  · exact texts_pure _
  rename_i newPassword _ given
  apply texts_after_reading (SimpleBindAuthenticator.resolve_name_read_only _ _)
  intro resolved
  split
  · exact texts_pure _
  split
  · exact texts_pure _
  apply texts_after_reading (may_change_password_read_only server session _)
  intro allowed
  split
  · exact texts_pure _
  apply texts_after_reading (old_password_read_only server _ _)
  intro accepted
  split
  · exact texts_pure _
  apply texts_lookup
  intro found fits
  split
  · exact texts_pure _
  rename_i entry
  split
  · exact texts_pure _
  rename_i succeeded
  split
  · exact texts_pure _
  have changed := (fits entry rfl).changes
    (TextRules.password_change_fits server.openssl _ (fit change decoded newPassword given))
    (not_not.mp succeeded)
  exact texts_call changed commit_keeps_texts

end Handlers

section Requests

/-- A request that brings only texts of the rule. -/
structure FitsRequest (rules : TextRules) (request : LdapMessage) : Prop where
  add : request.op = .addRequest → rules.dn request.add.dn ∧
    ∀ item ∈ request.add.attributes, rules.FitsRow (item.type, item.values)
  modify : request.op = .modifyRequest → ∀ change ∈ request.modify.changes, rules.FitsChange change
  rename : request.op = .modifyDnRequest → RenameTexts rules request.modifyDn
  password : IsPasswordModify request → PasswordTexts rules request

theorem handle_request_texts {request : LdapMessage} (fit : FitsRequest rules request) :
    KeepsTexts rules (handleRequest server context session request) := by
  have replies {handler : BackendProgram LdapMessage} (keeps : KeepsTexts rules handler) :
      KeepsTexts rules (do let response ← handler; pure (reply session response) :
        BackendProgram (Option Reply)) :=
    Program.respects_then keeps fun _ => texts_pure _
  by_cases isWrite : IsWrite request
  · unfold handleRequest
    rcases isWrite with op | op | op | op | ⟨op, oid⟩
    · obtain ⟨named, brings⟩ := fit.add op
      rw [op]
      exact replies (handle_add_texts named brings)
    · rw [op]
      exact replies (handle_modify_texts (fit.modify op))
    · rw [op]
      exact replies handle_delete_texts
    · rw [op]
      exact replies (handle_modify_dn_texts (fit.rename op))
    · rw [op]
      simp only
      rw [handle_extended_password_modify server context session oid]
      exact replies (handle_password_modify_texts (fit.password ⟨op, oid⟩))
  · exact reading_keeps_texts (handle_other_read_only server context session isWrite)

theorem serve_texts {requests : List (RequestContext × LdapMessage)}
    (fit : ∀ request ∈ requests, FitsRequest rules request.2) :
    KeepsTexts rules (serve server session requests) := by
  induction requests generalizing session with
  | nil => exact texts_pure _
  | cons request rest ih =>
      unfold serve
      apply Program.respects_then (handle_request_texts (fit request (by simp)))
      intro outcome
      split
      · exact texts_pure _
      · rename_i reply
        split
        · apply Program.respects_then (ih fun other member => fit other (by simp [member]))
          exact fun _ => texts_pure _
        · exact texts_pure _

end Requests

end Session

end SimpleLdapd
