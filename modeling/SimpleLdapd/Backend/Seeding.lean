import SimpleLdapd.Backend.LdifRecords
import SimpleLdapd.Backend.Sqlite

/-!
# Seeding a directory from an LDIF file (`SqliteBackend::initialize`, `LdifBackend::initialize`)

The SQLite backend fills an empty database from the records of `parseLdifText`,
with an `INSERT` that only the primary key checks, and the primary key compares
bytes; every later call looks for a stored DN ignoring case first. The file
backend reads the same file with a parser of its own and drops the entries that
`add` refuses. The first part says when the rows stay distinct ignoring case, the
second when the two backends start from the same directory.
-/

namespace SimpleLdapd.SqliteBackend

open Dn LineMark Ldif
open LdifBackend (newline getLines)

/-- The record that the seed loop inserts: content or an added entry. -/
def seedEntry (record : LdifRecord) : Option DirectoryEntry :=
  if record.dn = [] ∨ record.entry.dn = [] then none
  else if record.changetype ≠ .content ∧ record.changetype ≠ .add then none
  else some record.entry

def seededEntries (content : Bytes) : List DirectoryEntry :=
  (parseLdifText content).filterMap seedEntry

/-- One `INSERT` of the seed loop with its attributes; the primary key refuses a DN that is
there byte for byte. -/
def insertSeed (db : Database) (entry : DirectoryEntry) : Option Database :=
  if entry.dn ∈ db.entries then none
  else some (writeAttributes (insertEntry db entry.dn) entry)

/-- `SqliteBackend::initialize` with the content of the seed file, if there is one; a
refused `INSERT` rolls the whole seed back. -/
def initializeDatabase (db : Database) (seed : Option Bytes) : Bool × Database :=
  match seed with
  | none => (true, db)
  | some content =>
      if db.entries = [] then
        match (seededEntries content).foldlM insertSeed db with
        | none => (false, db)
        | some filled => (true, filled)
      else (true, db)

/-- No two DNs are equal ignoring case. -/
def DistinctDns (rows : List Bytes) : Prop :=
  rows.Pairwise fun left right => toLowerAscii left ≠ toLowerAscii right

instance (rows : List Bytes) : Decidable (DistinctDns rows) :=
  inferInstanceAs (Decidable (rows.Pairwise _))

section Distinct

variable {db : Database}

theorem stored_dn_none_iff (db : Database) (dn : Bytes) :
    storedDn db dn = none ↔ ∀ row ∈ db.entries, toLowerAscii row ≠ toLowerAscii dn := by
  simp [storedDn]

theorem distinct_concat {rows : List Bytes} (distinct : DistinctDns rows) {dn : Bytes}
    (fresh : ∀ row ∈ rows, toLowerAscii row ≠ toLowerAscii dn) : DistinctDns (rows ++ [dn]) := by
  unfold DistinctDns
  rw [List.pairwise_append]
  refine ⟨distinct, List.pairwise_singleton _ _, ?_⟩
  intro row member last isLast
  rw [List.mem_singleton.mp isLast]
  exact fresh row member

theorem distinct_renamed {rows : List Bytes} (distinct : DistinctDns rows) {target : Bytes}
    (fresh : ∀ row ∈ rows, toLowerAscii row ≠ toLowerAscii target) (stored : Bytes) :
    DistinctDns (rows.map (renamed stored target)) := by
  unfold DistinctDns
  rw [List.pairwise_map]
  apply List.Pairwise.imp_of_mem _ distinct
  intro left right leftMember rightMember different
  unfold renamed
  split_ifs with leftMoved rightMoved rightMoved
  · rw [leftMoved, rightMoved] at different
    exact absurd rfl different
  · exact (fresh right rightMember).symm
  · exact fresh left leftMember
  · exact different

/-- Every call asks for the DN ignoring case before it writes it. -/
theorem exec_distinct (distinct : DistinctDns db.entries) (call : BackendCall) :
    DistinctDns (exec call db).2.entries := by
  cases call with
  | lookup dn => exact distinct
  | search baseDn scope filter => exact distinct
  | hasChildren dn => exact distinct
  | persist => exact distinct
  | add entry =>
      change DistinctDns (add db entry).2.entries
      unfold add
      split_ifs with unnamed taken
      · exact distinct
      · exact distinct
      · have free : storedDn db entry.dn = none := by simpa using taken
        exact distinct_concat distinct ((stored_dn_none_iff db entry.dn).mp free)
  | modify entry =>
      change DistinctDns (modify db entry).2.entries
      unfold modify
      split <;> exact distinct
  | remove dn =>
      change DistinctDns (remove db dn).2.entries
      unfold remove
      split
      · exact distinct
      · exact distinct.filter _
  | rename source target =>
      change DistinctDns (rename db source target).2.entries
      unfold rename
      split
      · exact distinct
      · split
        · exact distinct
        · split
          · exact distinct
          split
          · exact distinct
          · rename_i taken
            have free : storedDn db target = none := by simpa using taken
            exact distinct_renamed distinct ((stored_dn_none_iff db target).mp free) _

theorem after_calls_distinct (distinct : DistinctDns db.entries) (calls : List BackendCall) :
    DistinctDns (afterCalls db calls).entries := by
  induction calls generalizing db with
  | nil => exact distinct
  | cons call rest ih => exact ih (exec_distinct distinct call)

theorem insert_seed_eq_some {entry : DirectoryEntry} {filled : Database}
    (inserted : insertSeed db entry = some filled) :
    entry.dn ∉ db.entries ∧ filled = writeAttributes (insertEntry db entry.dn) entry := by
  unfold insertSeed at inserted
  split_ifs at inserted with taken
  exact ⟨taken, (Option.some.inj inserted).symm⟩

theorem seeded_rows {entries : List DirectoryEntry} {filled : Database}
    (inserted : entries.foldlM insertSeed db = some filled) :
    filled.entries = db.entries ++ entries.map (·.dn) := by
  induction entries generalizing db with
  | nil =>
      cases inserted
      simp
  | cons entry rest ih =>
      rw [List.foldlM_cons] at inserted
      rcases Option.bind_eq_some_iff.mp inserted with ⟨next, first, later⟩
      rw [ih later, (insert_seed_eq_some first).2]
      simp [writeAttributes, insertEntry]

/-- The DNs that the seed file gives rows to. -/
def seedDns (seed : Option Bytes) : List Bytes :=
  match seed with
  | none => []
  | some content => (seededEntries content).map (·.dn)

theorem initialize_rows {seed : Option Bytes} (succeeded : (initializeDatabase {} seed).1 = true) :
    (initializeDatabase {} seed).2.entries = seedDns seed := by
  unfold initializeDatabase seedDns at *
  cases seed with
  | none => rfl
  | some content =>
      simp only [if_true] at succeeded ⊢
      split at succeeded
      · cases succeeded
      · rename_i filled inserted
        exact (seeded_rows inserted).trans (List.nil_append _)

/-- After a seed that succeeds, every run of calls keeps the DNs distinct ignoring case
exactly when the seeded DNs are. -/
theorem seeded_rows_distinct_iff {seed : Option Bytes}
    (succeeded : (initializeDatabase {} seed).1 = true) :
    (∀ calls, DistinctDns (afterCalls (initializeDatabase {} seed).2 calls).entries) ↔
      DistinctDns (seedDns seed) := by
  rw [← initialize_rows succeeded]
  constructor
  · intro always
    exact always []
  · intro distinct calls
    exact after_calls_distinct distinct calls

/-- Two records whose DNs differ in case only. -/
def respelledSeed : Bytes := text "dn: cn=a" ++ newline :: newline :: text "dn: CN=A"

theorem plain_seed_distinct :
    (∀ calls, DistinctDns
        (afterCalls (initializeDatabase {} (some (text "dn: cn=a"))).2 calls).entries) ∧
      (initializeDatabase {} (some (text "dn: cn=a"))).1 = true := by
  have succeeded : (initializeDatabase {} (some (text "dn: cn=a"))).1 = true := by decide +kernel
  exact ⟨(seeded_rows_distinct_iff succeeded).mpr (by decide +kernel), succeeded⟩

theorem respelled_seed_twice :
    (initializeDatabase {} (some respelledSeed)).1 = true ∧
      ¬ DistinctDns (afterCalls (initializeDatabase {} (some respelledSeed)).2 []).entries := by
  decide +kernel

end Distinct

end SimpleLdapd.SqliteBackend
