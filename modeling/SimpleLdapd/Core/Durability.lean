import SimpleLdapd.Core.PersistRace
import SimpleLdapd.Core.WrittenTexts

/-!
# Restarts over the LDIF backend (`backend/ldif.cpp`)

A server over a file starts by importing it, serves its sessions in some interleaving and
stops when they have all ended. What it served last is what it starts with next, as long
as the requests bring only texts that a file can hold.
-/

namespace SimpleLdapd

open Dn Message MemoryBackend

namespace LdifBackend

theorem clean_of_printable {value : Bytes} (printable : ∀ byte ∈ value, chr ' ' < byte) :
    Clean value := by
  have kept (byte : Byte) (after : chr ' ' < byte) :
      trimsAtEnd byte = false ∧ trimsAtStart byte = false ∧ byte ≠ newline := by
    revert byte
    decide +kernel
  refine ⟨trim_of_parts ?_ ?_, ?_⟩
  · apply List.rdropWhile_eq_self_iff.mpr
    intro nonempty
    have last := kept _ (printable _ (List.getLast_mem nonempty))
    rw [last.1]
    exact Bool.false_ne_true
  · apply List.dropWhile_eq_self_iff.mpr
    intro inside
    have first := kept _ (printable _ (List.getElem_mem inside))
    rw [first.2.1]
    exact Bool.false_ne_true
  · intro member
    exact (kept newline (printable newline member)).2.2 rfl

/-- The texts that come back from a file as they were. -/
def fileTexts : TextRules where
  dn := Clean
  name name := NameSurvives name ∧ name ≠ text "dn"
  value := Clean
  password := by
    have printable : ∀ byte ∈ text "userPassword", chr ' ' < byte := by decide +kernel
    exact ⟨⟨clean_of_printable printable, by decide +kernel, by decide +kernel⟩, by decide +kernel⟩
  hashed openssl salt value clean := by
    rcases encoded_password_printable openssl salt value with same | printable
    · rwa [same]
    · exact clean_of_printable printable

theorem survives_iff (entry : DirectoryEntry) : Survives entry ↔ fileTexts.Fits entry := by
  constructor
  · intro survives
    exact ⟨survives.1.dn, fun pair member =>
      ⟨⟨survives.1.names pair member, survives.2 pair member⟩, survives.1.present pair member,
        survives.1.values pair member⟩⟩
  · intro fits
    exact ⟨⟨fits.dn, fun pair member => (fits.rows pair member).name.1,
        fun pair member => (fits.rows pair member).written,
        fun pair member => (fits.rows pair member).values⟩,
      fun pair member => (fits.rows pair member).name.2⟩

/-- Same entries, found alike. -/
theorem SameEntries.lookup {left right : MemoryStore} (same : SameEntries left right)
    (invariant : StoreInvariant left) (other : StoreInvariant right) (dn : Bytes) :
    MemoryBackend.lookup left dn = MemoryBackend.lookup right dn := by
  have carried {here there : MemoryStore} (invariant : StoreInvariant here)
      (other : StoreInvariant there)
      (moves : ∀ entry ∈ here.entries.map Prod.snd, entry ∈ there.entries.map Prod.snd)
      {entry : DirectoryEntry} (found : MemoryBackend.lookup here dn = some entry) :
      MemoryBackend.lookup there dn = some entry := by
    obtain ⟨key, stored, _⟩ := lookup_eq_some found
    obtain ⟨pair, member, equal⟩ := List.mem_map.mp
      (moves entry (List.mem_map.mpr ⟨(key, entry), stored, rfl⟩))
    rw [← equal]
    apply other.lookup_key member
    rw [← other.sameDn pair member, equal]
    exact invariant.lookup_dn found
  apply Option.ext
  intro entry
  constructor
  · exact carried invariant other fun entry => (same entry).mp
  · exact carried other invariant fun entry => (same entry).mpr

theorem SameEntries.fits {left right : MemoryStore} (same : SameEntries left right)
    (fits : AllEntries fileTexts.Fits right) : AllEntries fileTexts.Fits left := by
  intro pair member
  obtain ⟨other, stored, equal⟩ := List.mem_map.mp
    ((same pair.2).mp (List.mem_map.mpr ⟨pair, member, rfl⟩))
  rw [← equal]
  exact fits other stored

theorem import_file_invariant (content : Bytes) :
    StoreInvariant (importFile OrderedMap.empty content) := by
  have flushed (state : ImportState) (invariant : StoreInvariant state.store) :
      StoreInvariant (flush state).store := by
    unfold flush
    split
    · exact exec_invariant invariant (.add state.current)
    · exact invariant
  have step (state : ImportState) (line : Bytes) (invariant : StoreInvariant state.store) :
      StoreInvariant (importLine state line).store := by
    unfold importLine
    simp only
    split
    · exact flushed state invariant
    split
    · exact invariant
    split
    · exact flushed state invariant
    split
    · exact invariant
    · exact invariant
  have read (lines : List Bytes) (state : ImportState) (invariant : StoreInvariant state.store) :
      StoreInvariant (lines.foldl importLine state).store := by
    induction lines generalizing state with
    | nil => exact invariant
    | cons line rest ih => exact ih _ (step state line invariant)
  exact flushed _ (read _ { store := OrderedMap.empty } Reachable.empty.invariant)

end LdifBackend

namespace Session

open LdifBackend

section Serving

variable {Thread : Type*} {system : LdifSystem Thread} {thread : Thread}

/-- Every session has ended. -/
def Stopped (system : LdifSystem Thread) : Prop :=
  ∀ thread, ∃ answers, system.threads thread = .done answers

/-- Nobody leaves without the persist that follows a write. -/
theorem Consistent.stopped_saved (consistent : Consistent system) (stopped : Stopped system)
    (thread : Thread) : system.unsaved thread = false := by
  obtain ⟨answers, ended⟩ := stopped thread
  have saves := consistent.saves thread
  rw [ended] at saves
  have clean : savingOf (system.unsaved thread) = .clean := saves
  cases owing : system.unsaved thread with
  | false => rfl
  | true =>
      rw [owing] at clean
      cases clean

/-- While a server serves: its store is one that a file can hold, and either nobody has
written yet, or somebody owes a persist, or one has ended. -/
structure Serving (start : Bytes × MemoryStore) (system : LdifSystem Thread) : Prop where
  consistent : Consistent system
  invariant : StoreInvariant system.store
  fits : AllEntries fileTexts.Fits system.store
  texts : ∀ thread, KeepsTexts fileTexts (system.threads thread)
  untouched : (system.file, system.store) = start ∨
    (∃ thread, system.unsaved thread = true) ∨ system.exported = true

/-- A server that has stopped leaves a file from which it starts again as it was. -/
theorem Serving.stopped_same {file : Bytes}
    (serving : Serving (file, importFile OrderedMap.empty file) system) (stopped : Stopped system) :
    SameEntries (importFile OrderedMap.empty system.file) system.store := by
  have saved := serving.consistent.stopped_saved stopped
  have survive : ∀ pair ∈ system.store.entries, Survives pair.2 :=
    fun pair member => (survives_iff pair.2).mpr (serving.fits pair member)
  rcases serving.untouched with same | ⟨thread, owes⟩ | exported
  · obtain ⟨sameFile, sameStore⟩ := Prod.mk.inj same
    rw [sameFile, sameStore]
    exact fun entry => Iff.rfl
  · rw [saved thread] at owes
    cases owes
  · cases serving.consistent.current with
    | pending thread owes early =>
        rw [saved thread] at owes
        cases owes
    | caught thread captured =>
        have owes := serving.consistent.owes thread (by rw [captured]; exact nofun)
        rw [saved thread] at owes
        cases owes
    | saved idle same =>
        rw [same (Or.inl exported)]
        exact same_entries_of_survive serving.invariant survive

variable [DecidableEq Thread] {start : Bytes × MemoryStore}

/-- One call on the store. -/
theorem performs_serving (serving : Serving start system) {op : BackendCall}
    {next : op.Answer → BackendProgram (Option (List LdapMessage))}
    (outside : system.phases thread = .outside) (running : system.threads thread = .call op next)
    (call : op ≠ .persist) : Serving start (performCall system thread op next) := by
  obtain ⟨allowed, after⟩ := running ▸ serving.texts thread
  refine ⟨performs_consistent serving.consistent outside running call,
    exec_invariant serving.invariant op, writes_fit_keep op system.store allowed serving.fits,
    ?_, ?_⟩
  · intro other
    by_cases same : other = thread
    · subst other
      simp only [performCall, Function.update_self]
      exact after system.store serving.fits
    · simp only [performCall, Function.update_of_ne same]
      exact serving.texts other
  · cases written : wrote op (exec op system.store).1 with
    | true =>
        refine Or.inr (Or.inl ⟨thread, ?_⟩)
        simp [performCall, written]
    | false =>
        have permitted := (running ▸ serving.consistent.saves thread).1
        have unchanged := store_of_not_wrote permitted written
        have kept : Function.update system.unsaved thread
            (system.unsaved thread || false) = system.unsaved := by
          rw [Bool.or_false]
          exact Function.update_eq_self thread system.unsaved
        simpa only [performCall, unchanged, written, kept] using serving.untouched

theorem ldif_step_serving (named : system.path ≠ []) (serving : Serving start system)
    (thread : Thread) : Serving start (ldifStep system thread) := by
  have consistent := ldif_step_consistent named serving.consistent thread
  have owed (inside : system.phases thread ≠ .outside) :
      ∃ thread, system.unsaved thread = true := ⟨thread, serving.consistent.owes thread inside⟩
  have stepped := ldif_step_stepped named thread
  generalize ldifStep system thread = reached at stepped consistent ⊢
  cases stepped with
  | waits => exact serving
  | performs op next outside running call => exact performs_serving serving outside running call
  | locks next outside running free =>
      have owing : ∃ thread, system.unsaved thread = true :=
        ⟨thread, serving.consistent.owing_persist running⟩
      exact ⟨consistent, serving.invariant, serving.fits, serving.texts, Or.inr (Or.inl owing)⟩
  | opens locked =>
      have owing := owed (by rw [locked]; exact nofun)
      exact ⟨consistent, serving.invariant, serving.fits, serving.texts, Or.inr (Or.inl owing)⟩
  | captures opened =>
      have owing := owed (by rw [opened]; exact nofun)
      exact ⟨consistent, serving.invariant, serving.fits, serving.texts, Or.inr (Or.inl owing)⟩
  | writes entries captured =>
      have owing := owed (by rw [captured]; exact nofun)
      exact ⟨consistent, serving.invariant, serving.fits, serving.texts, Or.inr (Or.inl owing)⟩
  | ends next written running =>
      refine ⟨consistent, serving.invariant, serving.fits, ?_, Or.inr (Or.inr rfl)⟩
      intro other
      by_cases same : other = thread
      · subst other
        simp only [endPersist, Function.update_self]
        exact (running ▸ serving.texts thread).2 system.store serving.fits
      · simp only [endPersist, Function.update_of_ne same]
        exact serving.texts other

theorem steps_serving (named : system.path ≠ []) (serving : Serving start system)
    (schedule : List Thread) : Serving start (schedule.foldl ldifStep system) := by
  induction schedule generalizing system with
  | nil => exact serving
  | cons thread rest ih =>
      apply ih _ (ldif_step_serving named serving thread)
      rw [ldif_step_path]
      exact named

end Serving

section Restarts

variable {Thread : Type*}

/-- What one process of the server is asked for, and in which order its sessions get on. -/
structure Lifetime (Thread : Type*) where
  server : Server
  sessions : Thread → SessionState × List (RequestContext × LdapMessage)
  schedule : List Thread

/-- The requests that the file can follow. -/
def Lifetime.Fits (lifetime : Lifetime Thread) : Prop :=
  ∀ thread, ∀ request ∈ (lifetime.sessions thread).2,
    request.2.op ≠ .modifyDnRequest ∧ FitsRequest fileTexts request.2

theorem start_serving {lifetime : Lifetime Thread} (fits : lifetime.Fits) (path : Bytes)
    {file : Bytes} (readable : AllEntries fileTexts.Fits (importFile OrderedMap.empty file)) :
    Serving (file, importFile OrderedMap.empty file)
      (ldifSystem lifetime.server path (importFile OrderedMap.empty file) file
        lifetime.sessions) := by
  refine ⟨⟨?_, fun _ inside => absurd rfl inside, fun _ inside => absurd rfl inside, ?_⟩,
    import_file_invariant file, readable, ?_, Or.inl rfl⟩
  · intro thread
    exact serve_saves (lifetime.sessions thread).1 fun request member =>
      (fits thread request member).1
  · refine .saved (fun _ _ => nofun) ?_
    intro written
    rcases written with ended | ⟨thread, phase⟩
    · cases ended
    · cases phase
  · intro thread
    exact serve_texts fun request member => (fits thread request member).2

variable [DecidableEq Thread]

/-- The process, started on the file and run along its schedule. -/
def Lifetime.run (lifetime : Lifetime Thread) (path file : Bytes) : LdifSystem Thread :=
  lifetime.schedule.foldl ldifStep (ldifSystem lifetime.server path
    (importFile OrderedMap.empty file) file lifetime.sessions)

/-- Processes one after another, each started on the file that the one before it left. -/
def runLifetimes (path : Bytes) : Bytes → List (Lifetime Thread) → List (LdifSystem Thread)
  | _, [] => []
  | file, lifetime :: rest =>
      lifetime.run path file :: runLifetimes path (lifetime.run path file).file rest

/-- Restarts lose nothing: what any process in the line served when it stopped is what
the next one starts with. -/
theorem restarts_lose_nothing {path : Bytes} (named : path ≠ []) {file : Bytes}
    (readable : AllEntries fileTexts.Fits (importFile OrderedMap.empty file))
    {lifetimes : List (Lifetime Thread)} (fits : ∀ lifetime ∈ lifetimes, lifetime.Fits)
    (stopped : ∀ system ∈ runLifetimes path file lifetimes, Stopped system) :
    ∀ system ∈ runLifetimes path file lifetimes, ∀ dn,
      lookup (importFile OrderedMap.empty system.file) dn = lookup system.store dn := by
  induction lifetimes generalizing file with
  | nil => exact fun system member => absurd member List.not_mem_nil
  | cons lifetime rest ih =>
      have serving : Serving (file, importFile OrderedMap.empty file) (lifetime.run path file) :=
        steps_serving named (start_serving (fits lifetime (by simp)) path readable) _
      have same := serving.stopped_same (stopped _ (by simp [runLifetimes]))
      intro system member
      rcases List.mem_cons.mp member with here | later
      · rw [here]
        exact same.lookup (import_file_invariant _) serving.invariant
      · apply ih (same.fits serving.fits)
          (fun other inside => fits other (by simp [inside])) _ system later
        exact fun other inside => stopped other (by simp [runLifetimes, inside])

/-- One process adds an entry, the next one deletes it. -/
def addThenDelete : List (Lifetime Unit) :=
  [{ server := {}
     sessions := fun _ => (administrator,
       [({}, { op := .addRequest
               add := { dn := text "dc=one"
                        attributes := [{ type := text "dc", values := [text "one"] }] } })])
     schedule := List.replicate 10 () },
    { server := {}
      sessions := fun _ => (administrator, [({}, { op := .delRequest, deleteDn := text "dc=one" })])
      schedule := List.replicate 10 () }]

theorem add_then_delete_fits : ∀ lifetime ∈ addThenDelete, lifetime.Fits := by
  have cleanDn : Clean (text "dc=one") := clean_of_printable (by decide +kernel)
  have cleanName : Clean (text "dc") := clean_of_printable (by decide +kernel)
  have cleanValue : Clean (text "one") := clean_of_printable (by decide +kernel)
  intro lifetime member thread request asked
  simp only [addThenDelete, List.mem_cons, List.not_mem_nil, or_false] at member
  rcases member with added | deleted
  · rw [added] at asked
    rw [List.mem_singleton.mp asked]
    refine ⟨nofun, ⟨fun _ => ⟨cleanDn, ?_⟩, nofun, nofun, fun password => nomatch password.1⟩⟩
    intro item inside
    rw [List.mem_singleton.mp inside]
    refine ⟨⟨⟨cleanName, by decide +kernel, by decide +kernel⟩, by decide +kernel⟩, nofun, ?_⟩
    intro value only
    rw [List.mem_singleton.mp only]
    exact cleanValue
  · rw [deleted] at asked
    rw [List.mem_singleton.mp asked]
    exact ⟨nofun, ⟨nofun, nofun, nofun, fun password => nomatch password.1⟩⟩

/-- The entry is there after the first restart and gone after the second. -/
theorem added_entry_survives_restart :
    (∀ system ∈ runLifetimes (text "seed.ldif") [] addThenDelete, ∀ dn,
      lookup (importFile OrderedMap.empty system.file) dn = lookup system.store dn) ∧
      (runLifetimes (text "seed.ldif") [] addThenDelete).map
        (fun system => (lookup system.store (text "dc=one")).isSome) = [true, false] := by
  refine ⟨restarts_lose_nothing (by decide) all_entries_empty add_then_delete_fits ?_,
    by decide +kernel⟩
  intro system member thread
  simp only [runLifetimes, addThenDelete, List.mem_cons, List.not_mem_nil, or_false] at member
  rcases member with first | second
  · rw [first]
    exact ⟨_, rfl⟩
  · rw [second]
    exact ⟨_, rfl⟩

end Restarts

end Session

end SimpleLdapd
