import SimpleLdapd.Auth.Bind
import SimpleLdapd.Protocol.FilterText

/-!
# Finding an account by its name

`findAccount` splices the name into the text of a filter and parses it again. The
four bytes it refuses are the only ones that could change the tree: with any other
name the filter asks for one of two attributes to have exactly this value.
-/

namespace SimpleLdapd.SimpleBindAuthenticator

open Dn SimpleLdapd.Filter

variable (config : LdapConfig)

/-- An entry of the subtree that carries the name. -/
def AccountNamed (name : Bytes) (pair : Bytes × DirectoryEntry) : Prop :=
  dnEndsWith pair.1 config.baseDn = true ∧
    (HasValue pair.2 (text "uid") name ∨ HasValue pair.2 (text "sAMAccountName") name)

/-- The tree the account filter is meant to be. -/
def accountTree (name : Bytes) : FilterNode where
  type := .or
  children :=
    [{ type := .equality, attributeName := text "uid", value := name },
      { type := .equality, attributeName := text "sAMAccountName", value := name }]

theorem account_tree_printable {name : Bytes} (plain : PlainValue name) :
    Printable (accountTree name) := by
  apply Printable.or _ (by simp)
  intro child member
  simp only [List.mem_cons, List.not_mem_nil, or_false] at member
  rcases member with rfl | rfl
  · exact Printable.equality _ _ (plain_name (by decide) (by decide +kernel)) plain
  · exact Printable.equality _ _ (plain_name (by decide) (by decide +kernel)) plain

theorem account_filter_tree {name : Bytes} (plain : PlainValue name) :
    (accountFilter name).valid = true ∧ (accountFilter name).root = accountTree name := by
  have printed : render (accountTree name) =
      text "(|(uid=" ++ name ++ text ")(sAMAccountName=" ++ name ++ text "))" := by
    simp [accountTree, render, renderAll, text]
  have parsed := parse_rendered (account_tree_printable plain)
  rwa [printed] at parsed

theorem account_filter_matches {name : Bytes} (plain : PlainValue name) (entry : DirectoryEntry) :
    (accountFilter name).matchesEntry entry = true ↔
      HasValue entry (text "uid") name ∨ HasValue entry (text "sAMAccountName") name := by
  obtain ⟨valid, root⟩ := account_filter_tree plain
  rw [SearchFilter.matchesEntry, valid, root, Bool.true_and, accountTree, nodeMatches]
  simp only [anyMatches, Bool.or_false, Bool.or_eq_true, node_matches_equality]

/-- A list without repeats leaves one element behind a filter if only one passes it. -/
theorem filter_singleton_iff {Item : Type*} {items : List Item} (apart : items.Nodup)
    (keep : Item → Bool) (item : Item) :
    items.filter keep = [item] ↔
      item ∈ items ∧ keep item = true ∧ ∀ other ∈ items, keep other = true → other = item := by
  constructor
  · intro only
    have member : item ∈ items.filter keep := by simp [only]
    obtain ⟨inside, kept⟩ := List.mem_filter.mp member
    refine ⟨inside, kept, ?_⟩
    intro other otherInside otherKept
    have otherMember := List.mem_filter.mpr ⟨otherInside, otherKept⟩
    rw [only] at otherMember
    exact List.mem_singleton.mp otherMember
  · rintro ⟨inside, kept, alone⟩
    apply List.perm_singleton.mp
    rw [List.perm_ext_iff_of_nodup (apart.filter keep) (List.nodup_singleton item)]
    intro other
    rw [List.mem_filter, List.mem_singleton]
    constructor
    · rintro ⟨otherInside, otherKept⟩
      exact alone other otherInside otherKept
    · rintro rfl
      exact ⟨inside, kept⟩

theorem entries_nodup (store : MemoryStore) : store.entries.Nodup := by
  apply (OrderedMap.keys_apart store).imp
  rintro left right apart rfl
  exact apart rfl

theorem find_account_refused {name : Bytes} (refused : ¬ (name ≠ [] ∧ PlainValue name)) :
    findAccount config name = pure none := by
  have guarded : (name = [] || name.any fun byte => byte ∈ text "()*\\") = true := by
    unfold PlainValue at refused
    push Not at refused
    by_cases empty : name = []
    · simp [empty]
    · simpa [empty] using refused empty
  rw [findAccount, if_pos guarded]

theorem run_find_account {name : Bytes} (named : name ≠ []) (plain : PlainValue name)
    (store : MemoryStore) (dn : Bytes) :
    ((findAccount config name).run MemoryBackend.exec store).1 = some dn ↔
      ∃ entry, MemoryBackend.search store config.baseDn .subtree (accountFilter name) = [entry] ∧
        entry.dn = dn := by
  have spliced : ¬ (name = [] || name.any fun byte => byte ∈ text "()*\\") = true := by
    unfold PlainValue at plain
    simpa [named] using plain
  unfold findAccount
  rw [if_neg spliced]
  simp only [Program.run_bind, Backend.search, Program.run_perform, MemoryBackend.exec]
  split
  · rename_i entry only
    rw [Program.run_pure, only]
    simp
  · rename_i several
    rw [Program.run_pure]
    constructor
    · intro impossible
      cases impossible
    · rintro ⟨entry, only, _⟩
      exact absurd only (several entry)

/-- A name is found exactly when it can be spliced and one entry of the subtree carries it. -/
theorem find_account_iff (name : Bytes) (store : MemoryStore) (dn : Bytes) :
    ((findAccount config name).run MemoryBackend.exec store).1 = some dn ↔
      name ≠ [] ∧ (∀ byte ∈ name, byte ∉ text "()*\\") ∧
        ∃ pair ∈ store.entries, AccountNamed config name pair ∧
          (∀ other ∈ store.entries, AccountNamed config name other → other = pair) ∧
          pair.2.dn = dn := by
  by_cases spliced : name ≠ [] ∧ PlainValue name
  · obtain ⟨named, plain⟩ := spliced
    have kept (pair : Bytes × DirectoryEntry) :
        (Backend.inScope .subtree pair.1 config.baseDn &&
          (accountFilter name).matchesEntry pair.2) = true ↔ AccountNamed config name pair := by
      rw [Bool.and_eq_true, account_filter_matches plain]
      rfl
    rw [run_find_account config named plain]
    simp only [MemoryBackend.search, List.map_eq_singleton_iff]
    constructor
    · rintro ⟨entry, ⟨pair, only, rfl⟩, same⟩
      obtain ⟨stored, carries, alone⟩ := (filter_singleton_iff (entries_nodup store) _ _).mp only
      refine ⟨named, plain, pair, stored, (kept pair).mp carries, ?_, same⟩
      intro other otherStored otherNamed
      exact alone other otherStored ((kept other).mpr otherNamed)
    · rintro ⟨_, _, pair, stored, carries, alone, same⟩
      refine ⟨pair.2, ⟨pair, ?_, rfl⟩, same⟩
      apply (filter_singleton_iff (entries_nodup store) _ _).mpr
      refine ⟨stored, (kept pair).mpr carries, ?_⟩
      intro other otherStored otherKept
      exact alone other otherStored ((kept other).mp otherKept)
  · rw [find_account_refused config spliced, Program.run_pure]
    constructor
    · intro impossible
      cases impossible
    · rintro ⟨named, plain, _⟩
      exact absurd ⟨named, plain⟩ spliced

end SimpleLdapd.SimpleBindAuthenticator
