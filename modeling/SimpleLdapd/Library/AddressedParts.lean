import Mathlib.Data.List.Basic

/-!
# Assignments to the parts of a state

A state is made of parts that keys address. An assignment names a key and a value, and the
part takes the value in its own way or refuses it. A run of assignments does to each part
what the assignments to that part do to it alone, so what stands between them, and in which
order assignments to different parts come, makes no difference.
-/

namespace SimpleLdapd

universe u v w x

variable {Key : Type u} {Value : Type v} {State : Type w} {Part : Key → Type x}

/-- A state that is its parts, no more and no less. -/
structure Parts (State : Type w) (Part : Key → Type x) where
  part : (key : Key) → State → Part key
  put : (key : Key) → Part key → State → State
  part_put : ∀ key content state, part key (put key content state) = content
  part_put_other : ∀ key other content state, other ≠ key →
    part other (put key content state) = part other state
  ext : ∀ left right, (∀ key, part key left = part key right) → left = right

namespace Parts

variable (parts : Parts State Part) (take : (key : Key) → Part key → Value → Option (Part key))

def assign (state : State) (assignment : Key × Value) : Option State :=
  (take assignment.1 (parts.part assignment.1 state) assignment.2).map
    fun content => parts.put assignment.1 content state

/-- The values that go to one part. -/
def own [DecidableEq Key] (key : Key) (assignments : List (Key × Value)) : List Value :=
  assignments.filterMap fun assignment =>
    if assignment.1 = key then some assignment.2 else none

variable [DecidableEq Key]

theorem own_cons_same (key : Key) (value : Value) (rest : List (Key × Value)) :
    own key ((key, value) :: rest) = value :: own key rest := by
  simp [own]

theorem own_cons_other {key other : Key} (different : other ≠ key) (value : Value)
    (rest : List (Key × Value)) : own other ((key, value) :: rest) = own other rest := by
  simp [own, different.symm]

/-- What a run leaves, part by part. -/
theorem run_iff (assignments : List (Key × Value)) (state final : State) :
    assignments.foldlM (parts.assign take) state = some final ↔
      ∀ key, (own key assignments).foldlM (take key) (parts.part key state) =
        some (parts.part key final) := by
  induction assignments generalizing state with
  | nil =>
      constructor
      · intro same key
        rw [Option.some.inj same]
        rfl
      · intro same
        exact congrArg some (parts.ext state final fun key => Option.some.inj (same key))
  | cons assignment rest ih =>
      rcases assignment with ⟨here, value⟩
      rw [List.foldlM_cons]
      cases taken : take here (parts.part here state) value with
      | none =>
          constructor
          · intro ran
            rw [assign, taken] at ran
            cases ran
          · intro ran
            have own := ran here
            rw [own_cons_same, List.foldlM_cons, taken] at own
            cases own
      | some content =>
          have assigned : parts.assign take state (here, value) =
              some (parts.put here content state) := by
            rw [assign, taken]
            rfl
          rw [assigned, Option.bind_eq_bind, Option.bind_some, ih]
          apply forall_congr'
          intro key
          by_cases same : key = here
          · subst same
            rw [own_cons_same, List.foldlM_cons, taken, parts.part_put]
            rfl
          · rw [own_cons_other same, parts.part_put_other here key content state same]

/-- Assignments that give every part the same values make the same run. -/
theorem run_congr {left right : List (Key × Value)} (same : ∀ key, own key left = own key right)
    (state : State) :
    left.foldlM (parts.assign take) state = right.foldlM (parts.assign take) state := by
  apply Option.ext
  intro final
  rw [run_iff, run_iff]
  simp only [same]

end Parts

section Readings

variable {Content : Type x} (read : Value → Option Content) (join : Content → Content → Content)

/-- A run that joins what it reads reads every value, and joins what it has read. -/
theorem joined_part (start : Content) (values : List Value) :
    values.foldlM (fun content value => (read value).map (join content)) start =
      (values.mapM read).map fun contents => contents.foldl join start := by
  induction values generalizing start with
  | nil => rfl
  | cons value rest ih =>
      rw [List.foldlM_cons, List.mapM_cons]
      cases read value with
      | none => rfl
      | some content =>
          simp only [Option.map_some, Option.bind_eq_bind, Option.bind_some, ih]
          cases rest.mapM read with
          | none => rfl
          | some contents => rfl

theorem joined_overwriting (start : Content) (contents : List Content) :
    contents.foldl (fun _ content => content) start = contents.getLastD start := by
  induction contents generalizing start with
  | nil => rfl
  | cons content rest ih => rw [List.foldl_cons, ih, List.getLastD_cons]

end Readings

end SimpleLdapd
