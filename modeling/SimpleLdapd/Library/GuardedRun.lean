import Mathlib.Data.List.Infix

/-!
# Runs whose steps all meet a condition

A run folds its steps over a state. When a step from a good state reaches a good
state exactly if it meets a condition there, a whole run stays good exactly if
each of its steps meets the condition in the state it is taken in.
-/

namespace SimpleLdapd

variable {State Step : Type*}

/-- Every step meets the condition in the state it is taken in. -/
def Along (apply : State → Step → State) (meets : State → Step → Prop) :
    State → List Step → Prop
  | _, [] => True
  | state, step :: rest => meets state step ∧ Along apply meets (apply state step) rest

instance decidableAlong (apply : State → Step → State) (meets : State → Step → Prop)
    [∀ state step, Decidable (meets state step)] :
    (state : State) → (steps : List Step) → Decidable (Along apply meets state steps)
  | _, [] => isTrue trivial
  | state, step :: rest =>
      have := decidableAlong apply meets (apply state step) rest
      inferInstanceAs (Decidable (_ ∧ _))

theorem along_concat {apply : State → Step → State} {meets : State → Step → Prop} {state : State}
    {steps : List Step} {step : Step} :
    Along apply meets state (steps ++ [step]) ↔
      Along apply meets state steps ∧ meets (steps.foldl apply state) step := by
  induction steps generalizing state with
  | nil => simp [Along]
  | cons first rest ih => simp only [List.cons_append, Along, List.foldl_cons, ih, and_assoc]

theorem along_of_prefixes {apply : State → Step → State} {meets : State → Step → Prop}
    {state : State} {steps : List Step}
    (each : ∀ earlier step, earlier ++ [step] <+: steps → meets (earlier.foldl apply state) step) :
    Along apply meets state steps := by
  induction steps generalizing state with
  | nil => trivial
  | cons first rest ih =>
      refine ⟨each [] first (List.prefix_append [first] rest), ih ?_⟩
      intro earlier step before
      exact each (first :: earlier) step (List.cons_prefix_cons.mpr ⟨rfl, before⟩)

/-- A step of a run that grew by one is the new step, or a step of the shorter run with
the new one after it. -/
theorem exists_step_concat {steps : List Step} {last : Step}
    {Holds : List Step → Step → List Step → Prop} :
    (∃ before step after, steps ++ [last] = before ++ step :: after ∧ Holds before step after) ↔
      Holds steps last [] ∨
        ∃ before step after, steps = before ++ step :: after ∧
          Holds before step (after ++ [last]) := by
  constructor
  · intro found
    rcases found with ⟨before, step, after, split, holds⟩
    rcases List.eq_nil_or_concat after with ending | ⟨later, final, ending⟩
    · left
      rw [ending] at split holds
      have same := List.append_inj' split rfl
      rw [same.1, List.singleton_inj.mp same.2]
      exact holds
    · right
      rw [ending, List.concat_eq_append, ← List.cons_append, ← List.append_assoc] at split
      have same := List.append_inj' split rfl
      rw [ending, List.concat_eq_append, ← List.singleton_inj.mp same.2] at holds
      exact ⟨before, step, later, same.1, holds⟩
  · intro found
    rcases found with here | ⟨before, step, after, split, holds⟩
    · exact ⟨steps, last, [], rfl, here⟩
    · exact ⟨before, step, after ++ [last], by rw [split]; simp, holds⟩

/-- The run rule; `Valid` holds of every state reached and `usable` of every step. -/
theorem stays_good_iff_along {apply : State → Step → State} {meets : State → Step → Prop}
    (Good Valid : State → Prop) (usable : Step → Prop)
    (kept : ∀ state step, Valid state → Valid (apply state step))
    (exact : ∀ state step, Valid state → Good state → usable step →
      (Good (apply state step) ↔ meets state step))
    {state : State} (valid : Valid state) (good : Good state) {steps : List Step}
    (fit : ∀ step ∈ steps, usable step) :
    (∀ earlier, earlier <+: steps → Good (earlier.foldl apply state)) ↔
      Along apply meets state steps := by
  induction steps generalizing state with
  | nil =>
      simp only [Along, iff_true, List.prefix_nil]
      intro earlier none
      rw [none]
      exact good
  | cons step rest ih =>
      have here := exact state step valid good (fit step (by simp))
      have later (reached : Good (apply state step)) :=
        ih (kept state step valid) reached fun other member => fit other (by simp [member])
      constructor
      · intro stays
        have reached : Good (apply state step) := stays [step] (List.prefix_iff_eq_take.mpr rfl)
        refine ⟨here.mp reached, (later reached).mp ?_⟩
        intro earlier before
        exact stays (step :: earlier) (List.cons_prefix_cons.mpr ⟨rfl, before⟩)
      · intro along earlier before
        cases earlier with
        | nil => exact good
        | cons first earlier =>
            obtain ⟨same, inside⟩ := List.cons_prefix_cons.mp before
            rw [same, List.foldl_cons]
            exact (later (here.mpr along.1)).mpr along.2 earlier inside

/-- The invariant rule: what a step keeps when it meets the condition holds in every
state that a run of such steps reaches. -/
theorem invariant_along {apply : State → Step → State} {meets : State → Step → Prop}
    (Invariant : State → Prop)
    (kept : ∀ state step, Invariant state → meets state step → Invariant (apply state step))
    {state : State} (holds : Invariant state) {steps : List Step}
    (along : Along apply meets state steps) {earlier : List Step} (before : earlier <+: steps) :
    Invariant (earlier.foldl apply state) := by
  induction earlier generalizing state steps with
  | nil => exact holds
  | cons step earlier ih =>
      obtain ⟨later, split⟩ := before
      rw [← split] at along
      exact ih (kept state step holds along.1) along.2 (List.prefix_append earlier later)

end SimpleLdapd
