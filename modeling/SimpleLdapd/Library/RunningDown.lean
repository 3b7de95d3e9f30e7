import Mathlib.Data.Multiset.AddSub
import Mathlib.Logic.Hydra
import Mathlib.Order.RelClasses
import Mathlib.Tactic.Abel
import SimpleLdapd.Library.AtomicProgram

/-!
# Systems of moves that run down

A system makes moves, each of which may be impossible where it stands. What every
possible move keeps holds wherever the system comes to. When moreover each move lowers a
well-founded measure and some move is possible until the end is reached, the end is
reached whatever the order of the moves. Where some moves are free, made by an environment
that cannot be made to stop, the others are counted: they come to an end if a free move
leaves the measure alone. Programs over atomic operations bring such a measure along: an
operation performed leaves a part of the program.
-/

namespace SimpleLdapd

universe u v w

section Moves

variable {State Move : Type*} (step : State → Move → Option State)

/-- The moves one after the other, each possible where it is made. -/
def moveAll : State → List Move → Option State
  | state, [] => some state
  | state, move :: rest => (step state move).bind fun next => moveAll next rest

variable {step}

theorem move_all_append (start : State) (first second : List Move) :
    moveAll step start (first ++ second) =
      (moveAll step start first).bind fun middle => moveAll step middle second := by
  induction first generalizing start with
  | nil => rfl
  | cons move rest ih =>
      simp only [List.cons_append, moveAll]
      cases step start move with
      | none => rfl
      | some next => exact ih next

/-- The invariant rule. -/
theorem moves_keep (Invariant : State → Prop)
    (kept : ∀ state move next, Invariant state → step state move = some next → Invariant next)
    {start reached : State} {moves : List Move} (holds : Invariant start)
    (moved : moveAll step start moves = some reached) : Invariant reached := by
  induction moves generalizing start with
  | nil =>
      cases moved
      exact holds
  | cons move rest ih =>
      obtain ⟨next, here, later⟩ := Option.bind_eq_some_iff.mp moved
      exact ih (kept start move next holds here) later

variable (step) (Ended : State → Prop)

/-- Whatever moves are made, the system comes to an end, and it does not stop before. -/
inductive AlwaysEnds : State → Prop where
  | ended {state : State} (here : Ended state) : AlwaysEnds state
  | goes {state : State} (possible : ∃ move next, step state move = some next)
      (ends : ∀ move next, step state move = some next → AlwaysEnds next) : AlwaysEnds state

variable {step Ended}

theorem AlwaysEnds.mono {Weaker : State → Prop} (implies : ∀ state, Ended state → Weaker state)
    {state : State} (ends : AlwaysEnds step Ended state) : AlwaysEnds step Weaker state := by
  induction ends with
  | ended here => exact AlwaysEnds.ended (implies _ here)
  | goes possible _ ih => exact AlwaysEnds.goes possible ih

/-- The rule: until the end some move is possible, and each one lowers the measure. -/
theorem always_ends {Measure : Type*} {lower : Measure → Measure → Prop}
    (wellFounded : WellFounded lower) (measure : State → Measure) (Within : State → Prop)
    (kept : ∀ state move next, Within state → ¬ Ended state → step state move = some next →
      Within next)
    (lowers : ∀ state move next, Within state → ¬ Ended state → step state move = some next →
      lower (measure next) (measure state))
    (possible : ∀ state, Within state → ¬ Ended state → ∃ move next, step state move = some next)
    {state : State} (within : Within state) :
    AlwaysEnds step (fun reached => Ended reached ∧ Within reached) state := by
  induction hits : measure state using wellFounded.induction generalizing state with
  | _ level ih =>
      by_cases here : Ended state
      · exact AlwaysEnds.ended ⟨here, within⟩
      · apply AlwaysEnds.goes (possible state within here)
        intro move next moved
        have falls := lowers state move next within here moved
        rw [hits] at falls
        exact ih (measure next) falls (kept state move next within here moved) rfl

section Environment

variable (step) (free : Move → Bool)

/-- A move of the system behind any number of free ones. -/
def paced (state : State) (round : List Move × Move) : Option State :=
  if round.1.all free && !free round.2 then moveAll step state (round.1 ++ [round.2]) else none

variable {step free}

theorem paced_eq_some_iff {state next : State} {waits : List Move} {move : Move} :
    paced step free state (waits, move) = some next ↔
      (∀ wait ∈ waits, free wait = true) ∧ free move = false ∧
        ∃ middle, moveAll step state waits = some middle ∧ step middle move = some next := by
  unfold paced
  split
  · rename_i allowed
    simp only [Bool.and_eq_true, List.all_eq_true, Bool.not_eq_true'] at allowed
    simp only [move_all_append, Option.bind_eq_some_iff, moveAll, Option.some.injEq,
      exists_eq_right]
    exact ⟨fun moved => ⟨allowed.1, allowed.2, moved⟩, fun moved => moved.2.2⟩
  · rename_i refused
    simp only [Bool.and_eq_true, List.all_eq_true, Bool.not_eq_true'] at refused
    refine ⟨nofun, ?_⟩
    intro moved
    exact absurd ⟨moved.1, moved.2.1⟩ refused

/-- The rule with an environment: until the end is reached some move is possible, if need
be behind free ones, and each one lowers the measure, which the free ones leave alone. -/
theorem paced_always_ends {Measure : Type*} {lower : Measure → Measure → Prop}
    (wellFounded : WellFounded lower) (measure : State → Measure) (Within : State → Prop)
    (kept : ∀ state move next, Within state → ¬ Ended state → step state move = some next →
      Within next)
    (waits : ∀ state move next, Within state → ¬ Ended state → free move = true →
      step state move = some next → measure next = measure state ∧ ¬ Ended next)
    (lowers : ∀ state move next, Within state → ¬ Ended state → free move = false →
      step state move = some next → lower (measure next) (measure state))
    (possible : ∀ state, Within state → ¬ Ended state →
      ∃ round next, paced step free state round = some next)
    {state : State} (within : Within state) :
    AlwaysEnds (paced step free) (fun reached => Ended reached ∧ Within reached) state := by
  have waited (moves : List Move) (state middle : State) (holds : Within state)
      (going : ¬ Ended state) (all_free : ∀ move ∈ moves, free move = true)
      (moved : moveAll step state moves = some middle) :
      Within middle ∧ ¬ Ended middle ∧ measure middle = measure state := by
    induction moves generalizing state with
    | nil =>
        cases moved
        exact ⟨holds, going, rfl⟩
    | cons move rest ih =>
        obtain ⟨next, here, later⟩ := Option.bind_eq_some_iff.mp moved
        obtain ⟨still, on⟩ := waits state move next holds going (all_free move (by simp)) here
        obtain ⟨inside, going, same⟩ := ih next (kept state move next holds going here) on
          (fun other member => all_free other (List.mem_cons_of_mem move member)) later
        exact ⟨inside, going, same.trans still⟩
  apply always_ends wellFounded measure Within _ _ possible within
  · intro state round next holds going moved
    obtain ⟨all_free, _, middle, before, here⟩ := paced_eq_some_iff.mp moved
    obtain ⟨inside, on, _⟩ := waited round.1 state middle holds going all_free before
    exact kept middle round.2 next inside on here
  · intro state round next holds going moved
    obtain ⟨all_free, own, middle, before, here⟩ := paced_eq_some_iff.mp moved
    obtain ⟨inside, on, same⟩ := waited round.1 state middle holds going all_free before
    rw [← same]
    exact lowers middle round.2 next inside on own here

end Environment

end Moves

namespace Program

variable {Op : Type u} {Result : Op → Type v} {Value : Type w}

/-- What is left of a program once its next operation is performed. -/
def Remains (rest program : Program Op Result Value) : Prop :=
  ∃ op next answer, program = call op next ∧ rest = next answer

theorem remains_well_founded :
    WellFounded (Remains : Program Op Result Value → Program Op Result Value → Prop) := by
  constructor
  intro program
  induction program with
  | done value =>
      constructor
      intro rest remains
      obtain ⟨op, next, answer, impossible, _⟩ := remains
      cases impossible
  | call op next ih =>
      constructor
      intro rest remains
      obtain ⟨_, _, answer, same, left⟩ := remains
      cases same
      rw [left]
      exact ih answer

/-- Programs performed side by side: one of them lost an operation, or a number got lower. -/
def Lowered (left right : Nat × Multiset (Program Op Result Value)) : Prop :=
  Prod.Lex (· < ·) (Relation.CutExpand Remains) left right

theorem lowered_well_founded :
    WellFounded (Lowered : Nat × Multiset (Program Op Result Value) → _ → Prop) :=
  wellFounded_lt.prod_lex remains_well_founded.cutExpand

end Program

section Lists

variable {Item Part : Type*}

theorem set_split {items : List Item} {index : Nat} {old : Item}
    (there : items[index]? = some old) (new : Item) :
    ∃ front back, items = front ++ old :: back ∧ items.set index new = front ++ new :: back := by
  obtain ⟨inside, same⟩ := List.getElem?_eq_some_iff.mp there
  refine ⟨items.take index, items.drop (index + 1), ?_, ?_⟩
  · rw [← same, List.getElem_cons_drop, List.take_append_drop]
  · rw [List.set_eq_take_append_cons_drop, if_pos inside]

/-- One item exchanged in a sum. -/
theorem sum_map_set (cost : Item → Nat) {items : List Item} {index : Nat} {old : Item}
    (there : items[index]? = some old) (new : Item) :
    ((items.set index new).map cost).sum + cost old = (items.map cost).sum + cost new := by
  obtain ⟨front, back, split, exchanged⟩ := set_split there new
  rw [exchanged, split]
  simp only [List.map_append, List.map_cons, List.sum_append, List.sum_cons]
  omega

/-- One item with a part exchanged for one with another part. -/
theorem filter_map_set (part : Item → Option Part) {items : List Item} {index : Nat} {old : Item}
    (there : items[index]? = some old) (new : Item) {oldPart newPart : Part}
    (had : part old = some oldPart)
    (has : part new = some newPart) :
    ((items.set index new).filterMap part : Multiset Part) + {oldPart} =
      (items.filterMap part : Multiset Part) + {newPart} := by
  obtain ⟨front, back, split, exchanged⟩ := set_split there new
  rw [exchanged, split]
  simp only [List.filterMap_append, List.filterMap_cons, had, has, ← Multiset.coe_add,
    ← Multiset.cons_coe, ← Multiset.singleton_add]
  abel

theorem filter_map_set_same (part : Item → Option Part) {items : List Item} {index : Nat}
    {old : Item} (there : items[index]? = some old) {new : Item} (same : part new = part old) :
    (items.set index new).filterMap part = items.filterMap part := by
  obtain ⟨front, back, split, exchanged⟩ := set_split there new
  rw [exchanged, split]
  simp only [List.filterMap_append, List.filterMap_cons, same]

end Lists

end SimpleLdapd
