import Mathlib.Data.Nat.Init

/-!
# Loops that scan a text

A scanner reads from the front of a text and leaves the rest of it, or fails. A
loop takes turns until one of them leaves it. A turn that goes on has consumed at
least one symbol, so a loop ends on every text, after one turn more than the text
has symbols at the latest, and what its turns keep holds of its outcome.
-/

namespace SimpleLdapd.Scanning

variable {Symbol Value Next State Outcome : Type}

abbrev Scanner (Symbol Value : Type) := StateT (List Symbol) Option Value

section Scanner

/-- What is left is no longer than the text. -/
def Shortens (scanner : Scanner Symbol Value) : Prop :=
  ∀ text value rest, scanner.run text = some (value, rest) → rest.length ≤ text.length

/-- What is left is shorter than the text. -/
def Consumes (scanner : Scanner Symbol Value) : Prop :=
  ∀ text value rest, scanner.run text = some (value, rest) → rest.length < text.length

variable {scanner : Scanner Symbol Value} {continuation : Value → Scanner Symbol Next}

theorem Consumes.shortens (consumes : Consumes scanner) : Shortens scanner :=
  fun text value rest scanned => Nat.le_of_lt (consumes text value rest scanned)

theorem bind_scanned {text rest : List Symbol} {result : Next}
    (scanned : (scanner >>= continuation).run text = some (result, rest)) :
    ∃ value middle, scanner.run text = some (value, middle) ∧
      (continuation value).run middle = some (result, rest) := by
  rw [StateT.run_bind] at scanned
  obtain ⟨⟨value, middle⟩, first, second⟩ := Option.bind_eq_some_iff.mp scanned
  exact ⟨value, middle, first, second⟩

theorem shortens_pure (value : Value) : Shortens (pure value : Scanner Symbol Value) := by
  intro text result rest scanned
  cases scanned
  exact Nat.le_refl _

theorem shortens_failure : Shortens (failure : Scanner Symbol Value) := by
  intro text value rest scanned
  cases scanned

theorem Shortens.bind (first : Shortens scanner)
    (second : ∀ value, Shortens (continuation value)) : Shortens (scanner >>= continuation) := by
  intro text result rest scanned
  obtain ⟨value, middle, here, there⟩ := bind_scanned scanned
  exact Nat.le_trans (second value middle result rest there) (first text value middle here)

theorem Consumes.bind (first : Consumes scanner)
    (second : ∀ value, Shortens (continuation value)) : Consumes (scanner >>= continuation) := by
  intro text result rest scanned
  obtain ⟨value, middle, here, there⟩ := bind_scanned scanned
  exact Nat.lt_of_le_of_lt (second value middle result rest there) (first text value middle here)

theorem Shortens.ite {condition : Prop} [Decidable condition] {other : Scanner Symbol Value}
    (yes : Shortens scanner) (no : Shortens other) :
    Shortens (if condition then scanner else other) := by
  split
  · exact yes
  · exact no

end Scanner

/-- What a turn comes to. -/
inductive Turn (Symbol State Outcome : Type) where
  | leave (outcome : Outcome)
  | again (state : State) (rest : List Symbol)

structure Loop (Symbol State Outcome : Type) where
  turn : State → List Symbol → Turn Symbol State Outcome
  consumes : ∀ {state text next rest}, turn state text = .again next rest →
    rest.length < text.length

namespace Loop

variable (loop : Loop Symbol State Outcome) {state next : State} {text rest : List Symbol}
  {outcome : Outcome}

def run (state : State) (text : List Symbol) : Outcome :=
  match _taken : loop.turn state text with
  | .leave outcome => outcome
  | .again next rest => run next rest
  termination_by text.length
  decreasing_by exact loop.consumes _taken

theorem run_leave (taken : loop.turn state text = .leave outcome) :
    loop.run state text = outcome := by
  rw [run, taken]

theorem run_again (taken : loop.turn state text = .again next rest) :
    loop.run state text = loop.run next rest := by
  rw [run, taken]

/-- The turns of the loop, one after the other, and where they end. -/
inductive Ends : Nat → State → List Symbol → Outcome → Prop where
  | leave {state : State} {text : List Symbol} {outcome : Outcome}
      (taken : loop.turn state text = .leave outcome) : Ends 1 state text outcome
  | again {turns : Nat} {state next : State} {text rest : List Symbol} {outcome : Outcome}
      (taken : loop.turn state text = .again next rest) (ends : Ends turns next rest outcome) :
      Ends (turns + 1) state text outcome

/-- The loop ends on every text, with the outcome of its run. -/
theorem ends (state : State) (text : List Symbol) :
    ∃ turns ≤ text.length + 1, loop.Ends turns state text (loop.run state text) := by
  induction state, text using run.induct loop with
  | case1 state text outcome taken =>
      rw [loop.run_leave taken]
      exact ⟨1, Nat.le_add_left 1 _, .leave taken⟩
  | case2 state text next rest taken ih =>
      obtain ⟨turns, few, ended⟩ := ih
      have shorter := loop.consumes taken
      rw [loop.run_again taken]
      exact ⟨turns + 1, by omega, .again taken ended⟩

/-- On every text the turns come to an end. -/
def Terminates : Prop :=
  ∀ state text, ∃ turns ≤ text.length + 1, ∃ outcome, loop.Ends turns state text outcome

theorem terminates : loop.Terminates := by
  intro state text
  obtain ⟨turns, few, ended⟩ := loop.ends state text
  exact ⟨turns, few, loop.run state text, ended⟩

/-- What the turns keep holds at the end. -/
theorem run_keeps (Kept : State → List Symbol → Prop) (Final : Outcome → Prop)
    (leave : ∀ state text outcome, loop.turn state text = .leave outcome → Kept state text →
      Final outcome)
    (again : ∀ state text next rest, loop.turn state text = .again next rest → Kept state text →
      Kept next rest)
    (start : Kept state text) : Final (loop.run state text) := by
  induction state, text using run.induct loop with
  | case1 state text outcome taken =>
      rw [loop.run_leave taken]
      exact leave state text outcome taken start
  | case2 state text next rest taken ih =>
      rw [loop.run_again taken]
      exact ih (again state text next rest taken start)

end Loop

section Items

/-- A scanner that makes the next state of one and consumes something. -/
structure Item (Symbol State : Type) where
  read : State → Scanner Symbol State
  consumes : ∀ state, Consumes (read state)

variable (stop : List Symbol → Bool) (close : Scanner Symbol Unit) (item : Item Symbol State)

/-- Items up to a stop, with `close` behind the last; the first failure is the outcome. -/
def Loop.items : Loop Symbol State (Option (State × List Symbol)) where
  turn state text :=
    if stop text then .leave ((close.run text).map fun closed => (state, closed.2))
    else
      match (item.read state).run text with
      | none => .leave none
      | some (next, rest) => .again next rest
  consumes := by
    intro state text next rest taken
    split at taken
    · cases taken
    · split at taken
      · cases taken
      · rename_i after behind scanned
        cases taken
        exact item.consumes state text next rest scanned

variable {stop close item}

theorem items_leave {state : State} {text : List Symbol} {outcome : Option (State × List Symbol)}
    (taken : (Loop.items stop close item).turn state text = .leave outcome) :
    outcome = none ∨ ∃ rest, close.run text = some ((), rest) ∧ outcome = some (state, rest) := by
  unfold Loop.items at taken
  dsimp only at taken
  split at taken
  · cases taken
    cases closed : close.run text with
    | none => exact Or.inl rfl
    | some behind => exact Or.inr ⟨behind.2, rfl, rfl⟩
  · split at taken
    · cases taken
      exact Or.inl rfl
    · cases taken

theorem shortens_items (closes : Shortens close) (state : State) :
    Shortens (fun text => (Loop.items stop close item).run state text) := by
  intro text value rest scanned
  refine (Loop.items stop close item).run_keeps (fun _ middle => middle.length ≤ text.length)
    (fun outcome => ∀ last behind, outcome = some (last, behind) → behind.length ≤ text.length)
    ?_ ?_ (Nat.le_refl _) value rest scanned
  · intro state middle outcome taken kept last behind reached
    rcases items_leave taken with failed | ⟨after, closed, finished⟩
    · rw [failed] at reached
      cases reached
    · rw [finished] at reached
      cases reached
      exact Nat.le_trans (closes middle () behind closed) kept
  · intro state middle next behind taken kept
    exact Nat.le_trans (Nat.le_of_lt ((Loop.items stop close item).consumes taken)) kept

end Items

end SimpleLdapd.Scanning
