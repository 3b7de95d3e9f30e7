import Mathlib.Logic.Function.Basic

/-!
# Programs over atomic operations

A program reaches the shared state only through operations that each take
effect in one step; between two operations it computes locally. The same
program has two meanings: `run` performs its operations one after another with
nobody else writing, and `interleave` performs the operations of many programs
in the order a schedule dictates. `Ensures` states a postcondition of one run,
with a rule for each way to build a program. `Issues` bounds the operations a program may
still perform, whatever it is answered; the two invariant rules derive from it
what every run and every interleaving preserves. `Yields` is a postcondition that
holds whatever the operations answer.
-/

namespace SimpleLdapd

universe u v w x

inductive Program (Op : Type u) (Result : Op → Type v) (Value : Type w) where
  | done (value : Value)
  | call (op : Op) (next : Result op → Program Op Result Value)

namespace Program

variable {Op : Type u} {Result : Op → Type v} {State : Type x}

protected def bind {First : Type w} {Second : Type w} :
    Program Op Result First → (First → Program Op Result Second) → Program Op Result Second
  | done value, rest => rest value
  | call op next, rest => call op fun answer => (next answer).bind rest

instance : Monad (Program Op Result) where
  pure := done
  bind := Program.bind

def perform (op : Op) : Program Op Result (Result op) := call op done

variable {First Second Value : Type w}

/-- What a finished program ended with. -/
def ended : Program Op Result Value → Option Value
  | done value => some value
  | call _ _ => none

theorem ended_eq_some {program : Program Op Result Value} {value : Value}
    (finished : program.ended = some value) : program = done value := by
  cases program with
  | done ending => exact congrArg done (Option.some.inj finished)
  | call op next => cases finished

@[simp] theorem bind_done (value : First) (rest : First → Program Op Result Second) :
    (done value >>= rest) = rest value := rfl

@[simp] theorem bind_call (op : Op) (next : Result op → Program Op Result First)
    (rest : First → Program Op Result Second) :
    (call op next >>= rest) = call op fun answer => next answer >>= rest := rfl

@[simp] theorem pure_eq_done (value : First) :
    (pure value : Program Op Result First) = done value := rfl

theorem bind_bind {Third : Type w} (program : Program Op Result First)
    (rest : First → Program Op Result Second) (last : Second → Program Op Result Third) :
    (program >>= rest >>= last) = program >>= fun value => rest value >>= last := by
  induction program with
  | done value => rfl
  | call op next ih =>
      simp only [bind_call]
      congr
      funext answer
      exact ih answer

theorem bind_return (program : Program Op Result First) :
    (program >>= fun value => pure value) = program := by
  induction program with
  | done value => rfl
  | call op next ih =>
      simp only [bind_call]
      congr
      funext answer
      exact ih answer

section Sequential

variable (exec : (op : Op) → State → Result op × State)

/-- Performs the operations of one program with no other program in between. -/
def run : Program Op Result Value → State → Value × State
  | done value, state => (value, state)
  | call op next, state => (next (exec op state).1).run (exec op state).2

@[simp] theorem run_done (value : Value) (state : State) :
    (done value : Program Op Result Value).run exec state = (value, state) := rfl

@[simp] theorem run_pure (value : Value) (state : State) :
    (pure value : Program Op Result Value).run exec state = (value, state) := rfl

@[simp] theorem run_perform {Result : Op → Type w}
    (exec : (op : Op) → State → Result op × State) (op : Op) (state : State) :
    (perform op : Program Op Result (Result op)).run exec state = exec op state := rfl

@[simp] theorem run_bind (program : Program Op Result First)
    (rest : First → Program Op Result Second) (state : State) :
    (program >>= rest).run exec state =
      (rest (program.run exec state).1).run exec (program.run exec state).2 := by
  induction program generalizing state with
  | done value => rfl
  | call op next ih =>
      rw [bind_call]
      simp only [run]
      exact ih _ _

end Sequential

section Postconditions

variable (exec : (op : Op) → State → Result op × State)

/-- The value and the state in which a run of the program ends satisfy `post`. -/
def Ensures (program : Program Op Result Value) (state : State) (post : Value → State → Prop) :
    Prop :=
  post (program.run exec state).1 (program.run exec state).2

variable {exec} {state : State} {post : Value → State → Prop}

theorem Ensures.mono {program : Program Op Result Value} {weaker : Value → State → Prop}
    (held : Ensures exec program state post)
    (implies : ∀ value reached, post value reached → weaker value reached) :
    Ensures exec program state weaker :=
  implies _ _ held

theorem ensures_pure {value : Value} (holds : post value state) :
    Ensures exec (pure value) state post := holds

theorem ensures_bind {program : Program Op Result First} {rest : First → Program Op Result Value}
    (next : Ensures exec program state fun value reached => Ensures exec (rest value) reached post) :
    Ensures exec (program >>= rest) state post := by
  unfold Ensures at next ⊢
  rw [run_bind]
  exact next

theorem ensures_perform {Result : Op → Type w} {exec : (op : Op) → State → Result op × State}
    {op : Op} {rest : Result op → Program Op Result Value}
    (next : ∀ answer, (exec op state).1 = answer →
      Ensures exec (rest answer) (exec op state).2 post) :
    Ensures exec (perform op >>= rest) state post :=
  ensures_bind (next _ rfl)

theorem ensures_answer {Result : Op → Type w} {exec : (op : Op) → State → Result op × State}
    {op : Op} {rest : Result op → Program Op Result Value} {answer : Result op}
    (given : (exec op state).1 = answer)
    (next : Ensures exec (rest answer) (exec op state).2 post) :
    Ensures exec (perform op >>= rest) state post := by
  subst given
  exact ensures_bind next

end Postconditions

/-- Every operation the program may still perform is allowed, whatever the
answers to the earlier ones. -/
def Issues (allowed : Op → Prop) : Program Op Result Value → Prop
  | done _ => True
  | call op next => allowed op ∧ ∀ answer, (next answer).Issues allowed

@[simp] theorem issues_done (allowed : Op → Prop) (value : Value) :
    (done value : Program Op Result Value).Issues allowed := trivial

@[simp] theorem issues_pure (allowed : Op → Prop) (value : Value) :
    (pure value : Program Op Result Value).Issues allowed := trivial

theorem issues_perform {Result : Op → Type w} {allowed : Op → Prop} {op : Op}
    (holds : allowed op) :
    (perform op : Program Op Result (Result op)).Issues allowed :=
  ⟨holds, fun _ => trivial⟩

theorem issues_bind {allowed : Op → Prop} {program : Program Op Result First}
    {rest : First → Program Op Result Second} (before : program.Issues allowed)
    (after : ∀ value, (rest value).Issues allowed) :
    (program >>= rest).Issues allowed := by
  induction program with
  | done value => exact after value
  | call op next ih => exact ⟨before.1, fun answer => ih answer (before.2 answer)⟩

theorem Issues.mono {narrow wide : Op → Prop} (weaker : ∀ op, narrow op → wide op)
    {program : Program Op Result Value} (issued : program.Issues narrow) :
    program.Issues wide := by
  induction program with
  | done value => trivial
  | call op next ih => exact ⟨weaker op issued.1, fun answer => ih answer (issued.2 answer)⟩

/-- The run rule: an invariant kept by every allowed operation is kept by a
program that issues only those. -/
theorem run_invariant {exec : (op : Op) → State → Result op × State} {allowed : Op → Prop}
    (Invariant : State → Prop)
    (kept : ∀ op state, allowed op → Invariant state → Invariant (exec op state).2)
    {program : Program Op Result Value} (issued : program.Issues allowed)
    {state : State} (holds : Invariant state) : Invariant (program.run exec state).2 := by
  induction program generalizing state with
  | done value => exact holds
  | call op next ih => exact ih _ (issued.2 _) (kept op state issued.1 holds)

theorem run_state_of_issues {exec : (op : Op) → State → Result op × State} {allowed : Op → Prop}
    (silent : ∀ op state, allowed op → (exec op state).2 = state)
    {program : Program Op Result Value} (issued : program.Issues allowed) (state : State) :
    (program.run exec state).2 = state := by
  refine run_invariant (fun reached => reached = state) ?_ issued rfl
  intro op reached holds same
  rw [silent op reached holds, same]

section Values

variable {post : Value → Prop}

/-- The program ends in a value with the property, whatever its operations answer. -/
def Yields (post : Value → Prop) : Program Op Result Value → Prop
  | done value => post value
  | call _ next => ∀ answer, (next answer).Yields post

theorem yields_pure {value : Value} (holds : post value) :
    (pure value : Program Op Result Value).Yields post := holds

theorem yields_bind {middle : First → Prop} {program : Program Op Result First}
    {rest : First → Program Op Result Value} (before : program.Yields middle)
    (after : ∀ value, middle value → (rest value).Yields post) : (program >>= rest).Yields post := by
  induction program with
  | done value => exact after value before
  | call op next ih => exact fun answer => ih answer (before answer)

theorem yields_any (program : Program Op Result Value) : program.Yields fun _ => True := by
  induction program with
  | done value => trivial
  | call op next ih => exact ih

theorem yields_then {program : Program Op Result First} {rest : First → Program Op Result Value}
    (after : ∀ value, (rest value).Yields post) : (program >>= rest).Yields post :=
  yields_bind (yields_any program) fun value _ => after value

theorem Yields.mono {weaker : Value → Prop} {program : Program Op Result Value}
    (yields : program.Yields post) (implies : ∀ value, post value → weaker value) :
    program.Yields weaker := by
  induction program with
  | done value => exact implies value yields
  | call op next ih => exact fun answer => ih answer (yields answer)

theorem Yields.and {other : Value → Prop} {program : Program Op Result Value}
    (yields : program.Yields post) (otherYields : program.Yields other) :
    program.Yields fun value => post value ∧ other value := by
  induction program with
  | done value => exact ⟨yields, otherYields⟩
  | call op next ih => exact fun answer => ih answer (yields answer) (otherYields answer)

/-- A guard: the program ends at once, or goes on. -/
theorem yields_guard {condition : Prop} [Decidable condition] {value : Value}
    {program : Program Op Result Value} (early : post value) (otherwise : program.Yields post) :
    (if condition then pure value else program).Yields post := by
  split
  · exact early
  · exact otherwise

theorem Yields.run {program : Program Op Result Value} (yields : program.Yields post)
    (exec : (op : Op) → State → Result op × State) (state : State) :
    post (program.run exec state).1 := by
  induction program generalizing state with
  | done value => exact yields
  | call op next ih => exact ih _ (yields _) _

/-- A value the program can end in: its operations may answer anything, since others act on
the state between them. -/
def MayEnd : Program Op Result Value → Value → Prop
  | done own, value => own = value
  | call _ next, value => ∃ answer, (next answer).MayEnd value

theorem Yields.may_end {program : Program Op Result Value} (yields : program.Yields post)
    {value : Value} (ends : program.MayEnd value) : post value := by
  induction program with
  | done own =>
      cases ends
      exact yields
  | call op next ih =>
      obtain ⟨answer, ends⟩ := ends
      exact ih answer (yields answer) ends

theorem may_end_run (program : Program Op Result Value)
    (exec : (op : Op) → State → Result op × State) (state : State) :
    program.MayEnd (program.run exec state).1 := by
  induction program generalizing state with
  | done value => rfl
  | call op next ih => exact ⟨_, ih _ _⟩

end Values

section Concurrent

/-- Many programs over one shared state. -/
structure Pool (Thread : Type*) (Op : Type u) (Result : Op → Type v) (Value : Type w)
    (State : Type x) where
  threads : Thread → Program Op Result Value
  state : State

variable {Thread : Type*} [DecidableEq Thread]
variable (exec : (op : Op) → State → Result op × State)

/-- The scheduled thread performs its next operation; a finished one is skipped. -/
def advance (pool : Pool Thread Op Result Value State) (thread : Thread) :
    Pool Thread Op Result Value State :=
  match pool.threads thread with
  | done _ => pool
  | call op next =>
      { threads := Function.update pool.threads thread (next (exec op pool.state).1)
        state := (exec op pool.state).2 }

def interleave (pool : Pool Thread Op Result Value State) (schedule : List Thread) :
    Pool Thread Op Result Value State :=
  schedule.foldl (advance exec) pool

theorem interleave_concat (pool : Pool Thread Op Result Value State) (schedule : List Thread)
    (thread : Thread) :
    interleave exec pool (schedule ++ [thread]) =
      advance exec (interleave exec pool schedule) thread := by
  rw [interleave, List.foldl_append]
  rfl

/-- What one scheduled step can do: nothing, or one operation of one thread. -/
theorem advance_cases (pool : Pool Thread Op Result Value State) (thread : Thread) :
    ((∃ value, pool.threads thread = done value) ∧ advance exec pool thread = pool) ∨
      ∃ op next, pool.threads thread = call op next ∧
        advance exec pool thread =
          { threads := Function.update pool.threads thread (next (exec op pool.state).1)
            state := (exec op pool.state).2 } := by
  unfold advance
  cases pending : pool.threads thread with
  | done value => exact Or.inl ⟨⟨value, rfl⟩, rfl⟩
  | call op next => exact Or.inr ⟨op, next, rfl, rfl⟩

theorem advance_call {pool : Pool Thread Op Result Value State} {thread : Thread} {op : Op}
    {next : Result op → Program Op Result Value} (pending : pool.threads thread = call op next) :
    advance exec pool thread =
      { threads := Function.update pool.threads thread (next (exec op pool.state).1)
        state := (exec op pool.state).2 } := by
  unfold advance
  rw [pending]

theorem advance_other_thread (pool : Pool Thread Op Result Value State) {thread other : Thread}
    (different : other ≠ thread) :
    (advance exec pool other).threads thread = pool.threads thread := by
  rcases advance_cases exec pool other with ⟨_, same⟩ | ⟨_, _, _, moved⟩
  · rw [same]
  · rw [moved]
    exact Function.update_of_ne (Ne.symm different) _ _

/-- The interleaving rule: an invariant kept by every allowed operation holds
in every state that any schedule of programs issuing only those reaches. -/
theorem interleave_invariant {exec : (op : Op) → State → Result op × State}
    {allowed : Op → Prop} (Invariant : State → Prop)
    (kept : ∀ op state, allowed op → Invariant state → Invariant (exec op state).2)
    {pool : Pool Thread Op Result Value State}
    (issued : ∀ thread, (pool.threads thread).Issues allowed)
    (holds : Invariant pool.state) (schedule : List Thread) :
    Invariant (interleave exec pool schedule).state := by
  induction schedule generalizing pool with
  | nil => exact holds
  | cons thread rest ih =>
      rw [interleave, List.foldl_cons]
      rcases advance_cases exec pool thread with ⟨-, same⟩ | ⟨op, next, pending, moved⟩
      · rw [same]
        exact ih issued holds
      · rw [moved]
        have here := issued thread
        rw [pending] at here
        refine ih ?_ (kept op pool.state here.1 holds)
        intro other
        by_cases same : other = thread
        · subst other
          simpa using here.2 _
        · simpa [Function.update_of_ne same] using issued other

/-- The programs of the pool with only a part of what they end with. -/
def Pool.mapValues (part : First → Second) (pool : Pool Thread Op Result First State) :
    Pool Thread Op Result Second State where
  threads thread := pool.threads thread >>= fun value => pure (part value)
  state := pool.state

theorem advance_map_values (part : First → Second) (pool : Pool Thread Op Result First State)
    (thread : Thread) :
    advance exec (pool.mapValues part) thread = (advance exec pool thread).mapValues part := by
  rcases advance_cases exec pool thread with ⟨⟨value, finished⟩, same⟩ | ⟨op, next, running, moved⟩
  · rw [same]
    unfold advance
    simp only [Pool.mapValues, finished]
    rfl
  · have pending : (pool.mapValues part).threads thread =
        call op fun answer => next answer >>= fun value => pure (part value) := by
      simp only [Pool.mapValues, running]
      rfl
    rw [advance_call exec pending, moved]
    simp only [Pool.mapValues, Pool.mk.injEq, and_true]
    funext other
    by_cases same : other = thread
    · subst other
      simp
    · simp [Function.update_of_ne same]

theorem interleave_map_values (part : First → Second) (pool : Pool Thread Op Result First State)
    (schedule : List Thread) :
    interleave exec (pool.mapValues part) schedule =
      (interleave exec pool schedule).mapValues part := by
  induction schedule generalizing pool with
  | nil => rfl
  | cons thread rest ih =>
      simp only [interleave, List.foldl_cons, advance_map_values]
      exact ih (advance exec pool thread)

end Concurrent

end Program

end SimpleLdapd
