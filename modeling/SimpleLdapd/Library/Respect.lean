import SimpleLdapd.Library.AtomicProgram

/-!
# Programs that respect an invariant

`Issues` bounds the operations of a program whatever they answer. A program often keeps a
bound only because the answers come from states with an invariant: it writes back what it
read. `Respects` asks for the bound along such answers only, and the bound then keeps the
invariant, in one run and under any interleaving. `Reaches` is the same for the value that
the program ends with.
-/

namespace SimpleLdapd

universe u v w x

namespace Program

variable {Op : Type u} {Result : Op → Type v} {State : Type x} {First Value : Type w}

/-- Each operation the program comes to is allowed, its answers being those of states with
the invariant. -/
def Respects (exec : (op : Op) → State → Result op × State) (Invariant : State → Prop)
    (allowed : Op → Prop) : Program Op Result Value → Prop
  | done _ => True
  | call op next =>
      allowed op ∧ ∀ state, Invariant state →
        (next (exec op state).1).Respects exec Invariant allowed

variable {exec : (op : Op) → State → Result op × State} {Invariant : State → Prop}
variable {allowed : Op → Prop}

theorem respects_pure (value : Value) :
    (pure value : Program Op Result Value).Respects exec Invariant allowed := trivial

theorem respects_perform {Result : Op → Type w} {exec : (op : Op) → State → Result op × State}
    {op : Op} {rest : Result op → Program Op Result Value} (holds : allowed op)
    (next : ∀ state, Invariant state → (rest (exec op state).1).Respects exec Invariant allowed) :
    (perform op >>= rest).Respects exec Invariant allowed := ⟨holds, next⟩

/-- The value the program ends with satisfies the postcondition, its answers being those of
states with the invariant. -/
def Reaches (exec : (op : Op) → State → Result op × State) (Invariant : State → Prop)
    (post : Value → Prop) : Program Op Result Value → Prop
  | done value => post value
  | call op next =>
      ∀ state, Invariant state → (next (exec op state).1).Reaches exec Invariant post

theorem reaches_of_yields {post : Value → Prop} {program : Program Op Result Value}
    (yields : program.Yields post) : program.Reaches exec Invariant post := by
  induction program with
  | done value => exact yields
  | call op next ih => exact fun state _ => ih _ (yields _)

theorem reaches_any {post : Value → Prop} (holds : ∀ value, post value)
    (program : Program Op Result Value) : program.Reaches exec Invariant post := by
  induction program with
  | done value => exact holds value
  | call op next ih => exact fun state _ => ih _

theorem reaches_imp {narrow post : Value → Prop} {program : Program Op Result Value}
    (wider : ∀ value, narrow value → post value)
    (reaches : program.Reaches exec Invariant narrow) : program.Reaches exec Invariant post := by
  induction program with
  | done value => exact wider value reaches
  | call op next ih => exact fun state holds => ih _ (reaches state holds)

theorem reaches_perform {Result : Op → Type w} {exec : (op : Op) → State → Result op × State}
    {op : Op} {rest : Result op → Program Op Result Value} {post : Value → Prop}
    (next : ∀ state, Invariant state → (rest (exec op state).1).Reaches exec Invariant post) :
    (perform op >>= rest).Reaches exec Invariant post := next

theorem reaches_bind {middle : First → Prop} {post : Value → Prop}
    {program : Program Op Result First} {rest : First → Program Op Result Value}
    (before : program.Reaches exec Invariant middle)
    (after : ∀ value, middle value → (rest value).Reaches exec Invariant post) :
    (program >>= rest).Reaches exec Invariant post := by
  induction program with
  | done value => exact after value before
  | call op next ih => exact fun state holds => ih _ (before state holds)

theorem respects_bind {middle : First → Prop} {program : Program Op Result First}
    {rest : First → Program Op Result Value} (before : program.Respects exec Invariant allowed)
    (reaches : program.Reaches exec Invariant middle)
    (after : ∀ value, middle value → (rest value).Respects exec Invariant allowed) :
    (program >>= rest).Respects exec Invariant allowed := by
  induction program with
  | done value => exact after value reaches
  | call op next ih =>
      exact ⟨before.1, fun state holds => ih _ (before.2 state holds) (reaches state holds)⟩

theorem respects_then {program : Program Op Result First}
    {rest : First → Program Op Result Value} (before : program.Respects exec Invariant allowed)
    (after : ∀ value, (rest value).Respects exec Invariant allowed) :
    (program >>= rest).Respects exec Invariant allowed :=
  respects_bind before (reaches_any (fun _ => trivial) program) fun value (_ : True) => after value

theorem respects_of_issues {narrow : Op → Prop} {program : Program Op Result Value}
    (wider : ∀ op, narrow op → allowed op) (issued : program.Issues narrow) :
    program.Respects exec Invariant allowed := by
  induction program with
  | done value => trivial
  | call op next ih => exact ⟨wider op issued.1, fun state _ => ih _ (issued.2 _)⟩

theorem respects_anything (program : Program Op Result Value) :
    program.Respects exec Invariant fun _ => True := by
  induction program with
  | done value => trivial
  | call op next ih => exact ⟨trivial, fun state _ => ih _⟩

section Runs

variable (kept : ∀ op state, allowed op → Invariant state → Invariant (exec op state).2)

include kept

/-- The run rule. -/
theorem Respects.run {program : Program Op Result Value}
    (respects : program.Respects exec Invariant allowed) {state : State}
    (holds : Invariant state) : Invariant (program.run exec state).2 := by
  induction program generalizing state with
  | done value => exact holds
  | call op next ih => exact ih _ (respects.2 state holds) (kept op state respects.1 holds)

end Runs

end Program

end SimpleLdapd
