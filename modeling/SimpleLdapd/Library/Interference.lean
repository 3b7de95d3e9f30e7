import SimpleLdapd.Library.AtomicProgram
import SimpleLdapd.Library.GuardedRun

/-!
# One program among others

What a single program can rely on when others change the state between its
operations: nothing but what is known of the states in which it performs them.
`Withstands` is the weakest precondition under that interference.
-/

namespace SimpleLdapd

universe u v w x

namespace Program

variable {Op : Type u} {Result : Op → Type v} {State : Type x} {First Second Value : Type w}

/-- Whatever fitting state each operation is performed in, the program ends in `post`. -/
def Withstands (exec : (op : Op) → State → Result op × State) (Fits : State → Prop)
    (post : Value → Prop) : Program Op Result Value → Prop
  | done value => post value
  | call op next => ∀ state, Fits state → (next (exec op state).1).Withstands exec Fits post

variable {exec : (op : Op) → State → Result op × State} {Fits : State → Prop}

theorem withstands_bind {post : Second → Prop} {program : Program Op Result First}
    {rest : First → Program Op Result Second}
    (holds : program.Withstands exec Fits fun value => (rest value).Withstands exec Fits post) :
    (program >>= rest).Withstands exec Fits post := by
  induction program with
  | done value => exact holds
  | call op next ih => exact fun state fits => ih _ (holds state fits)

theorem withstands_perform {Result : Op → Type w} {exec : (op : Op) → State → Result op × State}
    {post : Value → Prop} {op : Op} {rest : Result op → Program Op Result Value}
    (next : ∀ state, Fits state → (rest (exec op state).1).Withstands exec Fits post) :
    (perform op >>= rest).Withstands exec Fits post :=
  next

theorem Withstands.mono {post weaker : Value → Prop} {program : Program Op Result Value}
    (holds : program.Withstands exec Fits post)
    (implies : ∀ value, post value → weaker value) : program.Withstands exec Fits weaker := by
  induction program with
  | done value => exact implies value holds
  | call op next ih => exact fun state fits => ih _ (holds state fits)

/-- The interleaving rule: if the states in which this thread takes its steps all fit,
what it ends with satisfies `post`. -/
theorem withstands_interleave {Thread : Type*} [DecidableEq Thread] {post : Value → Prop}
    {pool : Pool Thread Op Result Value State} {me : Thread}
    (holds : (pool.threads me).Withstands exec Fits post) {schedule : List Thread}
    (fits : Along (advance exec) (fun reached thread => thread = me → Fits reached.state) pool
      schedule) :
    ((interleave exec pool schedule).threads me).Withstands exec Fits post := by
  induction schedule generalizing pool with
  | nil => exact holds
  | cons thread rest ih =>
      apply ih _ fits.2
      by_cases mine : thread = me
      · subst mine
        rcases advance_cases exec pool thread with ⟨_, same⟩ | ⟨op, next, running, moved⟩
        · rw [same]
          exact holds
        · rw [running] at holds
          rw [moved]
          simp only [Function.update_self]
          exact holds _ (fits.1 rfl)
      · rw [advance_other_thread exec pool mine]
        exact holds

end Program

end SimpleLdapd
