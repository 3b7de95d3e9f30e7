import SimpleLdapd.Library.AtomicProgram

/-!
# One program on two stores

Two stores run a program in step when every operation the program comes to is
allowed and both answer it alike, so that the program takes the same way on
both. `InStep` follows the program along the answers it is given and ends in a
postcondition on the value and on both stores; the rules build it from the
parts of a program, and the run rule reads off that the two runs agree.
-/

namespace SimpleLdapd

universe u v w x y

namespace Program

variable {Op : Type u} {Result : Op → Type v} {State : Type x} {Other : Type y}

section Steps

variable (exec : (op : Op) → State → Result op × State)
variable (otherExec : (op : Op) → Other → Result op × Other) (allowed : Op → Prop)

def InStep {Value : Type w} :
    Program Op Result Value → State → Other → (Value → State → Other → Prop) → Prop
  | done value, state, other, post => post value state other
  | call op next, state, other, post =>
      allowed op ∧ (exec op state).1 = (otherExec op other).1 ∧
        (next (exec op state).1).InStep (exec op state).2 (otherExec op other).2 post

end Steps

variable {exec : (op : Op) → State → Result op × State}
variable {otherExec : (op : Op) → Other → Result op × Other} {allowed : Op → Prop}
variable {First Value : Type w} {state : State} {other : Other}
variable {post : Value → State → Other → Prop}

theorem InStep.mono {weaker : Value → State → Other → Prop} {program : Program Op Result Value}
    (steps : program.InStep exec otherExec allowed state other post)
    (implies : ∀ value reached otherReached, post value reached otherReached →
      weaker value reached otherReached) :
    program.InStep exec otherExec allowed state other weaker := by
  induction program generalizing state other with
  | done value => exact implies value state other steps
  | call op next ih => exact ⟨steps.1, steps.2.1, ih _ steps.2.2⟩

theorem in_step_bind {middle : First → State → Other → Prop}
    {program : Program Op Result First} {rest : First → Program Op Result Value}
    (before : program.InStep exec otherExec allowed state other middle)
    (after : ∀ value reached otherReached, middle value reached otherReached →
      (rest value).InStep exec otherExec allowed reached otherReached post) :
    (program >>= rest).InStep exec otherExec allowed state other post := by
  induction program generalizing state other with
  | done value => exact after value state other before
  | call op next ih => exact ⟨before.1, before.2.1, ih _ before.2.2⟩

theorem in_step_perform {Result : Op → Type w} {exec : (op : Op) → State → Result op × State}
    {otherExec : (op : Op) → Other → Result op × Other} {op : Op}
    {rest : Result op → Program Op Result Value} (holds : allowed op)
    (alike : (exec op state).1 = (otherExec op other).1)
    (next : (rest (exec op state).1).InStep exec otherExec allowed (exec op state).2
      (otherExec op other).2 post) :
    (perform op >>= rest).InStep exec otherExec allowed state other post :=
  ⟨holds, alike, next⟩

/-- The run rule: both runs end in one value, and the stores they leave satisfy the
postcondition. -/
theorem InStep.runs_agree {program : Program Op Result Value}
    (steps : program.InStep exec otherExec allowed state other post) :
    (program.run otherExec other).1 = (program.run exec state).1 ∧
      post (program.run exec state).1 (program.run exec state).2
        (program.run otherExec other).2 := by
  induction program generalizing state other with
  | done value => exact ⟨rfl, steps⟩
  | call op next ih =>
      obtain ⟨_, same, later⟩ := steps
      have reached := ih _ later
      simp only [run]
      rw [← same]
      exact reached

end Program

end SimpleLdapd
