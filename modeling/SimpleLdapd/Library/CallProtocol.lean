import SimpleLdapd.Library.AtomicProgram
import SimpleLdapd.Library.GuardedRun

/-!
# Call protocols of programs

A protocol says which operation a program may perform next, given the stage that
its earlier operations and the answers to them left it in. `Follows` is the weakest
precondition of a program for it: every operation is permitted where it is
performed, and the stage in which the program ends satisfies a postcondition.
Under any schedule each thread keeps following its protocol.
-/

namespace SimpleLdapd

universe u v w x

namespace Program

variable {Op : Type u} {Result : Op → Type v} {State : Type x} {Stage : Type*}
variable {First Second Value : Type w}

/-- The stage machine of a protocol: what a stage permits and where an answer leads. -/
structure CallProtocol (Op : Type u) (Result : Op → Type v) (Stage : Type*) where
  permits : Stage → Op → Prop
  after : Stage → (op : Op) → Result op → Stage

/-- From this stage on the program keeps to the protocol and ends as `post` says. -/
def Follows (protocol : CallProtocol Op Result Stage) (post : Stage → Value → Prop) :
    Stage → Program Op Result Value → Prop
  | stage, done value => post stage value
  | stage, call op next =>
      protocol.permits stage op ∧ ∀ answer, (next answer).Follows protocol post
        (protocol.after stage op answer)

variable {protocol : CallProtocol Op Result Stage} {stage : Stage}

theorem follows_bind {post : Stage → Second → Prop} {program : Program Op Result First}
    {rest : First → Program Op Result Second}
    (follows : program.Follows protocol (fun reached value => (rest value).Follows protocol post
      reached) stage) :
    (program >>= rest).Follows protocol post stage := by
  induction program generalizing stage with
  | done value => exact follows
  | call op next ih => exact ⟨follows.1, fun answer => ih answer (follows.2 answer)⟩

theorem follows_perform {Result : Op → Type w} {protocol : CallProtocol Op Result Stage}
    {stage : Stage} {post : Stage → Value → Prop} {op : Op}
    {rest : Result op → Program Op Result Value} (permitted : protocol.permits stage op)
    (next : ∀ answer, (rest answer).Follows protocol post (protocol.after stage op answer)) :
    (perform op >>= rest).Follows protocol post stage :=
  ⟨permitted, next⟩

/-- Operations that the stages of a family permit and that lead back into it. -/
theorem follows_of_issues {allowed : Op → Prop} (Stable : Stage → Prop)
    (permitted : ∀ stage op, Stable stage → allowed op →
      protocol.permits stage op ∧ ∀ answer, Stable (protocol.after stage op answer))
    {program : Program Op Result Value} (issued : program.Issues allowed)
    (stable : Stable stage) :
    program.Follows protocol (fun reached _ => Stable reached) stage := by
  induction program generalizing stage with
  | done value => exact stable
  | call op next ih =>
      obtain ⟨here, leads⟩ := permitted stage op stable issued.1
      exact ⟨here, fun answer => ih answer (issued.2 answer) (leads answer)⟩

theorem Follows.mono {post weaker : Stage → Value → Prop} {program : Program Op Result Value}
    (follows : program.Follows protocol post stage)
    (implies : ∀ reached value, post reached value → weaker reached value) :
    program.Follows protocol weaker stage := by
  induction program generalizing stage with
  | done value => exact implies stage value follows
  | call op next ih => exact ⟨follows.1, fun answer => ih answer (follows.2 answer)⟩

/-- A step of the thread itself moves it to the next stage, other steps leave it alone. -/
theorem follows_advance {Thread : Type*} [DecidableEq Thread]
    {exec : (op : Op) → State → Result op × State} {post : Stage → Value → Prop}
    {pool : Pool Thread Op Result Value State} {thread : Thread}
    (follows : (pool.threads thread).Follows protocol post stage) (other : Thread) :
    ∃ reached, ((advance exec pool other).threads thread).Follows protocol post reached := by
  by_cases same : other = thread
  · subst other
    rcases advance_cases exec pool thread with ⟨_, finished⟩ | ⟨op, next, running, moved⟩
    · rw [finished]
      exact ⟨stage, follows⟩
    · rw [running] at follows
      rw [moved]
      simp only [Function.update_self]
      exact ⟨_, follows.2 _⟩
  · rw [advance_other_thread exec pool same]
    exact ⟨stage, follows⟩

theorem follows_interleave {Thread : Type*} [DecidableEq Thread]
    {exec : (op : Op) → State → Result op × State} {post : Stage → Value → Prop}
    {pool : Pool Thread Op Result Value State} {thread : Thread}
    (follows : (pool.threads thread).Follows protocol post stage) (schedule : List Thread) :
    ∃ reached, ((interleave exec pool schedule).threads thread).Follows protocol post reached := by
  induction schedule generalizing pool stage with
  | nil => exact ⟨stage, follows⟩
  | cons first rest ih =>
      obtain ⟨_, next⟩ := follows_advance follows first
      exact ih next

end Program

end SimpleLdapd
