import Mathlib.Data.List.Basic
import Mathlib.Data.Set.Lattice
import Mathlib.Order.CompletePartialOrder
import SimpleLdapd.Library.Respect

/-!
# Programs with separate footprints

A state is made of cells, and every operation has a footprint, the cells its answer and
its effect depend on, and a part of it that it writes. Programs none of which writes into
the footprint of another do not see each other: under any schedule that finishes them
they end as they would one after the other, in any order, and each as it would alone.
-/

namespace SimpleLdapd

universe u v w x

namespace Program

variable {Op : Type u} {Result : Op → Type v} {State : Type x} {Value : Type w}

/-- What an operation depends on and what it changes, cell by cell. -/
structure CellMemory (exec : (op : Op) → State → Result op × State) (Name Cell : Type*) where
  Valid : State → Prop
  cell : State → Name → Cell
  footprint : Op → Set Name
  written : Op → Set Name
  within : ∀ op, written op ⊆ footprint op
  kept : ∀ op state, Valid state → Valid (exec op state).2
  ext : ∀ left right, Valid left → Valid right →
    (∀ name, cell left name = cell right name) → left = right
  frame : ∀ op state name, Valid state → name ∉ written op →
    cell (exec op state).2 name = cell state name
  locality : ∀ op left right, Valid left → Valid right →
    (∀ name ∈ footprint op, cell left name = cell right name) →
      (exec op left).1 = (exec op right).1 ∧
        ∀ name ∈ written op, cell (exec op left).2 name = cell (exec op right).2 name

variable {exec : (op : Op) → State → Result op × State} {Name Cell : Type*}
variable (memory : CellMemory exec Name Cell)

/-- A region of cells that may be looked at, and its part that may be written. -/
structure Region (Name : Type*) where
  looked : Set Name
  changed : Set Name

/-- Neither region is written where the other one looks. -/
def Region.Apart (left right : Region Name) : Prop :=
  Disjoint left.changed right.looked ∧ Disjoint right.changed left.looked

theorem Region.Apart.symm {left right : Region Name} (apart : left.Apart right) :
    right.Apart left := ⟨apart.2, apart.1⟩

namespace CellMemory

/-- The operation keeps to the region. -/
def Keeps (region : Region Name) (op : Op) : Prop :=
  memory.footprint op ⊆ region.looked ∧ memory.written op ⊆ region.changed

/-- The program keeps to the region, whatever its operations answer in valid states. -/
abbrev Confined (region : Region Name) (program : Program Op Result Value) : Prop :=
  program.Respects exec memory.Valid (memory.Keeps region)

variable {memory} {region other : Region Name}

theorem run_valid (program : Program Op Result Value) {state : State}
    (valid : memory.Valid state) : memory.Valid (program.run exec state).2 :=
  Respects.run (fun op state _ => memory.kept op state) (respects_anything program) valid

section Commuting

variable {state : State}

/-- An operation answers the same after one that does not write into its footprint. -/
theorem unseen_answer {op earlier : Op} (valid : memory.Valid state)
    (unseen : Disjoint (memory.written earlier) (memory.footprint op)) :
    (exec op (exec earlier state).2).1 = (exec op state).1 := by
  apply (memory.locality op _ _ (memory.kept earlier state valid) valid _).1
  intro name inside
  exact memory.frame earlier state name valid fun changed =>
    Set.disjoint_left.mp unseen changed inside

theorem ops_commute {first second : Op} (apart : region.Apart other)
    (keeps : memory.Keeps region first) (keepsOther : memory.Keeps other second)
    (valid : memory.Valid state) :
    (exec second (exec first state).2).1 = (exec second state).1 ∧
      (exec second (exec first state).2).2 = (exec first (exec second state).2).2 := by
  have unseen : Disjoint (memory.written first) (memory.footprint second) :=
    apart.1.mono keeps.2 keepsOther.1
  have otherUnseen : Disjoint (memory.written second) (memory.footprint first) :=
    apart.2.mono keepsOther.2 keeps.1
  refine ⟨unseen_answer valid unseen, ?_⟩
  have afterFirst := memory.kept first state valid
  have afterSecond := memory.kept second state valid
  have same (op earlier : Op) (quiet : Disjoint (memory.written earlier) (memory.footprint op))
      (name : Name) (here : name ∈ memory.written op) :
      memory.cell (exec op (exec earlier state).2).2 name = memory.cell (exec op state).2 name := by
    apply (memory.locality op _ _ (memory.kept earlier state valid) valid _).2 name here
    intro seen inside
    exact memory.frame earlier state seen valid fun changed =>
      Set.disjoint_left.mp quiet changed inside
  apply memory.ext _ _ (memory.kept second _ afterFirst) (memory.kept first _ afterSecond)
  intro name
  by_cases bySecond : name ∈ memory.written second
  · have notFirst : name ∉ memory.written first := fun changed =>
      Set.disjoint_left.mp unseen changed (memory.within second bySecond)
    rw [same second first unseen name bySecond, memory.frame first _ name afterSecond notFirst]
  · rw [memory.frame second _ name afterFirst bySecond]
    by_cases byFirst : name ∈ memory.written first
    · rw [same first second otherUnseen name byFirst]
    · rw [memory.frame first _ name valid byFirst, memory.frame first _ name afterSecond byFirst,
        memory.frame second _ name valid bySecond]

/-- An operation can be moved in front of a whole program that keeps apart from it. -/
theorem run_commutes {program : Program Op Result Value} {op : Op} (apart : region.Apart other)
    (confined : memory.Confined region program) (keeps : memory.Keeps other op)
    (valid : memory.Valid state) :
    (program.run exec (exec op state).2).1 = (program.run exec state).1 ∧
      (program.run exec (exec op state).2).2 = (exec op (program.run exec state).2).2 ∧
      (exec op (program.run exec state).2).1 = (exec op state).1 := by
  induction program generalizing state with
  | done value => exact ⟨rfl, rfl, rfl⟩
  | call first next ih =>
      have swapped := ops_commute apart.symm keeps confined.1 valid
      have answered := (ops_commute apart confined.1 keeps valid).1
      have later := ih _ (confined.2 state valid) (memory.kept first state valid)
      simp only [run]
      rw [swapped.1, swapped.2]
      exact ⟨later.1, later.2.1, later.2.2.trans answered⟩

end Commuting

section Serial

variable {Thread : Type*} {regions : Thread → Region Name}

/-- The programs run one after the other. -/
def serial (exec : (op : Op) → State → Result op × State)
    (threads : Thread → Program Op Result Value) (order : List Thread) (state : State) : State :=
  order.foldl (fun reached thread => ((threads thread).run exec reached).2) state

theorem serial_update [DecidableEq Thread] {threads : Thread → Program Op Result Value}
    {order : List Thread} {thread : Thread} (absent : thread ∉ order) (program : Program Op Result Value)
    (state : State) :
    serial exec (Function.update threads thread program) order state =
      serial exec threads order state := by
  apply List.foldl_ext
  intro reached other member
  have different : other ≠ thread := fun same => absent (same ▸ member)
  rw [Function.update_of_ne different]

/-- An operation can be moved in front of the threads that keep apart from it. -/
theorem serial_commutes {threads : Thread → Program Op Result Value} {order : List Thread}
    {own : Region Name} {op : Op} (keeps : memory.Keeps own op)
    (apart : ∀ thread ∈ order, (regions thread).Apart own)
    (confined : ∀ thread, memory.Confined (regions thread) (threads thread)) {state : State}
    (valid : memory.Valid state) :
    serial exec threads order (exec op state).2 = (exec op (serial exec threads order state)).2 ∧
      (exec op (serial exec threads order state)).1 = (exec op state).1 := by
  induction order generalizing state with
  | nil => exact ⟨rfl, rfl⟩
  | cons thread rest ih =>
      have here := run_commutes (apart thread (by simp)) (confined thread) keeps valid
      have later := ih (fun other member => apart other (by simp [member]))
        (run_valid (threads thread) valid)
      simp only [serial, List.foldl_cons] at later ⊢
      rw [here.2.1]
      exact ⟨later.1, later.2.trans here.2.2⟩

/-- Every program has come to its end. -/
def Finished (pool : Pool Thread Op Result Value State) : Prop :=
  ∀ thread, ∃ value, pool.threads thread = done value

theorem serial_finished {pool : Pool Thread Op Result Value State} (finished : Finished pool)
    (order : List Thread) (state : State) : serial exec pool.threads order state = state := by
  induction order generalizing state with
  | nil => rfl
  | cons thread rest ih =>
      obtain ⟨value, ended⟩ := finished thread
      rw [serial, List.foldl_cons, ended]
      exact ih state

/-- The rule: threads with regions apart are served as if one after the other, in whatever
order, and each ends as it would alone. -/
theorem interleave_serial [DecidableEq Thread] (apart : ∀ thread other, thread ≠ other →
      (regions thread).Apart (regions other)) {order : List Thread} (once : order.Nodup)
    (all : ∀ thread, thread ∈ order) {pool : Pool Thread Op Result Value State}
    (confined : ∀ thread, memory.Confined (regions thread) (pool.threads thread))
    (valid : memory.Valid pool.state) {schedule : List Thread}
    (finished : Finished (interleave exec pool schedule)) :
    (interleave exec pool schedule).state = serial exec pool.threads order pool.state ∧
      ∀ thread, (interleave exec pool schedule).threads thread =
        done ((pool.threads thread).run exec pool.state).1 := by
  induction schedule generalizing pool with
  | nil =>
      refine ⟨(serial_finished finished order pool.state).symm, ?_⟩
      intro thread
      obtain ⟨value, ended⟩ := finished thread
      change pool.threads thread = done value at ended
      change pool.threads thread = _
      rw [ended]
      rfl
  | cons mover rest ih =>
      change Finished (interleave exec (advance exec pool mover) rest) at finished
      change (interleave exec (advance exec pool mover) rest).state = _ ∧
        ∀ thread, (interleave exec (advance exec pool mover) rest).threads thread = _
      rcases advance_cases exec pool mover with ⟨_, same⟩ | ⟨op, next, pending, moved⟩
      · rw [same] at finished ⊢
        exact ih confined valid finished
      · have keeps : memory.Keeps (regions mover) op ∧
            ∀ state, memory.Valid state →
              memory.Confined (regions mover) (next (exec op state).1) := by
          have here := confined mover
          rwa [pending] at here
        have confinedAfter : ∀ thread, memory.Confined (regions thread)
            ((advance exec pool mover).threads thread) := by
          intro thread
          rw [moved]
          by_cases mine : thread = mover
          · subst mine
            simp only [Function.update_self]
            exact keeps.2 _ valid
          · simp only [Function.update_of_ne mine]
            exact confined thread
        have validAfter : memory.Valid (advance exec pool mover).state := by
          rw [moved]
          exact memory.kept op pool.state valid
        obtain ⟨reached, answers⟩ := ih confinedAfter validAfter finished
        constructor
        · -- The operation moves in front of the threads served before its own.
          obtain ⟨before, after, split⟩ := List.append_of_mem (all mover)
          have alone := once
          rw [split, List.nodup_append] at alone
          have notAfter : mover ∉ after := (List.nodup_cons.mp alone.2.1).1
          have notBefore : mover ∉ before := fun member =>
            alone.2.2 mover member mover (by simp) rfl
          have others : ∀ thread ∈ before, (regions thread).Apart (regions mover) :=
            fun thread member => apart thread mover fun same => notBefore (same ▸ member)
          have pushed := serial_commutes keeps.1 others confined valid
          rw [reached, moved, split]
          have cut (threads : Thread → Program Op Result Value) (state : State) :
              serial exec threads (before ++ mover :: after) state =
                serial exec threads after
                  ((threads mover).run exec (serial exec threads before state)).2 := by
            rw [serial, List.foldl_append, List.foldl_cons]
            rfl
          simp only [cut]
          rw [serial_update notBefore, serial_update notAfter, Function.update_self, pending,
            pushed.1]
          simp only [run]
          rw [pushed.2]
        · intro thread
          rw [answers thread, moved]
          by_cases mine : thread = mover
          · rw [mine]
            simp only [Function.update_self, pending, run]
          · have unseen := run_commutes (apart thread mover mine) (confined thread) keeps.1 valid
            simp only [Function.update_of_ne mine]
            rw [unseen.1]

end Serial

end CellMemory

end Program

end SimpleLdapd
