import Mathlib.Data.Set.Insert

/-!
# Sets closed under a parent function

A forest given by its set of names: every present name that has a parent has it
present. Adding below a present parent and removing or moving a leaf keep the
set closed.
-/

namespace SimpleLdapd

variable {Name : Type*}

def ParentClosed (parent : Name → Option Name) (present : Set Name) : Prop :=
  ∀ name ∈ present, ∀ above, parent name = some above → above ∈ present

namespace ParentClosed

variable {parent : Name → Option Name} {present : Set Name}

theorem insert (closed : ParentClosed parent present) {name : Name}
    (placed : ∀ above, parent name = some above → above ∈ present) :
    ParentClosed parent (insert name present) := by
  intro member inside above isParent
  right
  rcases inside with here | older
  · rw [here] at isParent
    exact placed above isParent
  · exact closed member older above isParent

theorem remove (closed : ParentClosed parent present) {name : Name}
    (leaf : ∀ child ∈ present, parent child ≠ some name) :
    ParentClosed parent (present \ {name}) := by
  intro member inside above isParent
  refine ⟨closed member inside.1 above isParent, ?_⟩
  intro removed
  rw [Set.mem_singleton_iff.mp removed] at isParent
  exact leaf member inside.1 isParent

theorem move (closed : ParentClosed parent present) {source target : Name}
    (leaf : ∀ child ∈ present, parent child ≠ some source)
    (placed : ∀ above, parent target = some above → above ∈ present ∧ above ≠ source) :
    ParentClosed parent (Insert.insert target (present \ {source})) :=
  (closed.remove leaf).insert placed

end ParentClosed

end SimpleLdapd
