import Mathlib.Data.List.Basic

/-!
# Least closed sets and worklists

The least set that holds the seeds and is closed under a step relation, and the
invariant of a loop that computes one with a list of pending items: every seed and
every successor of a settled item is settled or pending. When nothing is pending
the settled items hold the whole set. What counts as settled is a predicate, so a
loop may settle several items at once, say all spellings of a name.
-/

namespace SimpleLdapd.LeastClosure

variable {Item : Type*} (next : Item → Item → Prop) (seeds : Item → Prop)

/-- Membership in the least set that holds the seeds and is closed under `next`. -/
inductive Generated : Item → Prop where
  | seed {item : Item} (seeded : seeds item) : Generated item
  | step {item other : Item} (generated : Generated item) (edge : next item other) :
      Generated other

theorem Generated.least {next : Item → Item → Prop} {seeds : Item → Prop} {set : Item → Prop}
    (seeded : ∀ item, seeds item → set item)
    (closed : ∀ item other, set item → next item other → set other) {item : Item}
    (generated : Generated next seeds item) : set item := by
  induction generated with
  | seed start => exact seeded _ start
  | step _ edge ih => exact closed _ _ ih edge

/-- Two seed sets that a congruence of the step relation identifies generate sets
that it identifies. -/
theorem Generated.transport {next : Item → Item → Prop} {seeds others : Item → Prop}
    {same : Item → Item → Prop}
    (congruent : ∀ left right, same left right → ∀ other, next left other → next right other)
    (reflexive : ∀ item, same item item)
    (seeded : ∀ item, seeds item → ∃ other, others other ∧ same item other) {item : Item}
    (generated : Generated next seeds item) : ∃ other, Generated next others other ∧
      same item other := by
  induction generated with
  | seed start =>
      obtain ⟨other, begun, equal⟩ := seeded _ start
      exact ⟨other, .seed begun, equal⟩
  | step _ edge ih =>
      obtain ⟨other, begun, equal⟩ := ih
      exact ⟨_, .step begun (congruent _ _ equal _ edge), reflexive _⟩

/-- The invariant of the loop. -/
structure Covers (settled : Item → Prop) (pending : List Item) : Prop where
  seeded : ∀ item, seeds item → settled item ∨ item ∈ pending
  closed : ∀ item other, settled item → next item other → settled other ∨ other ∈ pending

namespace Covers

variable {next seeds} {settled : Item → Prop} {item : Item} {pending : List Item}

/-- The end of the loop: nothing is pending. -/
theorem complete (covers : Covers next seeds settled []) {reached : Item}
    (generated : Generated next seeds reached) : settled reached := by
  apply generated.least
  · intro start seeded
    simpa using covers.seeded start seeded
  · intro origin target done edge
    simpa using covers.closed origin target done edge

/-- A pending item that is settled already is dropped. -/
theorem skip (covers : Covers next seeds settled (item :: pending)) (done : settled item) :
    Covers next seeds settled pending := by
  have dropped (other : Item) (covered : settled other ∨ other ∈ item :: pending) :
      settled other ∨ other ∈ pending := by
    rcases covered with kept | listed
    · exact Or.inl kept
    · rcases List.mem_cons.mp listed with here | later
      · exact Or.inl (here ▸ done)
      · exact Or.inr later
  exact ⟨fun start seeded => dropped start (covers.seeded start seeded),
    fun origin target done edge => dropped target (covers.closed origin target done edge)⟩

/-- A pending item is settled, its successors become pending. -/
theorem visit (covers : Covers next seeds settled (item :: pending)) {wider : Item → Prop}
    {added : List Item} (more : ∀ other, settled other → wider other) (done : wider item)
    (fresh : ∀ origin target, wider origin → next origin target → settled origin ∨ target ∈ added) :
    Covers next seeds wider (added ++ pending) := by
  have moved (other : Item) (covered : settled other ∨ other ∈ item :: pending) :
      wider other ∨ other ∈ added ++ pending := by
    rcases covered with kept | listed
    · exact Or.inl (more other kept)
    · rcases List.mem_cons.mp listed with here | later
      · exact Or.inl (here ▸ done)
      · exact Or.inr (List.mem_append_right added later)
  constructor
  · intro start seeded
    exact moved start (covers.seeded start seeded)
  · intro origin target reached edge
    rcases fresh origin target reached edge with earlier | pushed
    · exact moved target (covers.closed origin target earlier edge)
    · exact Or.inr (List.mem_append_left pending pushed)

end Covers

end SimpleLdapd.LeastClosure
