import Mathlib.Algebra.Order.Group.Int
import Mathlib.Data.List.Basic
import Mathlib.Data.List.Count

/-!
# Fixed-window counters, one for each key

A counter opens a window of a fixed width at the first call and again at the
first call after the window has passed; inside a window it grants at most a
limit of calls. Counters of different keys share nothing, so what a key is
granted is decided by its own calls.
-/

namespace SimpleLdapd

structure WindowCounter where
  start : Int
  count : Nat

/-- What one call was told, and the start of the window it fell into. -/
structure WindowCall where
  time : Int
  allowed : Bool
  start : Int

namespace WindowCounter

variable (limit : Nat) (width : Int)

/-- The counter whose window the call falls into. -/
def opened (now : Int) : Option WindowCounter → WindowCounter
  | none => { start := now, count := 0 }
  | some counter => if width ≤ now - counter.start then { start := now, count := 0 } else counter

def counted (counter : WindowCounter) : Bool × WindowCounter :=
  if limit ≤ counter.count then (false, counter)
  else (true, { counter with count := counter.count + 1 })

def call (now : Int) (counter : Option WindowCounter) : Bool × WindowCounter :=
  counted limit (opened width now counter)

/-- The calls of one counter, in order. -/
def calls : Option WindowCounter → List Int → List WindowCall
  | _, [] => []
  | counter, now :: later =>
      let answer := call limit width now counter
      { time := now, allowed := answer.1, start := answer.2.start } ::
        calls (some answer.2) later

section Keys

variable {Key : Type*} [DecidableEq Key]

/-- The calls of many counters: each acts on the counter of its key alone. -/
def keyedCalls : (Key → Option WindowCounter) → List (Key × Int) → List (Key × WindowCall)
  | _, [] => []
  | counters, (key, now) :: later =>
      let answer := call limit width now (counters key)
      (key, { time := now, allowed := answer.1, start := answer.2.start }) ::
        keyedCalls (Function.update counters key (some answer.2)) later

/-- The counters after the calls. -/
def afterCalls (counters : Key → Option WindowCounter) (requests : List (Key × Int)) :
    Key → Option WindowCounter :=
  requests.foldl (fun reached request =>
    Function.update reached request.1
      (some (call limit width request.2 (reached request.1)).2)) counters

/-- A key is told what a counter of its own would have told it. -/
theorem keyed_calls_of_key (counters : Key → Option WindowCounter) (key : Key)
    (requests : List (Key × Int)) :
    ((keyedCalls limit width counters requests).filter (·.1 = key)).map Prod.snd =
      calls limit width (counters key) ((requests.filter (·.1 = key)).map Prod.snd) := by
  induction requests generalizing counters with
  | nil => rfl
  | cons request later reached =>
      rcases request with ⟨other, now⟩
      rw [keyedCalls]
      by_cases same : other = key
      · rw [List.filter_cons_of_pos (by simpa using same),
          List.filter_cons_of_pos (by simpa using same), List.map_cons, List.map_cons, reached,
          calls, same, Function.update_self]
      · rw [List.filter_cons_of_neg (by simpa using same),
          List.filter_cons_of_neg (by simpa using same), reached,
          Function.update_of_ne (Ne.symm same)]

end Keys

section Bounds

variable {limit : Nat} {width : Int}

theorem counted_start (counter : WindowCounter) :
    (counted limit counter).2.start = counter.start := by
  unfold counted
  split
  · rfl
  · rfl

/-- A call stays in the window or opens one at its own time. -/
theorem opened_cases (width now : Int) (counter : WindowCounter) :
    (now < counter.start + width ∧ opened width now (some counter) = counter) ∨
      (counter.start + width ≤ now ∧
        opened width now (some counter) = { start := now, count := 0 }) := by
  unfold opened
  simp only
  split
  · exact Or.inr ⟨by omega, rfl⟩
  · exact Or.inl ⟨by omega, rfl⟩

/-- The first of several calls may as well find its window open. -/
theorem calls_opened (counter : Option WindowCounter) (now : Int)
    (later : List Int) :
    calls limit width counter (now :: later) =
      calls limit width (some (opened width now counter)) (now :: later) := by
  have again : opened width now (some (opened width now counter)) = opened width now counter := by
    cases counter with
    | none => simp [opened]
    | some counter =>
        rcases opened_cases width now counter with same | fresh
        · rw [same.2, same.2]
        · rw [fresh.2]
          simp [opened]
  rw [calls, calls, call, call, again]

theorem call_start (now : Int) (counter : WindowCounter) :
    (call limit width now (some counter)).2.start = (opened width now (some counter)).start :=
  counted_start _

theorem next_begun (limit : Nat) (width : Int) {now : Int} {later : List Int}
    (ordered : (now :: later).Pairwise (· ≤ ·)) {counter : WindowCounter} (begun : counter.start ≤ now) :
    ∀ time ∈ later, (call limit width now (some counter)).2.start ≤ time := by
  intro time member
  have after := (List.pairwise_cons.mp ordered).1 time member
  rw [call_start]
  rcases opened_cases width now counter with same | fresh
  · rw [same.2]
    exact begun.trans after
  · rw [fresh.2]
    exact after

/-- Every call falls into the window it is booked on, and a window after the counter's own is at
least one width later. -/
theorem calls_within (limit : Nat) (positive : 0 < width) {times : List Int}
    (ordered : times.Pairwise (· ≤ ·)) {counter : WindowCounter} (begun : ∀ time ∈ times, counter.start ≤ time) :
    ∀ booked ∈ calls limit width (some counter) times,
      booked.start ≤ booked.time ∧ booked.time < booked.start + width ∧
        (booked.start = counter.start ∨ counter.start + width ≤ booked.start) := by
  induction times generalizing counter with
  | nil =>
      intro booked member
      cases member
  | cons now later reached =>
      have here := begun now List.mem_cons_self
      have after := List.pairwise_cons.mp ordered
      intro booked member
      rw [calls, List.mem_cons] at member
      simp only [call_start] at member
      rcases opened_cases width now counter with ⟨inside, same⟩ | ⟨expired, fresh⟩
      · rw [same] at member
        rcases member with first | rest
        · rw [first]
          exact ⟨here, inside, Or.inl rfl⟩
        · have start : (call limit width now (some counter)).2.start = counter.start := by
            rw [call_start, same]
          have next := reached after.2 (next_begun limit width ordered here) booked rest
          rwa [start] at next
      · rw [fresh] at member
        rcases member with first | rest
        · rw [first]
          exact ⟨le_refl now, by simp only; omega, Or.inr expired⟩
        · have start : (call limit width now (some counter)).2.start = now := by
            rw [call_start, fresh]
          have next := reached after.2 (next_begun limit width ordered here) booked rest
          rw [start] at next
          exact ⟨next.1, next.2.1, Or.inr (by omega)⟩

/-- The calls granted in the window that began at `start`. -/
def granted (start : Int) (booked : List WindowCall) : Nat :=
  booked.countP fun call => call.allowed && call.start = start

theorem granted_cons (start : Int) (call : WindowCall) (rest : List WindowCall) :
    granted start (call :: rest) =
      granted start rest + if call.allowed = true ∧ call.start = start then 1 else 0 := by
  simp [granted, List.countP_cons]

theorem granted_elsewhere {start : Int} {booked : List WindowCall}
    (elsewhere : ∀ call ∈ booked, call.start ≠ start) : granted start booked = 0 := by
  rw [granted, List.countP_eq_zero]
  intro call member
  simp [elsewhere call member]

/-- A counter grants in its own window what is left of the limit. -/
theorem granted_after (counter : WindowCounter) (now : Int) (later : List WindowCall)
    (rest : granted counter.start later ≤ limit - (counted limit counter).2.count) :
    granted counter.start
      ({ time := now, allowed := (counted limit counter).1,
         start := (counted limit counter).2.start } :: later) ≤ limit - counter.count := by
  rw [granted_cons, counted_start]
  unfold counted at rest ⊢
  split
  · rename_i full
    rw [if_pos full] at rest
    simpa using rest
  · rename_i free
    rw [if_neg free] at rest
    simp only [and_self, if_true] at rest ⊢
    omega

/-- One call inside the window under way, before calls that keep to the bound. -/
theorem granted_inside {counter : WindowCounter} {now : Int} (inside : now < counter.start + width)
    {later : List Int} {start : Int}
    (rest : ∀ next : WindowCounter, next.start = counter.start →
      granted start (calls limit width (some next) later) ≤
        if start = next.start then limit - next.count else limit) :
    granted start (calls limit width (some counter) (now :: later)) ≤
      if start = counter.start then limit - counter.count else limit := by
  have same : opened width now (some counter) = counter := by
    rcases opened_cases width now counter with same | expired
    · exact same.2
    · omega
  have after := rest (counted limit counter).2 (counted_start counter)
  rw [counted_start] at after
  rw [calls, call, same]
  by_cases own : start = counter.start
  · rw [if_pos own] at after ⊢
    rw [own] at after ⊢
    exact granted_after counter now _ after
  · rw [if_neg own] at after ⊢
    rw [granted_cons, if_neg (by simp [counted_start, Ne.symm own])]
    exact after

/-- No window grants more than the limit, and the one under way no more than is left of it. -/
theorem granted_le (limit : Nat) (positive : 0 < width) {times : List Int}
    (ordered : times.Pairwise (· ≤ ·)) {counter : WindowCounter}
    (begun : ∀ time ∈ times, counter.start ≤ time) (start : Int) :
    granted start (calls limit width (some counter) times) ≤
      if start = counter.start then limit - counter.count else limit := by
  induction times generalizing counter with
  | nil => exact Nat.zero_le _
  | cons now later reached =>
      have after := List.pairwise_cons.mp ordered
      rcases opened_cases width now counter with ⟨inside, -⟩ | ⟨expired, fresh⟩
      · apply granted_inside inside
        intro next same
        apply reached after.2
        intro time member
        rw [same]
        exact begun time (List.mem_cons_of_mem _ member)
      · rw [calls_opened, fresh]
        have opens : ∀ time ∈ now :: later, ({ start := now, count := 0 } : WindowCounter).start ≤
            time := by simpa using after.1
        by_cases own : start = counter.start
        · have none : granted start
              (calls limit width (some { start := now, count := 0 }) (now :: later)) = 0 := by
            apply granted_elsewhere
            intro booked member
            have within := calls_within limit positive ordered opens booked member
            simp only at within
            omega
          rw [none]
          exact Nat.zero_le _
        · have bound : granted start
              (calls limit width (some { start := now, count := 0 }) (now :: later)) ≤
                if start = now then limit - 0 else limit := by
            apply granted_inside (by simp only; omega)
            intro next same
            apply reached after.2
            intro time member
            rw [same]
            exact after.1 time member
          rw [if_neg own]
          simpa only [Nat.sub_zero, ite_self] using bound

/-- Windows of one counter coincide or lie at least one width apart. -/
theorem windows_apart (positive : 0 < width) {times : List Int} (ordered : times.Pairwise (· ≤ ·))
    {counter : WindowCounter} (begun : ∀ time ∈ times, counter.start ≤ time) :
    ∀ left ∈ calls limit width (some counter) times,
      ∀ right ∈ calls limit width (some counter) times,
        left.start = right.start ∨ left.start + width ≤ right.start ∨
          right.start + width ≤ left.start := by
  induction times generalizing counter with
  | nil =>
      intro left member
      cases member
  | cons now later reached =>
      have after := List.pairwise_cons.mp ordered
      have next := next_begun limit width ordered
        (begun now List.mem_cons_self)
      have following := calls_within limit positive after.2 next
      intro left leftMember right rightMember
      rw [calls, List.mem_cons] at leftMember rightMember
      rcases leftMember with leftFirst | leftLater
      · rcases rightMember with rightFirst | rightLater
        · exact Or.inl (by rw [leftFirst, rightFirst])
        · rw [leftFirst, eq_comm]
          exact (following right rightLater).2.2.imp_right Or.inl
      · rcases rightMember with rightFirst | rightLater
        · rw [rightFirst]
          exact (following left leftLater).2.2.imp_right Or.inr
        · exact reached after.2 next left leftLater right rightLater

/-- All calls of an interval no longer than one width fall into two windows. -/
theorem two_windows (positive : 0 < width) {times : List Int} (ordered : times.Pairwise (· ≤ ·))
    {counter : WindowCounter} (begun : ∀ time ∈ times, counter.start ≤ time) (low : Int) :
    ∃ first second, ∀ booked ∈ calls limit width (some counter) times,
      low ≤ booked.time → booked.time ≤ low + width →
        booked.start = first ∨ booked.start = second := by
  by_contra more
  push Not at more
  rcases more 0 0 with ⟨one, oneMember, oneLow, oneHigh, -⟩
  rcases more one.start one.start with ⟨two, twoMember, twoLow, twoHigh, twoNew, -⟩
  rcases more one.start two.start with
    ⟨three, threeMember, threeLow, threeHigh, threeNew, threeOther⟩
  -- Three windows, a width apart each, are wider together than the interval.
  have oneWithin := calls_within limit positive ordered begun one oneMember
  have twoWithin := calls_within limit positive ordered begun two twoMember
  have threeWithin := calls_within limit positive ordered begun three threeMember
  have oneTwo := windows_apart positive ordered begun one oneMember two twoMember
  have oneThree := windows_apart positive ordered begun one oneMember three threeMember
  have twoThree := windows_apart positive ordered begun two twoMember three threeMember
  omega

theorem countP_le_add {Item : Type*} {whole left right : Item → Bool} {items : List Item}
    (covered : ∀ item ∈ items, whole item = true → left item = true ∨ right item = true) :
    items.countP whole ≤ items.countP left + items.countP right := by
  induction items with
  | nil => exact Nat.zero_le _
  | cons head rest reached =>
      have tail := reached fun item member => covered item (List.mem_cons_of_mem _ member)
      have here := covered head List.mem_cons_self
      simp only [List.countP_cons]
      split_ifs <;> simp_all <;> omega

theorem first_begun (width : Int) {now : Int} {later : List Int}
    (ordered : (now :: later).Pairwise (· ≤ ·)) :
    ∀ time ∈ now :: later, (opened width now none).start ≤ time := by
  intro time member
  rcases List.mem_cons.mp member with first | rest
  · rw [first]
    exact le_refl now
  · exact (List.pairwise_cons.mp ordered).1 time rest

/-- What a fresh counter grants in one window. -/
theorem granted_window (limit : Nat) (positive : 0 < width) {times : List Int}
    (ordered : times.Pairwise (· ≤ ·)) (start : Int) :
    granted start (calls limit width none times) ≤ limit := by
  cases times with
  | nil => exact Nat.zero_le _
  | cons now later =>
      rw [calls_opened]
      have bound := granted_le limit positive ordered (first_begun width ordered) start
      split at bound
      · exact bound.trans (Nat.sub_le _ _)
      · exact bound

/-- What a fresh counter grants in any interval as long as its window. -/
theorem granted_interval (positive : 0 < width) {times : List Int}
    (ordered : times.Pairwise (· ≤ ·)) (low : Int) :
    ((calls limit width none times).countP fun booked =>
      booked.allowed && (low ≤ booked.time && booked.time ≤ low + width)) ≤ 2 * limit := by
  have two : ∃ first second, ∀ booked ∈ calls limit width none times,
      low ≤ booked.time → booked.time ≤ low + width →
        booked.start = first ∨ booked.start = second := by
    cases times with
    | nil => exact ⟨0, 0, fun _ member => nomatch member⟩
    | cons now later =>
        rw [calls_opened]
        exact two_windows positive ordered (first_begun width ordered) low
  rcases two with ⟨first, second, covered⟩
  have one := granted_window limit positive ordered first
  have other := granted_window limit positive ordered second
  calc (calls limit width none times).countP _
      ≤ granted first (calls limit width none times) +
          granted second (calls limit width none times) := by
        apply countP_le_add
        intro booked member inside
        simp only [Bool.and_eq_true, decide_eq_true_eq] at inside
        simp only [inside.1, Bool.true_and, decide_eq_true_eq]
        exact covered booked member inside.2.1 inside.2.2
    _ ≤ 2 * limit := by omega

end Bounds

end WindowCounter

end SimpleLdapd
