import SimpleLdapd.Library.TwosComplement
import SimpleLdapd.Protocol.Ber

/-!
# What a decoder does to its readers (`protocol/ber.cpp`)

`Steps size read` takes a read apart: on readers over buffers of `size` bytes it
looks, consumes, fails, goes on with a value that it was given, opens a reader
over fewer bytes, or loops over an item that consumes. `events` lists what
happens in a run. Whatever is taken apart like this stays inside its buffers and
comes to its end.
-/

namespace SimpleLdapd.Ber

open Dn BigEndian

variable {Value First Second : Type}

/-- The read gives the value on some reader over `size` bytes. -/
def Returns (size : Nat) (read : Read Value) (value : Value) : Prop :=
  ∃ reader after, reader.data.length = size ∧ read.run reader = (some value, after)

/-- The read gives no value without a byte. -/
def Consumes (size : Nat) (read : Read Value) : Prop :=
  ∀ reader value after, reader.data.length = size → read.run reader = (some value, after) →
    reader.offset < after.offset

/-- A read that fails on a failed reader. -/
def Refuses (read : Read Value) : Prop :=
  ∀ reader, reader.ok = false → (read.run reader).1 = none

/-- A read that leaves its reader failed whenever it fails. -/
def Marks (read : Read Value) : Prop :=
  ∀ reader, (read.run reader).1 = none → (read.run reader).2.ok = false

/-- A reader that has failed stays failed, and so does every read on it. -/
structure Sticky (read : Read Value) : Prop where
  refuses : Refuses read
  marks : Marks read

inductive Steps : Nat → {Value : Type} → Read Value → Type 1 where
  | look {size : Nat} {Value : Type} (view : BerReader → Option Value) :
      Steps size ⟨fun reader => (view reader, reader)⟩
  | fail {size : Nat} {Value : Type} : Steps size (Read.fail : Read Value)
  | consume {size : Nat} (count : Nat) (small : count < 2 ^ 32) : Steps size (consume count)
  | bind {size : Nat} {First Second : Type} {first : Read First} {rest : First → Read Second}
      (here : Steps size first)
      (there : ∀ value, Returns size first value → Steps size (rest value)) :
      Steps size (first >>= rest)
  | within {size : Nat} {Value : Type} {inner : BerReader} {body : Read Value}
      (fresh : inner.offset = 0) (shorter : inner.data.length < size)
      (steps : Steps inner.data.length body) : Steps size (Read.within inner body)
  | loop {size : Nat} {Value : Type} {item : Read Value} (turn : Steps size item)
      (consumes : Consumes size item) : Steps size (Read.whileMore item)
  | choose {size : Nat} {Value : Type} {condition : Prop} [Decidable condition]
      {yes no : Read Value} (taken : condition → Steps size yes)
      (other : ¬condition → Steps size no) : Steps size (if condition then yes else no)
  | atSize {size : Nat} {Value : Type} {read : Nat → Read Value} (steps : Steps size (read size)) :
      Steps size ⟨fun reader => (read reader.data.length).run reader⟩

/-- What happens to a reader. -/
inductive Event where
  | looks (reader : BerReader)
  | fails (reader : BerReader)
  /-- The test of `consume`, and of `readConstructed`, on `offset_ + n`. -/
  | reads (reader : BerReader) (count : Nat)
  | opens (parent inner : BerReader)
  /-- A turn of a loop that did not fail. -/
  | turn (before after : BerReader)
  /-- A loop that is out of fuel. -/
  | exhausted

def BerReader.Inside (reader : BerReader) : Prop := reader.offset ≤ reader.data.length

def Event.Good : Event → Prop
  | .looks reader => reader.Inside
  | .fails reader => reader.Inside
  | .reads reader count =>
      reader.Inside ∧ reader.offset + count < 2 ^ 64 ∧ ((consume count).run reader).2.Inside
  | .opens parent inner =>
      parent.Inside ∧ inner.Inside ∧ inner.data.length < parent.data.length
  | .turn before after =>
      after.Inside ∧ after.data = before.data ∧ before.offset < after.offset
  | .exhausted => False

section Moves

/-- How a read may change its reader. -/
structure Moves (before after : BerReader) : Prop where
  data : after.data = before.data
  forward : before.offset ≤ after.offset
  inside : before.Inside → after.Inside
  sticky : before.ok = false → after.ok = false

theorem moves_refl (reader : BerReader) : Moves reader reader := ⟨rfl, le_rfl, id, id⟩

theorem Moves.trans {before middle after : BerReader} (first : Moves before middle)
    (second : Moves middle after) : Moves before after where
  data := second.data.trans first.data
  forward := first.forward.trans second.forward
  inside := fun inside => second.inside (first.inside inside)
  sticky := fun failed => second.sticky (first.sticky failed)

theorem Moves.size {before after : BerReader} (moves : Moves before after) :
    after.data.length = before.data.length := by
  rw [moves.data]

theorem consume_moves (count : Nat) (reader : BerReader) :
    Moves reader ((consume count).run reader).2 := by
  simp only [consume]
  split
  · exact ⟨rfl, le_rfl, id, fun _ => rfl⟩
  · rename_i taken
    simp only [Bool.or_eq_true, Bool.not_eq_true', decide_eq_true_eq, not_or, Nat.not_lt] at taken
    exact ⟨rfl, Nat.le_add_right _ _, fun _ => taken.2, id⟩

theorem loop_moves {size : Nat} {item : Read Value}
    (moves : ∀ reader : BerReader, reader.data.length = size → Moves reader (item.run reader).2)
    (fuel : Nat) (reader : BerReader) (sized : reader.data.length = size) :
    Moves reader ((Read.loop item fuel).run reader).2 := by
  induction fuel generalizing reader with
  | zero => exact moves_refl reader
  | succ fuel ih =>
      have here := moves reader sized
      rw [Read.loop, Read.bind_apply]
      simp only [Read.atEnd]
      by_cases ended : reader.atEnd = true
      · rw [if_pos ended]
        exact moves_refl reader
      · rw [if_neg ended, Read.bind_apply]
        cases taken : item.run reader with
        | mk value after =>
            rw [taken] at here
            cases value with
            | none => exact here
            | some value =>
                have later := ih after (here.size.trans sized)
                simp only [Read.bind_apply]
                cases rest : (Read.loop item fuel).run after with
                | mk values last =>
                    rw [rest] at later
                    cases values with
                    | none => exact here.trans later
                    | some values => exact here.trans later

theorem Steps.moves {size : Nat} {read : Read Value} (steps : Steps size read) :
    ∀ reader : BerReader, reader.data.length = size → Moves reader (read.run reader).2 := by
  induction steps with
  | look view => exact fun reader _ => moves_refl reader
  | fail => exact fun reader _ => ⟨rfl, le_rfl, id, fun _ => rfl⟩
  | consume count small => exact fun reader _ => consume_moves count reader
  | @bind size First Second first rest here there firstMoves restMoves =>
      intro reader sized
      have start := firstMoves reader sized
      rw [Read.bind_apply]
      cases taken : first.run reader with
      | mk value after =>
          rw [taken] at start
          cases value with
          | none => exact start
          | some value =>
              exact start.trans (restMoves value ⟨reader, after, sized, taken⟩ after
                (start.size.trans sized))
  | within fresh shorter steps ih => exact fun reader _ => moves_refl reader
  | loop turn consumes ih =>
      exact fun reader sized => loop_moves ih (reader.data.length + 1) reader sized
  | choose taken other yes no =>
      intro reader sized
      split
      · rename_i condition
        exact yes condition reader sized
      · rename_i condition
        exact no condition reader sized
  | atSize steps ih =>
      intro reader sized
      have moves := ih reader sized
      rw [← sized] at moves
      exact moves

end Moves

section Events

variable {size : Nat}

/-- The turns of a loop, with the fuel that `Read.loop` has. -/
def turns (item : Read Value)
    (events : (reader : BerReader) → reader.data.length = size → List Event)
    (moves : ∀ reader : BerReader, reader.data.length = size → Moves reader (item.run reader).2) :
    Nat → (reader : BerReader) → reader.data.length = size → List Event
  | 0, _, _ => [.exhausted]
  | fuel + 1, reader, sized =>
      .looks reader ::
        if reader.atEnd then []
        else events reader sized ++
          match (item.run reader).1 with
          | none => []
          | some _ =>
              .turn reader (item.run reader).2 ::
                turns item events moves fuel (item.run reader).2
                  ((moves reader sized).size.trans sized)

def Steps.events : {size : Nat} → {Value : Type} → {read : Read Value} → Steps size read →
    (reader : BerReader) → reader.data.length = size → List Event
  | _, _, _, .look _, reader, _ => [.looks reader]
  | _, _, _, .fail, reader, _ => [.fails reader]
  | _, _, _, .consume count _, reader, _ => [.reads reader count]
  | _, _, _, @Steps.bind _ _ _ first _ here there, reader, sized =>
      here.events reader sized ++
        match taken : first.run reader with
        | (none, _) => []
        | (some value, after) =>
            (there value ⟨reader, after, sized, taken⟩).events after
              (by rw [← sized, ← (here.moves reader sized).data, taken])
  | _, _, _, @Steps.within _ _ inner _ _ _ steps, reader, _ =>
      .opens reader inner :: steps.events inner rfl
  | _, _, _, @Steps.loop _ _ item turn _, reader, sized =>
      turns item turn.events turn.moves (reader.data.length + 1) reader sized
  | _, _, _, @Steps.choose _ _ condition decision _ _ taken other, reader, sized =>
      match decision with
      | isTrue holds => (taken holds).events reader sized
      | isFalse fails => (other fails).events reader sized
  | _, _, _, .atSize steps, reader, sized => steps.events reader sized

theorem turns_good {item : Read Value}
    {events : (reader : BerReader) → reader.data.length = size → List Event}
    {moves : ∀ reader : BerReader, reader.data.length = size → Moves reader (item.run reader).2}
    (consumes : Consumes size item)
    (good : ∀ reader sized, reader.Inside → ∀ event ∈ events reader sized, event.Good)
    (fuel : Nat) (reader : BerReader) (sized : reader.data.length = size) (inside : reader.Inside)
    (enough : reader.data.length < reader.offset + fuel) :
    ∀ event ∈ turns item events moves fuel reader sized, event.Good := by
  induction fuel generalizing reader with
  | zero => exact absurd inside (Nat.not_le_of_lt enough)
  | succ fuel ih =>
      have here := moves reader sized
      intro event member
      rw [turns] at member
      rcases List.mem_cons.mp member with first | later
      · rw [first]
        exact inside
      split at later
      · cases later
      rcases List.mem_append.mp later with own | next
      · exact good reader sized inside event own
      cases given : (item.run reader).1 with
      | none =>
          rw [given] at next
          cases next
      | some value =>
          rw [given] at next
          have forward := consumes reader value (item.run reader).2 sized (by rw [← given])
          rcases List.mem_cons.mp next with turned | rest
          · rw [turned]
            exact ⟨here.inside inside, here.data, forward⟩
          · have size := here.size
            exact ih _ _ (here.inside inside) (by omega) event rest

/-- Every run of such steps stays inside its buffers and comes to its end. -/
theorem Steps.good {size : Nat} {read : Read Value} (steps : Steps size read)
    (small : size < 2 ^ 62) : ∀ (reader : BerReader) (sized : reader.data.length = size),
      reader.Inside → ∀ event ∈ steps.events reader sized, event.Good := by
  induction steps with
  | look view =>
      intro reader sized inside event member
      rw [List.mem_singleton.mp member]
      exact inside
  | fail =>
      intro reader sized inside event member
      rw [List.mem_singleton.mp member]
      exact inside
  | consume count few =>
      intro reader sized inside event member
      rw [List.mem_singleton.mp member]
      refine ⟨inside, ?_, (consume_moves count reader).inside inside⟩
      unfold BerReader.Inside at inside
      omega
  | @bind size First Second first rest here there firstGood restGood =>
      intro reader sized inside event member
      rw [Steps.events] at member
      rcases List.mem_append.mp member with own | next
      · exact firstGood small reader sized inside event own
      · have moves := here.moves reader sized
        split at next
        · cases next
        · rename_i value after taken
          rw [taken] at moves
          exact restGood value _ small after _ (moves.inside inside) event next
  | @within size Value inner body fresh shorter steps ih =>
      intro reader sized inside event member
      have start : inner.Inside := by
        unfold BerReader.Inside
        omega
      rcases List.mem_cons.mp member with opened | later
      · rw [opened]
        exact ⟨inside, start, by omega⟩
      · exact ih (by omega) inner rfl start event later
  | loop turn consumes ih =>
      intro reader sized inside
      exact turns_good consumes (ih small) _ reader sized inside (by omega)
  | @choose size Value condition decision yes no taken other takenGood otherGood =>
      intro reader sized inside event member
      cases decision with
      | isTrue holds => exact takenGood holds small reader sized inside event member
      | isFalse fails => exact otherGood fails small reader sized inside event member
  | atSize steps ih => exact ih small

end Events

section Consuming

variable {size : Nat}

/-- One of the steps on the way to a value takes a byte. -/
def Steps.Consuming : {size : Nat} → {Value : Type} → {read : Read Value} → Steps size read → Prop
  | _, _, _, .look view => ∀ reader, view reader = none
  | _, _, _, .fail => True
  | _, _, _, .consume count _ => 0 < count
  | _, _, _, .bind here there =>
      here.Consuming ∨ ∀ value returned, (there value returned).Consuming
  | _, _, _, .within .. => False
  | _, _, _, .loop .. => False
  | _, _, _, @Steps.choose _ _ _ _ _ _ taken other =>
      (∀ holds, (taken holds).Consuming) ∧ ∀ fails, (other fails).Consuming
  | _, _, _, .atSize steps => steps.Consuming

theorem consumes_consume {count : Nat} (positive : 0 < count) : Consumes size (consume count) := by
  intro reader value after sized taken
  simp only [consume] at taken
  split at taken
  · cases taken
  · cases taken
    exact Nat.lt_add_of_pos_right positive

theorem Steps.consumes {read : Read Value} (steps : Steps size read) (consuming : steps.Consuming) :
    Consumes size read := by
  induction steps with
  | look view =>
      intro reader value after sized taken
      have none : view reader = none := consuming reader
      rw [Prod.mk.injEq, none] at taken
      cases taken.1
  | fail =>
      intro reader value after sized taken
      cases taken
  | consume count few => exact consumes_consume consuming
  | @bind size First Second first rest here there firstConsumes restConsumes =>
      intro reader value after sized taken
      rcases Read.bind_some taken with ⟨given, middle, run, later⟩
      have start := here.moves reader sized
      rw [run] at start
      have returned : Returns size first given := ⟨reader, middle, sized, run⟩
      have reached := start.size.trans sized
      have rest := (there given returned).moves middle reached
      rw [later] at rest
      rcases consuming with consumed | consumed
      · exact lt_of_lt_of_le (firstConsumes consumed reader given middle sized run) rest.forward
      · exact lt_of_le_of_lt start.forward
          (restConsumes given returned (consumed given returned) middle value after reached later)
  | within fresh shorter steps ih => cases consuming
  | loop turn consumes ih => cases consuming
  | choose taken other yes no =>
      split
      · rename_i holds
        exact yes holds (consuming.1 holds)
      · rename_i fails
        exact no fails (consuming.2 fails)
  | atSize steps ih =>
      intro reader value after sized taken
      subst sized
      exact ih consuming reader value after rfl taken

end Consuming

section Reads

variable {size : Nat}

def Steps.give (value : Value) : Steps size (pure value : Read Value) :=
  .look fun _ => some value

def Steps.refuse : Steps size (Read.refuse : Read Value) := .look fun _ => none

def Steps.peekTag : Steps size Read.peekTag := .look fun reader => some reader.peekTag

def Steps.atEnd : Steps size Read.atEnd := .look fun reader => some reader.atEnd

def Steps.nextIs (tag : Byte) : Steps size (Read.nextIs tag) :=
  .look fun reader => some (!reader.atEnd && reader.peekTag = tag)

def Steps.requireOk : Steps size Read.requireOk :=
  .look fun reader => if reader.ok then some () else none

/-- `if (!read) return false;` and the assignment after it. -/
def Steps.assign {first : Read First} (here : Steps size first) (make : First → Second) :
    Steps size (first >>= fun value => pure (make value)) :=
  .bind here fun _ _ => .give _

theorem returns_consume {count : Nat} {bytes : Bytes}
    (returned : Returns size (consume count) bytes) :
    bytes.length = count ∧ count ≤ size := by
  rcases returned with ⟨reader, after, sized, run⟩
  simp only [consume] at run
  split at run
  · cases run
  · rename_i taken
    simp only [Bool.or_eq_true, Bool.not_eq_true', decide_eq_true_eq, not_or, Nat.not_lt] at taken
    cases run
    simp only [substr, List.length_take, List.length_drop]
    omega

def readLengthSteps : Steps size readLength :=
  .bind (.consume 1 (by decide)) fun _ _ =>
    .choose (fun _ => .give _) fun _ =>
      .choose (fun _ => .fail) fun few =>
        .bind (.consume _ (by omega)) fun _ _ => .give _

theorem fold_length_lt {bytes : Bytes} (few : bytes.length ≤ 4) :
    bytes.foldl (fun length byte => length <<< 8 ||| byte.val) 0 < 2 ^ 32 := by
  rw [fold_shift_value]
  calc value bytes < 256 ^ bytes.length := value_lt bytes
    _ ≤ 256 ^ 4 := Nat.pow_le_pow_right (by decide) few
    _ = 2 ^ 32 := by decide

/-- A length takes at most four bytes, so `size_t` holds it. -/
theorem returns_length {length : Nat} (returned : Returns size readLength length) :
    length < 2 ^ 32 := by
  rcases returned with ⟨reader, after, sized, run⟩
  rcases Read.bind_some run with ⟨head, middle, _, rest⟩
  simp only at rest
  split at rest
  · cases rest
    omega
  split at rest
  · cases rest
  rename_i few
  rcases Read.bind_some rest with ⟨bytes, last, consumed, given⟩
  have counted := returns_consume ⟨middle, last, rfl, consumed⟩
  cases given
  exact fold_length_lt (by omega)

def readTagLengthSteps : Steps size readTagLength :=
  .bind (.consume 1 (by decide)) fun _ _ => .bind readLengthSteps fun _ _ => .give _

theorem returns_tag_length {header : Byte × Nat} (returned : Returns size readTagLength header) :
    header.2 < 2 ^ 32 := by
  rcases returned with ⟨reader, after, sized, run⟩
  rcases Read.bind_some run with ⟨head, middle, _, rest⟩
  rcases Read.bind_some rest with ⟨length, last, counted, given⟩
  cases given
  exact returns_length ⟨middle, _, rfl, counted⟩

def readConstructedSteps (tag : Byte) : Steps size (readConstructed tag) :=
  .bind readTagLengthSteps fun ⟨_, _⟩ returned =>
    .choose (fun _ => .fail) fun _ =>
      .bind (.consume _ (returns_tag_length returned)) fun _ _ => .give _

/-- A nested reader starts in front of fewer bytes: the tag and the length are not in it. -/
theorem returns_constructed {tag : Byte} {inner : BerReader}
    (returned : Returns size (readConstructed tag) inner) :
    inner.offset = 0 ∧ inner.data.length < size := by
  rcases returned with ⟨reader, after, sized, run⟩
  rcases Read.bind_some run with ⟨⟨actual, length⟩, middle, header, rest⟩
  have moved := (@readTagLengthSteps size).consumes (Or.inl Nat.one_pos) reader _ middle
    sized header
  have same : Moves reader middle := by
    have moves := (@readTagLengthSteps size).moves reader sized
    rw [header] at moves
    exact moves
  simp only at rest
  split at rest
  · cases rest
  rcases Read.bind_some rest with ⟨content, last, consumed, given⟩
  have counted := returns_consume ⟨middle, last, same.size.trans sized, consumed⟩
  simp only [consume] at consumed
  split at consumed
  · cases consumed
  rename_i taken
  simp only [Bool.or_eq_true, Bool.not_eq_true', decide_eq_true_eq, not_or, Nat.not_lt] at taken
  cases given
  have reached := same.size
  exact ⟨rfl, by simp only; omega⟩

def readBlockSteps {body : Read Value} (tag : Byte)
    (steps : ∀ inner, inner < size → Steps inner body) :
    Steps size (readBlock tag body) :=
  .bind (readConstructedSteps tag) fun inner returned =>
    .within (returns_constructed returned).1 (returns_constructed returned).2
      (steps inner.data.length (returns_constructed returned).2)

/-- A block in the middle of a read that goes on behind it. -/
def readNestedSteps {body : Read First} {rest : First → Read Second} (tag : Byte)
    (steps : ∀ inner, inner < size → Steps inner body) (there : ∀ value, Steps size (rest value)) :
    Steps size (readConstructed tag >>= fun inner => Read.within inner body >>= rest) :=
  .bind (readConstructedSteps tag) fun inner returned =>
    .bind (.within (returns_constructed returned).1 (returns_constructed returned).2
      (steps inner.data.length (returns_constructed returned).2)) fun value _ => there value

def readIntegerSteps : Steps size readInteger :=
  .bind readTagLengthSteps fun ⟨_, _⟩ returned =>
    .choose (fun _ => .fail) fun _ =>
      .bind (.consume _ (returns_tag_length returned)) fun _ _ => .give _

def readEnumeratedSteps : Steps size readEnumerated :=
  .bind readTagLengthSteps fun ⟨_, _⟩ returned =>
    .choose (fun _ => .fail) fun _ =>
      .bind (.consume _ (returns_tag_length returned)) fun _ _ => .give _

def readBooleanSteps : Steps size readBoolean :=
  .bind readTagLengthSteps fun ⟨_, _⟩ returned =>
    .choose (fun _ => .fail) fun _ =>
      .bind (.consume _ (returns_tag_length returned)) fun _ _ => .give _

def readOctetStringAsSteps (tag : Byte) : Steps size (readOctetStringAs tag) :=
  .bind readTagLengthSteps fun ⟨_, _⟩ returned =>
    .choose (fun _ => .fail) fun _ =>
      .choose (fun _ => .give _) fun _ => .consume _ (returns_tag_length returned)

def readOctetStringSteps : Steps size readOctetString := readOctetStringAsSteps kBerOctetString

def skipSteps : Steps size skip :=
  .bind readTagLengthSteps fun ⟨_, _⟩ returned =>
    .bind (.consume _ (returns_tag_length returned)) fun _ _ => .give _

/-- Every method of the reader takes the first byte of a tag. -/
theorem consuming_tag_length : (@readTagLengthSteps size).Consuming := Or.inl Nat.one_pos

theorem consuming_constructed (tag : Byte) : (@readConstructedSteps size tag).Consuming :=
  Or.inl consuming_tag_length

theorem consuming_octet_string (tag : Byte) : (@readOctetStringAsSteps size tag).Consuming :=
  Or.inl consuming_tag_length

theorem consuming_skip : (@skipSteps size).Consuming := Or.inl consuming_tag_length

/-- A turn of a loop over fields in any order: three tags are known, other elements skipped. -/
def fieldSteps (one two three : Byte) (first second third : Bytes → Value) (unknown : Value) :
    Steps size (Read.peekTag >>= fun tag =>
      if tag = one then readOctetStringAs one >>= fun value => pure (first value)
      else if tag = two then readOctetStringAs two >>= fun value => pure (second value)
      else if tag = three then readOctetStringAs three >>= fun value => pure (third value)
      else skip >>= fun _ => pure unknown) :=
  .bind .peekTag fun _ _ =>
    .choose (fun _ => .assign (readOctetStringAsSteps one) first) fun _ =>
      .choose (fun _ => .assign (readOctetStringAsSteps two) second) fun _ =>
        .choose (fun _ => .assign (readOctetStringAsSteps three) third) fun _ =>
          .assign skipSteps fun _ => unknown

theorem consuming_field (one two three : Byte) (first second third : Bytes → Value)
    (unknown : Value) :
    (@fieldSteps _ size one two three first second third unknown).Consuming := by
  refine Or.inr fun _ _ =>
    ⟨fun _ => ?_, fun _ => ⟨fun _ => ?_, fun _ => ⟨fun _ => ?_, fun _ => ?_⟩⟩⟩
  · exact Or.inl (consuming_octet_string one)
  · exact Or.inl (consuming_octet_string two)
  · exact Or.inl (consuming_octet_string three)
  · exact Or.inl consuming_skip

theorem consuming_block {body : Read Value} (tag : Byte)
    (steps : ∀ inner, inner < size → Steps inner body) : (readBlockSteps tag steps).Consuming :=
  Or.inl (consuming_constructed tag)

end Reads

section Failures

theorem refuses_consume (count : Nat) : Refuses (consume count) := by
  intro reader failed
  simp [consume, failed]

theorem refuses_bind {first : Read First} (refuses : Refuses first) (rest : First → Read Second) :
    Refuses (first >>= rest) := by
  intro reader failed
  have none := refuses reader failed
  rw [Read.bind_apply]
  split
  · rfl
  · rename_i taken
    rw [taken] at none
    cases none

theorem marks_pure (value : Value) : Marks (pure value : Read Value) :=
  fun _ none => nomatch none

theorem marks_fail : Marks (Read.fail : Read Value) := fun _ _ => rfl

theorem marks_consume (count : Nat) : Marks (consume count) := by
  intro reader none
  simp only [consume] at none ⊢
  split at none
  · rename_i short
    rw [if_pos short]
  · cases none

theorem marks_bind {first : Read First} {rest : First → Read Second} (here : Marks first)
    (there : ∀ value, Marks (rest value)) : Marks (first >>= rest) := by
  intro reader none
  have failed := here reader
  rw [Read.bind_apply] at none ⊢
  split at none
  · rename_i taken
    rw [taken] at failed
    exact failed rfl
  · exact there _ _ none

theorem marks_ite {condition : Prop} [Decidable condition] {yes no : Read Value}
    (taken : Marks yes) (other : Marks no) : Marks (if condition then yes else no) := by
  split
  · exact taken
  · exact other

theorem sticky_consume (count : Nat) : Sticky (consume count) :=
  ⟨refuses_consume count, marks_consume count⟩

theorem Sticky.bind {first : Read First} {rest : First → Read Second} (sticky : Sticky first)
    (there : ∀ value, Marks (rest value)) : Sticky (first >>= rest) :=
  ⟨refuses_bind sticky.refuses rest, marks_bind sticky.marks there⟩

theorem sticky_length : Sticky readLength := by
  apply (sticky_consume 1).bind
  intro head
  apply marks_ite (marks_pure _)
  exact marks_ite marks_fail (marks_bind (marks_consume _) fun _ => marks_pure _)

theorem sticky_tag_length : Sticky readTagLength :=
  (sticky_consume 1).bind fun _ => marks_bind sticky_length.marks fun _ => marks_pure _

/-- The methods that check the header and then consume what it announces. -/
theorem sticky_content {condition : Byte × Nat → Prop} [∀ header, Decidable (condition header)]
    {make : Byte × Nat → Bytes → Value} :
    Sticky (readTagLength >>= fun header =>
      if condition header then Read.fail
      else consume header.2 >>= fun bytes => pure (make header bytes)) :=
  sticky_tag_length.bind fun _ =>
    marks_ite marks_fail (marks_bind (marks_consume _) fun _ => marks_pure _)

theorem sticky_constructed (tag : Byte) : Sticky (readConstructed tag) := sticky_content

theorem sticky_integer : Sticky readInteger := sticky_content

theorem sticky_enumerated : Sticky readEnumerated := sticky_content

theorem sticky_boolean : Sticky readBoolean := sticky_content

theorem sticky_octet_string (tag : Byte) : Sticky (readOctetStringAs tag) :=
  sticky_tag_length.bind fun _ =>
    marks_ite marks_fail (marks_ite (marks_pure _) (marks_consume _))

theorem sticky_skip : Sticky skip :=
  sticky_tag_length.bind fun _ => marks_bind (marks_consume _) fun _ => marks_pure _

end Failures

end SimpleLdapd.Ber
