import Mathlib.Data.Nat.Find
import Mathlib.Order.Bounds.Basic

/-!
# Parts placed one after the other in a text

A list of parts fits into a text when they occur in order without overlap, with
anything between them. Taking the leftmost occurrence of each part loses nothing:
a placement that starts earlier can always go on as the later one did.
-/

namespace SimpleLdapd.Placement

universe u

variable {Item : Type u}

def OccursAt (source part : List Item) (index : Nat) : Prop :=
  ∃ before after, source = before ++ part ++ after ∧ before.length = index

/-- The parts stand in the text in this order, with gaps before, between and behind them. -/
def Embeds : List (List Item) → List Item → Prop
  | [], _ => True
  | part :: parts, source => ∃ gap rest, source = gap ++ part ++ rest ∧ Embeds parts rest

/-- The parts find places from `position` on and end by `limit`. -/
def Fits (source : List Item) : List (List Item) → Nat → Nat → Prop
  | [], position, limit => position ≤ limit
  | part :: parts, position, limit =>
      ∃ index, position ≤ index ∧ OccursAt source part index ∧
        Fits source parts (index + part.length) limit

/-- The search that takes the leftmost place for each part; it ends at `last`. -/
def Leftmost (source : List Item) : List (List Item) → Nat → Nat → Prop
  | [], position, last => last = position
  | part :: parts, position, last =>
      ∃ index, IsLeast {place | position ≤ place ∧ OccursAt source part place} index ∧
        Leftmost source parts (index + part.length) last

variable {source : List Item} {parts : List (List Item)} {position limit last : Nat}

theorem OccursAt.inside {part : List Item} {index : Nat} (occurs : OccursAt source part index) :
    index + part.length ≤ source.length := by
  obtain ⟨before, after, rfl, rfl⟩ := occurs
  simp only [List.length_append]
  omega

theorem Fits.start_le (fits : Fits source parts position limit) : position ≤ limit := by
  induction parts generalizing position with
  | nil => exact fits
  | cons part parts ih =>
      obtain ⟨index, later, _, rest⟩ := fits
      have bound := ih rest
      omega

theorem Leftmost.start_le (leftmost : Leftmost source parts position last) : position ≤ last := by
  induction parts generalizing position with
  | nil => exact leftmost.ge
  | cons part parts ih =>
      obtain ⟨index, least, rest⟩ := leftmost
      have bound := ih rest
      have later := least.1.1
      omega

theorem Leftmost.inside (leftmost : Leftmost source parts position last)
    (start : position ≤ source.length) : last ≤ source.length := by
  induction parts generalizing position with
  | nil =>
      rw [leftmost]
      exact start
  | cons part parts ih =>
      obtain ⟨index, least, rest⟩ := leftmost
      exact ih rest least.1.2.inside

theorem Leftmost.unique {other : Nat} (left : Leftmost source parts position last)
    (right : Leftmost source parts position other) : last = other := by
  induction parts generalizing position with
  | nil => exact left.trans right.symm
  | cons part parts ih =>
      obtain ⟨index, least, rest⟩ := left
      obtain ⟨index', least', rest'⟩ := right
      rw [least'.unique least] at rest'
      exact ih rest rest'

/-- What fits behind a position fits behind every earlier one. -/
theorem Fits.earlier (fits : Fits source parts position limit) {start : Nat}
    (earlier : start ≤ position) : Fits source parts start limit := by
  cases parts with
  | nil => exact earlier.trans fits
  | cons part parts =>
      obtain ⟨index, later, rest⟩ := fits
      exact ⟨index, earlier.trans later, rest⟩

theorem Fits.leftmost (fits : Fits source parts position limit) :
    ∃ last, Leftmost source parts position last ∧ last ≤ limit := by
  classical
  induction parts generalizing position with
  | nil => exact ⟨position, rfl, fits⟩
  | cons part parts ih =>
      obtain ⟨index, later, occurs, rest⟩ := fits
      have places : ∃ place, position ≤ place ∧ OccursAt source part place :=
        ⟨index, later, occurs⟩
      have least : IsLeast {place | position ≤ place ∧ OccursAt source part place}
          (Nat.find places) :=
        ⟨Nat.find_spec places, fun other known => Nat.find_min' places known⟩
      -- The exchange: the rest is placed behind `index`, hence also behind the least place.
      have first : Nat.find places ≤ index := least.2 ⟨later, occurs⟩
      obtain ⟨last, found, bound⟩ := ih (rest.earlier (Nat.add_le_add_right first part.length))
      exact ⟨last, ⟨Nat.find places, least, found⟩, bound⟩

theorem Leftmost.fits (leftmost : Leftmost source parts position last) (bound : last ≤ limit) :
    Fits source parts position limit := by
  induction parts generalizing position with
  | nil => exact leftmost ▸ bound
  | cons part parts ih =>
      obtain ⟨index, least, rest⟩ := leftmost
      exact ⟨index, least.1.1, least.1.2, ih rest⟩

/-- Fitting between two positions is embedding in the text between them. -/
theorem fits_iff_embeds (front middle back : List Item) :
    Fits (front ++ middle ++ back) parts front.length (front.length + middle.length) ↔
      Embeds parts middle := by
  induction parts generalizing front middle with
  | nil => simp [Fits, Embeds]
  | cons part parts ih =>
      constructor
      · rintro ⟨index, later, ⟨before, after, split, rfl⟩, rest⟩
        have bound := rest.start_le
        have frontIn : front <+: front ++ middle ++ back := by simp
        have innerIn : front ++ middle <+: front ++ middle ++ back := by simp
        have beforeIn : before <+: front ++ middle ++ back := by simp [split]
        have placedIn : before ++ part <+: front ++ middle ++ back := by simp [split]
        obtain ⟨gap, rfl⟩ := List.prefix_of_prefix_length_le frontIn beforeIn later
        have shorter : (front ++ gap ++ part).length ≤ (front ++ middle).length := by
          simp only [List.length_append] at bound ⊢
          omega
        obtain ⟨tail, ended⟩ := List.prefix_of_prefix_length_le placedIn innerIn shorter
        have same : front ++ middle = front ++ (gap ++ part ++ tail) := by simp [← ended]
        obtain rfl := List.append_cancel_left same
        refine ⟨gap, tail, rfl, (ih (front ++ gap ++ part) tail).mp ?_⟩
        simpa [Nat.add_assoc] using rest
      · rintro ⟨gap, rest, rfl, embeds⟩
        have whole : front ++ (gap ++ part ++ rest) ++ back =
            (front ++ gap ++ part) ++ rest ++ back := by simp
        have inner := (ih (front ++ gap ++ part) rest).mpr embeds
        refine ⟨front.length + gap.length, by omega, ⟨front ++ gap, rest ++ back, ?_, ?_⟩, ?_⟩
        · simp
        · simp
        · rw [whole]
          simpa [Nat.add_assoc] using inner

/-- A search that keeps to the leftmost places, between a fixed front and a fixed back,
succeeds exactly when the text can be cut up that way. -/
theorem leftmost_search_iff (front back : List Item) :
    (front <+: source ∧ back <:+ source ∧
        ∃ last, Leftmost source parts front.length last ∧ last + back.length ≤ source.length) ↔
      ∃ middle, source = front ++ middle ++ back ∧ Embeds parts middle := by
  constructor
  · rintro ⟨frontIn, ⟨before, ended⟩, last, leftmost, room⟩
    have start := leftmost.start_le
    have whole := congrArg List.length ended
    rw [List.length_append] at whole
    have beforeIn : before <+: source := ⟨back, ended⟩
    obtain ⟨middle, rfl⟩ := List.prefix_of_prefix_length_le frontIn beforeIn (by omega)
    subst ended
    rw [List.length_append] at whole
    exact ⟨middle, rfl, (fits_iff_embeds front middle back).mp (leftmost.fits (by omega))⟩
  · rintro ⟨middle, rfl, embeds⟩
    obtain ⟨last, leftmost, bound⟩ := ((fits_iff_embeds front middle back).mpr embeds).leftmost
    refine ⟨by simp, List.suffix_append _ _, last, leftmost, ?_⟩
    simp only [List.length_append]
    omega

end SimpleLdapd.Placement
