import Mathlib.Data.UInt
import SimpleLdapd.Library.FixedWindow
import SimpleLdapd.Library.OrderedMap
import SimpleLdapd.Utils.Dn

/-!
# The bind rate limiter (`security/rate_limiter.cpp`)

The limiter keeps one bucket for each client key and, once it holds 4096 of
them, drops those whose window has passed in the middle of a decision. Times are
ticks of the monotonic clock, nanoseconds since its epoch.
-/

namespace SimpleLdapd

open Dn

structure Bucket where
  windowStart : Int := 0
  count : UInt32 := 0

structure RateLimiter where
  maxPerMinute : UInt32
  buckets : OrderedMap Bytes Bucket := OrderedMap.empty

namespace RateLimiter

def kWindow : Int := 60000000000

/-- `std::string::rfind` for one character. -/
def rfindByte (byte : Byte) (value : Bytes) : Option Nat :=
  (findByte byte value.reverse).map fun position => value.length - 1 - position

def clientKey (clientId : Bytes) : Bytes :=
  let bracketed :=
    if clientId.head? = some (chr '[') then findByte (chr ']') clientId else none
  match bracketed with
  | some close => substr clientId 0 (close + 1)
  | none =>
      match rfindByte (chr ':') clientId with
      | some colon =>
          if findByte (chr ':') clientId = some colon then substr clientId 0 colon else clientId
      | none => clientId

def setMaxPerMinute (_ : RateLimiter) (maxPerMinute : UInt32) : RateLimiter :=
  { maxPerMinute := maxPerMinute }

def pruneLocked (buckets : OrderedMap Bytes Bucket) (now : Int) : OrderedMap Bytes Bucket :=
  if buckets.entries.length < 4096 then buckets
  else buckets.keep fun bucket => !decide (kWindow ≤ now - bucket.windowStart)

/-- The window that the call falls into; the default bucket has none yet. -/
def openWindow (now : Int) (bucket : Bucket) : Bucket :=
  if bucket.windowStart = 0 ∨ kWindow ≤ now - bucket.windowStart then
    { windowStart := now, count := 0 }
  else bucket

def allow (limiter : RateLimiter) (clientId : Bytes) (now : Int) : Bool × RateLimiter :=
  if limiter.maxPerMinute = 0 then (true, limiter)
  else
    let key := clientKey clientId
    let pruned := pruneLocked limiter.buckets now
    let bucket := openWindow now ((pruned.get? key).getD {})
    if limiter.maxPerMinute ≤ bucket.count then
      (false, { limiter with buckets := pruned.insert key bucket })
    else
      let counted := { bucket with count := bucket.count + 1 }
      (true, { limiter with buckets := pruned.insert key counted })

structure Decision where
  key : Bytes
  time : Int
  allowed : Bool

/-- The decisions on a sequence of calls. -/
def decisions : RateLimiter → List (Bytes × Int) → List Decision
  | _, [] => []
  | limiter, (clientId, now) :: later =>
      { key := clientKey clientId, time := now, allowed := (allow limiter clientId now).1 } ::
        decisions (allow limiter clientId now).2 later

def afterCalls (limiter : RateLimiter) (calls : List (Bytes × Int)) : RateLimiter :=
  calls.foldl (fun reached call => (allow reached call.1 call.2).2) limiter

theorem allow_limit (limiter : RateLimiter) (clientId : Bytes) (now : Int) :
    (allow limiter clientId now).2.maxPerMinute = limiter.maxPerMinute := by
  unfold allow
  split
  · rfl
  · simp only
    split
    · rfl
    · rfl

theorem after_calls_limit (limiter : RateLimiter) (calls : List (Bytes × Int)) :
    (afterCalls limiter calls).maxPerMinute = limiter.maxPerMinute := by
  induction calls generalizing limiter with
  | nil => rfl
  | cons call rest reached => exact (reached _).trans (allow_limit limiter call.1 call.2)

section Keys

theorem rfind_byte_last {byte : Byte} {after : Bytes} (absent : byte ∉ after) (before : Bytes) :
    rfindByte byte (before ++ byte :: after) = some before.length := by
  have reversed : (before ++ byte :: after).reverse = after.reverse ++ byte :: before.reverse := by
    simp
  rw [rfindByte, reversed, find_byte_append (by simpa using absent)]
  simp

/-- Every port of an address without colons and brackets has the address as its key. -/
theorem client_key_address {address port : Bytes} (plain : chr ':' ∉ address)
    (unbracketed : address.head? ≠ some (chr '[')) (portPlain : chr ':' ∉ port) :
    clientKey (address ++ text ":" ++ port) = address := by
  have joined : address ++ text ":" ++ port = address ++ chr ':' :: port :=
    List.append_assoc address _ port
  have first : (address ++ chr ':' :: port).head? ≠ some (chr '[') := by
    cases address with
    | nil => exact fun same => absurd (Option.some.inj same) (by decide)
    | cons head rest => exact unbracketed
  rw [joined, clientKey]
  simp only [if_neg first, rfind_byte_last portPlain, find_byte_append plain, if_true]
  simp [substr]

end Keys

section Refinement

/-- The buckets show the counters, except those whose window had passed by the last call. -/
structure Refines (limiter : RateLimiter) (counters : Bytes → Option WindowCounter)
    (last : Int) : Prop where
  kept : ∀ key bucket, limiter.buckets.get? key = some bucket →
    counters key = some { start := bucket.windowStart, count := bucket.count.toNat } ∧
      0 < bucket.windowStart ∧ bucket.count ≤ limiter.maxPerMinute
  dropped : ∀ key, limiter.buckets.get? key = none →
    ∀ counter, counters key = some counter → counter.start + kWindow ≤ last

variable {limiter : RateLimiter} {counters : Bytes → Option WindowCounter} {last now : Int}

theorem refines_fresh (maxPerMinute : UInt32) :
    Refines { maxPerMinute := maxPerMinute } (fun _ => none) last where
  kept := by
    intro key bucket found
    rw [OrderedMap.get_empty] at found
    cases found
  dropped := by
    intro key _ counter present
    cases present

/-- Pruning removes nothing that a later call could still see. -/
theorem refines_pruned (refines : Refines limiter counters last) (later : last ≤ now) :
    Refines { limiter with buckets := pruneLocked limiter.buckets now } counters now := by
  unfold pruneLocked
  split
  · refine ⟨refines.kept, ?_⟩
    intro key missing counter present
    exact (refines.dropped key missing counter present).trans later
  · constructor
    · intro key bucket found
      rw [OrderedMap.get_keep, Option.filter_eq_some_iff] at found
      exact refines.kept key bucket found.1
    · intro key missing counter present
      rw [OrderedMap.get_keep, Option.filter_eq_none_iff] at missing
      cases found : limiter.buckets.get? key with
      | none => exact (refines.dropped key found counter present).trans later
      | some bucket =>
          have expired := missing bucket found
          have shown := (refines.kept key bucket found).1
          rw [present] at shown
          rw [Option.some.inj shown]
          simp at expired ⊢
          omega

/-- A bucket opens its window exactly when its counter does. -/
theorem opened_alike (refines : Refines limiter counters now) (running : 0 < now) (key : Bytes) :
    let bucket := openWindow now ((limiter.buckets.get? key).getD {})
    WindowCounter.opened kWindow now (counters key) =
        { start := bucket.windowStart, count := bucket.count.toNat } ∧
      0 < bucket.windowStart ∧ bucket.count ≤ limiter.maxPerMinute := by
  cases found : limiter.buckets.get? key with
  | some bucket =>
      rcases refines.kept key bucket found with ⟨shown, begun, bounded⟩
      have started : bucket.windowStart ≠ 0 := by omega
      simp only [Option.getD_some, openWindow, started, false_or, shown, WindowCounter.opened]
      split
      · exact ⟨rfl, running, UInt32.zero_le⟩
      · exact ⟨rfl, begun, bounded⟩
  | none =>
      have fresh : openWindow now ((none : Option Bucket).getD {}) =
          { windowStart := now, count := 0 } := if_pos (Or.inl rfl)
      rw [fresh]
      refine ⟨?_, running, UInt32.zero_le⟩
      cases present : counters key with
      | none => rfl
      | some counter =>
          have expired := refines.dropped key found counter present
          exact if_pos (by omega)

theorem count_next {count limit : UInt32} (free : ¬limit ≤ count) :
    (count + 1).toNat = count.toNat + 1 ∧ count + 1 ≤ limit := by
  have below : count.toNat < limit.toNat := by
    rw [UInt32.le_iff_toNat_le] at free
    omega
  have bound := limit.toNat_lt
  have next : (count + 1).toNat = count.toNat + 1 := by
    rw [UInt32.toNat_add, UInt32.toNat_one, Nat.mod_eq_of_lt (by omega)]
  exact ⟨next, by rw [UInt32.le_iff_toNat_le, next]; omega⟩

/-- What one call answers, and the bucket it leaves. -/
theorem allow_spec (positive : limiter.maxPerMinute ≠ 0) (refines : Refines limiter counters last)
    (later : last ≤ now) (running : 0 < now) (clientId : Bytes) :
    ∃ bucket : Bucket,
      (allow limiter clientId now).2 =
        { limiter with
          buckets := (pruneLocked limiter.buckets now).insert (clientKey clientId) bucket } ∧
      WindowCounter.call limiter.maxPerMinute.toNat kWindow now (counters (clientKey clientId)) =
        ((allow limiter clientId now).1,
          { start := bucket.windowStart, count := bucket.count.toNat }) ∧
      0 < bucket.windowStart ∧ bucket.count ≤ limiter.maxPerMinute := by
  rcases opened_alike (refines_pruned refines later) running (clientKey clientId) with
    ⟨alike, begun, bounded⟩
  unfold allow
  rw [if_neg positive, WindowCounter.call, alike]
  simp only at begun bounded ⊢
  generalize
    openWindow now (((pruneLocked limiter.buckets now).get? (clientKey clientId)).getD {}) = bucket
    at begun bounded
  split
  · rename_i full
    refine ⟨bucket, rfl, ?_, begun, bounded⟩
    rw [UInt32.le_iff_toNat_le] at full
    exact if_pos full
  · rename_i free
    have next := count_next free
    refine ⟨{ bucket with count := bucket.count + 1 }, rfl, ?_, begun, next.2⟩
    rw [UInt32.le_iff_toNat_le] at free
    rw [WindowCounter.counted, if_neg free, next.1]

/-- One call keeps the buckets and the counters together. -/
theorem refines_allow (positive : limiter.maxPerMinute ≠ 0)
    (refines : Refines limiter counters last) (later : last ≤ now) (running : 0 < now)
    (clientId : Bytes) :
    Refines (allow limiter clientId now).2
      (Function.update counters (clientKey clientId)
        (some (WindowCounter.call limiter.maxPerMinute.toNat kWindow now
          (counters (clientKey clientId))).2)) now := by
  have pruned := refines_pruned refines later
  rcases allow_spec positive refines later running clientId with
    ⟨bucket, left, called, begun, bounded⟩
  rw [left, called]
  constructor
  · intro key found located
    rw [OrderedMap.get_insert] at located
    split at located
    · rename_i same
      rw [same, Function.update_self, ← Option.some.inj located]
      exact ⟨rfl, begun, bounded⟩
    · rename_i different
      rw [Function.update_of_ne different]
      exact pruned.kept key found located
  · intro key missing
    rw [OrderedMap.get_insert] at missing
    split at missing
    · cases missing
    · rename_i different
      rw [Function.update_of_ne different]
      exact pruned.dropped key missing

/-- The key and the time of each call. -/
def keyed (calls : List (Bytes × Int)) : List (Bytes × Int) :=
  calls.map fun call => (clientKey call.1, call.2)

theorem keyed_cons (clientId : Bytes) (now : Int) (rest : List (Bytes × Int)) :
    keyed ((clientId, now) :: rest) = (clientKey clientId, now) :: keyed rest := rfl

def decisionOf (call : Bytes × WindowCall) : Decision :=
  { key := call.1, time := call.2.time, allowed := call.2.allowed }

/-- Whole runs: the decisions are those of counters that are never pruned. -/
theorem run_refines (positive : limiter.maxPerMinute ≠ 0) {calls : List (Bytes × Int)}
    (refines : Refines limiter counters last) (ordered : (calls.map Prod.snd).Pairwise (· ≤ ·))
    (after : ∀ call ∈ calls, last ≤ call.2) (running : ∀ call ∈ calls, 0 < call.2) :
    decisions limiter calls =
        (WindowCounter.keyedCalls limiter.maxPerMinute.toNat kWindow counters (keyed calls)).map
          decisionOf ∧
      ∃ ended, Refines (afterCalls limiter calls)
        (WindowCounter.afterCalls limiter.maxPerMinute.toNat kWindow counters (keyed calls))
        ended := by
  induction calls generalizing limiter counters last with
  | nil => exact ⟨rfl, last, refines⟩
  | cons call rest reached =>
      rcases call with ⟨clientId, now⟩
      have later : last ≤ now := after _ List.mem_cons_self
      have ticking : 0 < now := running _ List.mem_cons_self
      have next := refines_allow positive refines later ticking clientId
      rcases allow_spec positive refines later ticking clientId with ⟨bucket, -, called, -⟩
      have limit := allow_limit limiter clientId now
      rw [List.map_cons, List.pairwise_cons] at ordered
      have tail := reached (by rw [limit]; exact positive) next ordered.2
        (fun call member => ordered.1 _ (List.mem_map_of_mem member))
        (fun call member => running _ (List.mem_cons_of_mem _ member))
      rw [limit] at tail
      refine ⟨?_, tail.2⟩
      rw [decisions, tail.1, keyed_cons, WindowCounter.keyedCalls, List.map_cons, called]
      rfl

end Refinement

section Law

/-- The calls as counters that never forget would book them. -/
def booked (maxPerMinute : UInt32) (calls : List (Bytes × Int)) : List (Bytes × WindowCall) :=
  WindowCounter.keyedCalls maxPerMinute.toNat kWindow (fun _ => none) (keyed calls)

variable {maxPerMinute : UInt32} {calls : List (Bytes × Int)}

theorem decisions_booked (positive : 0 < maxPerMinute)
    (ordered : (calls.map Prod.snd).Pairwise (· ≤ ·)) (running : ∀ call ∈ calls, 0 < call.2) :
    decisions { maxPerMinute := maxPerMinute } calls =
      (booked maxPerMinute calls).map decisionOf :=
  (run_refines (UInt32.pos_iff_ne_zero.mp positive) (refines_fresh maxPerMinute) ordered
    (fun call member => (running call member).le) running).1

theorem own_times (calls : List (Bytes × Int)) (key : Bytes) :
    ((keyed calls).filter (·.1 = key)).map Prod.snd =
      (calls.filter (clientKey ·.1 = key)).map Prod.snd := by
  rw [keyed, List.filter_map, List.map_map]
  rfl

/-- What the counter of one key booked. -/
theorem booked_of_key (maxPerMinute : UInt32) (calls : List (Bytes × Int)) (key : Bytes) :
    ((booked maxPerMinute calls).filter (·.1 = key)).map Prod.snd =
      WindowCounter.calls maxPerMinute.toNat kWindow none
        ((calls.filter (clientKey ·.1 = key)).map Prod.snd) := by
  rw [booked, WindowCounter.keyed_calls_of_key, own_times]

theorem own_ordered (ordered : (calls.map Prod.snd).Pairwise (· ≤ ·)) (key : Bytes) :
    ((calls.filter (clientKey ·.1 = key)).map Prod.snd).Pairwise (· ≤ ·) :=
  ordered.sublist (List.filter_sublist.map Prod.snd)

/-- The decisions on the calls of one key are those of a counter of its own. -/
theorem decisions_own_counter (positive : 0 < maxPerMinute)
    (ordered : (calls.map Prod.snd).Pairwise (· ≤ ·)) (running : ∀ call ∈ calls, 0 < call.2)
    (key : Bytes) :
    (decisions { maxPerMinute := maxPerMinute } calls).filter (·.key = key) =
      (WindowCounter.calls maxPerMinute.toNat kWindow none
        ((calls.filter (clientKey ·.1 = key)).map Prod.snd)).map fun call =>
          decisionOf (key, call) := by
  rw [decisions_booked positive ordered running, ← booked_of_key, List.filter_map, List.map_map]
  apply List.map_congr_left
  intro call member
  have own : call.1 = key := of_decide_eq_true (List.mem_filter.mp member).2
  rw [Function.comp_apply, ← own]

theorem decision_keys (limiter : RateLimiter) (calls : List (Bytes × Int)) :
    (decisions limiter calls).map Decision.key = calls.map (clientKey ·.1) := by
  induction calls generalizing limiter with
  | nil => rfl
  | cons call rest reached =>
      rw [decisions, List.map_cons, reached, List.map_cons]

/-- Calls of other keys change nothing. -/
theorem decisions_alone (positive : 0 < maxPerMinute)
    (ordered : (calls.map Prod.snd).Pairwise (· ≤ ·)) (running : ∀ call ∈ calls, 0 < call.2)
    (key : Bytes) :
    (decisions { maxPerMinute := maxPerMinute } calls).filter (·.key = key) =
      decisions { maxPerMinute := maxPerMinute } (calls.filter (clientKey ·.1 = key)) := by
  have alone : (decisions { maxPerMinute := maxPerMinute }
      (calls.filter (clientKey ·.1 = key))).filter (·.key = key) =
        decisions { maxPerMinute := maxPerMinute } (calls.filter (clientKey ·.1 = key)) := by
    rw [List.filter_eq_self]
    intro decision member
    have known := List.mem_map_of_mem (f := Decision.key) member
    rw [decision_keys] at known
    rcases List.mem_map.mp known with ⟨call, inside, same⟩
    rw [← same]
    exact (List.mem_filter.mp inside).2
  rw [← alone, decisions_own_counter positive ordered running,
    decisions_own_counter positive (own_ordered ordered key)
      (fun call member => running call (List.mem_filter.mp member).1), List.filter_filter]
  simp only [Bool.and_self]

theorem decisions_interval (positive : 0 < maxPerMinute)
    (ordered : (calls.map Prod.snd).Pairwise (· ≤ ·)) (running : ∀ call ∈ calls, 0 < call.2)
    (key : Bytes) (low : Int) :
    (((decisions { maxPerMinute := maxPerMinute } calls).filter (·.key = key)).countP
      fun decision => decision.allowed && (low ≤ decision.time && decision.time ≤ low + kWindow)) ≤
        2 * maxPerMinute.toNat := by
  rw [decisions_own_counter positive ordered running, List.countP_map]
  exact WindowCounter.granted_interval (by decide) (own_ordered ordered key) low

/-- Pruned or not, the limiter decides as counters of fixed windows do, one for each key. -/
theorem limiter_law (positive : 0 < maxPerMinute)
    (ordered : (calls.map Prod.snd).Pairwise (· ≤ ·)) (running : ∀ call ∈ calls, 0 < call.2) :
    decisions { maxPerMinute := maxPerMinute } calls =
        (booked maxPerMinute calls).map decisionOf ∧
      (∀ key, (decisions { maxPerMinute := maxPerMinute } calls).filter (·.key = key) =
        decisions { maxPerMinute := maxPerMinute } (calls.filter (clientKey ·.1 = key))) ∧
      (∀ key start, WindowCounter.granted start
        (((booked maxPerMinute calls).filter (·.1 = key)).map Prod.snd) ≤ maxPerMinute.toNat) ∧
      (∀ key low, (((decisions { maxPerMinute := maxPerMinute } calls).filter (·.key = key)).countP
        fun decision => decision.allowed &&
          (low ≤ decision.time && decision.time ≤ low + kWindow)) ≤ 2 * maxPerMinute.toNat) ∧
      (∀ key bucket,
        (afterCalls { maxPerMinute := maxPerMinute } calls).buckets.get? key = some bucket →
          WindowCounter.afterCalls maxPerMinute.toNat kWindow (fun _ => none) (keyed calls) key =
              some { start := bucket.windowStart, count := bucket.count.toNat } ∧
            bucket.count ≤ maxPerMinute) ∧
      ∀ address port, chr ':' ∉ address → address.head? ≠ some (chr '[') → chr ':' ∉ port →
        clientKey (address ++ text ":" ++ port) = address := by
  refine ⟨decisions_booked positive ordered running, decisions_alone positive ordered running, ?_,
    decisions_interval positive ordered running, ?_,
    fun address port plain unbracketed portPlain =>
      client_key_address plain unbracketed portPlain⟩
  · intro key start
    rw [booked_of_key]
    exact WindowCounter.granted_window _ (by decide) (own_ordered ordered key) start
  · intro key bucket found
    have ended := (run_refines (UInt32.pos_iff_ne_zero.mp positive) (refines_fresh maxPerMinute)
      ordered (fun call member => (running call member).le) running).2
    rcases ended with ⟨last, refines⟩
    rcases refines.kept key bucket found with ⟨shown, -, bounded⟩
    rw [after_calls_limit] at bounded
    exact ⟨shown, bounded⟩

/-- One call in each of two windows. -/
theorem limiter_law_two_windows :
    decisions { maxPerMinute := 1 }
        [(text "10.0.0.1:5", 1), (text "10.0.0.1:6", 2), (text "10.0.0.1:7", 60000000001)] =
      (booked 1 [(text "10.0.0.1:5", 1), (text "10.0.0.1:6", 2),
        (text "10.0.0.1:7", 60000000001)]).map decisionOf :=
  (limiter_law (by decide) (by simp) (by simp)).1

end Law

end RateLimiter

end SimpleLdapd
