import MpesaMcp.RateLimit.Limiter
import MpesaMcp.Library.FixedWindow
import MpesaMcp.Library.Trace
import Mathlib.Data.Rat.Cast.Order
import Mathlib.Tactic.Linarith

/-!
# The in-memory limiter over whole runs

The in-memory limiter keeps, for each key, the fixed window of the calls it allowed: `windowOf` is the
window of `Library.FixedWindow` over these calls (`windowOf_allowAt_self`), and no other key has a part
in it.

So a key is bounded by two windows in every interval of their length (`allowed_calls_bounded`): the
first can admit calls at its end, and the second its whole limit at its start.
-/

set_option autoImplicit false

namespace MpesaMcp

open Library

/-! ## One key -/

namespace InMemoryRateLimiter

/-- The window stored for a key. -/
def windowOf (windows : RateWindows) (key : String) : Option (FixedWindow ℚ) :=
  (windows.get key).map fun window => ⟨window.start, window.count⟩

/-- The window a call of a key belongs to. -/
def windowAt (now : ℚ) (key : String) (windowSeconds : Int) (windows : RateWindows) :
    FixedWindow ℚ :=
  FixedWindow.see windowSeconds now 0 (windowOf windows key)

/-- The entry a call works on holds the window it belongs to. -/
theorem entry_eq (now : ℚ) (key : String) (windowSeconds : Int) (windows : RateWindows) :
    let stored := (windows.get key).getD { key := key, start := now, count := 0 }
    let window := windowAt now key windowSeconds windows
    (if (windowSeconds : ℚ) ≤ now - stored.start then { stored with start := now, count := 0 }
      else stored) = ⟨key, window.start, window.count⟩ := by
  simp only [windowAt, windowOf]
  cases hget : windows.get key with
  | none => simp
  | some stored =>
    have hkey := Keyed.key_of_get hget
    subst hkey
    by_cases hended : stored.start + windowSeconds ≤ now
    · have helapsed : (windowSeconds : ℚ) ≤ now - stored.start := by linarith
      simp [FixedWindow.see, hended, helapsed]
    · have helapsed : ¬ (windowSeconds : ℚ) ≤ now - stored.start := by
        intro h
        exact hended (by linarith)
      simp [FixedWindow.see, hended, helapsed]

/-- The decision of `allow`: whether the window of the call has room. A call that is denied leaves the
table as it was, and one that is allowed adds itself to the window. -/
theorem allowAt_cases (now : ℚ) (key : String) (limit windowSeconds : Int) (windows : RateWindows) :
    let window := windowAt now key windowSeconds windows
    let r := allowAt now key limit windowSeconds windows
    (limit ≤ window.count ∧ r.1.allowed = false ∧ r.2 = windows) ∨
      (window.count < limit ∧ r.1.allowed = true ∧
        r.2 = windows.put ⟨key, window.start, window.count + 1⟩) := by
  simp only [allowAt, entry_eq]
  split
  next hfull => exact Or.inl ⟨hfull, rfl, rfl⟩
  next hroom => exact Or.inr ⟨Int.not_le.mp hroom, rfl, rfl⟩

/-- What is left of the window after the call. -/
theorem remaining_allowAt (now : ℚ) (key : String) (limit windowSeconds : Int)
    (windows : RateWindows) :
    (allowAt now key limit windowSeconds windows).1.remaining =
      max 0 (limit - ((windowAt now key windowSeconds windows).count + 1)) := by
  simp only [allowAt, entry_eq]
  split
  next hfull =>
    show (0 : Int) = _
    omega
  next => rfl

variable {key : String} {windows : RateWindows}

theorem windowOf_put (window : RateWindow) (key' : String) :
    windowOf (windows.put window) key' =
      if key' = window.key then some ⟨window.start, window.count⟩ else windowOf windows key' := by
  unfold windowOf
  rw [Keyed.get_put]
  split <;> rfl

/-- A window is stored for a key exactly where the table holds an entry of it. -/
theorem windowOf_eq_some {window : FixedWindow ℚ} :
    windowOf windows key = some window ↔ ⟨key, window.start, window.count⟩ ∈ windows.values := by
  unfold windowOf
  rw [Option.map_eq_some_iff, Keyed.mem_values_iff]
  constructor
  · rintro ⟨stored, hget, rfl⟩
    have hkey := Keyed.key_of_get hget
    subst hkey
    exact hget
  · intro hget
    exact ⟨_, hget, rfl⟩

/-- A call leaves the entries of other keys alone. -/
theorem get_allowAt (now : ℚ) (limit windowSeconds : Int) {key' : String} (h : key' ≠ key) :
    (allowAt now key limit windowSeconds windows).2.get key' = windows.get key' := by
  rcases allowAt_cases now key limit windowSeconds windows with ⟨-, -, hsame⟩ | ⟨-, -, hput⟩
  · rw [hsame]
  · rw [hput, Keyed.get_put, if_neg h]

/-- A call leaves the windows of other keys alone. -/
theorem windowOf_allowAt (now : ℚ) (limit windowSeconds : Int) {key' : String} (h : key' ≠ key) :
    windowOf (allowAt now key limit windowSeconds windows).2 key' = windowOf windows key' := by
  rw [windowOf, get_allowAt now limit windowSeconds h, windowOf]

/-- The window of a key after a call of it: only an allowed call is an event. -/
theorem windowOf_allowAt_self (now : ℚ) (limit windowSeconds : Int) :
    windowOf (allowAt now key limit windowSeconds windows).2 key =
      if (allowAt now key limit windowSeconds windows).1.allowed then
        some (FixedWindow.see (windowSeconds : ℚ) now 1 (windowOf windows key))
      else windowOf windows key := by
  rcases allowAt_cases now key limit windowSeconds windows with
    ⟨-, hdenied, hsame⟩ | ⟨-, hallowed, hput⟩
  · rw [hsame, hdenied, if_neg Bool.false_ne_true]
  · rw [hput, hallowed, if_pos rfl, windowOf_put, if_pos rfl, FixedWindow.see_eq]
    rfl

/-- A call decides by the entry of its key alone. -/
theorem allowAt_congr {windows' : RateWindows} (h : windows.get key = windows'.get key) (now : ℚ)
    (limit windowSeconds : Int) :
    (allowAt now key limit windowSeconds windows).1 = (allowAt now key limit windowSeconds windows').1 ∧
      (allowAt now key limit windowSeconds windows).2.get key =
        (allowAt now key limit windowSeconds windows').2.get key := by
  have hput : ∀ window : RateWindow,
      (windows.put window).get key = (windows'.put window).get key := by
    intro window
    rw [Keyed.get_put, Keyed.get_put, h]
  simp only [allowAt, h]
  -- the window of the call, and whether it has room
  split <;> split
  · exact ⟨rfl, h⟩
  · exact ⟨rfl, hput _⟩
  · exact ⟨rfl, h⟩
  · exact ⟨rfl, hput _⟩

end InMemoryRateLimiter

/-! ## Runs -/

/-- A call of a limiter, and what its clock reads. -/
structure LimiterCall where
  now : ℚ
  key : String

/-- One call, under one limit and window. -/
def limiterStep {ρ : Type} (limiter : RateLimiter ρ) (env : Env) (limit windowSeconds : Int)
    (call : LimiterCall) (s : Ambient × ρ) : Except Exn RateLimitDecision × (Ambient × ρ) :=
  limiter.allow (env.atMonotonic call.now) call.key limit windowSeconds s

/-- A step of a limiter. -/
abbrev LimiterStep (ρ : Type) := Step (Ambient × ρ) LimiterCall (Except Exn RateLimitDecision)

/-- Whether the step allowed its call. -/
def LimiterStep.allowed {ρ : Type} (st : LimiterStep ρ) : Bool :=
  match st.output with
  | .ok decision => decision.allowed
  | .error _ => false

/-- The calls of a key that a run allowed within a half open interval. -/
def allowedWithin {ρ : Type} (key : String) (a b : ℚ) (run : List (LimiterStep ρ)) : Nat :=
  run.countP fun st => decide (st.input.key = key ∧ a ≤ st.input.now ∧ st.input.now < b) && st.allowed

section InMemory

variable {env : Env} {limit windowSeconds : Int}

/-- The allowed calls of a key, as events. -/
def admission (key : String) (st : LimiterStep RateWindows) : Option (ℚ × Nat) :=
  if st.input.key = key ∧ st.allowed = true then some (st.input.now, 1) else none

theorem weightIn_admissions (key : String) (a b : ℚ) (run : List (LimiterStep RateWindows)) :
    FixedWindow.weightIn a b (run.filterMap (admission key)) = allowedWithin key a b run := by
  induction run with
  | nil => rfl
  | cons st run ih =>
    rw [allowedWithin, List.countP_cons, ← allowedWithin, ← ih, List.filterMap_cons]
    by_cases hadmitted : st.input.key = key ∧ st.allowed = true
    · rw [admission, if_pos hadmitted]
      simp [FixedWindow.weightIn, hadmitted, Nat.add_comm]
    · rw [admission, if_neg hadmitted]
      have hout : ¬ ((decide (st.input.key = key ∧ a ≤ st.input.now ∧ st.input.now < b) &&
          st.allowed) = true) := by
        simp only [Bool.and_eq_true, decide_eq_true_eq]
        exact fun h => hadmitted ⟨h.1.1, h.2⟩
      rw [if_neg hout, Nat.add_zero]

theorem allowed_stepAt (call : LimiterCall) (s : Ambient × RateWindows) :
    LimiterStep.allowed (stepAt (limiterStep InMemoryRateLimiter env limit windowSeconds) s call) =
      (InMemoryRateLimiter.allowAt call.now call.key limit windowSeconds s.2).1.allowed := rfl

/-- The invariant of one key: its entry is the open window of its allowed calls, and no window of them
holds more than the limit. -/
structure KeyWindow (limit windowSeconds : Int) (key : String) (events : List (ℚ × Nat))
    (s : Ambient × RateWindows) : Prop where
  stored : InMemoryRateLimiter.windowOf s.2 key =
    FixedWindow.openWindow (windowSeconds : ℚ) events
  bounded : FixedWindow.Bounded (windowSeconds : ℚ) limit.toNat events

/-- One call keeps the invariant of every key: a call of the key is an event where it is allowed, and
then its window had room for it; a call of another key is none. -/
theorem KeyWindow.step (env : Env) {key : String} {events : List (ℚ × Nat)} {s : Ambient × RateWindows}
    (h : KeyWindow limit windowSeconds key events s) (call : LimiterCall) :
    KeyWindow limit windowSeconds key
      (events ++ (admission key (stepAt (limiterStep InMemoryRateLimiter env limit windowSeconds) s
        call)).toList)
      (limiterStep InMemoryRateLimiter env limit windowSeconds call s).2 := by
  obtain ⟨now, key'⟩ := call
  rw [admission, allowed_stepAt]
  by_cases hkey : key' = key
  · subst hkey
    -- what is stored after the call, in terms of the events before it
    have hwindow := @InMemoryRateLimiter.windowOf_allowAt_self key' s.2 now limit windowSeconds
    rw [h.stored] at hwindow
    rcases InMemoryRateLimiter.allowAt_cases now key' limit windowSeconds s.2 with
      ⟨-, hdenied, -⟩ | ⟨hroom, hallowed, -⟩
    · rw [hdenied, if_neg Bool.false_ne_true] at hwindow
      rw [if_neg (by simp [hdenied]), Option.toList_none, List.append_nil]
      exact ⟨hwindow, h.bounded⟩
    · rw [hallowed, if_pos rfl] at hwindow
      rw [if_pos ⟨rfl, hallowed⟩, Option.toList_some]
      refine ⟨hwindow.trans (FixedWindow.openWindow_snoc events (now, 1)).symm, h.bounded.snoc ?_⟩
      rw [stepAt]
      show (FixedWindow.see (windowSeconds : ℚ) now 1 _).count ≤ _
      rw [FixedWindow.see_eq, ← h.stored]
      show (InMemoryRateLimiter.windowAt now key' windowSeconds s.2).count + 1 ≤ _
      omega
  · have hother : InMemoryRateLimiter.windowOf
        (InMemoryRateLimiter.allowAt now key' limit windowSeconds s.2).2 key =
          InMemoryRateLimiter.windowOf s.2 key :=
      InMemoryRateLimiter.windowOf_allowAt now limit windowSeconds (Ne.symm hkey)
    rw [if_neg fun hadmitted => hkey hadmitted.1, Option.toList_none, List.append_nil]
    exact ⟨hother.trans h.stored, h.bounded⟩

/-- Every run keeps the invariant of every key, by induction on the calls from the end. -/
theorem keyWindow_final (env : Env) (limit windowSeconds : Int) (a : Ambient) (key : String)
    (calls : List LimiterCall) :
    KeyWindow limit windowSeconds key
      ((trace (limiterStep InMemoryRateLimiter env limit windowSeconds) (a, Keyed.empty)
        calls).filterMap (admission key))
      (final (limiterStep InMemoryRateLimiter env limit windowSeconds) (a, Keyed.empty) calls) := by
  induction calls using List.reverseRecOn with
  | nil => exact ⟨rfl, FixedWindow.bounded_nil⟩
  | append_singleton calls call ih =>
    rw [final_snoc, trace_snoc, List.filterMap_append]
    convert ih.step env call using 2
    cases hadmission : admission key (stepAt (limiterStep InMemoryRateLimiter env limit
      windowSeconds) _ call) <;> simp [hadmission]

/-- The allowed calls of a key come in the order of the calls. -/
theorem admissions_ordered {calls : List LimiterCall}
    (ordered : calls.Pairwise fun c d => c.now ≤ d.now) (key : String) (s : Ambient × RateWindows) :
    ((trace (limiterStep InMemoryRateLimiter env limit windowSeconds) s calls).filterMap
      (admission key)).Pairwise fun x y => x.1 ≤ y.1 := by
  rw [← map_input_trace (limiterStep InMemoryRateLimiter env limit windowSeconds) s calls,
    List.pairwise_map] at ordered
  have htime : ∀ (st : LimiterStep RateWindows) x, admission key st = some x → x.1 = st.input.now := by
    intro st x hx
    unfold admission at hx
    split at hx
    · cases hx
      rfl
    · cases hx
  refine ordered.filterMap (admission key) fun st st' hle x hx y hy => ?_
  rw [htime st x hx, htime st' y hy]
  exact hle

/-! ## The bound -/

/-- **The rate bound of the fixed window.** At most twice the limit is allowed in a half open interval of
the length of the windows, for each key; and the decisions for a key are those of a run of its own calls
alone. -/
theorem allowed_calls_bounded (env : Env) (limit windowSeconds : Int) (nonneg : 0 ≤ limit)
    (positive : 0 < windowSeconds) (a : Ambient) (calls : List LimiterCall)
    (ordered : calls.Pairwise fun c d => c.now ≤ d.now) (key : String) :
    (∀ opening : ℚ, (allowedWithin key opening (opening + windowSeconds)
        (trace (limiterStep InMemoryRateLimiter env limit windowSeconds) (a, Keyed.empty) calls) : Int) ≤
          2 * limit) ∧
      (((trace (limiterStep InMemoryRateLimiter env limit windowSeconds) (a, Keyed.empty)
          calls).filter fun st => decide (st.input.key = key)).map Step.output =
        (trace (limiterStep InMemoryRateLimiter env limit windowSeconds) (a, Keyed.empty)
          (calls.filter fun call => decide (call.key = key))).map Step.output) := by
  constructor
  · intro opening
    have hle := FixedWindow.weightIn_le (fun t => lt_add_of_pos_right t (Int.cast_pos.mpr positive))
      (admissions_ordered ordered key (a, Keyed.empty))
      (keyWindow_final env limit windowSeconds a key calls).bounded opening
    rw [weightIn_admissions] at hle
    omega
  · refine (@unwinding _ _ _ (limiterStep InMemoryRateLimiter env limit windowSeconds)
      (fun s t => s.2.get key = t.2.get key) (fun call => decide (call.key = key))
      ?_ ?_ _ _ rfl calls).1
    · intro s t call hkept h
      have hkey := of_decide_eq_true hkept
      subst hkey
      obtain ⟨hdecision, hnext⟩ :=
        InMemoryRateLimiter.allowAt_congr h call.now limit windowSeconds
      exact ⟨congrArg Except.ok hdecision, hnext⟩
    · intro s t call hdropped h
      have hkey : key ≠ call.key := Ne.symm (of_decide_eq_false hdropped)
      exact (InMemoryRateLimiter.get_allowAt call.now limit windowSeconds hkey).trans h

/-- Two calls a minute: one at the end of a window and two at the start of the next come within a
minute. -/
theorem allowed_calls_bounded_turn :
    allowedWithin "k" 59 (59 + 60) (trace (limiterStep InMemoryRateLimiter Env.still 2 60)
        ({}, Keyed.empty) [⟨0, "k"⟩, ⟨59, "k"⟩, ⟨59, "other"⟩, ⟨60, "k"⟩, ⟨60, "k"⟩]) ≤ 4 := by
  have hbound := (allowed_calls_bounded Env.still 2 60 (by decide) (by decide) {}
    [⟨0, "k"⟩, ⟨59, "k"⟩, ⟨59, "other"⟩, ⟨60, "k"⟩, ⟨60, "k"⟩] (by norm_num) "k").1 59
  exact_mod_cast hbound

end InMemory

end MpesaMcp
