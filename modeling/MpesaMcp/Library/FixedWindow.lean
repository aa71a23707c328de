import Mathlib.Algebra.Order.Monoid.Defs
import Mathlib.Data.List.Induction
import Mathlib.Data.List.Infix
import Mathlib.Order.Defs.LinearOrder

/-!
# Fixed windows over timed events

A stream of events, each with a time and a weight, is cut into windows of one length: the first event
opens a window, and the first event at or after the end of the open window opens the next. The windows
are half open and do not overlap; an event belongs to exactly one of them.

`openWindow` is the window the last event belongs to. `see` is its step, and the two lemmas
`see_of_ended` and `see_of_lt` are what its clients use.

Where no window ever weighs more than a bound, a half open interval of the same length weighs at most
twice as much (`weightIn_le`): it meets at most two windows. `Covered` says the same of windows that are
at least so long, each of which ends when something else says so.
-/

set_option autoImplicit false

namespace Library

variable {τ : Type} [LinearOrder τ]

/-- A window: when it was opened, and the weight of its events so far. -/
structure FixedWindow (τ : Type) where
  start : τ
  count : Nat
deriving DecidableEq

namespace FixedWindow

/-! ## Weights -/

/-- The weight of the events in a half open interval. -/
def weightIn (a b : τ) : List (τ × Nat) → Nat
  | [] => 0
  | e :: events => (if a ≤ e.1 ∧ e.1 < b then e.2 else 0) + weightIn a b events

/-- Weights add up over a concatenation. -/
theorem weightIn_append (a b : τ) (events more : List (τ × Nat)) :
    weightIn a b (events ++ more) = weightIn a b events + weightIn a b more := by
  induction events with
  | nil => simp [weightIn]
  | cons e events ih => rw [List.cons_append, weightIn, weightIn, ih, Nat.add_assoc]

theorem weightIn_snoc (a b : τ) (events : List (τ × Nat)) (e : τ × Nat) :
    weightIn a b (events ++ [e]) =
      weightIn a b events + if a ≤ e.1 ∧ e.1 < b then e.2 else 0 :=
  weightIn_append a b events [e]

theorem weightIn_snoc_of_not_mem {a b : τ} (events : List (τ × Nat)) {e : τ × Nat}
    (h : ¬ (a ≤ e.1 ∧ e.1 < b)) : weightIn a b (events ++ [e]) = weightIn a b events := by
  rw [weightIn_snoc, if_neg h, Nat.add_zero]

/-- An event adds its own weight at most. -/
theorem weightIn_snoc_le (a b : τ) (events : List (τ × Nat)) (e : τ × Nat) :
    weightIn a b (events ++ [e]) ≤ weightIn a b events + e.2 := by
  rw [weightIn_snoc]
  split <;> omega

/-- Events before the interval weigh nothing in it. -/
theorem weightIn_eq_zero {a b : τ} {events : List (τ × Nat)} (h : ∀ e ∈ events, e.1 < a) :
    weightIn a b events = 0 := by
  induction events with
  | nil => rfl
  | cons e events ih =>
    have hout : ¬ (a ≤ e.1 ∧ e.1 < b) := fun hin =>
      absurd (h e List.mem_cons_self) (not_lt.mpr hin.1)
    rw [weightIn, if_neg hout, ih fun x hx => h x (List.mem_cons_of_mem _ hx)]

/-- An interval weighs no more than two that cover it. -/
theorem weightIn_le_add (a b c : τ) (events : List (τ × Nat)) :
    weightIn a c events ≤ weightIn a b events + weightIn b c events := by
  induction events with
  | nil => exact Nat.le_refl 0
  | cons e events ih =>
    have hcover : (if a ≤ e.1 ∧ e.1 < c then e.2 else 0) ≤
        (if a ≤ e.1 ∧ e.1 < b then e.2 else 0) + if b ≤ e.1 ∧ e.1 < c then e.2 else 0 := by
      by_cases hb : e.1 < b
      · by_cases hin : a ≤ e.1 ∧ e.1 < c
        · have hearlier : a ≤ e.1 ∧ e.1 < b := ⟨hin.1, hb⟩
          rw [if_pos hin, if_pos hearlier]
          omega
        · rw [if_neg hin]
          omega
      · by_cases hin : a ≤ e.1 ∧ e.1 < c
        · have hlater : b ≤ e.1 ∧ e.1 < c := ⟨not_lt.mp hb, hin.2⟩
          rw [if_pos hin, if_pos hlater]
          omega
        · rw [if_neg hin]
          omega
    simp only [weightIn]
    omega

/-! ## Windows -/

variable [Add τ]

/-- The window an event belongs to, given the window of the event before it. -/
def see (length now : τ) (weight : Nat) : Option (FixedWindow τ) → FixedWindow τ
  | none => ⟨now, weight⟩
  | some window =>
    if window.start + length ≤ now then ⟨now, weight⟩ else ⟨window.start, window.count + weight⟩

variable {length now : τ} {weight : Nat} {window : FixedWindow τ}

@[simp] theorem see_none : see length now weight none = ⟨now, weight⟩ := rfl

/-- An event after the end of the window opens a new one at its own time. -/
theorem see_of_ended (h : window.start + length ≤ now) :
    see length now weight (some window) = ⟨now, weight⟩ := if_pos h

/-- An event within the window is added to it; the window keeps its start. -/
theorem see_of_lt (h : now < window.start + length) :
    see length now weight (some window) = ⟨window.start, window.count + weight⟩ :=
  if_neg (not_le.mpr h)

/-- Which window an event belongs to does not depend on its weight. -/
theorem see_eq (o : Option (FixedWindow τ)) :
    see length now weight o = ⟨(see length now 0 o).start, (see length now 0 o).count + weight⟩ := by
  cases o with
  | none => rw [see_none, see_none, Nat.zero_add]
  | some w =>
    by_cases hended : w.start + length ≤ now
    · rw [see_of_ended hended, see_of_ended hended, Nat.zero_add]
    · rw [see_of_lt (not_le.mp hended), see_of_lt (not_le.mp hended), Nat.add_zero]

/-- An event without weight leaves an open window as it was. -/
theorem see_zero_of_pos {o : Option (FixedWindow τ)} (h : 0 < (see length now 0 o).count) :
    o = some (see length now 0 o) := by
  cases o with
  | none => exact absurd h (Nat.lt_irrefl 0)
  | some w =>
    by_cases hended : w.start + length ≤ now
    · rw [see_of_ended hended] at h
      exact absurd h (Nat.lt_irrefl 0)
    · rw [see_of_lt (not_le.mp hended), Nat.add_zero]

/-- A window is opened no later than its last event. -/
theorem start_see_le {o : Option (FixedWindow τ)} (h : ∀ w ∈ o, w.start ≤ now) :
    (see length now weight o).start ≤ now := by
  cases o with
  | none => exact le_refl now
  | some w =>
    by_cases hended : w.start + length ≤ now
    · rw [see_of_ended hended]
    · rw [see_of_lt (not_le.mp hended)]
      exact h w rfl

/-- The window of the last event of a stream. -/
def openWindow (length : τ) (events : List (τ × Nat)) : Option (FixedWindow τ) :=
  events.foldl (fun o e => some (see length e.1 e.2 o)) none

@[simp] theorem openWindow_nil : openWindow length [] = none := rfl

/-- The open window is a fold over the events, so one more event is seen by the window that was open
before it. -/
@[simp] theorem openWindow_snoc (events : List (τ × Nat)) (e : τ × Nat) :
    openWindow length (events ++ [e]) = some (see length e.1 e.2 (openWindow length events)) :=
  List.foldl_append ..

/-- There is no open window exactly before the first event. -/
theorem openWindow_eq_none {events : List (τ × Nat)} :
    openWindow length events = none ↔ events = [] := by
  induction events using List.reverseRecOn with
  | nil => simp
  | append_singleton events e _ => simp

/-! ## Intervals of one length -/

/-- No window of a stream ever weighs more than `bound`. -/
def Bounded (length : τ) (bound : Nat) (events : List (τ × Nat)) : Prop :=
  ∀ pre, pre <+: events → ∀ w ∈ openWindow length pre, w.count ≤ bound

/-- What the open window says of the events so far, where no window weighs more than `bound`. -/
structure Holds (length : τ) (bound : Nat) (events : List (τ × Nat)) (window : FixedWindow τ) :
    Prop where
  opened : ∃ e ∈ events, e.1 = window.start
  ended : ∀ e ∈ events, e.1 < window.start + length
  inside : ∀ a b, window.start ≤ a → weightIn a b events ≤ window.count
  /-- An interval that reaches into the window meets at most one window before it. -/
  before : ∀ a, window.start < a + length → weightIn a window.start events ≤ bound

variable {bound : Nat} {events : List (τ × Nat)} {e : τ × Nat}

theorem bounded_nil : Bounded length bound [] := by
  intro pre hpre w hw
  rw [List.prefix_nil.mp hpre] at hw
  cases hw

/-- A bound on all the windows of a run bounds those of its beginning. -/
theorem Bounded.of_prefix {pre : List (τ × Nat)} (h : Bounded length bound events)
    (hpre : pre <+: events) : Bounded length bound pre :=
  fun pre' hpre' => h pre' (hpre'.trans hpre)

/-- The step of the invariant: the windows stay bounded where the window that the new event falls in
does. -/
theorem Bounded.snoc (h : Bounded length bound events)
    (hcount : (see length e.1 e.2 (openWindow length events)).count ≤ bound) :
    Bounded length bound (events ++ [e]) := by
  intro pre hpre w hw
  rcases List.prefix_concat_iff.mp hpre with rfl | hpre
  · rw [openWindow_snoc, Option.mem_some_iff] at hw
    rw [← hw]
    exact hcount
  · exact h pre hpre w hw

/-- An interval of the length of the windows that reaches into the open window weighs at most the
bound more than the open window. -/
theorem Holds.weightIn_le (h : Holds length bound events window) {a : τ}
    (hreach : window.start < a + length) :
    weightIn a (a + length) events ≤ bound + window.count := by
  calc weightIn a (a + length) events
      ≤ weightIn a window.start events + weightIn window.start (a + length) events :=
        weightIn_le_add a window.start (a + length) events
    _ ≤ bound + window.count :=
        Nat.add_le_add (h.before a hreach) (h.inside _ _ (le_refl _))

/-- The window an event opens. -/
theorem holds_opened (pos : e.1 < e.1 + length) (h : ∀ x ∈ events, x.1 < e.1)
    (before : ∀ a, e.1 < a + length → weightIn a e.1 events ≤ bound) :
    Holds length bound (events ++ [e]) ⟨e.1, e.2⟩ where
  opened := ⟨e, by simp, rfl⟩
  ended x hx := by
    rcases List.mem_append.mp hx with hx | hx
    · exact (h x hx).trans pos
    · rw [List.mem_singleton.mp hx]
      exact pos
  inside a b ha := by
    have hle := weightIn_snoc_le a b events e
    rwa [weightIn_eq_zero fun x hx => (h x hx).trans_le ha, Nat.zero_add] at hle
  before a ha := by
    rw [weightIn_snoc_of_not_mem events fun hin => absurd hin.2 (lt_irrefl _)]
    exact before a ha

/-- One event keeps what the open window says. -/
theorem Holds.see [AddRightReflectLT τ] (pos : ∀ t : τ, t < t + length)
    (h : Holds length bound events window) (hcount : window.count ≤ bound)
    (after : ∀ x ∈ events, x.1 ≤ e.1) :
    Holds length bound (events ++ [e]) (see length e.1 e.2 (some window)) := by
  by_cases hended : window.start + length ≤ e.1
  · rw [see_of_ended hended]
    refine holds_opened (pos e.1) (fun x hx => (h.ended x hx).trans_le hended) fun a ha => ?_
    have hinside : window.start ≤ a := (lt_of_add_lt_add_right (hended.trans_lt ha)).le
    exact (h.inside a e.1 hinside).trans hcount
  · have hlt := not_le.mp hended
    rw [see_of_lt hlt]
    obtain ⟨first, hfirst, hstart⟩ := h.opened
    refine ⟨⟨first, List.mem_append_left _ hfirst, hstart⟩, ?_, ?_, ?_⟩
    · intro x hx
      rcases List.mem_append.mp hx with hx | hx
      · exact h.ended x hx
      · rw [List.mem_singleton.mp hx]
        exact hlt
    · intro a b ha
      exact (weightIn_snoc_le a b events e).trans (Nat.add_le_add_right (h.inside a b ha) _)
    · intro a ha
      have hle : window.start ≤ e.1 := hstart ▸ after first hfirst
      rw [weightIn_snoc_of_not_mem events fun hin => absurd hin.2 (not_lt.mpr hle)]
      exact h.before a ha

/-- The open window of a stream in order, where no window ever weighs more than `bound`. -/
theorem holds_openWindow [AddRightReflectLT τ] (pos : ∀ t : τ, t < t + length)
    (ordered : events.Pairwise fun x y => x.1 ≤ y.1) (bounded : Bounded length bound events) :
    ∀ w ∈ openWindow length events, Holds length bound events w := by
  induction events using List.reverseRecOn with
  | nil => exact nofun
  | append_singleton events e ih =>
    obtain ⟨hordered, -, hlast⟩ := List.pairwise_append.mp ordered
    have hprefix := List.prefix_append events [e]
    have hholds := ih hordered (bounded.of_prefix hprefix)
    intro w hw
    rw [openWindow_snoc, Option.mem_some_iff] at hw
    subst hw
    cases hopen : openWindow length events with
    | none =>
      have hnil : events = [] := openWindow_eq_none.mp hopen
      subst hnil
      exact holds_opened (pos e.1) nofun fun a _ => Nat.zero_le bound
    | some window =>
      exact (hholds window hopen).see pos (bounded events hprefix window hopen)
        fun x hx => hlast x hx e (List.mem_singleton_self e)

/-- **The bound of an interval.** The events come in order, and no window ever weighs more than
`bound`. -/
theorem weightIn_le [AddRightReflectLT τ] (pos : ∀ t : τ, t < t + length)
    (ordered : events.Pairwise fun x y => x.1 ≤ y.1) (bounded : Bounded length bound events) (a : τ) :
    weightIn a (a + length) events ≤ 2 * bound := by
  induction events using List.reverseRecOn with
  | nil => exact Nat.zero_le _
  | append_singleton events e ih =>
    by_cases hin : a ≤ e.1 ∧ e.1 < a + length
    · -- the interval reaches into the window of its last event
      have hopen : openWindow length (events ++ [e]) = some _ := openWindow_snoc events e
      have hholds := holds_openWindow pos ordered bounded _ hopen
      have hstart : (see length e.1 e.2 (openWindow length events)).start ≤ e.1 := by
        obtain ⟨x, hx, hxe⟩ := hholds.opened
        rw [← hxe]
        rcases List.mem_append.mp hx with hx | hx
        · exact (List.pairwise_append.mp ordered).2.2 x hx e (List.mem_singleton_self e)
        · rw [List.mem_singleton.mp hx]
      have hweight := hholds.weightIn_le (hstart.trans_lt hin.2)
      have hcount := bounded _ (List.prefix_refl _) _ hopen
      omega
    · rw [weightIn_snoc_of_not_mem events hin]
      exact ih (List.pairwise_append.mp ordered).1
        (bounded.of_prefix (List.prefix_append events [e]))

/-! ## Windows of at least one length -/

/-- The events so far fall into windows that are each at least so long and weigh no more than the bound;
`window` is the last of them. -/
structure Covered (length : τ) (bound : Nat) (events : List (τ × Nat)) (window : FixedWindow τ) :
    Prop where
  inside : ∀ a b, window.start ≤ a → weightIn a b events ≤ window.count
  /-- An interval that reaches into the window meets at most one window before it. -/
  before : ∀ a, window.start < a + length → weightIn a window.start events ≤ bound
  room : window.count ≤ bound
  every : ∀ a, weightIn a (a + length) events ≤ 2 * bound

/-- A window without events. -/
theorem covered_nil (start : τ) : Covered length bound [] ⟨start, 0⟩ where
  inside _ _ _ := Nat.le_refl 0
  before _ _ := Nat.zero_le bound
  room := Nat.zero_le bound
  every _ := Nat.zero_le _

/-- An event in the last window, where there is room for it. -/
theorem Covered.snoc (h : Covered length bound events window) (hstart : window.start ≤ e.1)
    (hroom : window.count + e.2 ≤ bound) :
    Covered length bound (events ++ [e]) ⟨window.start, window.count + e.2⟩ where
  inside a b ha := (weightIn_snoc_le a b events e).trans (Nat.add_le_add_right (h.inside a b ha) _)
  before a ha := by
    rw [weightIn_snoc_of_not_mem events fun hin => absurd hin.2 (not_lt.mpr hstart)]
    exact h.before a ha
  room := hroom
  every a := by
    by_cases hin : a ≤ e.1 ∧ e.1 < a + length
    · have hcover := weightIn_le_add a window.start (a + length) events
      have hbefore := h.before a (hstart.trans_lt hin.2)
      have hinside := h.inside window.start (a + length) (le_refl _)
      have hsnoc := weightIn_snoc_le a (a + length) events e
      omega
    · rw [weightIn_snoc_of_not_mem events hin]
      exact h.every a

/-- The next window, once the last one has been open for the length and is over. -/
theorem Covered.next [AddRightReflectLT τ] (h : Covered length bound events window) {start : τ}
    (later : window.start + length ≤ start) (ended : ∀ x ∈ events, x.1 < start) :
    Covered length bound events ⟨start, 0⟩ where
  inside a b ha := by rw [weightIn_eq_zero fun x hx => (ended x hx).trans_le ha]
  before a ha := by
    have hinside : window.start ≤ a := (lt_of_add_lt_add_right (later.trans_lt ha)).le
    exact (h.inside a start hinside).trans h.room
  room := Nat.zero_le bound
  every := h.every

end FixedWindow

end Library
