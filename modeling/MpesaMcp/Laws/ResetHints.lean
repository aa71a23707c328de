import MpesaMcp.Laws.Limiters
import Mathlib.Data.Rat.Floor

/-!
# The retry hint of the in-memory limiter

A denied call is told after how many seconds its window ends. The number is the time left with its
fraction cut off, so a caller that waits exactly that long comes too early wherever there was one:
`reset_honest_iff` says that the hint can be trusted exactly a whole number of seconds after the window
was opened.
-/

set_option autoImplicit false

namespace MpesaMcp

open Library

/-- Where there is something left, the fraction is cut off downwards. -/
theorem truncate_eq_floor {x : ℚ} (nonneg : 0 ≤ x) : truncate x = ⌊x⌋ := by
  rw [truncate, Rat.floor_def', Int.tdiv_eq_ediv_of_nonneg (Rat.num_nonneg.mpr nonneg)]

/-- A call of a limiter under a limit and a window of its own. -/
structure WindowedCall extends LimiterCall where
  limit : Int
  windowSeconds : Int

/-- One call under its own limit and window. -/
def windowedStep {ρ : Type} (limiter : RateLimiter ρ) (env : Env) (call : WindowedCall)
    (s : Ambient × ρ) : Except Exn RateLimitDecision × (Ambient × ρ) :=
  limiterStep limiter env call.limit call.windowSeconds call.toLimiterCall s

namespace InMemoryRateLimiter

variable {now : ℚ} {key : String} {limit windowSeconds : Int} {windows : RateWindows}

/-- A denied call comes upon a window that is not over and has no room. -/
theorem allowAt_denied (positive : 1 ≤ limit)
    (denied : (allowAt now key limit windowSeconds windows).1.allowed = false) :
    ∃ window, windowOf windows key = some window ∧ now < window.start + windowSeconds ∧
      limit ≤ window.count ∧
      (allowAt now key limit windowSeconds windows).1.resetAfterSeconds =
        ⌊window.start + windowSeconds - now⌋ ∧
      (allowAt now key limit windowSeconds windows).2 = windows := by
  rcases allowAt_cases now key limit windowSeconds windows with
    ⟨hfull, -, hsame⟩ | ⟨-, hallowed, -⟩
  · -- a window that the call opens has room, so the stored one is open
    cases hget : windows.get key with
    | none =>
      rw [windowAt, windowOf, hget] at hfull
      exact absurd (positive.trans hfull) (Int.not_le.mpr Int.zero_lt_one)
    | some stored =>
      have hwindow : windowOf windows key = some ⟨stored.start, stored.count⟩ := by
        rw [windowOf, hget]
        rfl
      have hopen : now < stored.start + windowSeconds := by
        by_contra hover
        rw [windowAt, hwindow, FixedWindow.see_of_ended (not_lt.mp hover)] at hfull
        exact absurd (positive.trans hfull) (Int.not_le.mpr Int.zero_lt_one)
      rw [windowAt, hwindow, FixedWindow.see_of_lt hopen, Nat.add_zero] at hfull
      refine ⟨_, hwindow, hopen, hfull, ?_, hsame⟩
      have helapsed : ¬ (windowSeconds : ℚ) ≤ now - stored.start := by
        intro h
        linarith
      have hleft : (windowSeconds : ℚ) - (now - stored.start) = stored.start + windowSeconds - now := by
        ring
      have hnonneg : 0 ≤ stored.start + (windowSeconds : ℚ) - now := by linarith
      simp only [allowAt, hget, Option.getD_some, if_neg helapsed, if_pos hfull]
      rw [hleft, truncate_eq_floor hnonneg, max_eq_right (Int.floor_nonneg.mpr hnonneg)]
  · rw [hallowed] at denied
    cases denied

/-- Where the window of a key has no room, the next call that is allowed is one after its end. -/
theorem allowed_iff_ended {window : FixedWindow ℚ} (stored : windowOf windows key = some window)
    (positive : 1 ≤ limit) (full : limit ≤ window.count) :
    (allowAt now key limit windowSeconds windows).1.allowed = true ↔
      window.start + windowSeconds ≤ now := by
  rcases allowAt_cases now key limit windowSeconds windows with
    ⟨hfull, hdenied, -⟩ | ⟨hroom, hallowed, -⟩
  · rw [hdenied]
    refine ⟨nofun, fun hended => ?_⟩
    rw [windowAt, stored, FixedWindow.see_of_ended hended] at hfull
    exact absurd (positive.trans hfull) (Int.not_le.mpr Int.zero_lt_one)
  · rw [hallowed]
    refine ⟨fun _ => ?_, fun _ => rfl⟩
    by_contra hopen
    rw [windowAt, stored, FixedWindow.see_of_lt (not_le.mp hopen)] at hroom
    exact absurd full (not_le.mpr hroom)

end InMemoryRateLimiter

section Hints

variable {env : Env} {key : String}

/-- Calls of other keys leave the window of a key alone. -/
theorem windowOf_final_others (others : List WindowedCall) (apart : ∀ call ∈ others, call.key ≠ key)
    (s : Ambient × RateWindows) :
    InMemoryRateLimiter.windowOf
        (final (windowedStep InMemoryRateLimiter env) s others).2 key =
      InMemoryRateLimiter.windowOf s.2 key := by
  induction others generalizing s with
  | nil => rfl
  | cons call others ih =>
    refine (ih (fun c hc => apart c (List.mem_cons_of_mem _ hc)) _).trans ?_
    exact InMemoryRateLimiter.windowOf_allowAt call.now call.limit call.windowSeconds
      (Ne.symm (apart call List.mem_cons_self))

/-- The time is a whole number of seconds after the window of the key was opened. -/
def WholeSeconds (now : ℚ) (key : String) (windows : RateWindows) : Prop :=
  ∃ window ∈ InMemoryRateLimiter.windowOf windows key, ∃ n : ℤ, now - window.start = n

/-- **The hint can be trusted** exactly a whole number of seconds after the window was opened: where a
call is denied in a reachable state, every later call of its key that waits as long as it was told is
allowed. -/
theorem reset_honest_iff (env : Env) (a : Ambient) (calls : List WindowedCall) (now : ℚ) (key : String)
    (limit windowSeconds : Int) (positive : 1 ≤ limit) (decision : RateLimitDecision)
    (answer : (limiterStep InMemoryRateLimiter env limit windowSeconds ⟨now, key⟩
      (final (windowedStep InMemoryRateLimiter env) (a, Keyed.empty) calls)).1 = .ok decision)
    (denied : decision.allowed = false) :
    let s := final (windowedStep InMemoryRateLimiter env) (a, Keyed.empty) calls
    let s' := (limiterStep InMemoryRateLimiter env limit windowSeconds ⟨now, key⟩ s).2
    (∀ (others : List WindowedCall) (later : ℚ), (∀ call ∈ others, call.key ≠ key) →
      now + decision.resetAfterSeconds ≤ later →
      LimiterStep.allowed (stepAt (limiterStep InMemoryRateLimiter env limit windowSeconds)
        (final (windowedStep InMemoryRateLimiter env) s' others) ⟨later, key⟩) = true) ↔
    WholeSeconds now key s.2 := by
  intro s s'
  cases answer
  obtain ⟨window, hwindow, -, hfull, hreset, hsame⟩ :=
    @InMemoryRateLimiter.allowAt_denied now key limit windowSeconds s.2 positive denied
  -- the window is the one the later call finds, whatever the other keys do
  have hlater : ∀ others later, (∀ call ∈ others, call.key ≠ key) →
      (LimiterStep.allowed (stepAt (limiterStep InMemoryRateLimiter env limit windowSeconds)
        (final (windowedStep InMemoryRateLimiter env) s' others) ⟨later, key⟩) = true ↔
        window.start + windowSeconds ≤ later) := by
    intro others later apart
    rw [allowed_stepAt]
    refine InMemoryRateLimiter.allowed_iff_ended ?_ positive hfull
    rw [windowOf_final_others others apart]
    exact (congrArg (InMemoryRateLimiter.windowOf · key) hsame).trans hwindow
  change (∀ (others : List WindowedCall) (later : ℚ), _ →
    now + ((InMemoryRateLimiter.allowAt now key limit windowSeconds s.2).1.resetAfterSeconds : ℚ) ≤
      later → _) ↔ _
  rw [hreset]
  constructor
  · intro honest
    have hended := (hlater [] _ nofun).mp (honest [] _ nofun le_rfl)
    have hcut := Int.floor_le (window.start + (windowSeconds : ℚ) - now)
    refine ⟨window, hwindow, windowSeconds - ⌊window.start + (windowSeconds : ℚ) - now⌋, ?_⟩
    push_cast
    linarith
  · rintro ⟨window', hwindow', n, hn⟩ others later apart hwaited
    cases hwindow.symm.trans hwindow'
    rw [hlater others later apart]
    have hleft : window.start + (windowSeconds : ℚ) - now = ((windowSeconds - n : ℤ) : ℚ) := by
      push_cast
      linarith
    rw [hleft, Int.floor_intCast] at hwaited
    linarith

/-- At half a second into the window, the call is told to come back half a second too early. -/
theorem reset_too_early :
    let s := final (windowedStep InMemoryRateLimiter Env.still) ({}, Keyed.empty) [⟨⟨0, "k"⟩, 1, 60⟩]
    let denied := limiterStep InMemoryRateLimiter Env.still 1 60 ⟨1 / 2, "k"⟩ s
    denied.1.map (fun decision => (decision.allowed, decision.resetAfterSeconds)) = .ok (false, 59) ∧
      LimiterStep.allowed (stepAt (limiterStep InMemoryRateLimiter Env.still 1 60) denied.2
        ⟨1 / 2 + 59, "k"⟩) = false := by
  decide +kernel

/-- Thirty seconds into the window the hint is right, in spite of a call of another key. -/
theorem reset_honest_halfway :
    LimiterStep.allowed (stepAt (limiterStep InMemoryRateLimiter Env.still 1 60)
      (final (windowedStep InMemoryRateLimiter Env.still)
        (limiterStep InMemoryRateLimiter Env.still 1 60 ⟨30, "k"⟩
          (final (windowedStep InMemoryRateLimiter Env.still) ({}, Keyed.empty)
            [⟨⟨0, "k"⟩, 1, 60⟩])).2
        [⟨⟨31, "other"⟩, 1, 60⟩]) ⟨60, "k"⟩) = true := by
  refine (reset_honest_iff Env.still {} [⟨⟨0, "k"⟩, 1, 60⟩] 30 "k" 1 60 (by decide)
    ⟨false, "k", 1, 0, 30⟩ (by decide +kernel) rfl).mpr ⟨⟨0, 1⟩, by decide +kernel, 30, by norm_num⟩ _ _ ?_ ?_
  · intro call hcall
    rw [List.mem_singleton.mp hcall]
    decide
  · norm_num

end Hints

end MpesaMcp
