import MpesaMcp.Daraja.Client
import MpesaMcp.Library.Trace
import Mathlib.Tactic.Linarith

/-!
# The circuit breaker and its history

The breaker keeps a state, a count and an opening time, and half-opens itself whenever its state is
read. `Rejects` says of the history alone when a call is turned away: enough failures since the last
success, the last of them less than the recovery time ago.

`Follows` links the two. The state alone does not decide: a breaker whose recovery time is over stays
open until it is read, and a half-open one keeps its count, so that one more failure opens it again
(`beforeCall_rejects`).
-/

set_option autoImplicit false

namespace MpesaMcp

open Library

/-! ## Operations at readings of the clock -/

inductive BreakerOperation
  | state
  | beforeCall
  | recordSuccess
  | recordFailure
deriving DecidableEq

/-- An operation, and what the clock reads at it. -/
structure BreakerCall where
  now : ℚ
  operation : BreakerOperation

/-- One operation: the exception it raises, and the breaker after it. -/
def breakerStep (env : Env) (call : BreakerCall) (s : Ambient × DarajaCircuitBreaker) :
    Except ClientExn Unit × (Ambient × DarajaCircuitBreaker) :=
  match call.operation with
  | .state => (.ok (), s.2.readState (env.atMonotonic call.now) s.1)
  | .beforeCall => s.2.beforeCall (env.atMonotonic call.now) s.1
  | .recordSuccess => (.ok (), s.1, s.2.recordSuccess)
  | .recordFailure => (.ok (), s.2.recordFailure (env.atMonotonic call.now) s.1)

/-- The clock never goes back. -/
def BreakerCall.Nondecreasing (calls : List BreakerCall) : Prop :=
  calls.Pairwise fun c d => c.now ≤ d.now

/-! ## The history -/

/-- The failures since the last success, after one more operation. -/
def BreakerCall.tally (failures : List ℚ) (call : BreakerCall) : List ℚ :=
  match call.operation with
  | .recordSuccess => []
  | .recordFailure => failures ++ [call.now]
  | _ => failures

/-- The times of the failures since the last success. -/
def failuresSince (calls : List BreakerCall) : List ℚ := calls.foldl BreakerCall.tally []

/-- A circuit with these failures since its last success turns a call away. -/
def Rejects (failureThreshold : Int) (recoverySeconds now : ℚ) (failures : List ℚ) : Prop :=
  max 1 failureThreshold ≤ failures.length ∧
    ∃ last ∈ failures.getLast?, now - last < recoverySeconds

@[simp] theorem failuresSince_nil : failuresSince [] = [] := rfl

@[simp] theorem failuresSince_snoc (calls : List BreakerCall) (call : BreakerCall) :
    failuresSince (calls ++ [call]) = call.tally (failuresSince calls) :=
  List.foldl_append ..

/-- Operations that only look at the circuit leave its history alone. -/
theorem failuresSince_append_quiet (calls : List BreakerCall) {quiet : List BreakerCall}
    (h : ∀ call ∈ quiet, call.operation = .state ∨ call.operation = .beforeCall) :
    failuresSince (calls ++ quiet) = failuresSince calls := by
  induction quiet using List.reverseRecOn with
  | nil => rw [List.append_nil]
  | append_singleton quiet call ih =>
    rw [← List.append_assoc, failuresSince_snoc, ih fun c hc => h c (List.mem_append_left _ hc)]
    rcases h call (by simp) with hcall | hcall <;> simp [BreakerCall.tally, hcall]

/-! ## The breaker follows its history -/

/-- The breaker is where its failures since the last success have brought it, at a time. -/
structure DarajaCircuitBreaker.Follows (breaker : DarajaCircuitBreaker) (failureThreshold : Int)
    (recoverySeconds now : ℚ) (failures : List ℚ) : Prop where
  enabled : breaker.enabled = true
  threshold : breaker.failureThreshold = failureThreshold
  recovery : breaker.recoverySeconds = recoverySeconds
  count : breaker.failureCount = failures.length
  closed : breaker.state = .closed ↔ (failures.length : Int) < max 1 failureThreshold
  openedAt : breaker.state ≠ .closed → breaker.openedAt = failures.getLast?
  halfOpen : breaker.state = .halfOpen → ∀ last ∈ failures.getLast?, recoverySeconds ≤ now - last

namespace DarajaCircuitBreaker

variable {breaker : DarajaCircuitBreaker} {failureThreshold : Int} {recoverySeconds now later : ℚ}
  {failures : List ℚ}

theorem Follows.mono (h : breaker.Follows failureThreshold recoverySeconds now failures)
    (hle : now ≤ later) : breaker.Follows failureThreshold recoverySeconds later failures := by
  refine { h with halfOpen := ?_ }
  intro hhalf last hlast
  have hover := h.halfOpen hhalf last hlast
  linarith

/-- An open circuit has a last failure. -/
theorem Follows.getLast (h : breaker.Follows failureThreshold recoverySeconds now failures)
    (hopen : breaker.state ≠ .closed) : ∃ last, failures.getLast? = some last := by
  have hfull : max 1 failureThreshold ≤ (failures.length : Int) := by
    refine Int.not_lt.mp fun hlt => hopen (h.closed.mpr hlt)
  have hlength : 0 < failures.length := by omega
  exact ⟨_, List.getLast?_eq_some_getLast (List.ne_nil_of_length_pos hlength)⟩

/-- A new breaker has no failures. -/
theorem follows_new (failureThreshold : Int) (recoverySeconds now : ℚ) :
    Follows { failureThreshold := failureThreshold, recoverySeconds := recoverySeconds }
      failureThreshold recoverySeconds now [] where
  enabled := rfl
  threshold := rfl
  recovery := rfl
  count := rfl
  closed := ⟨fun _ => by simp, fun _ => rfl⟩
  openedAt hopen := absurd rfl hopen
  halfOpen := nofun

/-- Reading the state of a circuit: one that rejects is open and stays it, one that does not is not
open afterwards. -/
theorem Follows.readState (env : Env) (a : Ambient)
    (h : breaker.Follows failureThreshold recoverySeconds now failures) :
    (breaker.readState (env.atMonotonic now) a).2.Follows failureThreshold recoverySeconds now failures ∧
      ((breaker.readState (env.atMonotonic now) a).2.state = .opened ↔
        Rejects failureThreshold recoverySeconds now failures) := by
  cases hstate : breaker.state with
  | closed =>
    have hsame : (breaker.readState (env.atMonotonic now) a).2 = breaker := by
      simp only [DarajaCircuitBreaker.readState, hstate]
    rw [hsame, hstate]
    refine ⟨h, by simp, fun hrejects => ?_⟩
    have hfew := h.closed.mp hstate
    exact absurd hrejects.1 (Int.not_le.mpr hfew)
  | halfOpen =>
    have hsame : (breaker.readState (env.atMonotonic now) a).2 = breaker := by
      simp only [DarajaCircuitBreaker.readState, hstate]
    rw [hsame, hstate]
    refine ⟨h, by simp, fun hrejects => ?_⟩
    obtain ⟨last, hlast, hrecent⟩ := hrejects.2
    exact absurd (h.halfOpen hstate last hlast) (not_le.mpr hrecent)
  | opened =>
    have hopen : breaker.state ≠ .closed := by simp [hstate]
    have hfull : max 1 failureThreshold ≤ (failures.length : Int) :=
      Int.not_lt.mp fun hlt => hopen (h.closed.mpr hlt)
    obtain ⟨last, hlast⟩ := h.getLast hopen
    have hopened : breaker.openedAt = some last := (h.openedAt hopen).trans hlast
    by_cases hover : recoverySeconds ≤ now - last
    · have hread : (breaker.readState (env.atMonotonic now) a).2 =
          { breaker with state := .halfOpen } := by
        simp [DarajaCircuitBreaker.readState, hstate, hopened, Ambient.monotonic, Env.atMonotonic,
          h.recovery, hover]
      rw [hread]
      refine ⟨{ h with closed := ?_, openedAt := fun _ => h.openedAt hopen, halfOpen := ?_ }, ?_⟩
      · exact ⟨nofun, fun hlt => absurd (h.closed.mpr hlt) hopen⟩
      · intro _ last' hlast'
        cases hlast.symm.trans hlast'
        exact hover
      · refine ⟨nofun, fun hrejects => ?_⟩
        obtain ⟨last', hlast', hrecent⟩ := hrejects.2
        cases hlast.symm.trans hlast'
        exact absurd hover (not_le.mpr hrecent)
    · have hread : (breaker.readState (env.atMonotonic now) a).2 = breaker := by
        simp [DarajaCircuitBreaker.readState, hstate, hopened, Ambient.monotonic, Env.atMonotonic,
          h.recovery, hover]
      rw [hread]
      exact ⟨h, fun _ => ⟨hfull, last, hlast, not_le.mp hover⟩, fun _ => hstate⟩

/-- Rejecting a call is reading the state. -/
theorem Follows.beforeCall (env : Env) (a : Ambient)
    (h : breaker.Follows failureThreshold recoverySeconds now failures) :
    let r := breaker.beforeCall (env.atMonotonic now) a
    r.2.2.Follows failureThreshold recoverySeconds now failures ∧
      (r.1 = .error .circuitOpen ↔ Rejects failureThreshold recoverySeconds now failures) ∧
      (r.1 = .ok () ↔ ¬ Rejects failureThreshold recoverySeconds now failures) := by
  obtain ⟨hfollows, hopen⟩ := h.readState env a
  by_cases hrejects : Rejects failureThreshold recoverySeconds now failures
  · have hstate := hopen.mpr hrejects
    simp [DarajaCircuitBreaker.beforeCall, h.enabled, hstate, hrejects, hfollows]
  · have hstate := mt hopen.mp hrejects
    simp [DarajaCircuitBreaker.beforeCall, h.enabled, hstate, hrejects, hfollows]

theorem Follows.recordSuccess (h : breaker.Follows failureThreshold recoverySeconds now failures) :
    breaker.recordSuccess.Follows failureThreshold recoverySeconds now [] := by
  have hclosed : breaker.recordSuccess =
      { breaker with state := .closed, failureCount := 0, openedAt := none } := by
    simp only [DarajaCircuitBreaker.recordSuccess, h.enabled, if_true]
  rw [hclosed]
  refine { h with count := rfl, closed := ?_, openedAt := ?_, halfOpen := nofun }
  · exact ⟨fun _ => by simp only [List.length_nil]; omega, fun _ => rfl⟩
  · exact fun hopen => absurd rfl hopen

/-- A failure opens the circuit, in whichever state it is, once there are enough of them. -/
theorem Follows.recordFailure (env : Env) (a : Ambient)
    (h : breaker.Follows failureThreshold recoverySeconds now failures) :
    (breaker.recordFailure (env.atMonotonic now) a).2.Follows failureThreshold recoverySeconds now
      (failures ++ [now]) := by
  have hlength : ((failures ++ [now]).length : Int) = failures.length + 1 := by simp
  by_cases hfull : max 1 failureThreshold ≤ (failures.length : Int) + 1
  · have hopened : (breaker.recordFailure (env.atMonotonic now) a).2 =
        { breaker with failureCount := failures.length + 1, state := .opened, openedAt := some now } := by
      simp [DarajaCircuitBreaker.recordFailure, h.enabled, h.count, h.threshold, hfull,
        Ambient.monotonic, Env.atMonotonic]
    rw [hopened]
    refine { h with count := by simp, closed := ?_, openedAt := by simp, halfOpen := ?_ }
    · refine ⟨fun hclosed => ?_, fun hlt => ?_⟩
      · cases hclosed
      · rw [hlength] at hlt
        exact absurd hfull (Int.not_le.mpr hlt)
    · intro hhalf
      cases hhalf
  · have hfew : (failures.length : Int) < max 1 failureThreshold := by omega
    have hclosed := h.closed.mpr hfew
    have hcounted : (breaker.recordFailure (env.atMonotonic now) a).2 =
        { breaker with failureCount := failures.length + 1 } := by
      simp [DarajaCircuitBreaker.recordFailure, h.enabled, h.count, h.threshold, hfull]
    rw [hcounted]
    refine { h with count := by simp, closed := ?_, openedAt := ?_, halfOpen := ?_ }
    · rw [hlength]
      exact ⟨fun _ => Int.not_le.mp hfull, fun _ => hclosed⟩
    · exact fun hopen => absurd hclosed hopen
    · intro hhalf
      rw [hclosed] at hhalf
      cases hhalf

end DarajaCircuitBreaker

/-- One operation keeps the breaker with its history: the count of failures since the last success, and
the time at which it opened. -/
theorem follows_breakerStep (env : Env) (call : BreakerCall) {s : Ambient × DarajaCircuitBreaker}
    {failureThreshold : Int} {recoverySeconds : ℚ} {failures : List ℚ}
    (h : s.2.Follows failureThreshold recoverySeconds call.now failures) :
    (breakerStep env call s).2.2.Follows failureThreshold recoverySeconds call.now
      (call.tally failures) := by
  obtain ⟨now, operation⟩ := call
  cases operation with
  | state => exact (h.readState env s.1).1
  | beforeCall => exact (h.beforeCall env s.1).1
  | recordSuccess => exact h.recordSuccess
  | recordFailure => exact h.recordFailure env s.1

/-- **Every run keeps the breaker with its history**, up to any time that is not before its last
operation. -/
theorem follows_final (env : Env) (a : Ambient) (failureThreshold : Int) (recoverySeconds : ℚ)
    {calls : List BreakerCall} (ordered : BreakerCall.Nondecreasing calls) {t : ℚ}
    (after : ∀ call ∈ calls, call.now ≤ t) :
    (final (breakerStep env)
      (a, { failureThreshold := failureThreshold, recoverySeconds := recoverySeconds })
      calls).2.Follows failureThreshold recoverySeconds t (failuresSince calls) := by
  induction calls using List.reverseRecOn generalizing t with
  | nil => exact DarajaCircuitBreaker.follows_new _ _ _
  | append_singleton calls call ih =>
    obtain ⟨hordered, -, hlast⟩ := List.pairwise_append.mp ordered
    rw [final_snoc, failuresSince_snoc]
    have hbefore := ih hordered fun c hc => hlast c hc call (List.mem_singleton_self call)
    exact (follows_breakerStep env call hbefore).mono (after call (by simp))

/-! ## The property -/

/-- A call at `t` is turned away exactly when the history of the circuit rejects it. In particular a
failure in the half-open state turns every call away for a full recovery time. -/
theorem beforeCall_rejects (env : Env) (a : Ambient) (failureThreshold : Int) (recoverySeconds : ℚ)
    (calls : List BreakerCall) (t : ℚ)
    (ordered : BreakerCall.Nondecreasing (calls ++ [⟨t, .beforeCall⟩])) :
    let start : DarajaCircuitBreaker :=
      { failureThreshold := failureThreshold, recoverySeconds := recoverySeconds }
    let outcome := (breakerStep env ⟨t, .beforeCall⟩ (final (breakerStep env) (a, start) calls)).1
    (outcome = .error .circuitOpen ↔
        Rejects failureThreshold recoverySeconds t (failuresSince calls)) ∧
      (outcome = .ok () ↔ ¬ Rejects failureThreshold recoverySeconds t (failuresSince calls)) ∧
      ∀ before u quiet, calls = before ++ ⟨u, .recordFailure⟩ :: quiet →
        (final (breakerStep env) (a, start) before).2.state = .halfOpen →
        (∀ call ∈ quiet, call.operation = .state ∨ call.operation = .beforeCall) →
        (outcome = .error .circuitOpen ↔ t - u < recoverySeconds) := by
  obtain ⟨hordered, -, hlast⟩ := List.pairwise_append.mp ordered
  have hafter : ∀ call ∈ calls, call.now ≤ t := fun c hc => hlast c hc _ (List.mem_singleton_self _)
  obtain ⟨-, hrejects, hpasses⟩ :=
    (follows_final env a failureThreshold recoverySeconds hordered hafter).beforeCall env
      (final (breakerStep env) (a, _) calls).1
  refine ⟨hrejects, hpasses, ?_⟩
  rintro before u quiet rfl hhalf hquiet
  refine Iff.trans hrejects ?_
  -- the failures of a half-open circuit are enough of them already
  have hbefore := follows_final env a failureThreshold recoverySeconds
    (List.pairwise_append.mp hordered).1 fun c hc => hafter c (List.mem_append_left _ hc)
  have hfull : max 1 failureThreshold ≤ ((failuresSince before).length : Int) := by
    refine Int.not_lt.mp fun hlt => ?_
    rw [hbefore.closed.mpr hlt] at hhalf
    cases hhalf
  have hfailures : failuresSince (before ++ ⟨u, .recordFailure⟩ :: quiet) =
      failuresSince before ++ [u] := by
    rw [← List.singleton_append, ← List.append_assoc, failuresSince_append_quiet _ hquiet,
      failuresSince_snoc]
    rfl
  rw [hfailures]
  constructor
  · rintro ⟨-, last, hlast, hrecent⟩
    rw [List.getLast?_concat, Option.mem_some_iff] at hlast
    rw [hlast]
    exact hrecent
  · intro hrecent
    refine ⟨?_, u, by simp, hrecent⟩
    rw [List.length_append, List.length_singleton]
    omega

/-- A circuit that two failures open and thirty seconds half-open, where the third failure comes late. -/
theorem beforeCall_rejects_halfOpen :
    (breakerStep Env.still ⟨79, .beforeCall⟩ (final (breakerStep Env.still)
      ({}, { failureThreshold := 2, recoverySeconds := 30 })
      [⟨0, .recordFailure⟩, ⟨1, .recordFailure⟩, ⟨40, .state⟩, ⟨50, .recordFailure⟩])).1 =
        .error .circuitOpen := by
  refine ((beforeCall_rejects Env.still {} 2 30 _ 79 ?_).2.2
    [⟨0, .recordFailure⟩, ⟨1, .recordFailure⟩, ⟨40, .state⟩] 50 [] rfl ?_ ?_).mpr ?_
  · norm_num [BreakerCall.Nondecreasing]
  · decide +kernel
  · simp
  · norm_num

end MpesaMcp
