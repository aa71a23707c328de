import MpesaMcp.Library.Prog
import Mathlib.Order.Bounds.Defs

/-!
# Retrying

A `retry` makes an attempt, and makes it again after a pause as long as the outcome is one to try again
and attempts are left. Over attempts that come out one after another as a given sequence,
`run_retry` says that the first outcome that is not to be tried again decides, or the last one that
the budget allows: so many attempts are made, one pause fewer, and nothing else matters.
-/

set_option autoImplicit false

namespace Library

/-- What a retry asks for. -/
inductive Retrying
  | attempt
  | pause
deriving DecidableEq

abbrev Retrying.Answer (α : Type) : Retrying → Type
  | .attempt => α
  | .pause => Unit

namespace Retrying

open Prog

variable {ε α : Type}

/-- Make an attempt. -/
def tryOnce : Prog ε (Answer α) α := send (A := Answer α) .attempt

/-- Make a pause. -/
def waitOnce : Prog ε (Answer α) Unit := send (A := Answer α) .pause

section Messages

variable {σ : Type} (h : Handler ε (Answer α) σ) (P : Retrying → Bool) (s : σ)

@[simp] theorem run_tryOnce : run h tryOnce s = h .attempt s := run_send h Retrying.attempt s

@[simp] theorem run_waitOnce : run h waitOnce s = h .pause s := run_send h Retrying.pause s

@[simp] theorem count_tryOnce : tryOnce.count h P s = if P .attempt then 1 else 0 :=
  count_send (P := P) Retrying.attempt s

@[simp] theorem count_waitOnce : waitOnce.count h P s = if P .pause then 1 else 0 :=
  count_send (P := P) Retrying.pause s

end Messages

variable (again : Except ε α → Bool)

/-- Make an attempt, and as many more as are left while the outcome is to be tried again. -/
def retry : Nat → Prog ε (Answer α) α
  | 0 => tryOnce
  | left + 1 => do
    let outcome ← tryOnce.attempt
    if again outcome then do
      waitOnce
      retry left
    else .ofExcept outcome

section Sequence

variable (outcomes : Nat → Except ε α)

/-- Attempts that come out as the sequence says; the state counts them. -/
def inTurn : Handler ε (Answer α) Nat
  | .attempt, i => (outcomes i, i + 1)
  | .pause, i => (.ok (), i)

/-- How many attempts are made from the i-th outcome on. -/
def attemptsMade : Nat → Nat → Nat
  | 0, _ => 1
  | left + 1, i => if again (outcomes i) then attemptsMade left (i + 1) + 1 else 1

theorem attemptsMade_pos (left i : Nat) : 0 < attemptsMade again outcomes left i := by
  cases left with
  | zero => exact Nat.one_pos
  | succ left =>
    unfold attemptsMade
    split <;> omega

/-- The number of attempts is the least of the budget and of the first outcome that decides. -/
theorem isLeast_attemptsMade (left i : Nat) :
    IsLeast {k | k = left + 1 ∨ ∃ j, k = j + 1 ∧ again (outcomes (i + j)) = false}
      (attemptsMade again outcomes left i) := by
  induction left generalizing i with
  | zero =>
    refine ⟨Or.inl rfl, fun k hk => ?_⟩
    rcases hk with rfl | ⟨j, rfl, -⟩
    · exact Nat.le_refl _
    · exact Nat.succ_le_succ (Nat.zero_le j)
  | succ left ih =>
    by_cases hagain : again (outcomes i) = true
    · rw [attemptsMade, if_pos hagain]
      obtain ⟨hmem, hleast⟩ := ih (i + 1)
      constructor
      · rcases hmem with hbudget | ⟨j, hj, hdecides⟩
        · exact Or.inl (congrArg (· + 1) hbudget)
        · refine Or.inr ⟨j + 1, congrArg (· + 1) hj, ?_⟩
          rwa [Nat.add_right_comm, Nat.add_assoc] at hdecides
      · rintro k (rfl | ⟨j, rfl, hdecides⟩)
        · exact Nat.succ_le_succ (hleast (Or.inl rfl))
        · cases j with
          | zero => cases hagain.symm.trans hdecides
          | succ j =>
            refine Nat.succ_le_succ (hleast (Or.inr ⟨j, rfl, ?_⟩))
            rwa [Nat.add_right_comm, Nat.add_assoc]
    · rw [attemptsMade, if_neg hagain]
      refine ⟨Or.inr ⟨0, rfl, by simpa using hagain⟩, fun k hk => ?_⟩
      rcases hk with rfl | ⟨j, rfl, -⟩ <;> omega

/-- A run of a retry: its result, its attempts and its pauses, by induction on the attempts that are
left. -/
theorem run_retry (left i : Nat) :
    let k := attemptsMade again outcomes left i
    run (inTurn outcomes) (retry again left) i = (outcomes (i + k - 1), i + k) ∧
    (retry again left).count (inTurn outcomes) (fun m => decide (m = .attempt)) i = k ∧
    (retry again left).count (inTurn outcomes) (fun m => decide (m = .pause)) i = k - 1 := by
  induction left generalizing i with
  | zero =>
    refine ⟨run_tryOnce _ _, ?_, ?_⟩
    · rw [retry, count_tryOnce]
      rfl
    · rw [retry, count_tryOnce]
      rfl
  | succ left ih =>
    by_cases hagain : again (outcomes i) = true
    · obtain ⟨hrun, hattempts, hpauses⟩ := ih (i + 1)
      have hpos := attemptsMade_pos again outcomes left (i + 1)
      simp only [retry, attemptsMade, run_bind, run_attempt, run_tryOnce, run_waitOnce, count_bind,
        count_attempt, count_tryOnce, count_waitOnce, inTurn, hagain, if_true, hrun, hattempts, hpauses]
      refine ⟨?_, ?_, ?_⟩
      · rw [Nat.add_right_comm i 1, Nat.add_assoc i]
      · simp
        omega
      · simp
        exact Nat.add_sub_of_le hpos
    · simp only [retry, attemptsMade, run_bind, run_attempt, run_tryOnce, count_bind, count_attempt,
        count_tryOnce, inTurn, if_neg hagain, run_ofExcept, count_ofExcept]
      simp

end Sequence

end Retrying

end Library
