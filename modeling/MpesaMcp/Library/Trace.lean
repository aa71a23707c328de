import Mathlib.Data.List.Induction

/-!
# Runs of a step function, with their history

A deterministic machine is a step function `ι → σ → ο × σ`: an input and a state give an output and
the next state. `trace` records every step of a run with the states on both sides of it, `final` is
the state the run ends in.

An invariant may speak of the steps taken so far (`invariant_of`), may assume a condition on every
step of the run, and then holds at each step of the trace (`trace_split` names the run before it);
`flagged_of` is the rule for an invariant that knows whether a step of some kind was taken,
`steps_of` reads off what each step does, and `exists_of_changed` finds the step behind a change.
`total_le_one` bounds a quantity summed over a run by one:
whoever spends it marks the state, and in a marked state nothing is spent.

Two runs are compared by a relation of their states: `outputs_of_simulates` on the same inputs, and
`unwinding_of` where one of them leaves some inputs out.
-/

set_option autoImplicit false

namespace Library

/-- One step of a run. -/
structure Step (σ ι ο : Type) where
  before : σ
  input : ι
  output : ο
  after : σ

variable {σ ι ο : Type} (step : ι → σ → ο × σ)

/-- The step an input takes from a state. -/
def stepAt (s : σ) (i : ι) : Step σ ι ο := ⟨s, i, (step i s).1, (step i s).2⟩

/-- The state a run ends in. -/
def final : σ → List ι → σ
  | s, [] => s
  | s, i :: is => final (step i s).2 is

/-- The steps of a run. -/
def trace : σ → List ι → List (Step σ ι ο)
  | _, [] => []
  | s, i :: is => stepAt step s i :: trace (step i s).2 is

theorem final_append (s : σ) (is js : List ι) :
    final step s (is ++ js) = final step (final step s is) js := by
  induction is generalizing s with
  | nil => rfl
  | cons i is ih => exact ih (step i s).2

theorem trace_append (s : σ) (is js : List ι) :
    trace step s (is ++ js) = trace step s is ++ trace step (final step s is) js := by
  induction is generalizing s with
  | nil => rfl
  | cons i is ih =>
    show _ :: trace step (step i s).2 (is ++ js) = _
    rw [ih]
    rfl

theorem trace_snoc (s : σ) (is : List ι) (i : ι) :
    trace step s (is ++ [i]) = trace step s is ++ [stepAt step (final step s is) i] := by
  rw [trace_append]
  rfl

theorem final_snoc (s : σ) (is : List ι) (i : ι) :
    final step s (is ++ [i]) = (step i (final step s is)).2 := by
  rw [final_append]
  rfl

@[simp] theorem map_input_trace (s : σ) (is : List ι) : (trace step s is).map Step.input = is := by
  induction is generalizing s with
  | nil => rfl
  | cons i is ih => simp only [trace, List.map_cons, ih, stepAt]

variable {step}

/-- A step of a trace splits the run: the steps before it are the trace of the inputs before. -/
theorem trace_split {s : σ} {is : List ι} {pre post : List (Step σ ι ο)} {st : Step σ ι ο}
    (h : trace step s is = pre ++ st :: post) :
    ∃ is₁ i is₂, is = is₁ ++ i :: is₂ ∧ pre = trace step s is₁ ∧
      st = stepAt step (final step s is₁) i ∧ post = trace step st.after is₂ := by
  induction pre generalizing s is with
  | nil =>
    cases is with
    | nil => cases h
    | cons i is =>
      cases h
      exact ⟨[], i, is, rfl, rfl, rfl, rfl⟩
  | cons p pre ih =>
    cases is with
    | nil => cases h
    | cons i is =>
      simp only [trace, List.cons_append, List.cons.injEq] at h
      obtain ⟨is₁, j, is₂, rfl, rfl, rfl, rfl⟩ := ih h.2
      exact ⟨i :: is₁, j, is₂, rfl, by simp only [trace, h.1], rfl, rfl⟩

theorem mem_trace_split {s : σ} {is : List ι} {st : Step σ ι ο} (h : st ∈ trace step s is) :
    ∃ is₁ i is₂, is = is₁ ++ i :: is₂ ∧ st = stepAt step (final step s is₁) i := by
  obtain ⟨pre, post, hsplit⟩ := List.append_of_mem h
  obtain ⟨is₁, i, is₂, his, -, hst, -⟩ := trace_split hsplit
  exact ⟨is₁, i, is₂, his, hst⟩

/-- **The invariant rule**: a property of the history and the state that holds at the start and that
every step satisfying `C` keeps, holds at the end of every run all of whose steps satisfy `C`. -/
theorem invariant_of {C : Step σ ι ο → Prop} {I : List (Step σ ι ο) → σ → Prop} {s : σ}
    (init : I [] s)
    (keep : ∀ hist t i, C (stepAt step t i) → I hist t →
      I (hist ++ [stepAt step t i]) (step i t).2) :
    ∀ is, (∀ st ∈ trace step s is, C st) → I (trace step s is) (final step s is) := by
  intro is
  induction is using List.reverseRecOn with
  | nil => exact fun _ => init
  | append_singleton is i ih =>
    rw [trace_snoc, final_snoc]
    intro hC
    refine keep _ _ _ (hC _ (by simp)) (ih fun st hst => hC st ?_)
    exact List.mem_append_left _ hst

/-- The invariant rule without a condition on steps. -/
theorem invariant {I : List (Step σ ι ο) → σ → Prop} {s : σ} (init : I [] s)
    (keep : ∀ hist t i, I hist t → I (hist ++ [stepAt step t i]) (step i t).2) (is : List ι) :
    I (trace step s is) (final step s is) :=
  invariant_of (C := fun _ => True) init (fun hist t i _ => keep hist t i) is fun _ _ => trivial

/-- An invariant of the state alone holds before every step of every run. -/
theorem state_invariant {I : σ → Prop} {s : σ} (init : I s) (keep : ∀ t i, I t → I (step i t).2)
    (is : List ι) : I (final step s is) :=
  invariant (I := fun _ t => I t) init (fun _ => keep) is

/-- An invariant that knows whether a step satisfying `P` was taken. -/
theorem flagged_of {C P : Step σ ι ο → Prop} {I : Prop → σ → Prop} {s : σ} (init : I False s)
    (keep : ∀ flag t i, C (stepAt step t i) → I flag t →
      I (flag ∨ P (stepAt step t i)) (step i t).2) :
    ∀ is, (∀ st ∈ trace step s is, C st) → I (∃ st ∈ trace step s is, P st) (final step s is) := by
  refine invariant_of (I := fun hist t => I (∃ st ∈ hist, P st) t) ?_ fun hist t i hC h => ?_
  · have hnone : (∃ st ∈ ([] : List (Step σ ι ο)), P st) = False := by simp
    rw [hnone]
    exact init
  · have hsnoc : (∃ st ∈ hist ++ [stepAt step t i], P st) =
        ((∃ st ∈ hist, P st) ∨ P (stepAt step t i)) := by
      simp only [List.mem_append, List.mem_singleton, or_and_right, exists_or, exists_eq_left]
    rw [hsnoc]
    exact keep _ t i hC h

/-- Where every step satisfying `C` from a state of the invariant keeps it and satisfies `P`, every
step of a run whose steps all satisfy `C` satisfies `P`. -/
theorem steps_of {C P : Step σ ι ο → Prop} {I : σ → Prop} {s : σ} (init : I s)
    (keep : ∀ t i, C (stepAt step t i) → I t → I (step i t).2 ∧ P (stepAt step t i)) :
    ∀ is, (∀ st ∈ trace step s is, C st) → ∀ st ∈ trace step s is, P st := by
  intro is
  induction is generalizing s with
  | nil => exact fun _ _ h => nomatch h
  | cons i is ih =>
    intro hC st hst
    obtain ⟨hnext, hP⟩ := keep s i (hC _ List.mem_cons_self) init
    rcases List.mem_cons.mp hst with rfl | hst
    · exact hP
    · exact ih hnext (fun st hst => hC st (List.mem_cons_of_mem _ hst)) st hst

/-- **Attribution**: where every step that does not satisfy `P` leaves `f` as it was, a run that changes
`f` has a step that satisfies `P`. -/
theorem exists_of_changed {β : Type} {f : σ → β} {P : Step σ ι ο → Prop}
    (keep : ∀ s i, ¬ P (stepAt step s i) → f (step i s).2 = f s) {s : σ} {is : List ι}
    (changed : f (final step s is) ≠ f s) : ∃ st ∈ trace step s is, P st := by
  induction is generalizing s with
  | nil => exact absurd rfl changed
  | cons i is ih =>
    by_cases hP : P (stepAt step s i)
    · exact ⟨_, List.mem_cons_self, hP⟩
    · have hrest : f (final step (step i s).2 is) ≠ f (step i s).2 := by
        rw [keep s i hP]
        exact changed
      obtain ⟨st, hst, hst'⟩ := ih hrest
      exact ⟨st, List.mem_cons_of_mem _ hst, hst'⟩

/-- A quantity summed over the steps of a run. -/
def total (cost : Step σ ι ο → Nat) : List (Step σ ι ο) → Nat
  | [] => 0
  | st :: steps => cost st + total cost steps

/-- **At most once**: where a step that spends marks the state, the mark stays, and a marked state
spends nothing, a run spends at most one. -/
theorem total_le_one {C : Step σ ι ο → Prop} {marked : σ → Prop} {cost : Step σ ι ο → Nat}
    (stays : ∀ s i, C (stepAt step s i) → marked s → marked (step i s).2)
    (spent : ∀ s i, C (stepAt step s i) → marked s → cost (stepAt step s i) = 0)
    (marks : ∀ s i, C (stepAt step s i) → cost (stepAt step s i) ≠ 0 →
      cost (stepAt step s i) = 1 ∧ marked (step i s).2) :
    ∀ s is, (∀ st ∈ trace step s is, C st) →
      total cost (trace step s is) ≤ 1 ∧ (marked s → total cost (trace step s is) = 0) := by
  intro s is
  induction is generalizing s with
  | nil => exact fun _ => ⟨Nat.zero_le 1, fun _ => rfl⟩
  | cons i is ih =>
    intro hC
    have hi : C (stepAt step s i) := hC _ List.mem_cons_self
    obtain ⟨hle, hzero⟩ := ih (step i s).2 fun st hst => hC st (List.mem_cons_of_mem _ hst)
    simp only [trace, total]
    refine ⟨?_, fun hm => ?_⟩
    · by_cases hcost : cost (stepAt step s i) = 0
      · rw [hcost, Nat.zero_add]
        exact hle
      · obtain ⟨hone, hm⟩ := marks s i hi hcost
        simp only [hone, hzero hm, Nat.add_zero, Nat.le_refl]
    · rw [spent s i hi hm, hzero (stays s i hi hm)]

/-! ## Two runs -/

/-- **Simulation**: where two machines answer every input alike from related states, and keep them
related, their runs on the same inputs answer alike. The relation may speak of the inputs that are to
come. -/
theorem outputs_of_simulates_of {τ ο' ω : Type} {step' : ι → τ → ο' × τ} {f : ο → ω}
    {g : ο' → ω} {R : List ι → σ → τ → Prop}
    (simulates : ∀ i is s t, R (i :: is) s t →
      f (step i s).1 = g (step' i t).1 ∧ R is (step i s).2 (step' i t).2)
    {s : σ} {t : τ} (is : List ι) (h : R is s t) :
    (trace step s is).map (fun st => f st.output) =
      (trace step' t is).map fun st => g st.output := by
  induction is generalizing s t with
  | nil => rfl
  | cons i is ih =>
    obtain ⟨houtput, hnext⟩ := simulates i is s t h
    simp only [trace, List.map_cons, stepAt, houtput, ih hnext]

/-- Simulation along a relation of the states alone. -/
theorem outputs_of_simulates {τ ο' ω : Type} {step' : ι → τ → ο' × τ} {f : ο → ω} {g : ο' → ω}
    {R : σ → τ → Prop}
    (simulates : ∀ s t i, R s t →
      f (step i s).1 = g (step' i t).1 ∧ R (step i s).2 (step' i t).2)
    {s : σ} {t : τ} (h : R s t) (is : List ι) :
    (trace step s is).map (fun st => f st.output) =
      (trace step' t is).map fun st => g st.output :=
  outputs_of_simulates_of (R := fun _ => R) (fun i _ s t => simulates s t i) is h

/-- **Unwinding**: where the inputs to be deleted leave the state related to what it was, and the
others are answered alike from related states and keep them related, a run without the deleted inputs
answers the others alike and ends related. Answers are alike where `f` does not tell them apart; the
relation may speak of the inputs that are to come. -/
theorem unwinding_by {ω : Type} {f : ο → ω} {R : List ι → σ → σ → Prop} {kept : ι → Bool}
    (consistent : ∀ i is s t, kept i = true → R (i :: is) s t →
      f (step i s).1 = f (step i t).1 ∧ R is (step i s).2 (step i t).2)
    (respects : ∀ i is s t, kept i = false → R (i :: is) s t → R is (step i s).2 t)
    {s t : σ} (is : List ι) (h : R is s t) :
    ((trace step s is).filter fun st => kept st.input).map (fun st => f st.output) =
        (trace step t (is.filter kept)).map (fun st => f st.output) ∧
      R [] (final step s is) (final step t (is.filter kept)) := by
  induction is generalizing s t with
  | nil => exact ⟨rfl, h⟩
  | cons i is ih =>
    cases hkept : kept i with
    | true =>
      obtain ⟨houtput, hnext⟩ := consistent i is s t hkept h
      obtain ⟨houtputs, hfinal⟩ := ih hnext
      rw [List.filter_cons_of_pos hkept]
      refine ⟨?_, hfinal⟩
      have hfirst : kept (stepAt step s i).input = true := hkept
      simp only [trace]
      rw [List.filter_cons_of_pos (p := fun st : Step σ ι ο => kept st.input) hfirst, List.map_cons,
        List.map_cons, houtputs]
      exact congrArg (· :: _) houtput
    | false =>
      obtain ⟨houtputs, hfinal⟩ := ih (respects i is s t hkept h)
      rw [List.filter_cons_of_neg (by simp [hkept])]
      refine ⟨?_, hfinal⟩
      simp only [trace]
      rw [List.filter_cons_of_neg (by simp [stepAt, hkept])]
      exact houtputs

/-- Unwinding where the answers are the same. -/
theorem unwinding_of {R : List ι → σ → σ → Prop} {kept : ι → Bool}
    (consistent : ∀ i is s t, kept i = true → R (i :: is) s t →
      (step i s).1 = (step i t).1 ∧ R is (step i s).2 (step i t).2)
    (respects : ∀ i is s t, kept i = false → R (i :: is) s t → R is (step i s).2 t)
    {s t : σ} (is : List ι) (h : R is s t) :
    ((trace step s is).filter fun st => kept st.input).map Step.output =
        (trace step t (is.filter kept)).map Step.output ∧
      R [] (final step s is) (final step t (is.filter kept)) :=
  unwinding_by (f := fun o => o) consistent respects is h

/-- Unwinding along a relation of the states alone. -/
theorem unwinding {R : σ → σ → Prop} {kept : ι → Bool}
    (consistent : ∀ s t i, kept i = true → R s t →
      (step i s).1 = (step i t).1 ∧ R (step i s).2 (step i t).2)
    (respects : ∀ s t i, kept i = false → R s t → R (step i s).2 t)
    {s t : σ} (h : R s t) (is : List ι) :
    ((trace step s is).filter fun st => kept st.input).map Step.output =
        (trace step t (is.filter kept)).map Step.output ∧
      R (final step s is) (final step t (is.filter kept)) :=
  @unwinding_of _ _ _ step (fun _ => R) kept (fun i _ s t => consistent s t i)
    (fun i _ s t => respects s t i) s t is h

end Library
