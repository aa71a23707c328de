import MpesaMcp.Library.Prog
import MpesaMcp.Library.Trace

/-!
# Programs side by side

A pool holds programs that share one state. A schedule names, step by step, the program that sends its
next message; each message is answered at once, before another program moves. Properties of a pool
over every schedule are proved with the rules of `Trace`.

`Within` bounds the messages a program sends; `final_ended` then says how often a schedule must name a
program to end it, whatever the others do in between. `Returns` is a postcondition that holds whatever
the answers are, so it stays true of a program as it moves.
-/

set_option autoImplicit false

namespace Library

variable {ε M : Type} {A : M → Type} {α σ : Type}

namespace Prog

/-- The message that the program sends next, if it has not ended. -/
def next? : Prog ε A α → Option M
  | .ret _ => none
  | .raise _ => none
  | .call m _ => some m

/-- The program returned or raised. -/
def Ended (p : Prog ε A α) : Prop := p.next? = none

/-- Send the next message, if there is one. -/
def advance (h : Handler ε A σ) : Prog ε A α → σ → Prog ε A α × σ
  | .ret a, s => (.ret a, s)
  | .raise e, s => (.raise e, s)
  | .call m k, s => (k (h m s).1, (h m s).2)

/-- One step takes the one message of `send`. -/
theorem advance_send (h : Handler ε A σ) (m : M) (s : σ) :
    @advance ε M A (A m) σ h (send m) s =
      (match (h m s).1 with
        | .ok a => .ret a
        | .error e => .raise e, (h m s).2) := by
  rfl

/-- A program that starts with a message goes on with its answer, and raises where the answer is an
exception. -/
theorem advance_send_bind (h : Handler ε A σ) (m : M) (f : A m → Prog ε A α) (s : σ) :
    (send m >>= f).advance h s =
      (match (h m s).1 with
        | .ok a => f a
        | .error e => .raise e, (h m s).2) := by
  show ((match (h m s).1 with
    | .ok a => Prog.ret a
    | .error e => .raise e).bind f, (h m s).2) = _
  cases (h m s).1 <;> rfl

/-- Likewise where the exceptions of the message are handed over as values. -/
theorem advance_attempt_bind (h : Handler ε A σ) (m : M) (f : Except ε (A m) → Prog ε A α) (s : σ) :
    ((send m).attempt >>= f).advance h s = (f (h m s).1, (h m s).2) := by
  show ((match (h m s).1 with
    | .ok a => Prog.ret a
    | .error e => .raise e).attempt.bind f, (h m s).2) = _
  cases (h m s).1 <;> rfl

/-- A function on the returned value does not change what a step sends. -/
theorem advance_map {β : Type} (h : Handler ε A σ) (g : α → β) (p : Prog ε A α) (s : σ) :
    (g <$> p).advance h s = (g <$> (p.advance h s).1, (p.advance h s).2) := by
  cases p <;> rfl

/-- Catching exceptions does not change what a step sends. -/
theorem advance_attempt (h : Handler ε A σ) (p : Prog ε A α) (s : σ) :
    p.attempt.advance h s = ((p.advance h s).1.attempt, (p.advance h s).2) := by
  cases p <;> rfl

/-- Replacing exceptions does not change what a step sends. -/
theorem advance_translate (h : Handler ε A σ) (f : ε → ε) (p : Prog ε A α) (s : σ) :
    (p.translate f).advance h s = ((p.advance h s).1.translate f, (p.advance h s).2) := by
  cases p <;> rfl

/-- The first part of a sequence moves until it ends. -/
theorem advance_bind {β : Type} (h : Handler ε A σ) {p : Prog ε A α} (running : ¬ p.Ended)
    (f : α → Prog ε A β) (s : σ) :
    (p >>= f).advance h s = ((p.advance h s).1 >>= f, (p.advance h s).2) := by
  cases p with
  | call m k => rfl
  | ret a => exact absurd rfl running
  | raise e => exact absurd rfl running

/-- A program that sends only such messages goes on sending such messages, and its next one is one. -/
theorem Sends.advance {P : M → Prop} {p : Prog ε A α} (hp : p.Sends P) (h : Handler ε A σ) (s : σ) :
    (p.advance h s).1.Sends P ∧
      ((p.advance h s).2 = s ∨ ∃ m, P m ∧ (p.advance h s).2 = (h m s).2) := by
  cases p with
  | call m k => exact ⟨hp.2 _, Or.inr ⟨m, hp.1, rfl⟩⟩
  | _ => exact ⟨trivial, Or.inl rfl⟩

/-- The program ends within this many messages, whatever their answers. -/
def Within : Prog ε A α → Nat → Prop
  | .ret _, _ => True
  | .raise _, _ => True
  | .call _ _, 0 => False
  | .call _ k, n + 1 => ∀ r, (k r).Within n

/-- What has no step left has ended. -/
theorem Within.ended {p : Prog ε A α} (h : p.Within 0) : p.Ended := by
  cases p with
  | ret a => rfl
  | raise e => rfl
  | call m k => exact absurd h id

/-- A step uses up one of the messages that a program has left. -/
theorem Within.advance {n : Nat} {p : Prog ε A α} (h : p.Within n) (handler : Handler ε A σ) (s : σ) :
    (p.advance handler s).1.Within (n - 1) := by
  cases p with
  | call m k =>
    cases n with
    | zero => exact absurd h id
    | succ n => exact h _
  | _ => trivial

/-- A message, and what its answer leads to. -/
theorem Within.send_bind {n : Nat} (m : M) {f : A m → Prog ε A α} (h : ∀ a, (f a).Within n) :
    (send m >>= f).Within (n + 1) := by
  intro r
  cases r with
  | ok a => exact h a
  | error e => trivial

/-- One message, and then a program on its answer, whatever the answer. -/
theorem Within.attempt_bind {n : Nat} (m : M) {f : Except ε (A m) → Prog ε A α}
    (h : ∀ r, (f r).Within n) : ((send m).attempt >>= f).Within (n + 1) := by
  intro r
  cases r with
  | ok a => exact h (.ok a)
  | error e => exact h (.error e)

/-- Whatever the answers, the program returns such a value, where it returns. -/
def Returns (P : α → Prop) : Prog ε A α → Prop
  | .ret a => P a
  | .raise _ => True
  | .call _ k => ∀ r, (k r).Returns P

/-- A step keeps what holds of every value a program can return, for its values are among those of the
program before. -/
theorem Returns.advance {P : α → Prop} {p : Prog ε A α} (h : p.Returns P) (handler : Handler ε A σ)
    (s : σ) : (p.advance handler s).1.Returns P := by
  cases p with
  | call m k => exact h _
  | ret a => exact h
  | raise e => exact h

theorem Returns.mono {P Q : α → Prop} {p : Prog ε A α} (h : p.Returns P) (le : ∀ a, P a → Q a) :
    p.Returns Q := by
  induction p with
  | ret a => exact le a h
  | raise e => trivial
  | call m k ih => exact fun r => ih r (h r)

/-- A sequence returns what its second part returns, on what the first may return. -/
theorem Returns.bind {β : Type} {P : α → Prop} {Q : β → Prop} {p : Prog ε A α} {f : α → Prog ε A β}
    (hp : p.Returns P) (hf : ∀ a, P a → (f a).Returns Q) : (p >>= f).Returns Q := by
  induction p with
  | ret a => exact hf a hp
  | raise e => trivial
  | call m k ih => exact fun r => ih r (hp r)

theorem Returns.translate {P : α → Prop} {p : Prog ε A α} (h : p.Returns P) (f : ε → ε) :
    (p.translate f).Returns P := by
  induction p with
  | ret a => exact h
  | raise e => trivial
  | call m k ih => exact fun r => ih r (h r)

theorem returns_true (p : Prog ε A α) : p.Returns fun _ => True := by
  induction p with
  | ret a => trivial
  | raise e => trivial
  | call m k ih => exact ih

end Prog

/-- Programs over one state. -/
structure Pool (ε : Type) {M : Type} (A : M → Type) (α σ : Type) where
  state : σ
  threads : List (Prog ε A α)

namespace Pool

/-- The message that the `i`-th program sends next. -/
def message? (pool : Pool ε A α σ) (i : Nat) : Option M := pool.threads[i]?.bind Prog.next?

/-- A thread that does not exist has nothing to send. -/
theorem message?_of_none {pool : Pool ε A α σ} {i : Nat} (absent : pool.threads[i]? = none) :
    pool.message? i = none := by
  rw [message?, absent, Option.bind_none]

/-- What a thread sends next is what its program sends next. -/
theorem message?_of_some {pool : Pool ε A α σ} {i : Nat} {p : Prog ε A α}
    (present : pool.threads[i]? = some p) : pool.message? i = p.next? := by
  rw [message?, present, Option.bind_some]

variable (h : Handler ε A σ)

/-- Let the `i`-th program send its next message. -/
def step (i : Nat) (pool : Pool ε A α σ) : Unit × Pool ε A α σ :=
  match pool.threads[i]? with
  | none => ((), pool)
  | some p =>
    ((), ⟨(p.advance h pool.state).2, pool.threads.set i (p.advance h pool.state).1⟩)

/-- Scheduling a thread that does not exist changes nothing. -/
theorem step_of_none {i : Nat} {pool : Pool ε A α σ} (absent : pool.threads[i]? = none) :
    (step h i pool).2 = pool := by
  simp only [step, absent]

/-- The program moves on with the state, and the others stay as they are. -/
theorem step_of_some {i : Nat} {pool : Pool ε A α σ} {p q : Prog ε A α} {s : σ}
    (present : pool.threads[i]? = some p) (advanced : p.advance h pool.state = (q, s)) :
    (step h i pool).2.state = s ∧ (step h i pool).2.threads[i]? = some q ∧
      ∀ j, j ≠ i → (step h i pool).2.threads[j]? = pool.threads[j]? := by
  have hi : i < pool.threads.length := (List.getElem?_eq_some_iff.mp present).1
  simp only [step, present, advanced]
  refine ⟨trivial, List.getElem?_set_self hi, fun j hj => ?_⟩
  exact List.getElem?_set_ne (Ne.symm hj)

/-- Where there is no such program, or it has ended, nothing moves. -/
theorem step_of_idle {i : Nat} {pool : Pool ε A α σ} (idle : pool.message? i = none) :
    (step h i pool).2 = pool := by
  cases hi : pool.threads[i]? with
  | none => exact step_of_none h hi
  | some p =>
    obtain ⟨hlt, hp⟩ := List.getElem?_eq_some_iff.mp hi
    have hstays : p.advance h pool.state = (p, pool.state) := by
      rw [message?_of_some hi] at idle
      cases p with
      | call m k => cases idle
      | _ => rfl
    simp only [step, hi, hstays]
    subst hp
    rw [List.set_getElem_self]

/-- A step moves no program but the one it names. -/
theorem step_others {i j : Nat} (hj : j ≠ i) (pool : Pool ε A α σ) :
    (step h i pool).2.threads[j]? = pool.threads[j]? := by
  cases hi : pool.threads[i]? with
  | none => rw [step_of_none h hi]
  | some p => exact (step_of_some h hi rfl).2.2 j hj

/-- What a program returns, it still returns after a step of the pool. -/
theorem step_returns {P : α → Prop} {i j : Nat} {pool : Pool ε A α σ} {p : Prog ε A α}
    (present : pool.threads[j]? = some p) (returns : p.Returns P) :
    ∃ q, (step h i pool).2.threads[j]? = some q ∧ q.Returns P := by
  by_cases hj : j = i
  · subst hj
    exact ⟨_, (step_of_some h present rfl).2.1, returns.advance h pool.state⟩
  · exact ⟨p, (step_others h hj pool).trans present, returns⟩

/-- What every message does to the state, a step of the pool does: a step is one message of one
program, or nothing. -/
theorem step_related {R : σ → σ → Prop} (refl : ∀ s, R s s) (answered : ∀ m s, R s (h m s).2) (i : Nat)
    (pool : Pool ε A α σ) : R pool.state (step h i pool).2.state := by
  cases hi : pool.threads[i]? with
  | none =>
    rw [step_of_none h hi]
    exact refl pool.state
  | some p =>
    rw [(step_of_some h hi rfl).1]
    cases p with
    | call m k => exact answered m pool.state
    | _ => exact refl pool.state

/-- A program stays in its place, and comes closer to its end each time the schedule names it, so a
schedule that names it often enough ends it. -/
theorem final_within {n i : Nat} (schedule : List Nat) {pool : Pool ε A α σ} {p : Prog ε A α}
    (present : pool.threads[i]? = some p) (within : p.Within n) :
    ∃ q, (final (step h) pool schedule).threads[i]? = some q ∧
      q.Within (n - schedule.count i) := by
  induction schedule generalizing n pool p with
  | nil => exact ⟨p, present, within⟩
  | cons j schedule ih =>
    cases hj : pool.threads[j]? with
    | none =>
      have hne : j ≠ i := fun he => by
        rw [he, present] at hj
        cases hj
      rw [List.count_cons_of_ne hne]
      refine ih ?_ within
      rw [step_of_none h hj]
      exact present
    | some q =>
      obtain ⟨-, hself, hothers⟩ := step_of_some h hj rfl
      by_cases he : i = j
      · subst he
        cases present.symm.trans hj
        rw [List.count_cons_self, Nat.add_comm, ← Nat.sub_sub]
        exact ih hself (within.advance h pool.state)
      · rw [List.count_cons_of_ne fun h => he h.symm]
        exact ih ((hothers i he).trans present) within

/-- **Termination**: a schedule that names a program as often as it can send messages ends it. -/
theorem final_ended {n i : Nat} {schedule : List Nat} {pool : Pool ε A α σ} {p : Prog ε A α}
    (present : pool.threads[i]? = some p) (within : p.Within n) (often : n ≤ schedule.count i) :
    ∃ q, (final (step h) pool schedule).threads[i]? = some q ∧ q.Ended := by
  obtain ⟨q, hq, hwithin⟩ := final_within h schedule present within
  rw [Nat.sub_eq_zero_of_le often] at hwithin
  exact ⟨q, hq, hwithin.ended⟩

end Pool

end Library
