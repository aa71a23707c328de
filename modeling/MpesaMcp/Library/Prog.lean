import Mathlib.Init

/-!
# Interaction programs

A `Prog ε A α` is a program that talks to its surroundings in messages: it returns a value, raises
an exception of type `ε`, or sends a message `m` and continues with the answer, which is a value of
type `A m` or an exception the surroundings raise. Programs are data: the same program is run to
its end against a handler (`run`), or taken one message at a time by a scheduler.

`run_bind`, `run_send` and `run_attempt` compute a run by the program's own structure. `Sends` says
which messages a program can ever send; `run_related` carries a reflexive and transitive relation that
those messages preserve through any run, `run_kept` what they all keep, and `run_simulates` compares two
runs of one program.
`Observes` says what is exchanged in one run, `count` how often, and `Raises` what a run can raise.
`inline` replaces the messages of a program by programs.
-/

set_option autoImplicit false

namespace Library

/-- A program that sends messages `m : M`, each answered in `A m` or by an exception. -/
inductive Prog (ε : Type) {M : Type} (A : M → Type) (α : Type) : Type
  | ret (a : α)
  | raise (e : ε)
  | call (m : M) (k : Except ε (A m) → Prog ε A α)

/-- What answers messages, over a state of its own. -/
abbrev Handler (ε : Type) {M : Type} (A : M → Type) (σ : Type) : Type :=
  (m : M) → σ → Except ε (A m) × σ

namespace Prog

variable {ε M : Type} {A : M → Type} {α β σ : Type}

/-- Run `f` on the value `p` returns; an exception ends both. -/
def bind : Prog ε A α → (α → Prog ε A β) → Prog ε A β
  | .ret a, f => f a
  | .raise e, _ => .raise e
  | .call m k, f => .call m fun r => (k r).bind f

instance : Monad (Prog ε A) where
  pure := .ret
  bind := bind

/-- Send one message; an exception in its answer is raised. -/
def send (m : M) : Prog ε A (A m) :=
  .call m fun
    | .ok a => .ret a
    | .error e => .raise e

/-- Run a program and hand over its exception as a value. -/
def attempt : Prog ε A α → Prog ε A (Except ε α)
  | .ret a => .ret (.ok a)
  | .raise e => .ret (.error e)
  | .call m k => .call m fun r => (k r).attempt

/-- Return a value or raise an exception. -/
protected def ofExcept : Except ε α → Prog ε A α
  | .ok a => .ret a
  | .error e => .raise e

/-- Run a program and replace the exception it raises. -/
def translate (f : ε → ε) : Prog ε A α → Prog ε A α
  | .ret a => .ret a
  | .raise e => .raise (f e)
  | .call m k => .call m fun r => (k r).translate f

/-- Run a program to its end. -/
def run (h : Handler ε A σ) : Prog ε A α → σ → Except ε α × σ
  | .ret a, s => (.ok a, s)
  | .raise e, s => (.error e, s)
  | .call m k, s => run h (k (h m s).1) (h m s).2

/-- Programs are put together in any order of brackets, as by induction on the first one. -/
theorem bind_assoc {γ : Type} (p : Prog ε A α) (f : α → Prog ε A β) (g : β → Prog ε A γ) :
    p >>= f >>= g = p >>= fun a => f a >>= g := by
  show (p.bind f).bind g = p.bind fun a => (f a).bind g
  induction p with
  | ret a => rfl
  | raise e => rfl
  | call m k ih => exact congrArg (Prog.call m) (funext ih)

/-- Raising the exception that was handed over is not to have caught it. -/
theorem attempt_bind_ofExcept (p : Prog ε A α) : p.attempt >>= Prog.ofExcept = p := by
  show p.attempt.bind Prog.ofExcept = p
  induction p with
  | ret a => rfl
  | raise e => rfl
  | call m k ih => exact congrArg (Prog.call m) (funext ih)

/-! ## Running a program by its structure -/

section Run

variable (h : Handler ε A σ)

/-- A program that returns leaves its surroundings alone. -/
@[simp] theorem run_pure (a : α) (s : σ) : run h (pure a : Prog ε A α) s = (.ok a, s) := rfl

/-- A program that raises leaves its surroundings alone. -/
@[simp] theorem run_raise (e : ε) (s : σ) : run h (.raise e : Prog ε A α) s = (.error e, s) := rfl

@[simp] theorem run_ofExcept (r : Except ε α) (s : σ) :
    run h (Prog.ofExcept r : Prog ε A α) s = (r, s) := by cases r <;> rfl

/-- A run of a sequence is a run of the first part and then, where it returned, of the second from the
state it left. An exception ends both. -/
@[simp] theorem run_bind (p : Prog ε A α) (f : α → Prog ε A β) (s : σ) :
    run h (p >>= f) s =
      match run h p s with
      | (.ok a, s') => run h (f a) s'
      | (.error e, s') => (.error e, s') := by
  show run h (p.bind f) s = _
  induction p generalizing s with
  | ret a => rfl
  | raise e => rfl
  | call m k ih => exact ih (h m s).1 (h m s).2

/-- A function on the returned value has no part in the run. -/
@[simp] theorem run_map (g : α → β) (p : Prog ε A α) (s : σ) :
    run h (g <$> p) s = ((run h p s).1.map g, (run h p s).2) := by
  show run h (p >>= fun a => pure (g a)) s = _
  rw [run_bind]
  rcases run h p s with ⟨_ | _, _⟩ <;> rfl

/-- A message is answered by the handler, and its exception is raised as it is. -/
@[simp] theorem run_send (m : M) (s : σ) :
    @run ε M A (no_index (A m)) σ h (send m) s = h m s := by
  show run h ((fun
    | .ok a => Prog.ret a
    | .error e => Prog.raise e) (h m s).1) (h m s).2 = h m s
  rcases h m s with ⟨_ | _, _⟩ <;> rfl

/-- An attempt cannot fail: what the program raised is the value it returns, and what it did stays
done. -/
@[simp] theorem run_attempt (p : Prog ε A α) (s : σ) :
    run h p.attempt s = (.ok (run h p s).1, (run h p s).2) := by
  induction p generalizing s with
  | ret a => rfl
  | raise e => rfl
  | call m k ih => exact ih (h m s).1 (h m s).2

/-- Replacing exceptions changes what is raised, never what was done. -/
@[simp] theorem run_translate (f : ε → ε) (p : Prog ε A α) (s : σ) :
    run h (p.translate f) s = ((run h p s).1.mapError f, (run h p s).2) := by
  induction p generalizing s with
  | ret a => rfl
  | raise e => rfl
  | call m k ih => exact ih (h m s).1 (h m s).2

end Run

/-! ## The messages a program can send -/

/-- Whatever the answers, every message the program sends satisfies `P`. -/
def Sends (P : M → Prop) : Prog ε A α → Prop
  | .ret _ => True
  | .raise _ => True
  | .call m k => P m ∧ ∀ r, (k r).Sends P

section Sends

variable {P Q : M → Prop}

@[simp] theorem sends_pure (a : α) : (pure a : Prog ε A α).Sends P := trivial

@[simp] theorem sends_raise (e : ε) : (.raise e : Prog ε A α).Sends P := trivial

/-- A message is all that it sends. -/
@[simp] theorem sends_send (m : M) : @Sends ε M A (no_index (A m)) P (send m) ↔ P m := by
  refine ⟨fun h => h.1, fun h => ⟨h, fun r => ?_⟩⟩
  cases r <;> trivial

/-- A sequence sends what its parts send. The second part must obey for every value, since the first
may return any. -/
theorem Sends.bind {p : Prog ε A α} {f : α → Prog ε A β} (hp : p.Sends P)
    (hf : ∀ a, (f a).Sends P) : (p >>= f).Sends P := by
  show (p.bind f).Sends P
  induction p with
  | ret a => exact hf a
  | raise e => trivial
  | call m k ih => exact ⟨hp.1, fun r => ih r (hp.2 r)⟩

theorem Sends.map {p : Prog ε A α} (hp : p.Sends P) (g : α → β) : (g <$> p).Sends P :=
  hp.bind fun _ => trivial

/-- Catching an exception sends nothing more. -/
theorem Sends.attempt {p : Prog ε A α} (hp : p.Sends P) : p.attempt.Sends P := by
  induction p with
  | ret a => trivial
  | raise e => trivial
  | call m k ih => exact ⟨hp.1, fun r => ih r (hp.2 r)⟩

theorem Sends.translate {p : Prog ε A α} (f : ε → ε) (hp : p.Sends P) : (p.translate f).Sends P := by
  induction p with
  | ret a => trivial
  | raise e => trivial
  | call m k ih => exact ⟨hp.1, fun r => ih r (hp.2 r)⟩

/-- A vocabulary may be read as a larger one. -/
theorem Sends.mono {p : Prog ε A α} (hp : p.Sends P) (h : ∀ m, P m → Q m) : p.Sends Q := by
  induction p with
  | ret a => trivial
  | raise e => trivial
  | call m k ih => exact ⟨h m hp.1, fun r => ih r (hp.2 r)⟩

/-- **The frame rule**: a reflexive and transitive relation that every message the program can send
preserves holds between the states before and after its run. -/
theorem run_related {h : Handler ε A σ} {R : σ → σ → Prop} (refl : ∀ s, R s s)
    (trans : ∀ s t u, R s t → R t u → R s u) (step : ∀ m, P m → ∀ s, R s (h m s).2)
    {p : Prog ε A α} (hp : p.Sends P) (s : σ) : R s (run h p s).2 := by
  induction p generalizing s with
  | ret a => exact refl s
  | raise e => exact refl s
  | call m k ih =>
    exact trans _ _ _ (step m hp.1 s) (ih (h m s).1 (hp.2 _) (h m s).2)

/-- **The invariant rule**: what every message the program can send keeps, its run keeps. -/
theorem run_kept {h : Handler ε A σ} {I : σ → Prop} (step : ∀ m, P m → ∀ s, I s → I (h m s).2)
    {p : Prog ε A α} (hp : p.Sends P) {s : σ} (hs : I s) : I (run h p s).2 := by
  refine run_related (R := fun s s' => I s → I s') ?_ ?_ step hp s hs
  · intro s hs
    exact hs
  · intro s t u hst htu hs
    exact htu (hst hs)

/-- Every program sends messages. -/
theorem sends_true (p : Prog ε A α) : p.Sends fun _ => True := by
  induction p with
  | ret a => trivial
  | raise e => trivial
  | call m k ih => exact ⟨trivial, ih⟩

/-- **The simulation rule**: where two handlers answer every message the program can send alike on
related states, and keep them related, two runs from related states return the same and end related. -/
theorem run_simulates {τ : Type} {h : Handler ε A σ} {h' : Handler ε A τ} {R : σ → τ → Prop}
    (step : ∀ m, P m → ∀ s t, R s t → (h m s).1 = (h' m t).1 ∧ R (h m s).2 (h' m t).2)
    {p : Prog ε A α} (hp : p.Sends P) {s : σ} {t : τ} (hst : R s t) :
    (run h p s).1 = (run h' p t).1 ∧ R (run h p s).2 (run h' p t).2 := by
  induction p generalizing s t with
  | ret a => exact ⟨rfl, hst⟩
  | raise e => exact ⟨rfl, hst⟩
  | call m k ih =>
    obtain ⟨hanswer, hnext⟩ := step m hp.1 s t hst
    simp only [run, hanswer]
    exact ih _ (hp.2 _) hnext

end Sends

/-! ## The exchanges of one run -/

/-- Every message of the run from this state satisfies `P`, together with its answer. -/
def Observes (h : Handler ε A σ) (P : (m : M) → Except ε (A m) → Prop) : Prog ε A α → σ → Prop
  | .ret _, _ => True
  | .raise _, _ => True
  | .call m k, s => P m (h m s).1 ∧ (k (h m s).1).Observes h P (h m s).2

section Observes

variable {h : Handler ε A σ} {P : (m : M) → Except ε (A m) → Prop}

@[simp] theorem observes_pure (a : α) (s : σ) : (pure a : Prog ε A α).Observes h P s := trivial

@[simp] theorem observes_raise (e : ε) (s : σ) : (.raise e : Prog ε A α).Observes h P s := trivial

/-- One message is one exchange, with the answer that the handler gives in this state. -/
@[simp] theorem observes_send (m : M) (s : σ) :
    @Observes ε M A (no_index (A m)) σ h P (send m) s ↔ P m (h m s).1 := by
  refine ⟨fun hobs => hobs.1, fun hP => ⟨hP, ?_⟩⟩
  cases (h m s).1 <;> trivial

/-- The exchanges of a sequence are those of its parts, the second from where the first left off; after
an exception there are none. -/
@[simp] theorem observes_bind (p : Prog ε A α) (f : α → Prog ε A β) (s : σ) :
    (p >>= f).Observes h P s ↔
      p.Observes h P s ∧ ∀ a, (run h p s).1 = .ok a → (f a).Observes h P (run h p s).2 := by
  show (p.bind f).Observes h P s ↔ _
  induction p generalizing s with
  | ret a => exact ⟨fun hf => ⟨trivial, fun b hb => by cases hb; exact hf⟩, fun hf => hf.2 a rfl⟩
  | raise e => exact ⟨fun _ => ⟨trivial, nofun⟩, fun _ => trivial⟩
  | call m k ih =>
    constructor
    · rintro ⟨hm, hk⟩
      exact ⟨⟨hm, ((ih _ _).mp hk).1⟩, ((ih _ _).mp hk).2⟩
    · rintro ⟨⟨hm, hk⟩, hf⟩
      exact ⟨hm, (ih _ _).mpr ⟨hk, hf⟩⟩

@[simp] theorem observes_map (g : α → β) (p : Prog ε A α) (s : σ) :
    (g <$> p).Observes h P s ↔ p.Observes h P s := by
  show (p >>= fun a => pure (g a)).Observes h P s ↔ _
  rw [observes_bind]
  exact ⟨fun hp => hp.1, fun hp => ⟨hp, fun _ _ => trivial⟩⟩

/-- Catching an exception changes no exchange. -/
@[simp] theorem observes_attempt (p : Prog ε A α) (s : σ) :
    p.attempt.Observes h P s ↔ p.Observes h P s := by
  induction p generalizing s with
  | ret a => exact Iff.rfl
  | raise e => exact Iff.rfl
  | call m k ih => exact and_congr_right fun _ => ih _ _

/-- What every run of the program sends, this one sends. -/
theorem Sends.observes {Q : M → Prop} {p : Prog ε A α} (hp : p.Sends Q)
    (h' : ∀ m r, Q m → P m r) (s : σ) : p.Observes h P s := by
  induction p generalizing s with
  | ret a => trivial
  | raise e => trivial
  | call m k ih => exact ⟨h' m _ hp.1, ih _ (hp.2 _) _⟩

/-- What holds of every exchange may be weakened for all of them at once. -/
theorem Observes.mono {Q : (m : M) → Except ε (A m) → Prop} {p : Prog ε A α} {s : σ}
    (hp : p.Observes h P s) (h' : ∀ m r, P m r → Q m r) : p.Observes h Q s := by
  induction p generalizing s with
  | ret a => trivial
  | raise e => trivial
  | call m k ih => exact ⟨h' m _ hp.1, ih _ hp.2⟩

/-- The frame rule for the messages of one run. -/
theorem Observes.related {Q : M → Prop} {R : σ → σ → Prop} (refl : ∀ s, R s s)
    (trans : ∀ s t u, R s t → R t u → R s u) (step : ∀ m, Q m → ∀ s, R s (h m s).2)
    {p : Prog ε A α} {s : σ} (hp : p.Observes h (fun m _ => Q m) s) : R s (run h p s).2 := by
  induction p generalizing s with
  | ret a => exact refl s
  | raise e => exact refl s
  | call m k ih => exact trans _ _ _ (step m hp.1 s) (ih _ hp.2)

end Observes

/-! ## Counting the messages of one run -/

/-- How many messages of the run from this state satisfy `P`. -/
def count (h : Handler ε A σ) (P : M → Bool) : Prog ε A α → σ → Nat
  | .ret _, _ => 0
  | .raise _, _ => 0
  | .call m k, s => (if P m then 1 else 0) + (k (h m s).1).count h P (h m s).2

section Count

variable {h : Handler ε A σ} {P : M → Bool}

@[simp] theorem count_pure (a : α) (s : σ) : (pure a : Prog ε A α).count h P s = 0 := rfl

@[simp] theorem count_raise (e : ε) (s : σ) : (.raise e : Prog ε A α).count h P s = 0 := rfl

@[simp] theorem count_ofExcept (r : Except ε α) (s : σ) :
    (Prog.ofExcept r : Prog ε A α).count h P s = 0 := by cases r <;> rfl

/-- A message counts once, where it is one of those counted. -/
@[simp] theorem count_send (m : M) (s : σ) :
    @count ε M A (no_index (A m)) σ h P (send m) s = if P m then 1 else 0 := by
  show (if P m then 1 else 0) + _ = if P m then 1 else 0
  rw [Nat.add_eq_left]
  cases (h m s).1 <;> rfl

/-- A sequence sends as often as its parts together; after an exception the second part sends nothing. -/
@[simp] theorem count_bind (p : Prog ε A α) (f : α → Prog ε A β) (s : σ) :
    (p >>= f).count h P s = p.count h P s +
      match run h p s with
      | (.ok a, s') => (f a).count h P s'
      | (.error _, _) => 0 := by
  show (p.bind f).count h P s = _
  induction p generalizing s with
  | ret a => exact (Nat.zero_add _).symm
  | raise e => rfl
  | call m k ih =>
    show _ + ((k (h m s).1).bind f).count h P (h m s).2 = _
    rw [ih, ← Nat.add_assoc]
    rfl

@[simp] theorem count_map (g : α → β) (p : Prog ε A α) (s : σ) :
    (g <$> p).count h P s = p.count h P s := by
  show (p >>= fun a => pure (g a)).count h P s = _
  rw [count_bind]
  rcases run h p s with ⟨_ | _, _⟩ <;> rfl

/-- Catching an exception does not undo what was sent before it. -/
@[simp] theorem count_attempt (p : Prog ε A α) (s : σ) :
    p.attempt.count h P s = p.count h P s := by
  induction p generalizing s with
  | ret a => rfl
  | raise e => rfl
  | call m k ih => exact congrArg _ (ih _ _)

/-- A program that never sends such a message sends none in a run. -/
theorem Sends.count_eq_zero {p : Prog ε A α} (hp : p.Sends fun m => P m = false) (s : σ) :
    p.count h P s = 0 := by
  induction p generalizing s with
  | ret a => rfl
  | raise e => rfl
  | call m k ih =>
    obtain ⟨hm, hk⟩ := hp
    simp [count, hm, ih _ (hk _)]

/-- Two programs after one another. -/
theorem count_bind_le {p : Prog ε A α} {f : α → Prog ε A β} {m n : Nat} {s : σ}
    (hp : p.count h P s ≤ m) (hf : ∀ a s', (f a).count h P s' ≤ n) :
    (p >>= f).count h P s ≤ m + n := by
  rw [count_bind]
  rcases run h p s with ⟨_ | a, s'⟩
  · exact Nat.le_add_right_of_le hp
  · exact Nat.add_le_add hp (hf a s')

/-- A program that sends no such message adds none before another. -/
theorem count_bind_le_of_sends {p : Prog ε A α} (hp : p.Sends fun m => P m = false)
    {f : α → Prog ε A β} {n : Nat} {s : σ} (hf : ∀ a s', (f a).count h P s' ≤ n) :
    (p >>= f).count h P s ≤ n := by
  have hle := count_bind_le (Nat.le_of_eq (hp.count_eq_zero (h := h) s)) hf
  omega

/-- A program that sends no such message adds none after another. -/
theorem count_bind_sends_le {p : Prog ε A α} {f : α → Prog ε A β} {n : Nat} {s : σ}
    (hp : p.count h P s ≤ n) (hf : ∀ a, (f a).Sends fun m => P m = false) :
    (p >>= f).count h P s ≤ n := by
  have hle := count_bind_le hp fun a s' => Nat.le_of_eq ((hf a).count_eq_zero (h := h) s')
  omega

end Count

/-! ## What a run can raise -/

/-- Whatever a run of the program raises satisfies `P`. -/
def Raises (h : Handler ε A σ) (P : ε → Prop) (p : Prog ε A α) : Prop :=
  ∀ s e, (run h p s).1 = .error e → P e

section Raises

variable {h : Handler ε A σ} {P : ε → Prop}

theorem raises_pure (a : α) : (pure a : Prog ε A α).Raises h P := nofun

theorem raises_raise {e : ε} (he : P e) : (.raise e : Prog ε A α).Raises h P :=
  fun _ _ h => by cases h; exact he

/-- A message raises what the handler answers it with. -/
theorem raises_send {m : M} (hm : ∀ s e, (h m s).1 = .error e → P e) :
    @Raises ε M A (A m) σ h P (send m) := by
  intro s e he
  rw [run_send] at he
  exact hm s e he

/-- A sequence raises what one of its parts raises. -/
theorem Raises.bind {p : Prog ε A α} {f : α → Prog ε A β} (hp : p.Raises h P)
    (hf : ∀ a, (f a).Raises h P) : (p >>= f).Raises h P := by
  intro s e he
  rw [run_bind] at he
  cases hrun : run h p s with
  | mk r s' =>
  rw [hrun] at he
  cases r with
  | ok a => exact hf a s' e he
  | error e' =>
    cases he
    exact hp s e (congrArg Prod.fst hrun)

/-- What follows an attempt sees only exceptions that the attempt can raise. -/
theorem Raises.attempt_bind {p : Prog ε A α} {f : Except ε α → Prog ε A β} (hp : p.Raises h P)
    (hok : ∀ a, (f (.ok a)).Raises h P) (herror : ∀ e, P e → (f (.error e)).Raises h P) :
    (p.attempt >>= f).Raises h P := by
  intro s e he
  rw [run_bind, run_attempt] at he
  cases hrun : run h p s with
  | mk r s' =>
  rw [hrun] at he
  cases r with
  | ok a => exact hok a s' e he
  | error e' => exact herror e' (hp s e' (congrArg Prod.fst hrun)) s' e he

end Raises

/-! ## Programs over the messages of another -/

section Inline

variable {N : Type} {B : N → Type}

/-- Replace every message by a program that answers it. -/
def inline (f : (m : M) → Prog ε B (A m)) : Prog ε A α → Prog ε B α
  | .ret a => .ret a
  | .raise e => .raise e
  | .call m k => (f m).attempt >>= fun r => (k r).inline f

variable (f : (m : M) → Prog ε B (A m))

@[simp] theorem inline_pure (a : α) : (pure a : Prog ε A α).inline f = pure a := rfl

@[simp] theorem inline_raise (e : ε) : (.raise e : Prog ε A α).inline f = .raise e := rfl

@[simp] theorem inline_ofExcept (r : Except ε α) :
    (Prog.ofExcept r : Prog ε A α).inline f = .ofExcept r := by cases r <;> rfl

/-- Replacing messages goes through a sequence part by part, by induction on the first. -/
@[simp] theorem inline_bind (p : Prog ε A α) (g : α → Prog ε A β) :
    (p >>= g).inline f = p.inline f >>= fun a => (g a).inline f := by
  show (p.bind g).inline f = _
  induction p with
  | ret a => rfl
  | raise e => rfl
  | call m k ih =>
    show ((f m).attempt >>= fun r => ((k r).bind g).inline f) = _
    simp only [ih]
    exact (bind_assoc _ _ _).symm

/-- A message becomes the program it stands for. -/
@[simp] theorem inline_send (m : M) :
    @inline ε M A (no_index (A m)) N B f (send m) = f m := by
  show ((f m).attempt.bind fun r => inline f _) = f m
  induction f m with
  | ret a => rfl
  | raise e => rfl
  | call n k ih => exact congrArg (Prog.call n) (funext ih)

/-- Replacing messages goes through an attempt: an exception of the replacement is caught where that of
the message was. -/
@[simp] theorem inline_attempt (p : Prog ε A α) : p.attempt.inline f = (p.inline f).attempt := by
  induction p with
  | ret a => rfl
  | raise e => rfl
  | call m k ih =>
    show ((f m).attempt.bind fun r => ((k r).attempt).inline f) =
      ((f m).attempt.bind fun r => (k r).inline f).attempt
    simp only [ih]
    -- `attempt` leaves no exception to raise
    induction f m with
    | ret r => rfl
    | raise e => rfl
    | call n j jh => exact congrArg (Prog.call n) (funext jh)

end Inline

end Prog

end Library
