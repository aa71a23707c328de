import Mathlib.Logic.Function.Basic
import MpesaMcp.Library.Interleave

/-!
# Programs that keep to a protocol

A protocol has stages. In each stage it says which messages a program may send, to which stages the
answers lead, and whether the program may raise; answers that lead nowhere are assumed away. `Follows`
says that a program keeps to the protocol from a stage on and ends in a stage that fits what it returns.
The rules for `>>=`, `<$>`, `send` and `attempt` follow the program's structure.

`Follows.run` is the rule for one run: an invariant over the stage and the state that survives every
message that the protocol allows holds at the end. `Pool.follows_final` is the rule for programs side by
side: where an invariant over the state and the stages of all programs survives every message that a
protocol allows, it holds after every schedule, and every program is where its stage says.
-/

set_option autoImplicit false

namespace Library

/-- The messages each stage allows, and the stages their answers lead to. -/
structure Protocol (ε : Type) {M : Type} (A : M → Type) (S : Type) where
  allows : S → M → Prop
  moves : S → (m : M) → Except ε (A m) → S → Prop
  raises : S → ε → Prop

namespace Prog

variable {ε M : Type} {A : M → Type} {α β σ S : Type}

/-- The program keeps to the protocol from a stage on, and what it returns fits the stage it ends in. -/
def Follows (protocol : Protocol ε A S) (Q : S → α → Prop) : Prog ε A α → S → Prop
  | .ret a, s => Q s a
  | .raise e, s => protocol.raises s e
  | .call m k, s =>
    protocol.allows s m ∧ ∀ r s', protocol.moves s m r s' → (k r).Follows protocol Q s'

section Follows

variable {protocol : Protocol ε A S} {Q : S → α → Prop} {s : S}

theorem follows_pure {a : α} (h : Q s a) : (pure a : Prog ε A α).Follows protocol Q s := h

theorem follows_send {m : M} {Q : S → A m → Prop} (allowed : protocol.allows s m)
    (raised : ∀ e s', protocol.moves s m (.error e) s' → protocol.raises s' e)
    (h : ∀ a s', protocol.moves s m (.ok a) s' → Q s' a) : (send m).Follows protocol Q s := by
  refine ⟨allowed, fun r s' hmove => ?_⟩
  cases r with
  | ok a => exact h a s' hmove
  | error e => exact raised e s' hmove

theorem follows_attempt {m : M} {Q : S → Except ε (A m) → Prop} (allowed : protocol.allows s m)
    (h : ∀ r s', protocol.moves s m r s' → Q s' r) : (send m).attempt.Follows protocol Q s := by
  refine ⟨allowed, fun r s' hmove => ?_⟩
  cases r with
  | ok a => exact h (.ok a) s' hmove
  | error e => exact h (.error e) s' hmove

theorem Follows.mono {Q' : S → α → Prop} {p : Prog ε A α} (hp : p.Follows protocol Q s)
    (h : ∀ s a, Q s a → Q' s a) : p.Follows protocol Q' s := by
  induction p generalizing s with
  | ret a => exact h s a hp
  | raise e => exact hp
  | call m k ih => exact ⟨hp.1, fun r s' hmove => ih r (hp.2 r s' hmove)⟩

/-- The second part of a sequence goes on from the stage in which the first one ends. -/
theorem Follows.bind {Q' : S → β → Prop} {p : Prog ε A α} {f : α → Prog ε A β}
    (hp : p.Follows protocol Q s) (hf : ∀ s a, Q s a → (f a).Follows protocol Q' s) :
    (p >>= f).Follows protocol Q' s := by
  show (p.bind f).Follows protocol Q' s
  induction p generalizing s with
  | ret a => exact hf s a hp
  | raise e => exact hp
  | call m k ih => exact ⟨hp.1, fun r s' hmove => ih r (hp.2 r s' hmove)⟩

theorem Follows.map {Q' : S → β → Prop} {p : Prog ε A α} {g : α → β}
    (hp : p.Follows protocol Q s) (hg : ∀ s a, Q s a → Q' s (g a)) :
    (g <$> p).Follows protocol Q' s :=
  hp.bind hg

/-- An exception that is handed over as a value. -/
theorem Follows.attempt {Q' : S → Except ε α → Prop} {p : Prog ε A α} (hp : p.Follows protocol Q s)
    (ok : ∀ s a, Q s a → Q' s (.ok a)) (error : ∀ s e, protocol.raises s e → Q' s (.error e)) :
    p.attempt.Follows protocol Q' s := by
  induction p generalizing s with
  | ret a => exact ok s a hp
  | raise e => exact error s e hp
  | call m k ih => exact ⟨hp.1, fun r s' hmove => ih r (hp.2 r s' hmove)⟩

/-- Messages that a stage allows and that lead back to it. -/
theorem Sends.follows {P : M → Prop} {p : Prog ε A α} (hp : p.Sends P)
    (raised : ∀ e, protocol.raises s e) (allowed : ∀ m, P m → protocol.allows s m)
    (stays : ∀ m r s', P m → protocol.moves s m r s' → s' = s) :
    p.Follows protocol (fun s' _ => s' = s) s := by
  induction p with
  | ret a => rfl
  | raise e => exact raised e
  | call m k ih =>
    refine ⟨allowed m hp.1, fun r s' hmove => ?_⟩
    rw [stays m r s' hp.1 hmove]
    exact ih r (hp.2 r)

/-- **One run**: an invariant over the stage and the state that survives every allowed message holds
when the program returns or raises, at a stage that the protocol names. -/
theorem Follows.run {h : Handler ε A σ} {I : S → σ → Prop}
    (keep : ∀ s m w, protocol.allows s m → I s w →
      ∃ s', protocol.moves s m (h m w).1 s' ∧ I s' (h m w).2)
    {p : Prog ε A α} (hp : p.Follows protocol Q s) {w : σ} (holds : I s w) :
    ∃ s', I s' (Prog.run h p w).2 ∧ (∀ a, (Prog.run h p w).1 = .ok a → Q s' a) ∧
      ∀ e, (Prog.run h p w).1 = .error e → protocol.raises s' e := by
  induction p generalizing s w with
  | ret a =>
    refine ⟨s, holds, ?_, ?_⟩
    · rintro b ⟨⟩
      exact hp
    · rintro e ⟨⟩
  | raise e =>
    refine ⟨s, holds, ?_, ?_⟩
    · rintro b ⟨⟩
    · rintro e' ⟨⟩
      exact hp
  | call m k ih =>
    obtain ⟨s', hmove, hholds⟩ := keep s m w hp.1 holds
    exact ih _ (hp.2 _ s' hmove) hholds

end Follows

end Prog

namespace Pool

variable {ε M : Type} {A : M → Type} {α σ S : Type} {h : Handler ε A σ}
  {protocol : Nat → Protocol ε A S} {Q : Nat → S → α → Prop}

/-- Every program of the pool keeps to its protocol from its stage on. -/
def Follow (protocol : Nat → Protocol ε A S) (Q : Nat → S → α → Prop) (pool : Pool ε A α σ)
    (stages : Nat → S) : Prop :=
  ∀ (i : Nat) (p : Prog ε A α), pool.threads[i]? = some p → p.Follows (protocol i) (Q i) (stages i)

/-- A message takes its program to the next stage, and leaves the others where they are; so programs
that follow one protocol each can be interleaved. -/
theorem Follow.step {pool : Pool ε A α σ} {stages : Nat → S} (follow : Follow protocol Q pool stages)
    {i : Nat} {m : M} (asks : pool.message? i = some m) :
    (protocol i).allows (stages i) m ∧
      (Pool.step h i pool).2.state = (h m pool.state).2 ∧
      ∀ s, (protocol i).moves (stages i) m (h m pool.state).1 s →
        Follow protocol Q (Pool.step h i pool).2 (Function.update stages i s) := by
  obtain ⟨p, hi, hnext⟩ := Option.bind_eq_some_iff.mp asks
  cases p with
  | ret a => cases hnext
  | raise e => cases hnext
  | call m' k =>
    cases hnext
    obtain ⟨hstate, hself, hothers⟩ := step_of_some h hi rfl
    obtain ⟨hallowed, hmoves⟩ := follow i _ hi
    refine ⟨hallowed, hstate, fun s hmove j q hj => ?_⟩
    by_cases hij : j = i
    · subst hij
      cases hself.symm.trans hj
      rw [Function.update_self]
      exact hmoves _ s hmove
    · rw [Function.update_of_ne hij]
      exact follow j q ((hothers j hij).symm.trans hj)

/-- **Programs side by side**: an invariant over the state and the stages that survives every allowed
message survives every schedule all of whose steps satisfy `C`. -/
theorem follows_final {C : Step (Pool ε A α σ) Nat Unit → Prop} {I : σ → (Nat → S) → Prop}
    (keep : ∀ pool i m stages, C (stepAt (step h) pool i) → pool.message? i = some m →
      I pool.state stages → (protocol i).allows (stages i) m →
      ∃ s, (protocol i).moves (stages i) m (h m pool.state).1 s ∧
        I (h m pool.state).2 (Function.update stages i s))
    {pool : Pool ε A α σ} {stages : Nat → S} (init : I pool.state stages)
    (follow : Follow protocol Q pool stages) (schedule : List Nat) :
    (∀ st ∈ trace (step h) pool schedule, C st) →
      ∃ stages', I (final (step h) pool schedule).state stages' ∧
        Follow protocol Q (final (step h) pool schedule) stages' := by
  refine invariant_of (I := fun _ pool => ∃ stages, I pool.state stages ∧ Follow protocol Q pool stages)
    ⟨stages, init, follow⟩ (fun _ pool i hC => ?_) schedule
  rintro ⟨stages, hI, hfollow⟩
  cases hasks : pool.message? i with
  | none =>
    rw [step_of_idle h hasks]
    exact ⟨stages, hI, hfollow⟩
  | some m =>
    obtain ⟨hallowed, hstate, hnext⟩ := hfollow.step (h := h) hasks
    obtain ⟨s, hmove, hI'⟩ := keep pool i m stages hC hasks hI hallowed
    exact ⟨_, hstate ▸ hI', hnext s hmove⟩

end Pool

end Library
