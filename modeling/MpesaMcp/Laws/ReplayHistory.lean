import MpesaMcp.App.CallbackServices
import MpesaMcp.Laws.Deliveries

/-!
# Replay protection over whole runs

A replay protection is a set-if-absent with expiry (`SetsIfAbsent`): a call is denied exactly while its
key is taken, and an allowed call takes its key until the end of its window. What else a store forgets
or keeps makes no difference; in particular the in-memory store may prune its expired entries or not, and
Redis may drop its own whenever it likes.

`allowed_iff` reads the decision of a call off the history of its run, and `decisions_agree` compares the
runs of two protections.
-/

set_option autoImplicit false

namespace MpesaMcp

open Library

/-- A call of a replay protection, and what its clock reads. -/
structure ReplayCall where
  now : ℚ
  key : String
  windowSeconds : Int

/-- One call. -/
def replayStep {ρ : Type} (protection : ReplayProtection ρ) (env : Env) (call : ReplayCall)
    (s : Ambient × ρ) : Except Exn ReplayDecision × Ambient × ρ :=
  protection.checkAndStore (env.atMonotonic call.now) call.key call.windowSeconds s

/-- A step of a replay protection. -/
abbrev ReplayStep (ρ : Type) := Step (Ambient × ρ) ReplayCall (Except Exn ReplayDecision)

/-- The step allowed its call. -/
def ReplayStep.Allows {ρ : Type} (st : ReplayStep ρ) : Prop :=
  ∃ decision, st.output = .ok decision ∧ decision.allowed = true

/-- The window of the call lasts beyond this time. -/
def ReplayCall.Lasts (call : ReplayCall) (now : ℚ) : Prop := now < call.now + call.windowSeconds

/-! ## Set-if-absent with expiry -/

/-- What one call of a replay protection does, under a window of at least a second. -/
structure SetsIfAbsent (protection : ReplayProtection ReplayStore) : Prop where
  denies : ∀ (env : Env) (key : String) (windowSeconds : Int) (a : Ambient) (store : ReplayStore),
    1 ≤ windowSeconds → ReplayStore.Live store key (a.monotonic env).1 →
    protection.checkAndStore env key windowSeconds (a, store) =
      (.ok ⟨false, key, "Duplicate callback replay detected."⟩, (a.monotonic env).2, store)
  allows : ∀ (env : Env) (key : String) (windowSeconds : Int) (a : Ambient) (store : ReplayStore),
    1 ≤ windowSeconds → ¬ ReplayStore.Live store key (a.monotonic env).1 →
    ∃ store', protection.checkAndStore env key windowSeconds (a, store) =
        (.ok ⟨true, key, "Callback replay key accepted."⟩, (a.monotonic env).2, store') ∧
      ∀ key' now, (a.monotonic env).1 ≤ now → (ReplayStore.Live store' key' now ↔
        if key' = key then now < (a.monotonic env).1 + windowSeconds
        else ReplayStore.Live store key' now)

theorem live_put (store : ReplayStore) (key : String) (expiresAt : ℚ) (key' : String) (now : ℚ) :
    ReplayStore.Live (store.put (key, expiresAt)) key' now ↔
      if key' = key then now < expiresAt else ReplayStore.Live store key' now := by
  unfold ReplayStore.Live
  rw [Keyed.get_put]
  split
  · simp
  · exact Iff.rfl

/-- Pruning takes no key that is still taken. -/
theorem live_pruneExpired {store : ReplayStore} {pruned now : ℚ} (later : pruned ≤ now) (key : String) :
    ReplayStore.Live (InMemoryReplayProtection.pruneExpired pruned store) key now ↔
      ReplayStore.Live store key now := by
  constructor
  · rintro ⟨entry, hget, hnow⟩
    exact ⟨entry, (Keyed.get_filter.mp hget).1, hnow⟩
  · rintro ⟨entry, hget, hnow⟩
    exact ⟨entry, Keyed.get_filter.mpr ⟨hget, decide_eq_true (lt_of_le_of_lt later hnow)⟩, hnow⟩

/-- A key that is free has no entry, or one that is over. -/
theorem lookup_of_free {store : ReplayStore} {key : String} {now : ℚ}
    (free : ¬ ReplayStore.Live store key now) :
    store.get key = none ∨ ∃ entry, store.get key = some entry ∧ decide (now < entry.2) = false := by
  cases hget : store.get key with
  | none => exact Or.inl rfl
  | some entry => exact Or.inr ⟨entry, rfl, decide_eq_false fun hnow => free ⟨entry, hget, hnow⟩⟩

/-- The in-memory protection without `_prune_expired`. -/
def UnprunedReplayProtection : ReplayProtection ReplayStore where
  checkAndStore env key windowSeconds s :=
    let (now, a) := s.1.monotonic env
    if (match s.2.get key with
        | some entry => decide (now < entry.2)
        | none => false) then
      (.ok ⟨false, key, "Duplicate callback replay detected."⟩, a, s.2)
    else
      (.ok ⟨true, key, "Callback replay key accepted."⟩, a, s.2.put (key, now + windowSeconds))
  forward env key windowSeconds a store := by
    dsimp only
    split <;> exact a.forward_monotonic env

theorem InMemoryReplayProtection.setsIfAbsent : SetsIfAbsent InMemoryReplayProtection where
  denies env key windowSeconds a store _ live := by
    obtain ⟨entry, hget, hnow⟩ := live
    simp only [MpesaMcp.InMemoryReplayProtection, checkAndStore, hget, decide_eq_true hnow]
    rfl
  allows env key windowSeconds a store _ free := by
    refine ⟨_, ?_, fun key' now later => (live_pruneExpired later key').trans (live_put ..)⟩
    rcases lookup_of_free free with hget | ⟨entry, hget, hover⟩
    · simp only [MpesaMcp.InMemoryReplayProtection, checkAndStore, hget]
      rfl
    · simp only [MpesaMcp.InMemoryReplayProtection, checkAndStore, hget, hover]
      rfl

theorem UnprunedReplayProtection.setsIfAbsent : SetsIfAbsent UnprunedReplayProtection where
  denies env key windowSeconds a store _ live := by
    obtain ⟨entry, hget, hnow⟩ := live
    simp only [UnprunedReplayProtection, hget, decide_eq_true hnow]
    rfl
  allows env key windowSeconds a store _ free := by
    refine ⟨_, ?_, fun key' now _ => live_put ..⟩
    rcases lookup_of_free free with hget | ⟨entry, hget, hover⟩
    · simp only [UnprunedReplayProtection, hget]
      rfl
    · simp only [UnprunedReplayProtection, hget, hover]
      rfl

/-- Redis sets a key that it does not hold, where every command is answered. -/
theorem RedisReplayProtection.setsIfAbsent :
    SetsIfAbsent (RedisReplayProtection fun _ => .answered) where
  denies env key windowSeconds a store positive live := by
    obtain ⟨entry, hget, hnow⟩ := live
    have hexpires : ¬ windowSeconds ≤ 0 := by omega
    simp only [MpesaMcp.RedisReplayProtection, checkAndStore, setIfAbsent, hget,
      decide_eq_true hnow, if_neg hexpires]
    rfl
  allows env key windowSeconds a store positive free := by
    have hexpires : ¬ windowSeconds ≤ 0 := by omega
    refine ⟨_, ?_, fun key' now _ => live_put ..⟩
    rcases lookup_of_free free with hget | ⟨entry, hget, hover⟩
    · simp only [MpesaMcp.RedisReplayProtection, checkAndStore, setIfAbsent, hget, if_neg hexpires]
      rfl
    · simp only [MpesaMcp.RedisReplayProtection, checkAndStore, setIfAbsent, hget, hover,
        if_neg hexpires]
      rfl

/-! ## Runs -/

section Runs

variable {protection : ReplayProtection ReplayStore} {env : Env}

/-- The calls of a run come at nondecreasing times, under windows of at least a second. -/
def Timely (calls : List ReplayCall) : Prop :=
  (calls.Pairwise fun c d => c.now ≤ d.now) ∧ ∀ call ∈ calls, 1 ≤ call.windowSeconds

/-- A store remembers a history: at any time that is not before it, a key is taken exactly while the
window of one of its allowed calls lasts. -/
def Remembers (history : List (ReplayStep ReplayStore)) (store : ReplayStore) : Prop :=
  ∀ key now, (∀ st ∈ history, st.input.now ≤ now) →
    (ReplayStore.Live store key now ↔
      ∃ st ∈ history, st.Allows ∧ st.input.key = key ∧ st.input.Lasts now)

/-- A call is allowed exactly where its key is free. -/
theorem SetsIfAbsent.allows_iff (sets : SetsIfAbsent protection) {call : ReplayCall}
    (positive : 1 ≤ call.windowSeconds) (s : Ambient × ReplayStore) :
    ReplayStep.Allows (stepAt (replayStep protection env) s call) ↔
      ¬ ReplayStore.Live s.2 call.key call.now := by
  obtain ⟨a, store⟩ := s
  unfold ReplayStep.Allows stepAt replayStep
  by_cases hlive : ReplayStore.Live store call.key call.now
  · have hdenies := sets.denies (env.atMonotonic call.now) call.key call.windowSeconds a store positive
      hlive
    simp [hdenies, hlive]
  · obtain ⟨store', hallows, -⟩ := sets.allows (env.atMonotonic call.now) call.key call.windowSeconds a
      store positive hlive
    simp [hallows, hlive]

/-- Which keys are taken after a call: those that were, and its own where the call is allowed. Both
protections set a key only where it is absent, and this is all that the history needs of them. -/
theorem SetsIfAbsent.live_step (sets : SetsIfAbsent protection) {call : ReplayCall}
    (positive : 1 ≤ call.windowSeconds) (s : Ambient × ReplayStore) (key : String) {now : ℚ}
    (later : call.now ≤ now) :
    ReplayStore.Live (replayStep protection env call s).2.2 key now ↔
      ReplayStore.Live s.2 key now ∨
        (¬ ReplayStore.Live s.2 call.key call.now ∧ call.key = key ∧ call.Lasts now) := by
  obtain ⟨a, store⟩ := s
  by_cases hlive : ReplayStore.Live store call.key call.now
  · have hdenies := sets.denies (env.atMonotonic call.now) call.key call.windowSeconds a store positive
      hlive
    rw [replayStep, hdenies]
    exact ⟨Or.inl, fun h => h.resolve_right fun h => h.1 hlive⟩
  · obtain ⟨store', hallows, hstore⟩ := sets.allows (env.atMonotonic call.now) call.key
      call.windowSeconds a store positive hlive
    rw [replayStep, hallows]
    refine (hstore key now later).trans ?_
    by_cases hkey : key = call.key
    · subst hkey
      rw [if_pos rfl]
      -- a key that is free now is free later
      exact ⟨fun hlasts => Or.inr ⟨hlive, rfl, hlasts⟩,
        fun h => h.elim (fun hlater => absurd (hlater.earlier later) hlive) fun h => h.2.2⟩
    · rw [if_neg hkey]
      exact ⟨Or.inl, fun h => h.resolve_right fun h => hkey h.2.1.symm⟩

/-- One call keeps the history remembered: an allowed call takes its key for its window, and a denied
one changes nothing. -/
theorem Remembers.step {history : List (ReplayStep ReplayStore)} {s : Ambient × ReplayStore}
    (h : Remembers history s.2) (sets : SetsIfAbsent protection) {call : ReplayCall}
    (positive : 1 ≤ call.windowSeconds) :
    Remembers (history ++ [stepAt (replayStep protection env) s call])
      (replayStep protection env call s).2.2 := by
  intro key now later
  have hcall : call.now ≤ now := later (stepAt (replayStep protection env) s call)
    (List.mem_append_right _ (List.mem_singleton_self _))
  have hbefore : ∀ st ∈ history, st.input.now ≤ now :=
    fun st hst => later st (List.mem_append_left _ hst)
  rw [sets.live_step positive s key hcall, h key now hbefore, ← sets.allows_iff positive s]
  simp only [List.mem_append, List.mem_singleton, or_and_right, exists_or, exists_eq_left]
  exact Iff.rfl

/-- Every run is remembered. -/
theorem remembers_final (sets : SetsIfAbsent protection) (a : Ambient) {calls : List ReplayCall}
    (positive : ∀ call ∈ calls, 1 ≤ call.windowSeconds) :
    Remembers (trace (replayStep protection env) (a, Keyed.empty) calls)
      (final (replayStep protection env) (a, Keyed.empty) calls).2 := by
  induction calls using List.reverseRecOn with
  | nil =>
    intro key now _
    simp [trace, final, ReplayStore.Live]
  | append_singleton calls call ih =>
    rw [trace_snoc, final_snoc]
    exact (ih fun c hc => positive c (List.mem_append_left _ hc)).step sets
      (positive call (List.mem_append_right _ (List.mem_singleton_self _)))

/-- **A call is allowed exactly where no earlier allowed call of its key lasts**: what the store holds
is what the allowed calls took, for as long as their windows last. -/
theorem SetsIfAbsent.allowed_iff (sets : SetsIfAbsent protection) (a : Ambient)
    {calls : List ReplayCall} (timely : Timely calls) {earlier later : List (ReplayStep ReplayStore)}
    {st : ReplayStep ReplayStore}
    (split : trace (replayStep protection env) (a, Keyed.empty) calls = earlier ++ st :: later) :
    st.Allows ↔ ¬ ∃ e ∈ earlier, e.Allows ∧ e.input.key = st.input.key ∧ e.input.Lasts st.input.now := by
  obtain ⟨before, call, after, rfl, rfl, rfl, -⟩ := trace_split split
  obtain ⟨ordered, positive⟩ := timely
  rw [List.pairwise_append] at ordered
  have hbefore : ∀ c ∈ before, 1 ≤ c.windowSeconds :=
    fun c hc => positive c (List.mem_append_left _ hc)
  rw [sets.allows_iff (positive call (List.mem_append_right _ List.mem_cons_self))]
  refine not_congr (remembers_final sets a hbefore call.key call.now fun st hst => ?_)
  have hin : st.input ∈ (trace (replayStep protection env) (a, Keyed.empty) before).map Step.input :=
    List.mem_map_of_mem hst
  rw [map_input_trace] at hin
  exact ordered.2.2 _ hin call List.mem_cons_self

/-- The answer of a call: its key is taken, or free. -/
theorem SetsIfAbsent.output_eq (env : Env) (sets : SetsIfAbsent protection) {call : ReplayCall}
    (positive : 1 ≤ call.windowSeconds) (s : Ambient × ReplayStore) :
    (ReplayStore.Live s.2 call.key call.now ∧ (replayStep protection env call s).1 =
        .ok ⟨false, call.key, "Duplicate callback replay detected."⟩) ∨
      (¬ ReplayStore.Live s.2 call.key call.now ∧ (replayStep protection env call s).1 =
        .ok ⟨true, call.key, "Callback replay key accepted."⟩) := by
  obtain ⟨a, store⟩ := s
  by_cases hlive : ReplayStore.Live store call.key call.now
  · exact Or.inl ⟨hlive, congrArg Prod.fst (sets.denies (env.atMonotonic call.now) call.key
      call.windowSeconds a store positive hlive)⟩
  · obtain ⟨store', hallows, -⟩ := sets.allows (env.atMonotonic call.now) call.key call.windowSeconds a
      store positive hlive
    exact Or.inr ⟨hlive, congrArg Prod.fst hallows⟩

/-- **Two protections decide alike** on every run: by induction on the calls, the two stores hold the
same keys at the times of the calls to come, and these decide. -/
theorem SetsIfAbsent.decisions_agree {protection' : ReplayProtection ReplayStore}
    (sets : SetsIfAbsent protection) (sets' : SetsIfAbsent protection') (a : Ambient)
    {calls : List ReplayCall} (timely : Timely calls) :
    (trace (replayStep protection env) (a, Keyed.empty) calls).map Step.output =
      (trace (replayStep protection' env) (a, Keyed.empty) calls).map Step.output := by
  -- the stores agree on every key at the times of the calls to come
  refine outputs_of_simulates_of (f := id) (g := id) (R := fun calls s t =>
    Timely calls ∧ ∀ call ∈ calls, ∀ key,
      (ReplayStore.Live s.2 key call.now ↔ ReplayStore.Live t.2 key call.now)) ?_ calls
    ⟨timely, fun _ _ _ => Iff.rfl⟩
  rintro call calls s t ⟨⟨ordered, positive⟩, agree⟩
  obtain ⟨hfirst, hordered⟩ := List.pairwise_cons.mp ordered
  have hpositive := positive call List.mem_cons_self
  have hcall := agree call List.mem_cons_self call.key
  refine ⟨?_, ⟨hordered, fun c hc => positive c (List.mem_cons_of_mem _ hc)⟩, fun c hc key => ?_⟩
  · rcases sets.output_eq env hpositive s with ⟨hlive, ho⟩ | ⟨hlive, ho⟩ <;>
      rcases sets'.output_eq env hpositive t with ⟨hlive', ho'⟩ | ⟨hlive', ho'⟩
    · exact ho.trans ho'.symm
    · exact absurd (hcall.mp hlive) hlive'
    · exact absurd (hcall.mpr hlive') hlive
    · exact ho.trans ho'.symm
  · rw [sets.live_step hpositive s key (hfirst c hc), sets'.live_step hpositive t key (hfirst c hc),
      hcall, agree c (List.mem_cons_of_mem _ hc) key]

/-- **The in-memory protection is a set-if-absent with expiry**: it allows a call exactly where no
earlier allowed call of its key lasts, decides as Redis does, and would decide so without pruning. -/
theorem replay_is_set_if_absent (env : Env) (a : Ambient) (calls : List ReplayCall)
    (timely : Timely calls) :
    let run := trace (replayStep InMemoryReplayProtection env) (a, Keyed.empty) calls
    (∀ earlier (st : ReplayStep ReplayStore) later, run = earlier ++ st :: later → (st.Allows ↔
      ¬ ∃ e : ReplayStep ReplayStore, e ∈ earlier ∧ e.Allows ∧ e.input.key = st.input.key ∧
        e.input.Lasts st.input.now)) ∧
    run.map Step.output = (trace (replayStep (RedisReplayProtection fun _ => .answered) env)
      (a, Keyed.empty) calls).map Step.output ∧
    run.map Step.output =
      (trace (replayStep UnprunedReplayProtection env) (a, Keyed.empty) calls).map Step.output := by
  intro run
  have sets := InMemoryReplayProtection.setsIfAbsent
  exact ⟨fun _ _ _ split => sets.allowed_iff a timely split,
    sets.decisions_agree RedisReplayProtection.setsIfAbsent a timely,
    sets.decisions_agree UnprunedReplayProtection.setsIfAbsent a timely⟩

/-- At the very end of its window a key is free again, whatever was pruned for other keys. -/
theorem replay_is_set_if_absent_expiry :
    let calls := [⟨0, "k", 10⟩, ⟨5, "other", 1⟩, ⟨6, "other", 1⟩, ⟨9, "k", 10⟩, ⟨10, "k", 10⟩]
    (trace (replayStep InMemoryReplayProtection Env.still) ({}, Keyed.empty) calls).map Step.output =
      (trace (replayStep (RedisReplayProtection fun _ => .answered) Env.still) ({}, Keyed.empty)
        calls).map Step.output :=
  (replay_is_set_if_absent Env.still {}
    [⟨0, "k", 10⟩, ⟨5, "other", 1⟩, ⟨6, "other", 1⟩, ⟨9, "k", 10⟩, ⟨10, "k", 10⟩]
    ⟨by norm_num, by norm_num⟩).2.1

end Runs

end MpesaMcp
