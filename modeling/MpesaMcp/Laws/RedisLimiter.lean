import MpesaMcp.RateLimit.Redis
import MpesaMcp.Laws.Limiters

/-!
# The Redis limiter over whole runs

`redisStep` is one call of the limiter against the server, with what becomes of each of its commands.
`redisStep_spec` says what it leaves in the table and when it answers; everything below follows from it.
-/

set_option autoImplicit false

namespace MpesaMcp

open Library

/-! ## One call -/

/-- A call of the limiter: when the server sees it, and what becomes of its commands. -/
structure RedisCall where
  now : ℚ
  key : String
  limit : Int
  windowSeconds : Int
  delivery : RedisCommand → RedisDelivery

def redisStep (call : RedisCall) (table : RedisTable) :
    Except Exn RateLimitDecision × RedisTable :=
  Prog.run (handleRedis call.now call.delivery)
    (RedisRateLimiter.allow call.key call.limit call.windowSeconds) table

namespace RedisTable

variable {now : ℚ} {table : RedisTable} {name : String}

/-- A counter lives until its expiry, and for ever where it has none. -/
theorem live_eq_some {counter : RedisCounter} :
    live now table name = some counter ↔
      table.get name = some counter ∧ ∀ expiresAt ∈ counter.expiresAt, now < expiresAt := by
  unfold live
  rw [Option.filter_eq_some_iff]
  simp [Option.all_eq_true]

/-- A counter that lives counts on and keeps its expiry. -/
theorem incr_of_live {counter : RedisCounter} (h : live now table name = some counter) :
    incr now name table = { counter with value := counter.value + 1 } := by
  rw [incr, h]

/-- A counter that has expired, or was never there, starts at one without an expiry. -/
theorem incr_of_not_live (h : ∀ counter ∈ table.get name, ∃ expiresAt ∈ counter.expiresAt,
    expiresAt ≤ now) : incr now name table = { name := name, value := 1, expiresAt := none } := by
  have hnone : live now table name = none := by
    cases hlive : live now table name with
    | none => rfl
    | some counter =>
      obtain ⟨hget, hlater⟩ := live_eq_some.mp hlive
      obtain ⟨expiresAt, hexpires, hover⟩ := h counter hget
      exact absurd hover (not_le.mpr (hlater expiresAt hexpires))
  rw [incr, hnone]

@[simp] theorem name_incr (now : ℚ) (table : RedisTable) (name : String) :
    (incr now name table).name = name := by
  unfold incr
  cases hlive : live now table name with
  | none => rfl
  | some counter =>
    have hname := Keyed.key_of_get (live_eq_some.mp hlive).1
    exact hname

/-- A counter that `INCR` stored is there for the next command of the call. -/
theorem live_put_incr (now : ℚ) (table : RedisTable) (name : String) :
    live now (table.put (incr now name table)) name = some (incr now name table) := by
  refine live_eq_some.mpr ⟨Keyed.get_put_of_eq table (name_incr now table name), ?_⟩
  unfold incr
  cases hlive : live now table name with
  | none => exact nofun
  | some counter => exact (live_eq_some.mp hlive).2

/-- A counter that was counted is never below one. -/
theorem one_le_incr (now : ℚ) (table : RedisTable) (name : String) :
    1 ≤ (incr now name table).value := by
  unfold incr
  split
  · exact Nat.le_add_left 1 _
  · exact Nat.le_refl 1

end RedisTable

namespace RedisCall

variable (call : RedisCall) (table : RedisTable)

/-- The counter `INCR` makes. -/
def counted : RedisCounter := RedisTable.incr call.now call.key table

/-- The counter once its window is started. -/
def started : RedisCounter :=
  { call.counted table with expiresAt := some (call.now + call.windowSeconds) }

/-- Whether `EXPIRE` is sent and takes effect. -/
def Starts : Prop :=
  (call.counted table).value = 1 ∧ call.delivery (.incr call.key) = .answered ∧
    call.delivery (.expire call.key call.windowSeconds) ≠ .refused

instance : Decidable (call.Starts table) := by
  unfold Starts
  infer_instance

/-- Whether every command the call sends is answered. -/
def Answered : Prop :=
  call.delivery (.incr call.key) = .answered ∧
    ((call.counted table).value = 1 →
      call.delivery (.expire call.key call.windowSeconds) = .answered) ∧
    call.delivery (.ttl call.key) = .answered

end RedisCall

section Step

open RedisRateLimiter (unavailable decision)

variable {call : RedisCall} {table : RedisTable}

/-- `EXPIRE` finds the counter that `INCR` has just made. -/
theorem execute_expire (positive : 1 ≤ call.windowSeconds) :
    RedisTable.execute call.now (.expire call.key call.windowSeconds)
        (table.put (call.counted table)) =
      (true, (table.put (call.counted table)).put (call.started table)) := by
  have hlive := RedisTable.live_put_incr call.now table call.key
  have hnot : ¬ call.windowSeconds ≤ 0 := by omega
  simp only [RedisTable.execute, RedisCall.counted, RedisCall.started, hlive, hnot, if_false]

/-- `TTL` changes nothing; it is answered, or the limiter sees its exception. -/
theorem run_ttl (table : RedisTable) :
    (call.delivery (.ttl call.key) = .answered ∧ ∃ ttl,
        Prog.run (handleRedis call.now call.delivery) (Prog.send (.ttl call.key)) table =
          (.ok ttl, table)) ∨
      (call.delivery (.ttl call.key) ≠ .answered ∧ ∃ e,
        Prog.run (handleRedis call.now call.delivery) (Prog.send (.ttl call.key)) table =
          (.error e, table)) := by
  have hsame : (RedisTable.execute call.now (.ttl call.key) table).2 = table := by
    simp only [RedisTable.execute]
    split
    · rfl
    · split <;> rfl
  rw [Prog.run_send, handleRedis]
  cases hdelivery : call.delivery (.ttl call.key) with
  | answered => exact Or.inl ⟨rfl, _, Prod.ext rfl hsame⟩
  | answerLost => exact Or.inr ⟨nofun, _, Prod.ext rfl hsame⟩
  | refused => exact Or.inr ⟨nofun, _, rfl⟩

/-- The table a call leaves. -/
def RedisCall.tableAfter (call : RedisCall) (table : RedisTable) : RedisTable :=
  if call.Starts table then (table.put (call.counted table)).put (call.started table)
  else table.put (call.counted table)

/-- What comes of starting the window, after an answered `INCR`: with a first count the expiry is sent
for, and the limiter goes on where this is answered. Where only the answer is lost the expiry is set
all the same; where the command is refused the counter is left without one. -/
theorem run_startWindow (positive : 1 ≤ call.windowSeconds)
    (h : call.delivery (.incr call.key) = .answered) :
    (((call.counted table).value = 1 →
          call.delivery (.expire call.key call.windowSeconds) = .answered) ∧
        Prog.run (handleRedis call.now call.delivery)
            (RedisRateLimiter.startWindow call.key call.windowSeconds (call.counted table).value)
            (table.put (call.counted table)) = (.ok (), call.tableAfter table)) ∨
      (¬ ((call.counted table).value = 1 →
          call.delivery (.expire call.key call.windowSeconds) = .answered) ∧ ∃ e,
        Prog.run (handleRedis call.now call.delivery)
            (RedisRateLimiter.startWindow call.key call.windowSeconds (call.counted table).value)
            (table.put (call.counted table)) = (.error e, call.tableAfter table)) := by
  by_cases hone : (call.counted table).value = 1
  · rw [RedisRateLimiter.startWindow, if_pos (by rw [hone]; rfl), Prog.run_map, Prog.run_send,
      handleRedis]
    cases hexpire : call.delivery (.expire call.key call.windowSeconds) <;>
      simp [RedisCall.tableAfter, RedisCall.Starts, hone, h, hexpire, execute_expire positive,
        Except.map]
  · have hne : ¬ ((call.counted table).value : Int) = 1 := by omega
    rw [RedisRateLimiter.startWindow, if_neg hne]
    simp [RedisCall.tableAfter, RedisCall.Starts, hone]

/-- What comes of `INCR`. -/
theorem run_incr :
    (call.delivery (.incr call.key) = .refused ∧ ∃ e,
        handleRedis call.now call.delivery (.incr call.key) table = (.error e, table)) ∨
      (call.delivery (.incr call.key) = .answerLost ∧ ∃ e,
        handleRedis call.now call.delivery (.incr call.key) table =
          (.error e, table.put (call.counted table))) ∨
      (call.delivery (.incr call.key) = .answered ∧
        handleRedis call.now call.delivery (.incr call.key) table =
          (.ok ((call.counted table).value : Int), table.put (call.counted table))) := by
  rw [handleRedis]
  cases hdelivery : call.delivery (.incr call.key) with
  | refused => exact Or.inl ⟨rfl, _, rfl⟩
  | answerLost => exact Or.inr (Or.inl ⟨rfl, _, rfl⟩)
  | answered => exact Or.inr (Or.inr ⟨rfl, rfl⟩)

/-- **What a call leaves stored, and what it answers**: nothing where its `INCR` is lost on the way,
and otherwise a counter that is one higher, whose expiry was set, kept or lost. -/
theorem redisStep_cases (positive : 1 ≤ call.windowSeconds) (table : RedisTable) :
    (redisStep call table).2 =
        (if call.delivery (.incr call.key) = .refused then table else call.tableAfter table) ∧
      ((call.Answered table ∧ ∃ ttl, (redisStep call table).1 =
          .ok (decision call.key call.limit call.windowSeconds (call.counted table).value ttl)) ∨
        (¬ call.Answered table ∧ (redisStep call table).1 = .error unavailable)) := by
  rw [redisStep, RedisRateLimiter.allow, RedisRateLimiter.countCall]
  simp only [Prog.run_bind, Prog.run_translate, Prog.run_send]
  rcases @run_incr call table with
    ⟨hdelivery, e, hincr⟩ | ⟨hdelivery, e, hincr⟩ | ⟨hdelivery, hincr⟩
  · simp [hincr, hdelivery, RedisCall.Answered, Except.mapError]
  · simp [hincr, hdelivery, RedisCall.Answered, RedisCall.tableAfter, RedisCall.Starts,
      Except.mapError]
  · simp only [hincr, hdelivery, RedisCall.Answered]
    rcases @run_startWindow call table positive hdelivery with
      ⟨hexpire, hstart⟩ | ⟨hexpire, e, hstart⟩
    · rcases @run_ttl call (call.tableAfter table) with
        ⟨httl, ttl, hrun⟩ | ⟨httl, e, hrun⟩
      · rw [Prog.run_send] at hrun
        simpa [hstart, hrun, httl, Except.mapError] using hexpire
      · rw [Prog.run_send] at hrun
        simp [hstart, hrun, httl, Except.mapError]
    · have hnot : ¬ call.Answered table := fun h => hexpire h.2.1
      simpa [hstart, hdelivery, RedisCall.Answered, Except.mapError] using hnot

/-- The counter a call leaves under a key. -/
theorem get_redisStep (positive : 1 ≤ call.windowSeconds) (table : RedisTable) (name : String) :
    (redisStep call table).2.get name =
      if name = call.key ∧ call.delivery (.incr call.key) ≠ .refused then
        some (if call.Starts table then call.started table else call.counted table)
      else table.get name := by
  have hcounted : (call.counted table).name = call.key := RedisTable.name_incr ..
  rw [(redisStep_cases positive table).1]
  by_cases hrefused : call.delivery (.incr call.key) = .refused
  · rw [if_pos hrefused, if_neg fun h => h.2 hrefused]
  · have hstarted : (call.started table).name = call.key := hcounted
    rw [if_neg hrefused, RedisCall.tableAfter]
    by_cases hname : name = call.key
    · subst hname
      by_cases hstarts : call.Starts table
      · rw [if_pos hstarts, if_pos ⟨rfl, hrefused⟩, if_pos hstarts, Keyed.get_put_of_eq _ hstarted]
      · rw [if_neg hstarts, if_pos ⟨rfl, hrefused⟩, if_neg hstarts, Keyed.get_put_of_eq _ hcounted]
    · have hother : ¬ (name = call.key ∧ call.delivery (.incr call.key) ≠ .refused) := fun h => hname h.1
      rw [if_neg hother]
      split
      · rw [Keyed.get_put_of_ne _ (hstarted ▸ hname), Keyed.get_put_of_ne _ (hcounted ▸ hname)]
      · rw [Keyed.get_put_of_ne _ (hcounted ▸ hname)]

end Step

/-! ## Agreement with the in-memory limiter -/

/-- A call whose commands are all answered. -/
def LimiterCall.onRedis (limit windowSeconds : Int) (call : LimiterCall) : RedisCall where
  now := call.now
  key := call.key
  limit := limit
  windowSeconds := windowSeconds
  delivery _ := .answered

/-- One call against a server that answers everything. -/
def redisLimiterStep (limit windowSeconds : Int) (call : LimiterCall) (table : RedisTable) :
    Except Exn RateLimitDecision × RedisTable :=
  redisStep (call.onRedis limit windowSeconds) table

/-- What the two limiters are compared in. -/
def RateLimitDecision.verdict (decision : RateLimitDecision) : Bool × Int :=
  (decision.allowed, decision.remaining)

/-- A counter and a stored window of one key that began together: the counter counts on where the window
is full. -/
structure Together (limit windowSeconds : Int) (counter : RedisCounter) (window : FixedWindow ℚ) :
    Prop where
  expiresAt : counter.expiresAt = some (window.start + windowSeconds)
  count : window.count = min counter.value limit.toNat
  counted : 1 ≤ counter.value

/-- The two tables hold the same windows. -/
def SameWindows (limit windowSeconds : Int) (windows : RateWindows) (table : RedisTable) : Prop :=
  ∀ key, Option.Rel (fun window counter => Together limit windowSeconds counter window)
    (InMemoryRateLimiter.windowOf windows key) (table.get key)

/-- The counter after a call, of which the first starts its window. -/
def LimiterCall.keep (windowSeconds : Int) (call : LimiterCall) (counter : RedisCounter) :
    RedisCounter :=
  if counter.value = 1 then { counter with expiresAt := some (call.now + windowSeconds) } else counter

@[simp] theorem value_keep (windowSeconds : Int) (call : LimiterCall) (counter : RedisCounter) :
    (call.keep windowSeconds counter).value = counter.value := by
  unfold LimiterCall.keep
  split <;> rfl

section Agreement

variable {limit windowSeconds : Int} {windows : RateWindows} {table : RedisTable}

/-- The counter a call makes and the window it belongs to began together, and count alike up to the
limit. -/
theorem counted_spec (call : LimiterCall)
    (h : Option.Rel (fun window counter => Together limit windowSeconds counter window)
      (InMemoryRateLimiter.windowOf windows call.key) (table.get call.key)) :
    let window := InMemoryRateLimiter.windowAt call.now call.key windowSeconds windows
    let counter := RedisTable.incr call.now call.key table
    ∃ before : Nat, counter.value = before + 1 ∧ window.count = min before limit.toNat ∧
      (call.keep windowSeconds counter).expiresAt = some (window.start + windowSeconds) := by
  simp only [InMemoryRateLimiter.windowAt]
  generalize InMemoryRateLimiter.windowOf windows call.key = stored at h ⊢
  generalize hfound : table.get call.key = found at h
  cases h with
  | none =>
    rw [RedisTable.incr_of_not_live (by simp [hfound]), FixedWindow.see_none]
    exact ⟨0, rfl, (Nat.zero_min _).symm, rfl⟩
  | @some window counter htogether =>
    by_cases hended : window.start + windowSeconds ≤ call.now
    · rw [RedisTable.incr_of_not_live (by simpa [hfound, htogether.expiresAt] using hended),
        FixedWindow.see_of_ended hended]
      exact ⟨0, rfl, (Nat.zero_min _).symm, rfl⟩
    · have hopen := not_le.mp hended
      have hlive : RedisTable.live call.now table call.key = some counter :=
        RedisTable.live_eq_some.mpr ⟨hfound, by simpa [htogether.expiresAt] using hopen⟩
      have hmany : ¬ counter.value + 1 = 1 := by
        have hpos := htogether.counted
        omega
      rw [RedisTable.incr_of_live hlive, FixedWindow.see_of_lt hopen, LimiterCall.keep, if_neg hmany]
      exact ⟨counter.value, rfl, htogether.count, htogether.expiresAt⟩

/-- The decision depends on the count alone; what is left of the window only enters the hint. -/
theorem verdict_decision (key : String) (limit windowSeconds count ttl : Int) :
    (RedisRateLimiter.decision key limit windowSeconds count ttl).verdict =
      (decide (count ≤ limit), max 0 (limit - count)) := by
  unfold RedisRateLimiter.decision
  by_cases hover : limit < count
  · rw [if_pos hover, decide_eq_false (Int.not_le.mpr hover), Int.max_eq_left (by omega)]
    rfl
  · rw [if_neg hover, decide_eq_true (Int.not_lt.mp hover)]
    rfl

/-- The verdict of the Redis limiter is on the count. -/
theorem verdict_redisLimiterStep (positive : 1 ≤ windowSeconds) (call : LimiterCall) :
    (redisLimiterStep limit windowSeconds call table).1.map RateLimitDecision.verdict =
      .ok (decide (((RedisTable.incr call.now call.key table).value : Int) ≤ limit),
        max 0 (limit - (RedisTable.incr call.now call.key table).value)) := by
  rcases (@redisStep_cases (call.onRedis limit windowSeconds) positive table).2 with
    ⟨-, ttl, houtput⟩ | ⟨hnot, -⟩
  · rw [redisLimiterStep, houtput]
    exact congrArg Except.ok (verdict_decision ..)
  · exact absurd ⟨rfl, fun _ => rfl, rfl⟩ hnot

/-- The verdict of the in-memory limiter is on the room of the window. -/
theorem verdict_allowAt (now : ℚ) (key : String) (limit windowSeconds : Int) (windows : RateWindows) :
    (InMemoryRateLimiter.allowAt now key limit windowSeconds windows).1.verdict =
      (decide (((InMemoryRateLimiter.windowAt now key windowSeconds windows).count : Int) < limit),
        max 0 (limit -
          ((InMemoryRateLimiter.windowAt now key windowSeconds windows).count + 1))) := by
  rw [RateLimitDecision.verdict, InMemoryRateLimiter.remaining_allowAt]
  rcases InMemoryRateLimiter.allowAt_cases now key limit windowSeconds windows with
    ⟨hfull, hdenied, -⟩ | ⟨hroom, hallowed, -⟩
  · rw [hdenied, decide_eq_false (Int.not_lt.mpr hfull)]
  · rw [hallowed, decide_eq_true hroom]

/-- The counter a call leaves. -/
theorem get_redisLimiterStep (positive : 1 ≤ windowSeconds) (call : LimiterCall) (key : String) :
    (redisLimiterStep limit windowSeconds call table).2.get key =
      if key = call.key then
        some (call.keep windowSeconds (RedisTable.incr call.now call.key table))
      else table.get key := by
  have hstarts : (call.onRedis limit windowSeconds).Starts table ↔
      (RedisTable.incr call.now call.key table).value = 1 :=
    ⟨fun h => h.1, fun hone => ⟨hone, rfl, nofun⟩⟩
  have hincr : (call.onRedis limit windowSeconds).delivery (.incr call.key) ≠ .refused := nofun
  have hget := @get_redisStep (call.onRedis limit windowSeconds) positive table key
  simp only [hstarts] at hget
  rw [redisLimiterStep, hget]
  by_cases hkey : key = call.key
  · rw [if_pos hkey, if_pos ⟨hkey, hincr⟩]
    rfl
  · rw [if_neg hkey, if_neg fun hsame => hkey hsame.1]

/-- One call on both limiters: the same verdict, and the same windows after it. For each key the live
counter of the one is the open window of the other, so the call meets the same count in both. -/
theorem sameWindows_step (room : 1 ≤ limit) (positive : 1 ≤ windowSeconds) (call : LimiterCall)
    (h : SameWindows limit windowSeconds windows table) :
    let r := InMemoryRateLimiter.allowAt call.now call.key limit windowSeconds windows
    (redisLimiterStep limit windowSeconds call table).1.map RateLimitDecision.verdict =
        .ok r.1.verdict ∧
      SameWindows limit windowSeconds r.2 (redisLimiterStep limit windowSeconds call table).2 := by
  intro r
  obtain ⟨before, hvalue, hcount, hexpires⟩ := counted_spec call (h call.key)
  constructor
  · rw [verdict_redisLimiterStep positive, verdict_allowAt, hvalue, hcount]
    refine congrArg Except.ok (Prod.ext (decide_eq_decide.mpr ?_) ?_)
    · omega
    · show max 0 _ = max 0 _
      omega
  · intro key
    rw [get_redisLimiterStep positive]
    by_cases hkey : key = call.key
    · subst hkey
      rw [if_pos rfl]
      have hkept := value_keep windowSeconds call (RedisTable.incr call.now call.key table)
      rcases InMemoryRateLimiter.allowAt_cases call.now call.key limit windowSeconds windows with
        ⟨hfull, -, hsame⟩ | ⟨hroom, -, hput⟩
      · have hpos : 0 < (InMemoryRateLimiter.windowAt call.now call.key windowSeconds windows).count := by
          omega
        have hopen : InMemoryRateLimiter.windowOf windows call.key =
            some (InMemoryRateLimiter.windowAt call.now call.key windowSeconds windows) :=
          FixedWindow.see_zero_of_pos hpos
        rw [hsame, hopen]
        exact .some ⟨hexpires, by omega, by omega⟩
      · rw [hput, InMemoryRateLimiter.windowOf_put, if_pos rfl]
        refine .some ⟨hexpires, ?_, by omega⟩
        show _ + 1 = _
        omega
    · rw [if_neg hkey, InMemoryRateLimiter.windowOf_allowAt call.now limit windowSeconds hkey]
      exact h key

/-- Without a limit to use up, both limiters deny every call. -/
theorem denied_of_no_room (closed : limit < 1) (positive : 1 ≤ windowSeconds) (call : LimiterCall) :
    (redisLimiterStep limit windowSeconds call table).1.map RateLimitDecision.verdict =
      .ok (InMemoryRateLimiter.allowAt call.now call.key limit windowSeconds windows).1.verdict := by
  have hone := RedisTable.one_le_incr call.now table call.key
  rw [verdict_redisLimiterStep positive, verdict_allowAt]
  refine congrArg Except.ok (Prod.ext (decide_eq_decide.mpr ?_) ?_)
  · omega
  · show max 0 _ = max 0 _
    omega

end Agreement

/-- **The two limiters agree**: on every sequence of calls, call by call, in whether the call is
allowed and in what remains, by a simulation that keeps the windows of the two the same. -/
theorem limiters_agree (env : Env) (limit windowSeconds : Int) (positive : 1 ≤ windowSeconds)
    (a : Ambient) (calls : List LimiterCall) :
    (trace (limiterStep InMemoryRateLimiter env limit windowSeconds) (a, Keyed.empty) calls).map
        (fun st => st.output.map RateLimitDecision.verdict) =
      (trace (redisLimiterStep limit windowSeconds) Keyed.empty calls).map
        fun st => st.output.map RateLimitDecision.verdict := by
  by_cases hroom : 1 ≤ limit
  · refine outputs_of_simulates (R := fun s table => SameWindows limit windowSeconds s.2 table)
      ?_ (fun key => .none) calls
    intro s table call h
    obtain ⟨hverdict, hnext⟩ := sameWindows_step hroom positive call h
    exact ⟨hverdict.symm, hnext⟩
  · refine outputs_of_simulates (R := fun _ _ => True) ?_ trivial calls
    intro s table call _
    exact ⟨(denied_of_no_room (Int.not_le.mp hroom) positive call).symm, trivial⟩

/-- Four calls of one key across the end of a window, and one of another key. -/
theorem limiters_agree_turn :
    (trace (limiterStep InMemoryRateLimiter Env.still 2 60) ({}, Keyed.empty)
        [⟨0, "k"⟩, ⟨1, "k"⟩, ⟨2, "k"⟩, ⟨59, "other"⟩, ⟨60, "k"⟩]).map
        (fun st => st.output.map RateLimitDecision.verdict) =
      (trace (redisLimiterStep 2 60) Keyed.empty
        [⟨0, "k"⟩, ⟨1, "k"⟩, ⟨2, "k"⟩, ⟨59, "other"⟩, ⟨60, "k"⟩]).map
        fun st => st.output.map RateLimitDecision.verdict :=
  limiters_agree Env.still 2 60 (by decide) {}
    [⟨0, "k"⟩, ⟨1, "k"⟩, ⟨2, "k"⟩, ⟨59, "other"⟩, ⟨60, "k"⟩]

/-! ## Failing commands -/

/-- The call leaves no counter without an expiry: where `INCR` starts one, its answer arrives and
`EXPIRE` takes effect. -/
def RedisCall.Anchored (call : RedisCall) (table : RedisTable) : Prop :=
  RedisTable.live call.now table call.key = none → call.delivery (.incr call.key) ≠ .refused →
    call.delivery (.incr call.key) = .answered ∧
      call.delivery (.expire call.key call.windowSeconds) ≠ .refused

/-- Whether a call counts for a key. -/
def RedisCall.counts (key : String) (call : RedisCall) : Bool :=
  decide (call.key = key ∧ call.delivery (.incr call.key) ≠ .refused)

/-- The call is answered, and allowed. -/
def Allows (outcome : Except Exn RateLimitDecision) : Prop :=
  ∃ decision, outcome = .ok decision ∧ decision.allowed = true

/-- Every counter of a key expires one window after some call of it. -/
def Expiring (key : String) (calls : List RedisCall) (table : RedisTable) : Prop :=
  ∀ counter ∈ table.get key, 1 ≤ counter.value ∧
    ∃ call ∈ calls, call.key = key ∧ counter.expiresAt = some (call.now + call.windowSeconds)

section Failing

variable {key : String} {table : RedisTable}

/-- An anchored call, which leaves no counter without an expiry, keeps every counter of the key
expiring; a call of another key leaves them alone. -/
theorem Expiring.step {calls : List RedisCall} (h : Expiring key calls table) {call : RedisCall}
    (positive : 1 ≤ call.windowSeconds) (anchored : call.key = key → call.Anchored table) :
    Expiring key (calls ++ [call]) (redisStep call table).2 := by
  intro counter hcounter
  rw [Option.mem_def, get_redisStep positive] at hcounter
  have hbefore : table.get key = some counter → 1 ≤ counter.value ∧
      ∃ c ∈ calls ++ [call], c.key = key ∧ counter.expiresAt = some (c.now + c.windowSeconds) := by
    intro hget
    obtain ⟨hpos, c, hc, hexpires⟩ := h counter hget
    exact ⟨hpos, c, List.mem_append_left _ hc, hexpires⟩
  by_cases hcounts : key = call.key ∧ call.delivery (.incr call.key) ≠ .refused
  · obtain ⟨rfl, hincr⟩ := hcounts
    rw [if_pos ⟨rfl, hincr⟩] at hcounter
    have hpos := RedisTable.one_le_incr call.now table call.key
    by_cases hstarts : call.Starts table
    · rw [if_pos hstarts] at hcounter
      cases hcounter
      exact ⟨hpos, call, by simp, rfl, rfl⟩
    · rw [if_neg hstarts] at hcounter
      cases hlive : RedisTable.live call.now table call.key with
      | none =>
        -- a counter that starts here is anchored, so its window starts too
        obtain ⟨hanswered, hexpire⟩ := anchored rfl hlive hincr
        refine absurd ⟨?_, hanswered, hexpire⟩ hstarts
        rw [RedisCall.counted, RedisTable.incr, hlive]
      | some old =>
        cases hcounter
        obtain ⟨-, c, hc, hexpires⟩ := h old (RedisTable.live_eq_some.mp hlive).1
        refine ⟨hpos, c, List.mem_append_left _ hc, hexpires.1, ?_⟩
        rw [RedisCall.counted, RedisTable.incr_of_live hlive]
        exact hexpires.2
  · rw [if_neg hcounts] at hcounter
    exact hbefore hcounter

/-- Every run of anchored calls keeps the counters of the key expiring. -/
theorem expiring_final (calls : List RedisCall) (positive : ∀ call ∈ calls, 1 ≤ call.windowSeconds)
    (anchored : ∀ st ∈ trace redisStep Keyed.empty calls,
      st.input.key = key → st.input.Anchored st.before) :
    Expiring key calls (final redisStep Keyed.empty calls) := by
  induction calls using List.reverseRecOn with
  | nil =>
    intro counter hcounter
    cases hcounter
  | append_singleton calls call ih =>
    rw [trace_snoc] at anchored
    rw [final_snoc]
    refine (ih ?_ ?_).step (positive call (by simp)) fun hkey => ?_
    · exact fun c hc => positive c (List.mem_append_left _ hc)
    · exact fun st hst => anchored st (List.mem_append_left _ hst)
    · exact anchored (stepAt redisStep _ call) (by simp) hkey

/-- A counter without an expiry is never replaced: every call that counts adds to it, and `EXPIRE` is
sent for a count of one only. -/
theorem stranded_step {value : Nat} (hpos : 1 ≤ value) (h : table.get key = some ⟨key, value, none⟩)
    {call : RedisCall} (positive : 1 ≤ call.windowSeconds) :
    (redisStep call table).2.get key =
      some ⟨key, value + if call.counts key then 1 else 0, none⟩ := by
  rw [get_redisStep positive]
  by_cases hcounts : key = call.key ∧ call.delivery (.incr call.key) ≠ .refused
  · obtain ⟨rfl, hincr⟩ := hcounts
    have hlive : RedisTable.live call.now table call.key = some ⟨call.key, value, none⟩ :=
      RedisTable.live_eq_some.mpr ⟨h, nofun⟩
    have hcounted : call.counted table = ⟨call.key, value + 1, none⟩ :=
      RedisTable.incr_of_live hlive
    have hstarts : ¬ call.Starts table := by
      rintro ⟨hone, -⟩
      rw [hcounted] at hone
      simp only at hone
      omega
    have hcount : call.counts call.key = true := decide_eq_true ⟨rfl, hincr⟩
    rw [if_pos ⟨rfl, hincr⟩, if_neg hstarts, hcounted, if_pos hcount]
  · have hcount : ¬ call.counts key = true := by
      simp only [RedisCall.counts, decide_eq_true_eq]
      exact fun hc => hcounts ⟨hc.1.symm, hc.2⟩
    rw [if_neg hcounts, if_neg hcount, h, Nat.add_zero]

/-- A counter that lost its expiry never gets one again, by induction on the calls: `EXPIRE` is sent
only after a count of one, and this counter is past it. -/
theorem stranded_final {value : Nat} (hpos : 1 ≤ value) (calls : List RedisCall)
    (positive : ∀ call ∈ calls, 1 ≤ call.windowSeconds)
    (h : table.get key = some ⟨key, value, none⟩) :
    (final redisStep table calls).get key =
      some ⟨key, value + calls.countP (RedisCall.counts key), none⟩ := by
  induction calls generalizing table value with
  | nil => exact h
  | cons call calls ih =>
    have hstep := stranded_step hpos h (positive call List.mem_cons_self)
    rw [final, ih (Nat.le_add_right_of_le hpos) (fun c hc => positive c (List.mem_cons_of_mem _ hc))
      hstep, List.countP_cons, Nat.add_assoc, Nat.add_comm (calls.countP _)]

/-- A call that is not anchored leaves a counter without an expiry. -/
theorem stranded_of_not_anchored {call : RedisCall} (positive : 1 ≤ call.windowSeconds)
    (h : ¬ call.Anchored table) :
    (redisStep call table).2.get call.key = some ⟨call.key, 1, none⟩ := by
  obtain ⟨hlive, h⟩ := Classical.not_imp.mp h
  obtain ⟨hincr, h⟩ := Classical.not_imp.mp h
  have hcounted : call.counted table = ⟨call.key, 1, none⟩ := by
    rw [RedisCall.counted, RedisTable.incr, hlive]
  have hstarts : ¬ call.Starts table := fun hs => h hs.2
  rw [get_redisStep positive, if_pos ⟨rfl, hincr⟩, if_neg hstarts, hcounted]

/-- An answered call allows what its count leaves room for. -/
theorem allows_redisStep {call : RedisCall} (positive : 1 ≤ call.windowSeconds)
    (answered : ∀ command, call.delivery command = .answered) :
    Allows (redisStep call table).1 ↔ ((call.counted table).value : Int) ≤ call.limit := by
  rcases (redisStep_cases positive table).2 with ⟨-, ttl, houtput⟩ | ⟨hnot, -⟩
  · have hallowed := congrArg Prod.fst (verdict_decision call.key call.limit call.windowSeconds
      (call.counted table).value ttl)
    rw [houtput]
    constructor
    · rintro ⟨decision, ⟨rfl⟩, h⟩
      exact of_decide_eq_true (hallowed.symm.trans h)
    · exact fun h => ⟨_, rfl, hallowed.trans (decide_eq_true h)⟩
  · exact absurd ⟨answered _, fun _ => answered _, answered _⟩ hnot

/-! ## The property -/

/-- **When a key comes free again.** A key that was not used for its windows is allowed, once every
command is answered, in each run whose calls of the key are all anchored. From the first that is not, its
counter never expires: the key is allowed exactly until the calls since then have used the limit up. -/
theorem idle_key_allowed_iff (calls : List RedisCall)
    (positive : ∀ call ∈ calls, 1 ≤ call.windowSeconds) (call : RedisCall)
    (window : 1 ≤ call.windowSeconds) (room : 1 ≤ call.limit)
    (recovered : ∀ command, call.delivery command = .answered)
    (idle : ∀ c ∈ calls, c.key = call.key → c.now + c.windowSeconds ≤ call.now) :
    ((∀ st ∈ trace redisStep Keyed.empty calls,
        st.input.key = call.key → st.input.Anchored st.before) →
      Allows (redisStep call (final redisStep Keyed.empty calls)).1) ∧
    ∀ earlier c later, calls = earlier ++ c :: later → c.key = call.key →
      ¬ c.Anchored (final redisStep Keyed.empty earlier) →
      (Allows (redisStep call (final redisStep Keyed.empty calls)).1 ↔
        (later.countP (RedisCall.counts call.key) : Int) + 2 ≤ call.limit) := by
  constructor
  · intro anchored
    have hexpiring := expiring_final calls positive anchored
    refine (allows_redisStep window recovered).mpr ?_
    have hcounted : call.counted (final redisStep Keyed.empty calls) = ⟨call.key, 1, none⟩ := by
      refine RedisTable.incr_of_not_live fun counter hcounter => ?_
      obtain ⟨-, c, hc, hkey, hexpires⟩ := hexpiring counter hcounter
      exact ⟨_, hexpires, idle c hc hkey⟩
    rw [hcounted]
    exact room
  · rintro earlier c later rfl hkey hstranded
    have hfirst := stranded_of_not_anchored (positive c (by simp)) hstranded
    rw [hkey] at hfirst
    have hlast := stranded_final (Nat.le_refl 1) later
      (fun d hd => positive d (List.mem_append_right _ (List.mem_cons_of_mem _ hd))) hfirst
    rw [allows_redisStep window recovered, final_append, final, RedisCall.counted,
      RedisTable.incr_of_live (RedisTable.live_eq_some.mpr ⟨hlast, nofun⟩)]
    show ((1 + _ + 1 : Nat) : Int) ≤ _ ↔ _
    omega

end Failing

/-- A call of one key, limited to one call a minute, of which one command fails. -/
def oneCall (now : ℚ) (failing : RedisCommand → Bool) : RedisCall where
  now := now
  key := "k"
  limit := 1
  windowSeconds := 60
  delivery command := if failing command then .refused else .answered

def RedisCommand.isExpire : RedisCommand → Bool
  | .expire _ _ => true
  | _ => false

def RedisCommand.isTtl : RedisCommand → Bool
  | .ttl _ => true
  | _ => false

/-- A `TTL` that fails leaves the counter with its expiry: the key is free after a minute. -/
theorem idle_key_allowed_after_ttl :
    Allows (redisStep (oneCall 60 fun _ => false)
      (final redisStep Keyed.empty [oneCall 0 RedisCommand.isTtl])).1 := by
  refine (idle_key_allowed_iff [oneCall 0 RedisCommand.isTtl] ?_ (oneCall 60 fun _ => false) ?_ ?_ ?_
    ?_).1 ?_
  · simp [oneCall]
  · decide
  · decide
  · exact fun _ => rfl
  · simp [oneCall]
  · intro st hst hkey
    rw [List.mem_singleton.mp hst]
    intro _ _
    exact ⟨rfl, nofun⟩

/-- An `EXPIRE` that fails locks the key out: a thousand seconds later its first call is still denied. -/
theorem idle_key_denied_after_expire :
    (redisStep (oneCall 1000 fun _ => false)
      (final redisStep Keyed.empty [oneCall 0 RedisCommand.isExpire])).1.map
        (fun decision => decision.allowed) = .ok false := by
  rfl

end MpesaMcp
