import MpesaMcp.Laws.RedisLimiter
import MpesaMcp.Library.Interleave

/-!
# One Redis for many processes

Any number of processes call the limiter on one server, and their commands come in any order. Each
command has a time of its own and may fail on its way. `INCR` is atomic, so the calls that a counter
admits are at most the limit; the window of a counter is at least so long as asked for, since an `EXPIRE`
never comes before the `INCR` that made the counter, and one that comes late makes the window longer.

So what holds of one limiter in memory holds of all the processes together: in every interval of the
length of the windows at most twice the limit is allowed (`shared_limiter_bounded`).
-/

set_option autoImplicit false

namespace MpesaMcp

open Library

/-! ## The calls -/

/-- A call of `allow` in some process. -/
structure LimiterRequest where
  key : String
  limit : Int
  windowSeconds : Int

namespace LimiterRequest

variable (request : LimiterRequest)

def program : Prog Exn RedisCommand.Answer RateLimitDecision :=
  RedisRateLimiter.allow request.key request.limit request.windowSeconds

/-- What is left of the call once it has its count. -/
def rest (count : Int) : Prog Exn RedisCommand.Answer RateLimitDecision := do
  let counted ← (do
    RedisRateLimiter.startWindow request.key request.windowSeconds count
    let ttl ← Prog.send (.ttl request.key)
    pure (count, ttl) : Prog Exn RedisCommand.Answer (Int × Int)).translate
      fun _ => RedisRateLimiter.unavailable
  pure (RedisRateLimiter.decision request.key request.limit request.windowSeconds counted.1 counted.2)

/-- A command that may follow the `INCR` of the call. -/
def AfterCount (command : RedisCommand) : Prop :=
  command = .expire request.key request.windowSeconds ∨ command = .ttl request.key

/-- The call is an `INCR`, and what is left of it then. -/
theorem program_eq : ∃ k, request.program = .call (.incr request.key) k ∧
    (∀ count : Int, k (.ok count) = request.rest count) ∧
    ∀ e, k (.error e) = .raise RedisRateLimiter.unavailable :=
  ⟨_, rfl, fun _ => rfl, fun _ => rfl⟩

/-- After its count, a request may set the expiry, or ask for it where it refuses; it counts no second
time. -/
theorem rest_sends (count : Int) : (request.rest count).Sends request.AfterCount := by
  refine .bind (.translate _ (.bind ?_ fun _ => .bind ?_ fun _ => trivial)) fun _ => trivial
  · unfold RedisRateLimiter.startWindow
    split
    next =>
      have hexpire : request.AfterCount (.expire request.key request.windowSeconds) := Or.inl rfl
      exact .map ((Prog.sends_send _).mpr hexpire) _
    next => trivial
  · exact (Prog.sends_send _).mpr (Or.inr rfl)

/-- The decision is the one on this count. -/
theorem rest_returns (count : Int) : (request.rest count).Returns fun decision =>
    decision.allowed = true → count ≤ request.limit := by
  have hcounted : ∀ counted : Int × Int, counted.1 = count → ∀ decision, decision =
      RedisRateLimiter.decision request.key request.limit request.windowSeconds counted.1 counted.2 →
        decision.allowed = true → count ≤ request.limit := by
    rintro counted rfl decision rfl hallowed
    unfold RedisRateLimiter.decision at hallowed
    by_cases hover : request.limit < counted.1
    · rw [if_pos hover] at hallowed
      cases hallowed
    · exact not_lt.mp hover
  refine .bind (P := fun counted => counted.1 = count) (.translate ?_ _) ?_
  · refine .bind (Prog.returns_true _) fun _ _ => .bind (Prog.returns_true _) fun _ _ => rfl
  · intro counted hcount
    exact hcounted counted hcount _ rfl

end LimiterRequest

/-! ## The counter of a key -/

deriving instance DecidableEq for RedisCommand

/-- The counter a command is about. -/
def RedisCommand.name : RedisCommand → String
  | .incr name => name
  | .expire name _ => name
  | .ttl name => name

namespace RedisTable

/-- A command touches the key it names and no other. -/
theorem get_execute_of_ne {now : ℚ} {command : RedisCommand} {name : String} (h : name ≠ command.name)
    (table : RedisTable) : (execute now command table).2.get name = table.get name := by
  have hput : ∀ counter : RedisCounter, counter.name = command.name →
      (table.put counter).get name = table.get name := by
    intro counter hname
    exact Keyed.get_put_of_ne table fun he => h (he.trans hname)
  cases command with
  | incr other => exact hput _ (name_incr now table other)
  | expire other time =>
    unfold execute
    dsimp only
    split
    next => rfl
    next counter hlive =>
      split
      next =>
        apply Option.ext
        intro a
        rw [Keyed.get_filter]
        constructor
        · exact fun ha => ha.1
        · intro ha
          exact ⟨ha, decide_eq_true (Keyed.key_of_get ha ▸ h)⟩
      next =>
        have hname : counter.name = other := Keyed.key_of_get (live_eq_some.mp hlive).1
        exact hput _ hname
  | ttl other =>
    unfold execute
    dsimp only
    split
    next => rfl
    next => split <;> rfl

/-- `TTL` reads. -/
theorem execute_ttl_table (now : ℚ) (name : String) (table : RedisTable) :
    (execute now (.ttl name) table).2 = table := by
  unfold execute
  dsimp only
  split
  next => rfl
  next => split <;> rfl

end RedisTable

section Counter

variable (key : String) (limit windowSeconds : Int)

/-- What the counter of the key says of the calls it admitted: they fall into windows that are long
enough, the last of which is the one of the counter. -/
structure Windowed (events : List (ℚ × Nat)) (now : ℚ) (table : RedisTable) : Prop where
  past : ∀ x ∈ events, x.1 ≤ now
  absent : table.get key = none → events = []
  present : ∀ counter, table.get key = some counter → ∃ start ≤ now,
    FixedWindow.Covered (windowSeconds : ℚ) limit.toNat events
      ⟨start, min counter.value limit.toNat⟩ ∧
    ∀ expiresAt ∈ counter.expiresAt, start + windowSeconds ≤ expiresAt ∧
      ∀ x ∈ events, x.1 < expiresAt

variable {key limit windowSeconds} {events : List (ℚ × Nat)} {now now' : ℚ} {table table' : RedisTable}

/-- The invariant of a key depends on its entry alone, and stays while time passes. -/
theorem Windowed.congr (h : Windowed key limit windowSeconds events now table) (le : now ≤ now')
    (same : table'.get key = table.get key) :
    Windowed key limit windowSeconds events now' table' where
  past x hx := (h.past x hx).trans le
  absent hnone := h.absent (same ▸ hnone)
  present counter hcounter := by
    obtain ⟨start, hstart, hcovered⟩ := h.present counter (same ▸ hcounter)
    exact ⟨start, hstart.trans le, hcovered⟩

/-- The weight of a call in the window: whether its count is within the limit. -/
def admittedWeight (limit : Int) (count : Nat) : Nat := if (count : Int) ≤ limit then 1 else 0

/-- A call is admitted exactly while the count is below the limit, so the admitted ones are counted up
to it. -/
theorem min_add_admittedWeight (limit : Int) (count : Nat) :
    min (count + 1) limit.toNat = min count limit.toNat + admittedWeight limit (count + 1) := by
  unfold admittedWeight
  split <;> omega

/-- `INCR` at a later time. -/
theorem Windowed.incr (h : Windowed key limit windowSeconds events now table) (le : now ≤ now') :
    let counter := RedisTable.incr now' key table
    Windowed key limit windowSeconds (events ++ [(now', admittedWeight limit counter.value)]) now'
      (table.put counter) := by
  intro counter
  have hpast : ∀ x ∈ events ++ [(now', admittedWeight limit counter.value)], x.1 ≤ now' := by
    intro x hx
    rcases List.mem_append.mp hx with hold | hnew
    · exact (h.past x hold).trans le
    · rw [List.mem_singleton.mp hnew]
  have hget : (table.put counter).get key = some counter :=
    Keyed.get_put_of_eq table (RedisTable.name_incr now' table key)
  have hadmit : ∀ {count : Nat} {start : ℚ}, counter.value = count + 1 → start ≤ now' →
      FixedWindow.Covered (windowSeconds : ℚ) limit.toNat events ⟨start, min count limit.toNat⟩ →
      (∀ expiresAt ∈ counter.expiresAt, start + windowSeconds ≤ expiresAt ∧
        (∀ x ∈ events, x.1 < expiresAt) ∧ now' < expiresAt) →
      Windowed key limit windowSeconds (events ++ [(now', admittedWeight limit counter.value)]) now'
        (table.put counter) := by
    intro count start hvalue hstart hcovered hexpiry
    refine ⟨hpast, fun hnone => ?_, fun other hother => ⟨start, hstart, ?_, ?_⟩⟩
    · cases hget.symm.trans hnone
    · cases hget.symm.trans hother
      have hcount := min_add_admittedWeight limit count
      have hroom : min count limit.toNat + admittedWeight limit (count + 1) ≤ limit.toNat := by omega
      rw [hvalue, hcount]
      exact hcovered.snoc hstart hroom
    · cases hget.symm.trans hother
      intro expiresAt hexpires
      obtain ⟨hlength, hbefore, hnow⟩ := hexpiry expiresAt hexpires
      refine ⟨hlength, fun x hx => ?_⟩
      rcases List.mem_append.mp hx with hold | hnew
      · exact hbefore x hold
      · rw [List.mem_singleton.mp hnew]
        exact hnow
  -- a counter that starts with this call
  have hfresh : (∀ other ∈ table.get key, ∃ expiresAt ∈ other.expiresAt, expiresAt ≤ now') →
      FixedWindow.Covered (windowSeconds : ℚ) limit.toNat events ⟨now', 0⟩ →
      Windowed key limit windowSeconds (events ++ [(now', admittedWeight limit counter.value)]) now'
        (table.put counter) := by
    intro hover hcovered
    have hcounter : counter = { name := key, value := 1, expiresAt := none } :=
      RedisTable.incr_of_not_live hover
    have hvalue : counter.value = 0 + 1 := by rw [hcounter]
    refine hadmit hvalue (le_refl _) ?_ ?_
    · rw [Nat.zero_min]
      exact hcovered
    · rw [hcounter]
      exact nofun
  cases hstored : table.get key with
  | none =>
    refine hfresh (by rw [hstored]; exact nofun) ?_
    rw [h.absent hstored]
    exact FixedWindow.covered_nil now'
  | some stored =>
    obtain ⟨start, hstart, hcovered, hexpiry⟩ := h.present stored hstored
    by_cases hover : ∃ expiresAt ∈ stored.expiresAt, expiresAt ≤ now'
    · obtain ⟨expiresAt, hexpires, hended⟩ := hover
      obtain ⟨hlength, hbefore⟩ := hexpiry expiresAt hexpires
      refine hfresh ?_ (hcovered.next (hlength.trans hended) fun x hx => (hbefore x hx).trans_le hended)
      intro other hother
      cases hstored.symm.trans hother
      exact ⟨expiresAt, hexpires, hended⟩
    · have hlater : ∀ expiresAt ∈ stored.expiresAt, now' < expiresAt := fun expiresAt hexpires =>
        not_le.mp fun hended => hover ⟨expiresAt, hexpires, hended⟩
      have hcounter : counter = { stored with value := stored.value + 1 } :=
        RedisTable.incr_of_live (RedisTable.live_eq_some.mpr ⟨hstored, hlater⟩)
      refine hadmit (by rw [hcounter]) (hstart.trans le) hcovered ?_
      intro expiresAt hexpires
      rw [hcounter] at hexpires
      obtain ⟨hlength, hbefore⟩ := hexpiry expiresAt hexpires
      exact ⟨hlength, hbefore, hlater expiresAt hexpires⟩

/-- `EXPIRE` at a later time, by whichever call. -/
theorem Windowed.expire (h : Windowed key limit windowSeconds events now table) (le : now ≤ now')
    (positive : 1 ≤ windowSeconds) :
    Windowed key limit windowSeconds events now'
      (RedisTable.execute now' (.expire key windowSeconds) table).2 := by
  have hlength : (0 : ℚ) < windowSeconds := by exact_mod_cast (by omega : (0 : Int) < windowSeconds)
  unfold RedisTable.execute
  dsimp only
  split
  next => exact h.congr le rfl
  next counter hlive =>
    rw [if_neg (by omega)]
    have hstored := (RedisTable.live_eq_some.mp hlive).1
    have hname : counter.name = key := Keyed.key_of_get hstored
    have hget : (table.put { counter with expiresAt := some (now' + windowSeconds) }).get key =
        some { counter with expiresAt := some (now' + windowSeconds) } :=
      Keyed.get_put_of_eq table hname
    obtain ⟨start, hstart, hcovered, -⟩ := h.present counter hstored
    refine ⟨fun x hx => (h.past x hx).trans le, fun hnone => ?_,
      fun other hother => ⟨start, hstart.trans le, ?_, ?_⟩⟩
    · cases hget.symm.trans hnone
    · cases hget.symm.trans hother
      exact hcovered
    · cases hget.symm.trans hother
      intro expiresAt hexpires
      cases hexpires
      refine ⟨by linarith, fun x hx => ?_⟩
      have hx := h.past x hx
      linarith

end Counter

/-! ## Every order of the commands -/

/-- One command of a process: when the server sees it, and what becomes of the commands then. -/
structure RedisMove where
  thread : Nat
  now : ℚ
  delivery : RedisCommand → RedisDelivery

/-- The calls of all processes, and the server. -/
abbrev RedisPool := Pool Exn RedisCommand.Answer RateLimitDecision RedisTable

def redisMove (move : RedisMove) (pool : RedisPool) : Unit × RedisPool :=
  Pool.step (handleRedis move.now move.delivery) move.thread pool

/-- No call has begun, and the server has no counters. -/
def sharedPool (requests : List LimiterRequest) : RedisPool :=
  ⟨Keyed.empty, requests.map LimiterRequest.program⟩

abbrev RedisMoveStep := Step RedisPool RedisMove Unit

/-- A call of the key is counted: its `INCR` is sent. -/
def CountedCall (key : String) (st : RedisMoveStep) : Prop :=
  st.before.message? st.input.thread = some (.incr key)

/-- The count that the server comes to. -/
def countAt (key : String) (st : RedisMoveStep) : Nat :=
  (RedisTable.incr st.input.now key st.before.state).value

/-- A call of the key is counted within the limit. -/
def Admitted (key : String) (limit : Int) (st : RedisMoveStep) : Prop :=
  CountedCall key st ∧ st.input.delivery (.incr key) ≠ .refused ∧ (countAt key st : Int) ≤ limit

instance (key : String) (limit : Int) (st : RedisMoveStep) : Decidable (Admitted key limit st) := by
  unfold Admitted CountedCall
  infer_instance

/-- The event of a call that the server counts. -/
def countedEvent (key : String) (limit : Int) (st : RedisMoveStep) : Option (ℚ × Nat) :=
  if st.before.message? st.input.thread = some (.incr key) ∧
      st.input.delivery (.incr key) ≠ .refused then
    some (st.input.now, admittedWeight limit (countAt key st))
  else none

/-- Where a call stands. -/
def InCall (request : LimiterRequest) (p : Prog Exn RedisCommand.Answer RateLimitDecision) : Prop :=
  p = request.program ∨ p.Sends request.AfterCount

/-- The command that a call sends next. -/
theorem InCall.message {request : LimiterRequest} {p : Prog Exn RedisCommand.Answer RateLimitDecision}
    (h : InCall request p) {command : RedisCommand} (next : p.next? = some command) :
    (p = request.program ∧ command = .incr request.key) ∨ request.AfterCount command := by
  rcases h with rfl | hsends
  · obtain ⟨k, hprogram, -⟩ := request.program_eq
    rw [hprogram] at next
    exact Or.inl ⟨rfl, (Option.some.inj next).symm⟩
  · cases p with
    | ret a => cases next
    | raise e => cases next
    | call m k =>
      cases next
      exact Or.inr hsends.1

/-- A call goes on as a call. -/
theorem InCall.advance {request : LimiterRequest}
    {p : Prog Exn RedisCommand.Answer RateLimitDecision} (h : InCall request p)
    (handler : Handler Exn RedisCommand.Answer RedisTable) (table : RedisTable) :
    InCall request (p.advance handler table).1 := by
  rcases h with rfl | hsends
  · obtain ⟨k, hprogram, hok, herror⟩ := request.program_eq
    right
    rw [hprogram]
    show (k (handler (.incr request.key) table).1).Sends _
    cases (handler (.incr request.key) table).1 with
    | ok count =>
      rw [hok]
      exact request.rest_sends count
    | error e =>
      rw [herror]
      trivial
  · exact Or.inr (hsends.advance handler table).1

section Shared

variable (key : String) (limit windowSeconds : Int) (requests : List LimiterRequest)

/-- What holds along a run of the processes. -/
structure SharedRun (history : List RedisMoveStep) (pool : RedisPool) : Prop where
  calls : ∀ (i : Nat) p, pool.threads[i]? = some p → ∃ request ∈ requests, InCall request p
  /-- A call that was counted decides on its count. -/
  counted : ∀ st ∈ history, CountedCall key st → ∃ p, pool.threads[st.input.thread]? = some p ∧
    p.Returns fun decision => decision.allowed = true → Admitted key limit st
  window : ∀ now, (∀ st ∈ history, st.input.now ≤ now) →
    Windowed key limit windowSeconds (history.filterMap (countedEvent key limit)) now pool.state

variable {key limit windowSeconds requests}

/-- No counter, no window, and every thread before its first command. -/
theorem sharedRun_start : SharedRun key limit windowSeconds requests [] (sharedPool requests) where
  calls i p hp := by
    rw [sharedPool, List.getElem?_map] at hp
    obtain ⟨request, hrequest, rfl⟩ := Option.map_eq_some_iff.mp hp
    exact ⟨request, List.mem_of_getElem? hrequest, Or.inl rfl⟩
  counted st hst := absurd hst List.not_mem_nil
  window now _ := ⟨fun x hx => absurd hx List.not_mem_nil, fun _ => rfl, fun counter hcounter => by
    cases hcounter⟩

/-- A command that is refused is not executed; one whose answer is lost is. -/
theorem handleRedis_table (now : ℚ) (delivery : RedisCommand → RedisDelivery) (command : RedisCommand)
    (table : RedisTable) : (handleRedis now delivery command table).2 =
      if delivery command = .refused then table else (RedisTable.execute now command table).2 := by
  unfold handleRedis
  cases delivery command <;> rfl

/-- A command that does not count the key keeps what its counter says. -/
theorem Windowed.execute {events : List (ℚ × Nat)} {now now' : ℚ} {table : RedisTable}
    (h : Windowed key limit windowSeconds events now table) (le : now ≤ now')
    (positive : 1 ≤ windowSeconds) {command : RedisCommand} (other : command ≠ .incr key)
    (own : ∀ time, command = .expire key time → time = windowSeconds) :
    Windowed key limit windowSeconds events now' (RedisTable.execute now' command table).2 := by
  by_cases hname : key = command.name
  · cases command with
    | incr name => exact absurd (congrArg RedisCommand.incr hname.symm) other
    | expire name time =>
      cases hname
      rw [own time rfl]
      exact h.expire le positive
    | ttl name =>
      rw [RedisTable.execute_ttl_table]
      exact h.congr le rfl
  · exact h.congr le (RedisTable.get_execute_of_ne hname table)

/-- What one command keeps, of any call in any interleaving: an `INCR` is one more event in the window
of its key, and the commands behind it set, keep or read its expiry. A command that is refused changes
nothing, and one whose answer is lost counts all the same. -/
theorem SharedRun.step (positive : 1 ≤ windowSeconds)
    (alike : ∀ request ∈ requests, request.key = key →
      request.limit = limit ∧ request.windowSeconds = windowSeconds)
    {history : List RedisMoveStep} {pool : RedisPool}
    (h : SharedRun key limit windowSeconds requests history pool) (move : RedisMove)
    (later : ∀ st ∈ history, st.input.now ≤ move.now) :
    SharedRun key limit windowSeconds requests (history ++ [stepAt redisMove pool move])
      (redisMove move pool).2 := by
  let handler := handleRedis move.now move.delivery
  let st := stepAt redisMove pool move
  have hwindow := h.window move.now later
  -- what is left to show once the events of this step are known
  have hkeep : (∀ (i : Nat) p, (redisMove move pool).2.threads[i]? = some p →
        ∃ request ∈ requests, InCall request p) →
      (CountedCall key st → ∃ p, (redisMove move pool).2.threads[move.thread]? = some p ∧
        p.Returns fun decision => decision.allowed = true → Admitted key limit st) →
      Windowed key limit windowSeconds (history.filterMap (countedEvent key limit) ++
        (countedEvent key limit st).toList) move.now (redisMove move pool).2.state →
      SharedRun key limit windowSeconds requests (history ++ [st]) (redisMove move pool).2 := by
    intro hcalls hcounted hnext
    refine ⟨hcalls, fun old hold hcount => ?_, fun now hnow => ?_⟩
    · rcases List.mem_append.mp hold with hold | hnew
      · obtain ⟨p, hp, hreturns⟩ := h.counted old hold hcount
        exact Pool.step_returns handler hp hreturns
      · cases List.mem_singleton.mp hnew
        exact hcounted hcount
    · have hmove : move.now ≤ now :=
        hnow st (List.mem_append_right _ (List.mem_singleton_self st))
      have hevents : (history ++ [st]).filterMap (countedEvent key limit) =
          history.filterMap (countedEvent key limit) ++ (countedEvent key limit st).toList := by
        rw [List.filterMap_append]
        cases hevent : countedEvent key limit st with
        | none => rw [List.filterMap_cons_none hevent]; rfl
        | some e => rw [List.filterMap_cons_some hevent]; rfl
      rw [hevents]
      exact hnext.congr hmove rfl
  have hidle : ∀ {o : Option RedisCommand}, pool.message? move.thread = o →
      o ≠ some (.incr key) → ¬ CountedCall key st ∧ countedEvent key limit st = none := by
    intro o hmessage hne
    have hnot : ¬ CountedCall key st := fun hcount => hne (hmessage.symm.trans hcount)
    exact ⟨hnot, if_neg fun hcount => hnot hcount.1⟩
  cases hi : pool.threads[move.thread]? with
  | none =>
    obtain ⟨hnot, hevent⟩ := hidle (Pool.message?_of_none hi) nofun
    have hsame : (redisMove move pool).2 = pool := Pool.step_of_none handler hi
    rw [hsame] at hkeep ⊢
    refine hkeep h.calls (fun hcount => absurd hcount hnot) ?_
    rw [hevent, Option.toList_none, List.append_nil]
    exact hwindow
  | some p =>
    obtain ⟨request, hrequest, hcall⟩ := h.calls _ p hi
    have hmessage := Pool.message?_of_some hi
    obtain ⟨hstate, hself, hothers⟩ := Pool.step_of_some handler hi rfl
    have hcalls : ∀ (i : Nat) q, (redisMove move pool).2.threads[i]? = some q →
        ∃ request ∈ requests, InCall request q := by
      intro i q hq
      by_cases hthread : i = move.thread
      · cases hthread
        cases hself.symm.trans hq
        exact ⟨request, hrequest, hcall.advance handler pool.state⟩
      · exact h.calls i q ((hothers i hthread).symm.trans hq)
    have hended : p.next? = none → (p.advance handler pool.state).2 = pool.state →
        SharedRun key limit windowSeconds requests (history ++ [st]) (redisMove move pool).2 := by
      intro hnone hsame
      obtain ⟨hnot, hevent⟩ := hidle (hmessage.trans hnone) nofun
      refine hkeep hcalls (fun hcount => absurd hcount hnot) ?_
      rw [hevent, Option.toList_none, List.append_nil]
      exact hwindow.congr (le_refl _) (congrArg (Keyed.get · key) (hstate.trans hsame))
    cases p with
    | ret decision => exact hended rfl rfl
    | raise e => exact hended rfl rfl
    | call command k =>
      have htable : (redisMove move pool).2.state = if move.delivery command = .refused then pool.state
          else (RedisTable.execute move.now command pool.state).2 :=
        hstate.trans (handleRedis_table move.now move.delivery command pool.state)
      by_cases hcommand : command = .incr key
      · subst hcommand
        have hcounted : CountedCall key st := hmessage
        refine hkeep hcalls (fun _ => ⟨_, hself, ?_⟩) ?_
        · -- the call began with this command, and goes on with its count
          rcases hcall.message rfl with ⟨hprogram, hincr⟩ | hafter
          · have hkey : request.key = key := (RedisCommand.incr.inj hincr).symm
            subst hkey
            obtain ⟨k', hprogram', hok, herror⟩ := request.program_eq
            obtain ⟨-, hk⟩ := Prog.call.inj (hprogram.trans hprogram')
            cases hk
            show (k (handler (.incr request.key) pool.state).1).Returns _
            cases hdelivery : move.delivery (.incr request.key) with
            | refused =>
              simp only [handler, handleRedis, hdelivery, herror]
              trivial
            | answerLost =>
              simp only [handler, handleRedis, hdelivery, herror]
              trivial
            | answered =>
              simp only [handler, handleRedis, hdelivery, hok]
              have hlimit := (alike request hrequest rfl).1
              refine Prog.Returns.mono (request.rest_returns _) fun decision hreturns hallowed => ?_
              refine ⟨hcounted, ?_, hlimit ▸ hreturns hallowed⟩
              show move.delivery (.incr request.key) ≠ .refused
              intro hrefused
              cases hdelivery.symm.trans hrefused
          · rcases hafter with hexpire | httl
            · cases hexpire
            · cases httl
        · by_cases hrefused : move.delivery (.incr key) = .refused
          · have hevent : countedEvent key limit st = none := if_neg fun hcount => hcount.2 hrefused
            rw [hevent, Option.toList_none, List.append_nil, htable, if_pos hrefused]
            exact hwindow
          · have hevent : countedEvent key limit st =
                some (move.now, admittedWeight limit (countAt key st)) :=
              if_pos ⟨hcounted, hrefused⟩
            rw [hevent, htable, if_neg hrefused]
            exact hwindow.incr (le_refl _)
      · obtain ⟨hnot, hevent⟩ := hidle hmessage fun hsome => hcommand (Option.some.inj hsome)
        refine hkeep hcalls (fun hcount => absurd hcount hnot) ?_
        rw [hevent, Option.toList_none, List.append_nil, htable]
        split_ifs with hrefused
        · exact hwindow
        · refine hwindow.execute (le_refl _) positive hcommand fun time htime => ?_
          subst htime
          rcases hcall.message rfl with ⟨-, hincr⟩ | hexpire | httl
          · cases hincr
          · obtain ⟨hkey, htime⟩ := RedisCommand.expire.inj hexpire
            rw [htime]
            exact (alike request hrequest hkey.symm).2
          · cases httl

/-- Every interleaving keeps the invariant, by induction on the moves. -/
theorem sharedRun_run (positive : 1 ≤ windowSeconds)
    (alike : ∀ request ∈ requests, request.key = key →
      request.limit = limit ∧ request.windowSeconds = windowSeconds)
    {moves : List RedisMove} (ordered : moves.Pairwise fun m m' => m.now ≤ m'.now) :
    SharedRun key limit windowSeconds requests (trace redisMove (sharedPool requests) moves)
      (final redisMove (sharedPool requests) moves) := by
  induction moves using List.reverseRecOn with
  | nil => exact sharedRun_start
  | append_singleton moves move ih =>
    obtain ⟨hordered, -, hlast⟩ := List.pairwise_append.mp ordered
    rw [trace_snoc, final_snoc]
    refine (ih hordered).step positive alike move fun st hst => ?_
    have hinput := List.mem_map_of_mem (f := Step.input) hst
    rw [map_input_trace] at hinput
    exact hlast _ hinput move (List.mem_singleton_self move)

/-- The admitted calls of an interval weigh what the events of the interval weigh. -/
theorem weightIn_event (a b : ℚ) (history : List RedisMoveStep) :
    FixedWindow.weightIn a b (history.filterMap (countedEvent key limit)) =
      (history.filter fun st => decide (Admitted key limit st ∧ a ≤ st.input.now ∧
        st.input.now < b)).length := by
  induction history with
  | nil => rfl
  | cons st history ih =>
    by_cases hcounted : st.before.message? st.input.thread = some (.incr key) ∧
        st.input.delivery (.incr key) ≠ .refused
    · have hevent : countedEvent key limit st =
          some (st.input.now, admittedWeight limit (countAt key st)) :=
        if_pos hcounted
      rw [List.filterMap_cons_some hevent, FixedWindow.weightIn, ih]
      by_cases hin : Admitted key limit st ∧ a ≤ st.input.now ∧ st.input.now < b
      · have hweight : admittedWeight limit (countAt key st) = 1 := if_pos hin.1.2.2
        rw [List.filter_cons, if_pos (decide_eq_true hin), if_pos hin.2, hweight, List.length_cons,
          Nat.add_comm]
      · have hweight : (if a ≤ st.input.now ∧ st.input.now < b then
            admittedWeight limit (countAt key st) else 0) = 0 := by
          split
          next htime =>
            exact if_neg fun hle => hin ⟨⟨hcounted.1, hcounted.2, hle⟩, htime⟩
          next => rfl
        rw [hweight, Nat.zero_add, List.filter_cons, if_neg fun h => hin (of_decide_eq_true h)]
    · have hevent : countedEvent key limit st = none := if_neg hcounted
      have hnot : ¬ (Admitted key limit st ∧ a ≤ st.input.now ∧ st.input.now < b) :=
        fun h => hcounted ⟨h.1.1, h.1.2.1⟩
      rw [List.filterMap_cons_none hevent, List.filter_cons, ih,
        if_neg fun h => hnot (of_decide_eq_true h)]

/-- A history has a last reading of the clock. -/
theorem exists_last (history : List RedisMoveStep) : ∃ now, ∀ st ∈ history, st.input.now ≤ now := by
  induction history with
  | nil => exact ⟨0, fun st hst => absurd hst List.not_mem_nil⟩
  | cons st history ih =>
    obtain ⟨now, hnow⟩ := ih
    refine ⟨max st.input.now now, fun st' hst => ?_⟩
    rcases List.mem_cons.mp hst with rfl | hold
    · exact le_max_left _ _
    · exact (hnow st' hold).trans (le_max_right _ _)

/-- No interval of the length of the windows weighs more than twice the limit: at most two windows meet
it, and each admits the limit at most. -/
theorem SharedRun.every {history : List RedisMoveStep} {pool : RedisPool}
    (h : SharedRun key limit windowSeconds requests history pool) (opening : ℚ) :
    FixedWindow.weightIn opening (opening + windowSeconds) (history.filterMap (countedEvent key limit)) ≤
      2 * limit.toNat := by
  obtain ⟨now, hnow⟩ := exists_last history
  have hwindow := h.window now hnow
  cases hstored : pool.state.get key with
  | none =>
    rw [hwindow.absent hstored]
    exact Nat.zero_le _
  | some counter =>
    obtain ⟨start, -, hcovered, -⟩ := hwindow.present counter hstored
    exact hcovered.every opening

end Shared

/-- A call is allowed, and its `INCR` comes in the interval. -/
def AllowedIn (key : String) (a b : ℚ) (run : List RedisMoveStep) (pool : RedisPool) (i : Nat) : Prop :=
  (∃ decision : RateLimitDecision, pool.threads[i]? = some (.ret decision) ∧
    decision.allowed = true) ∧
  ∃ st ∈ run, st.input.thread = i ∧ CountedCall key st ∧ a ≤ st.input.now ∧ st.input.now < b

/-- **One limit for all processes**: however the commands of concurrent calls of `allow` on one server
come in, and whichever of them fail, at most twice the limit of the calls of a key are allowed in a half
open interval of the length of the windows. -/
theorem shared_limiter_bounded {key : String} {limit windowSeconds : Int} (nonneg : 0 ≤ limit)
    (positive : 1 ≤ windowSeconds) {requests : List LimiterRequest}
    (alike : ∀ request ∈ requests, request.key = key →
      request.limit = limit ∧ request.windowSeconds = windowSeconds)
    {moves : List RedisMove} (ordered : moves.Pairwise fun m m' => m.now ≤ m'.now) (opening : ℚ) :
    let run := trace redisMove (sharedPool requests) moves
    let pool := final redisMove (sharedPool requests) moves
    ∀ calls : List Nat, calls.Nodup →
      (∀ i ∈ calls, AllowedIn key opening (opening + windowSeconds) run pool i) →
        (calls.length : Int) ≤ 2 * limit := by
  intro run pool calls distinct allowed
  have hrun : SharedRun key limit windowSeconds requests run pool :=
    sharedRun_run positive alike ordered
  have hadmitted : ∀ i ∈ calls, i ∈ (run.filter fun st => decide (Admitted key limit st ∧
      opening ≤ st.input.now ∧ st.input.now < opening + windowSeconds)).map
        fun st => st.input.thread := by
    intro i hi
    obtain ⟨⟨decision, hdecision, hallowed⟩, st, hst, rfl, hcounted, htime⟩ := allowed i hi
    obtain ⟨p, hp, hreturns⟩ := hrun.counted st hst hcounted
    cases hp.symm.trans hdecision
    exact List.mem_map_of_mem (List.mem_filter.mpr ⟨hst, decide_eq_true ⟨hreturns hallowed, htime⟩⟩)
  have hlength := (List.subperm_of_subset distinct hadmitted).length_le
  rw [List.length_map, ← weightIn_event] at hlength
  have hevery := hrun.every opening
  omega

/-- Two processes and one call a minute: the second call is counted before the first one has started the
window. -/
theorem shared_limiter_bounded_pair :
    let requests : List LimiterRequest := [⟨"k", 1, 60⟩, ⟨"k", 1, 60⟩]
    let moves : List RedisMove := [⟨0, 0, fun _ => .answered⟩, ⟨1, 1, fun _ => .answered⟩,
      ⟨0, 2, fun _ => .answered⟩, ⟨0, 2, fun _ => .answered⟩, ⟨1, 3, fun _ => .answered⟩]
    let pool := final redisMove (sharedPool requests) moves
    (pool.threads.map fun p => p.next?.isNone) = [true, true] ∧
      ∀ calls : List Nat, calls.Nodup → (∀ i ∈ calls, AllowedIn "k" 0 (0 + (60 : Int))
        (trace redisMove (sharedPool requests) moves) pool i) → (calls.length : Int) ≤ 2 := by
  intro requests moves pool
  refine ⟨by decide +kernel, ?_⟩
  have hlimit : (0 : Int) ≤ 1 := by decide
  have hwindow : (1 : Int) ≤ 60 := by decide
  refine shared_limiter_bounded hlimit hwindow ?_ ?_ 0
  · intro request hrequest _
    simp only [requests, List.mem_cons, List.not_mem_nil, or_false, or_self] at hrequest
    rw [hrequest]
    exact ⟨rfl, rfl⟩
  · norm_num [moves]

end MpesaMcp
