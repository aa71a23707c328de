import MpesaMcp.App.CallbackServices
import MpesaMcp.Laws.Deliveries

/-!
# Rejected callbacks do not interfere

A delivery whose secret or source fails is written to the audit log and leaves no other trace. The
audit log is read by no part of the route, and what it answers to a new event does not depend on the
events it holds. So a sequence of deliveries, with the rejected ones left out, ends with the same
transactions and the same replay keys and answers the others alike (`rejected_noninterfering`).

Each delivery has surroundings of its own: its times and its failing statements stay with it, whichever
deliveries come before. That no two of them draw one event id is a hypothesis (`NewIds`).
-/

set_option autoImplicit false

namespace MpesaMcp

open Library Python

/-- A rejection is what the route answers. -/
theorem reported_afterCheck (event : AuditEvent) (response : CallbackResponse)
    (rest : App CallbackResponse) :
    (ask (.logEvent event) >>= fun _ => pure (some response)) >>= afterCheck rest =
      ask (.logEvent event) >>= fun _ => pure response :=
  Prog.bind_assoc _ _ _

/-- A rejected delivery raises, or reports one event and answers. -/
theorem post_rejected {route : CallbackRoute} {request : CallbackRequest}
    (unauthenticated : ¬ route.Authenticated request) (py : Runtime) :
    (∃ e, route.post py request = .raise e) ∨
      ∃ event response, route.post py request = ask (.logEvent event) >>= fun _ => pure response := by
  rw [post_eq]
  cases validateCallbackSecret_runs route request.callbackSecret with
  | raised _ _ e program =>
    rw [program]
    exact Or.inl ⟨e, rfl⟩
  | rejected _ _ event _ response _ program =>
    rw [program]
    exact Or.inr ⟨event, response, reported_afterCheck event response _⟩
  | passed valid _ program =>
    rw [program]
    cases rejectUntrusted_runs route request.headers with
    | passed verified => exact absurd ⟨valid, verified⟩ unauthenticated
    | raised _ _ e program =>
      rw [program]
      exact Or.inl ⟨e, rfl⟩
    | rejected _ _ event _ response _ program =>
      rw [program]
      exact Or.inr ⟨event, response, reported_afterCheck event response _⟩

/-! ## Event ids -/

section Ids

variable {τ π ρ α : Type} (container : CallbackContainer τ π ρ α)

/-- No two deliveries draw one event id, and none draws an id that is stored. -/
structure NewIds (repository : AuditRepository α) (deliveries : List TimedDelivery) (audit : α) :
    Prop where
  distinct : deliveries.Pairwise fun d d' => ∀ m n, d.env.uuid4 m ≠ d'.env.uuid4 n
  fresh : ∀ d ∈ deliveries, ∀ n, d.env.uuid4 n ∉ repository.eventIds audit

/-- Within a delivery: the ids that it and the later ones still draw are not stored. -/
structure Fresh (d : TimedDelivery) (later : List TimedDelivery) (w : CallbackWorld τ π ρ α) :
    Prop where
  own : ∀ n, w.app.ambient.uuidDraws ≤ n → d.env.uuid4 n ∉ container.auditRepository.eventIds w.audit
  others : ∀ d' ∈ later, ∀ n, d'.env.uuid4 n ∉ container.auditRepository.eventIds w.audit

variable {container} {d : TimedDelivery} {later : List TimedDelivery}

/-- A call that leaves the audit log alone. -/
theorem Fresh.forward {w w' : CallbackWorld τ π ρ α} (h : Fresh container d later w)
    (forward : w.app.ambient.Forward w'.app.ambient) (audit : w'.audit = w.audit) :
    Fresh container d later w' where
  own n hn := by
    rw [audit]
    exact h.own n (Nat.le_trans forward.uuidDraws hn)
  others := by
    rw [audit]
    exact h.others

/-- A saved event takes the id it drew. -/
theorem Fresh.saveEvent {w : CallbackWorld τ π ρ α} (h : Fresh container d later w)
    (apart : ∀ d' ∈ later, ∀ m n, d.env.uuid4 m ≠ d'.env.uuid4 n) (event : AuditEvent) :
    Fresh container d later
      (handleCallbacks container d.env d.correlationId (.logEvent event) w).2 := by
  have hdraws := container.auditRepository.draws d.env d.correlationId event w.app.ambient w.audit
  have hstores := container.auditRepository.stores d.env d.correlationId event w.app.ambient w.audit
  constructor
  · intro n hn hstored
    have hn : (container.auditRepository.saveEvent d.env d.correlationId event
      (w.app.ambient, w.audit)).2.1.uuidDraws ≤ n := hn
    rcases hstores _ hstored with hbefore | hdrawn
    · exact h.own n (by omega) hbefore
    · have hsame := d.env.uuid4_injective hdrawn
      omega
  · intro d' hd' n hstored
    rcases hstores _ hstored with hbefore | hdrawn
    · exact h.others d' hd' n hbefore
    · exact apart d' hd' _ _ hdrawn.symm

theorem Fresh.handle {w : CallbackWorld τ π ρ α} (h : Fresh container d later w)
    (apart : ∀ d' ∈ later, ∀ m n, d.env.uuid4 m ≠ d'.env.uuid4 n) (m : Msg) :
    Fresh container d later (handleCallbacks container d.env d.correlationId m w).2 := by
  cases m with
  | logEvent event => exact h.saveEvent apart event
  | checkAndStore key windowSeconds =>
    exact h.forward
      (container.replayProtection.forward d.env key windowSeconds w.app.ambient w.replay) rfl
  | now => exact h.forward (handle_forward d.env container.toAppContainer .now w.app) rfl
  | uuid4 => exact h.forward (handle_forward d.env container.toAppContainer .uuid4 w.app) rfl
  | transactions m =>
    exact h.forward (handle_forward d.env container.toAppContainer (.transactions m) w.app) rfl
  | approvals m =>
    exact h.forward (handle_forward d.env container.toAppContainer (.approvals m) w.app) rfl
  | provider m =>
    exact h.forward (handle_forward d.env container.toAppContainer (.provider m) w.app) rfl
  | increment counter =>
    exact h.forward (handle_forward d.env container.toAppContainer (.increment counter) w.app) rfl

end Ids

/-! ## Two runs -/

section Runs

variable {τ π ρ α : Type} {container : CallbackContainer τ π ρ α}

/-- Two worlds within one delivery: they differ in the events that are stored. -/
structure AlikeWithin (container : CallbackContainer τ π ρ α) (d : TimedDelivery)
    (later : List TimedDelivery) (s t : CallbackWorld τ π ρ α) : Prop where
  app : s.app = t.app
  replay : s.replay = t.replay
  left : Fresh container d later s
  right : Fresh container d later t

/-- Two worlds between deliveries, these being the ones to come. -/
structure AlikeBefore (container : CallbackContainer τ π ρ α) (deliveries : List TimedDelivery)
    (s t : CallbackWorld τ π ρ α) : Prop where
  app : s.arrive.app = t.arrive.app
  replay : s.replay = t.replay
  left : NewIds container.auditRepository deliveries s.audit
  right : NewIds container.auditRepository deliveries t.audit

variable {d : TimedDelivery} {later : List TimedDelivery} {s t : CallbackWorld τ π ρ α}

theorem NewIds.apart {repository : AuditRepository α} {audit : α}
    (h : NewIds repository (d :: later) audit) : ∀ d' ∈ later, ∀ m n, d.env.uuid4 m ≠ d'.env.uuid4 n :=
  (List.pairwise_cons.mp h.distinct).1

theorem NewIds.fresh_arrive (h : NewIds container.auditRepository (d :: later) s.audit) :
    Fresh container d later s.arrive where
  own n _ := h.fresh d (List.mem_cons_self ..) n
  others d' hd' := h.fresh d' (List.mem_cons_of_mem _ hd')

theorem Fresh.newIds {repository : AuditRepository α} {audit : α} {w : CallbackWorld τ π ρ α}
    (h : Fresh container d later w) (before : NewIds repository (d :: later) audit) :
    NewIds container.auditRepository later w.audit where
  distinct := (List.pairwise_cons.mp before.distinct).2
  fresh := h.others

/-- Every call of a delivery is answered alike in two such worlds. -/
theorem AlikeWithin.handle (apart : ∀ d' ∈ later, ∀ m n, d.env.uuid4 m ≠ d'.env.uuid4 n) (m : Msg)
    (h : AlikeWithin container d later s t) :
    let r := handleCallbacks container d.env d.correlationId m s
    let r' := handleCallbacks container d.env d.correlationId m t
    r.1 = r'.1 ∧ AlikeWithin container d later r.2 r'.2 := by
  intro r r'
  have hleft := h.left.handle apart m
  have hright := h.right.handle apart m
  obtain ⟨app, replay, audit⟩ := s
  obtain ⟨app', replay', audit'⟩ := t
  obtain ⟨happ, hreplay, hs, ht⟩ := h
  dsimp only at happ hreplay
  subst happ hreplay
  cases m with
  | logEvent event =>
    obtain ⟨hanswer, hambient⟩ := container.auditRepository.alike d.env d.correlationId event
      app.ambient audit audit' (hs.own _ (Nat.le_refl _)) (ht.own _ (Nat.le_refl _))
    refine ⟨hanswer, ?_, rfl, hleft, hright⟩
    show { app with ambient := _ } = { app with ambient := _ }
    rw [hambient]
  | _ => exact ⟨rfl, rfl, rfl, hleft, hright⟩

/-- A delivery is answered alike before two such worlds. -/
theorem AlikeBefore.deliver (h : AlikeBefore container (d :: later) s t) :
    (deliver container d s).1 = (deliver container d t).1 ∧
      AlikeBefore container later (deliver container d s).2 (deliver container d t).2 := by
  have hwithin : AlikeWithin container d later s.arrive t.arrive :=
    ⟨h.app, h.replay, h.left.fresh_arrive, h.right.fresh_arrive⟩
  obtain ⟨hanswer, hafter⟩ := Prog.run_simulates (P := fun _ => True)
    (fun m _ _ _ hst => AlikeWithin.handle h.left.apart m hst) (Prog.sends_true _) hwithin
  refine ⟨hanswer, ?_, hafter.replay, hafter.left.newIds h.left, hafter.right.newIds h.right⟩
  exact congrArg (fun app => { app with ambient := {} }) hafter.app

/-- A rejected delivery leaves a world like the one it met. -/
theorem AlikeBefore.reject (unauthenticated : ¬ container.callbackRoute.Authenticated d.request)
    (h : AlikeBefore container (d :: later) s t) :
    AlikeBefore container later (MpesaMcp.deliver container d s).2 t := by
  have hright : NewIds container.auditRepository later t.audit :=
    (NewIds.fresh_arrive (s := t) h.right).newIds h.right
  have hfresh := h.left.fresh_arrive
  unfold MpesaMcp.deliver
  rcases post_rejected unauthenticated d.env.toRuntime with ⟨e, hraises⟩ | ⟨event, response, hreports⟩
  · rw [hraises]
    exact ⟨h.app, h.replay, hfresh.newIds h.left, hright⟩
  · rw [hreports, Prog.run_bind, run_ask]
    have hstored := hfresh.handle h.left.apart (.logEvent event)
    have hreached : AlikeBefore container later
        (handleCallbacks container d.env d.correlationId (.logEvent event) s.arrive).2 t :=
      ⟨h.app, h.replay, hstored.newIds h.left, hright⟩
    cases hr : handleCallbacks container d.env d.correlationId (.logEvent event) s.arrive with
    | mk answer w =>
    rw [hr] at hreached
    cases answer with
    | ok _ => exact hreached
    | error _ => exact hreached

/-- **Rejected callbacks do not interfere.** With the deliveries left out that fail the secret check
or the source check, a run ends with the same transactions and replay keys, and answers the others
alike. -/
theorem rejected_noninterfering (container : CallbackContainer τ π ρ α)
    (deliveries : List TimedDelivery) (w : CallbackWorld τ π ρ α)
    (new : NewIds container.auditRepository deliveries w.audit) :
    let authenticated := fun d : TimedDelivery =>
      decide (container.callbackRoute.Authenticated d.request)
    let whole := final (deliver container) w deliveries
    let pruned := final (deliver container) w (deliveries.filter authenticated)
    whole.app.transactions = pruned.app.transactions ∧ whole.replay = pruned.replay ∧
      ((trace (deliver container) w deliveries).filter fun st => authenticated st.input).map
          Step.output =
        (trace (deliver container) w (deliveries.filter authenticated)).map Step.output := by
  intro authenticated whole pruned
  obtain ⟨houtputs, hfinal⟩ := @unwinding_of _ _ _ (deliver container)
    (AlikeBefore container) authenticated (fun d later s t _ h => h.deliver)
    (fun d later s t hrejected h => h.reject (of_decide_eq_false hrejected)) w w deliveries
    ⟨rfl, rfl, new, new⟩
  have htransactions : whole.arrive.app.transactions = pruned.arrive.app.transactions :=
    congrArg World.transactions hfinal.app
  exact ⟨htransactions, hfinal.replay, houtputs⟩

end Runs

/-! ## A forged delivery and a genuine one -/

/-- Surroundings like the still ones, in which `uuid4` counts in twos. -/
def Env.twos : Env where
  toRuntime := Env.still.toRuntime
  clock := Env.still.clock
  clock_mono := Env.still.clock_mono
  monotonic := Env.still.monotonic
  monotonic_mono := Env.still.monotonic_mono
  uuid4 n := String.ofList (List.replicate (n + 1) '2')
  uuid4_injective m n h := by
    have hlen := congrArg String.length h
    simpa using hlen
  databaseFails := Env.still.databaseFails

/-- A container that asks for a secret. -/
def guardedContainer : CallbackContainer Transactions Unit ReplayStore (List AuditEventRow) where
  toAppContainer := { AppContainer.mock {} with settings := { callbackSharedSecret := some "secret" } }
  replayProtection := InMemoryReplayProtection
  auditRepository := InMemoryAuditRepository

/-- A delivery with a wrong secret, and one with the same payload and the right secret. -/
def forgedThenGenuine (payload : PyDict) : List TimedDelivery :=
  [{ env := .still, request := { callbackSecret := some "guess", payload := payload } },
    { env := .twos, request := { callbackSecret := some "secret", payload := payload } }]

/-- The forged delivery takes no replay key from the genuine one. -/
theorem rejected_noninterfering_forged :
    let w : CallbackWorld Transactions Unit ReplayStore (List AuditEventRow) :=
      ⟨start Keyed.empty (), Keyed.empty, []⟩
    (final (deliver guardedContainer) w (forgedThenGenuine [])).replay =
      (final (deliver guardedContainer) w ((forgedThenGenuine []).drop 1)).replay := by
  intro w
  have hids : NewIds guardedContainer.auditRepository (forgedThenGenuine []) w.audit := by
    refine ⟨List.pairwise_cons.mpr ⟨?_, List.pairwise_singleton _ _⟩, fun _ _ _ => List.not_mem_nil⟩
    intro d hd m n h
    rw [List.mem_singleton.mp hd] at h
    have hheads := congrArg (fun id : String => id.toList.head?) h
    simp [Env.still, Env.twos, List.replicate_succ] at hheads
  exact (rejected_noninterfering guardedContainer (forgedThenGenuine []) w hids).2.1

end MpesaMcp
