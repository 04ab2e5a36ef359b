import Autobahn.Session.LostConnection
import Autobahn.Session.Tasks

/-!
# Operations that fail

A task checks the state of the session before it does anything, and throws
when it finds its precondition violated (`Task.violation`); otherwise it goes
through (`Task.run_body`).

Two laws of failing operations are settled on this. An operation that throws
to its caller has had no effect, unless its task went through and only the
future was missing (`throwsCleanly_iff`). A violation found by a task is to
end up in the future of its operation; the code lets it out of the task
instead, and no promise ever holds it (`failuresReported_iff`).
-/

namespace Autobahn

open Foundation MsgPack Relation

/-! ## What a task finds, and what it does -/

/-- The exception of the first check that fails. -/
def Task.violation (s : WampSession) : Task → Option Exn
  | .stop =>
      if s.stopped then some (.protocolError "session already stopped")
      else if s.sessionId ≠ 0 then some (.protocolError "session still joined")
      else none
  | .join _ =>
      if s.sessionId ≠ 0 then some (.protocolError "session already joined")
      else none
  | .leave _ =>
      if s.sessionId = 0 then some .noSessionError
      else if s.goodbyeSent then some (.protocolError "goodbye already sent")
      else none
  | .publish _ | .request .. =>
      if s.sessionId = 0 then some .noSessionError else none
  | .sendResult .. => none

theorem Task.stop_violation_eq_none {s : WampSession} :
    Task.stop.violation s = none ↔ s.stopped = false ∧ s.sessionId = 0 := by
  cases hs : s.stopped <;> by_cases hj : s.sessionId = 0 <;>
    simp [violation, hs, hj]

theorem Task.leave_violation_eq_none {s : WampSession} {buffer : Frame} :
    (Task.leave buffer).violation s = none ↔
      s.sessionId ≠ 0 ∧ s.goodbyeSent = false := by
  cases hg : s.goodbyeSent <;> by_cases hj : s.sessionId = 0 <;>
    simp [violation, hg, hj]

/-- The state a task leaves whose closure dies without an effect. -/
def Task.dropped (c : Client) : Task → Client
  | .request response _ _ _ => c.modifyRequest response Request.abandon
  | _ => c

/-- The stop promise, settled by the task of `stop`. -/
def WampSession.settledStop (s : WampSession) : WampSession :=
  { s with sessionStop := { s.sessionStop with outcome := some (.ok ()) } }

/-- The state a task leaves whose checks succeed. -/
def Task.effect (c : Client) : Task → Client
  | .stop => c.close.setSession c.close.session.settledStop
  | .join buffer | .publish buffer => c.sent buffer
  | .leave buffer => c.markLeft.sent buffer
  | .request response requestId entry buffer =>
      (c.enter response requestId entry).sent buffer
  | .sendResult invocation buffer => (c.hand invocation buffer).sent buffer

section

variable {c : Client}

attribute [local simp] Exec.run_bind

/-- A violation leaves the task as an exception, and what the task would have
done is not done. -/
theorem Task.run_body_of_violation {t : Task} {e : Exn}
    (h : t.violation c.session = some e) :
    t.body.run c = (.error (.throws e), t.dropped c) := by
  cases t with
  | stop =>
      by_cases hs : c.session.stopped
      · obtain rfl : .protocolError "session already stopped" = e := by
          simpa [violation, hs] using h
        simp [body, hs, dropped]
      by_cases hj : c.session.sessionId = 0
      · simp [violation, hs, hj] at h
      · obtain rfl : .protocolError "session still joined" = e := by
          simpa [violation, hs, hj] using h
        simp [body, hs, hj, dropped]
  | join buffer =>
      by_cases hj : c.session.sessionId = 0
      · simp [violation, hj] at h
      · obtain rfl : .protocolError "session already joined" = e := by
          simpa [violation, hj] using h
        simp [body, hj, dropped]
  | leave buffer =>
      by_cases hj : c.session.sessionId = 0
      · obtain rfl : .noSessionError = e := by simpa [violation, hj] using h
        simp [body, hj, dropped]
      by_cases hg : c.session.goodbyeSent
      · obtain rfl : .protocolError "goodbye already sent" = e := by
          simpa [violation, hj, hg] using h
        simp [body, hj, hg, dropped]
      · simp [violation, hj, hg] at h
  | publish | request =>
      by_cases hj : c.session.sessionId = 0
      · obtain rfl : .noSessionError = e := by simpa [violation, hj] using h
        simp [body, hj, dropped, abandonRequest]
      · simp [violation, hj] at h
  | sendResult => cases h

/-- **A task throws what it finds violated, or goes through.** -/
theorem Task.run_body (hc : c.StopWaits) (ha : c.alive = true) (t : Task) :
    t.body.run c =
      match t.violation c.session with
      | some e => (.error (.throws e), t.dropped c)
      | none => (.ok (), t.effect c) := by
  cases hv : t.violation c.session with
  | some e => exact run_body_of_violation hv
  | none =>
      cases t with
      | stop =>
          obtain ⟨hs, hj⟩ := stop_violation_eq_none.mp hv
          -- only `stop` settles its promise, so `set_value` cannot throw here
          have hp : ¬ c.session.sessionStop.resolved := by
            intro h
            rw [hc ha h] at hs
            cases hs
          have hset : c.session.sessionStop.settle (.ok ()) =
              some { c.session.sessionStop with outcome := some (.ok ()) } :=
            Promise.settle_eq_some.mpr ⟨hp, rfl⟩
          simp [body, hs, hj, settle, hset, effect, Client.close,
            WampSession.settledStop, Client.setSession, storeStop]
      | join buffer =>
          have hj : c.session.sessionId = 0 := by simpa [violation] using hv
          simp [body, hj, effect, send, Client.sent]
      | leave buffer =>
          obtain ⟨hj, hg⟩ := leave_violation_eq_none.mp hv
          simp [body, hj, hg, effect, send, Client.sent, Client.markLeft]
      | publish | request =>
          have hj : c.session.sessionId ≠ 0 := by simpa [violation] using hv
          simp [body, hj, effect, send, Client.sent]
      | sendResult => simp [body, effect, send, Client.sent, Client.hand]

/-! ## Throwing without an effect -/

/-- Nothing was written or closed, and the session, the requests made before
and everything else are as they were; only ids may have been taken. A request
made by the failing operation itself is not a request made before. -/
structure Client.NoEffect (c d : Client) : Prop where
  session : d.session = { c.session with requestId := d.session.requestId }
  requests : c.requests <+: d.requests
  invocations : d.invocations = c.invocations
  tasks : d.tasks = c.tasks
  callbacks : d.callbacks = c.callbacks
  rxErrors : d.rxErrors = c.rxErrors
  alive : d.alive = c.alive

theorem Client.NoEffect.refl (c : Client) : c.NoEffect c :=
  ⟨rfl, List.prefix_refl _, rfl, rfl, rfl, rfl, rfl⟩

theorem Client.NoEffect.takeId (c : Client) : c.NoEffect c.takeId :=
  ⟨rfl, List.prefix_refl _, rfl, rfl, rfl, rfl, rfl⟩

/-- If the program throws, it has had no effect. -/
def Client.ThrowsCleanly {α : Type} (c : Client) (p : ClientM α) : Prop :=
  ∀ e d, p.run c = (.error e, d) → c.NoEffect d

/-- The future of a promise of the session, taken once. -/
theorem run_getFuture {α : Type} (p : Promise Exn α)
    (store : Promise Exn α → WampSession → WampSession) (c : Client) :
    (getFuture p store).run c =
      if p.retrieved then (.error (.throws .futureAlreadyRetrieved), c)
      else (.ok (), c.setSession (store { p with retrieved := true } c.session)) := by
  cases h : p.retrieved <;> simp [getFuture, Promise.getFuture, h]

/-- `stop`, `join` and `leave` take the future behind the task: a future that
is gone makes them throw when the task has had its effect. -/
theorem throwsCleanly_future {α : Type} (hc : c.StopWaits) (ha : c.alive = true)
    {t : Task} {p : WampSession → Promise Exn α}
    {store : Promise Exn α → WampSession → WampSession}
    (hdropped : t.dropped c = c)
    (hp : (p (t.effect c).session).retrieved = (p c.session).retrieved) :
    c.ThrowsCleanly (dispatch true t >>= fun _ => get >>= fun d =>
        getFuture (p d.session) store) ↔
      (t.violation c.session = none → (p c.session).retrieved = true →
        c.NoEffect (t.effect c)) := by
  have hrun := (run_dispatch_io ha t).trans (t.run_body hc ha)
  unfold Client.ThrowsCleanly
  cases hv : t.violation c.session with
  | some e =>
      simp only [hv, hdropped] at hrun
      refine iff_of_true (fun a d h => ?_) nofun
      rw [Exec.run_bind_error hrun] at h
      obtain rfl := (Prod.mk.inj h).2
      exact .refl c
  | none =>
      simp only [hv] at hrun
      rw [Exec.run_bind_ok hrun]
      simp only [Exec.run_bind, Exec.run_get, run_getFuture, hp]
      cases hr : (p c.session).retrieved with
      | false => simp
      | true => simp

/-- A frame is handed to the stream unless the session is stopped. -/
theorem noEffect_sent_iff (buffer : Frame) :
    c.NoEffect (c.sent buffer) ↔ c.session.stopped = true := by
  constructor
  · intro h
    by_contra hs
    have hout := congrArg (fun s : WampSession => s.out.writes) h.session
    have hwrites := c.session.writes_send buffer
    simp only [Client.sent, Client.setSession] at hout
    rw [hout] at hwrites
    simp [WampSession.sending, hs] at hwrites
  · intro hs
    rw [Client.sent, WampSession.send_of_stopped hs]
    exact .refl c

/-- The future that `stop`, `join` or `leave` would return is gone, and its
task would go through (and, for `join`, write). -/
def Client.FutureSpent (c : Client) : Operation → Prop
  | .stop => c.session.stopped = false ∧ c.session.sessionId = 0 ∧
      c.session.sessionStop.retrieved = true
  | .join _ => c.session.stopped = false ∧ c.session.sessionId = 0 ∧
      c.session.sessionJoin.retrieved = true
  | .leave _ => c.session.sessionId ≠ 0 ∧ c.session.goodbyeSent = false ∧
      c.session.sessionLeave.retrieved = true
  | _ => False

theorem stop_throwsCleanly_iff (hc : c.StopWaits) (ha : c.alive = true) :
    c.ThrowsCleanly (stop true) ↔ ¬ c.FutureSpent .stop := by
  have heffect : ¬ (c.session.stopped = false ∧ c.NoEffect (Task.stop.effect c)) := by
    rintro ⟨hs, h⟩
    have hstopped : true = c.session.stopped :=
      congrArg (fun s : WampSession => s.stopped) h.session
    rw [hs] at hstopped
    cases hstopped
  apply (throwsCleanly_future hc ha rfl rfl).trans
  rw [Task.stop_violation_eq_none]
  constructor
  · rintro h ⟨hs, hj, hr⟩
    exact heffect ⟨hs, h ⟨hs, hj⟩ hr⟩
  · rintro h ⟨hs, hj⟩ hr
    exact absurd ⟨hs, hj, hr⟩ h

theorem join_throwsCleanly_iff (hc : c.StopWaits) (ha : c.alive = true)
    (realm : Octets) :
    c.ThrowsCleanly (join true realm) ↔ ¬ c.FutureSpent (.join realm) := by
  have hp : ((Task.join (helloFrame realm)).effect c).session.sessionJoin.retrieved =
      c.session.sessionJoin.retrieved :=
    congrArg Promise.retrieved (WampSession.send_sessionJoin _ _)
  apply (throwsCleanly_future hc ha rfl hp).trans
  rw [Task.effect, noEffect_sent_iff]
  cases hs : c.session.stopped <;> simp [Task.violation, Client.FutureSpent, hs]

theorem leave_throwsCleanly_iff (hc : c.StopWaits) (ha : c.alive = true)
    (reason : Octets) :
    c.ThrowsCleanly (leave true reason) ↔ ¬ c.FutureSpent (.leave reason) := by
  have hp : ((Task.leave (goodbyeFrame reason)).effect c).session.sessionLeave.retrieved =
      c.session.sessionLeave.retrieved :=
    congrArg Promise.retrieved (WampSession.send_sessionLeave _ _)
  have heffect : ¬ (c.session.goodbyeSent = false ∧
      c.NoEffect ((Task.leave (goodbyeFrame reason)).effect c)) := by
    rintro ⟨hg, h⟩
    have hsent : true = (c.markLeft.sent (goodbyeFrame reason)).session.goodbyeSent :=
      (WampSession.send_goodbyeSent c.markLeft.session _).symm
    have hgoodbye := congrArg (fun s : WampSession => s.goodbyeSent) h.session
    have hboth : true = false := hsent.trans (hgoodbye.trans hg)
    cases hboth
  apply (throwsCleanly_future hc ha rfl hp).trans
  rw [Task.leave_violation_eq_none]
  constructor
  · rintro h ⟨hj, hg, hr⟩
    exact heffect ⟨hg, h ⟨hj, hg⟩ hr⟩
  · rintro h ⟨hj, hg⟩ hr
    exact absurd ⟨hj, hg, hr⟩ h

/-- A request throws before its task has written anything: its frame cannot
be packed, or its own new request dies with the closure. -/
theorem request_throwsCleanly (hc : c.StopWaits) (ha : c.alive = true)
    (op : Operation) (entry : Entry) (frame : UInt64 → Except Exn Frame) :
    c.ThrowsCleanly (request true op entry frame) := by
  intro e d h
  rw [run_request] at h
  cases hf : frame (c.session.requestId + 1) with
  | error x =>
      rw [hf] at h
      obtain rfl := (Prod.mk.inj h).2
      exact .takeId c
  | ok buffer =>
      simp only [hf, if_true] at h
      -- dispatched inline, the task meets a client with the new request in it
      let q := newRequestOf op entry (c.session.requestId + 1) buffer
      let c' : Client := { c.takeId with requests := c.requests ++ [q] }
      let t : Task := .request c.requests.length (c.session.requestId + 1) entry buffer
      have hinline : (runTask c.tasks.length).run (c.submit op entry buffer) =
          t.body.run c' := by
        rw [← run_dispatch_io (c := c') ha t]
        simp [dispatch, c', t, q, Client.submit, Client.enqueue, Client.takeId]
      rw [hinline, t.run_body (c := c') hc ha] at h
      cases hv : t.violation c'.session with
      | none =>
          rw [hv] at h
          cases h
      | some x =>
          rw [hv] at h
          obtain rfl := (Prod.mk.inj h).2
          -- the closure dies with its own request only
          refine ⟨rfl, ?_, rfl, rfl, rfl, rfl, rfl⟩
          show c.requests <+: (c.requests ++ [q]).modify c.requests.length _
          rw [List.modify_eq_take_cons_drop (by simp), List.take_left]
          exact List.prefix_append _ _

theorem publish_throwsCleanly (hc : c.StopWaits) (ha : c.alive = true)
    (topic : Octets) (payload : Payload) :
    c.ThrowsCleanly (publish true topic payload) := by
  intro e d h
  cases hf : publishFrame (c.session.requestId + 1) topic payload with
  | error x =>
      have hrun : (publish true topic payload).run c =
          (.error (.throws x), c.takeId) := by
        simp [publish, nextRequestId, packed, Client.takeId, hf]
      rw [hrun] at h
      obtain rfl := (Prod.mk.inj h).2
      exact .takeId c
  | ok buffer =>
      have hrun : (publish true topic payload).run c =
          (dispatch true (.publish buffer)).run c.takeId := by
        simp [publish, nextRequestId, packed, Client.takeId, hf]
      rw [hrun, run_dispatch_io (c := c.takeId) ha,
        Task.run_body (c := c.takeId) hc ha] at h
      cases hv : (Task.publish buffer).violation c.takeId.session with
      | none =>
          rw [hv] at h
          cases h
      | some x =>
          rw [hv] at h
          obtain rfl := (Prod.mk.inj h).2
          exact .takeId c

end

/-- **Exactly when a throwing operation has had no effect.** In a reachable
state, an operation called on the `io_service` thread throws cleanly unless it
is a `stop`, `join` or `leave` whose future is gone and whose task goes
through. -/
theorem Client.Reachable.throwsCleanly_iff {c : Client} (h : c.Reachable)
    (ha : c.alive = true) (op : Operation) :
    c.ThrowsCleanly (operate true op) ↔ ¬ c.FutureSpent op := by
  have hc := h.stopWaits
  cases op with
  | stop => exact stop_throwsCleanly_iff hc ha
  | join realm => exact join_throwsCleanly_iff hc ha realm
  | leave reason => exact leave_throwsCleanly_iff hc ha reason
  | publish topic payload =>
      exact iff_of_true (publish_throwsCleanly hc ha topic payload) id
  | subscribe | unsubscribe | provide | call =>
      exact iff_of_true (request_throwsCleanly hc ha _ _ _) id

/-- A call in a new session is refused and leaves nothing behind. -/
theorem throwsCleanly_call_before_join :
    (Client.new fun _ => .complete).ThrowsCleanly
      (operate true (.call (octets "com.f") .none)) :=
  (Client.Reachable.throwsCleanly_iff
    (Client.reachable_runs (fun _ => .complete) []) rfl _).mpr id

/-- A second `join` before the WELCOME throws `future_already_retrieved`, and
has handed a second HELLO to the stream. -/
theorem not_throwsCleanly_second_join :
    let c := (Client.new fun _ => .complete).runs
      [.operate (.join (octets "r")), .task 0]
    ¬ c.ThrowsCleanly (operate true (.join (octets "r"))) ∧
      ((operate true (.join (octets "r"))).run c).1 =
        .error (.throws .futureAlreadyRetrieved) ∧
      ((operate true (.join (octets "r"))).run c).2.session.out.frames =
        [helloFrame (octets "r"), helloFrame (octets "r")] := by
  refine ⟨fun h => ?_, rfl, by decide⟩
  have hclean := h _ _ rfl
  have hwrites := congrArg (fun s : WampSession => s.out.writes.length)
    hclean.session
  exact absurd hwrites (by decide)

/-! ## Reporting through the future -/

/-- The kinds of exception that the checks of a task throw. -/
def Exn.isViolation : Exn → Bool
  | .protocolError _ | .noSessionError => true
  | _ => false

theorem Task.isViolation {t : Task} {s : WampSession} {e : Exn}
    (h : t.violation s = some e) : e.isViolation = true := by
  cases t with
  | stop | leave =>
      simp only [violation] at h
      split at h
      · obtain rfl := Option.some.inj h
        rfl
      · split at h
        · obtain rfl := Option.some.inj h
          rfl
        · cases h
  | join | publish | request =>
      simp only [violation] at h
      split at h
      · obtain rfl := Option.some.inj h
        rfl
      · cases h
  | sendResult => cases h

/-- The promise does not hold a violation. -/
def Unreported {α : Type} (p : Promise Exn α) : Prop :=
  ∀ e, p.outcome = some (.error e) → e.isViolation = false

theorem unreported_new {α : Type} : Unreported ({} : Promise Exn α) := nofun

theorem Unreported.settle {α : Type} {p q : Promise Exn α} {r : Except Exn α}
    (hr : ∀ e, r = .error e → e.isViolation = false)
    (h : p.settle r = some q) : Unreported q := by
  obtain ⟨-, rfl⟩ := Promise.settle_eq_some.mp h
  exact fun e he => hr e (Option.some.inj he)

theorem Unreported.settle_ok {α : Type} {p q : Promise Exn α} {a : α}
    (h : p.settle (.ok a) = some q) : Unreported q :=
  Unreported.settle (r := .ok a) (fun _ he => nomatch he) h

theorem Unreported.getFuture {α : Type} {p q : Promise Exn α}
    (hp : Unreported p) (h : p.getFuture = some q) : Unreported q := by
  obtain ⟨-, rfl⟩ := Promise.getFuture_eq_some.mp h
  exact hp

theorem Unreported.abandon {α : Type} {p : Promise Exn α} (hp : Unreported p) :
    Unreported (p.abandon .brokenPromise) := by
  by_cases h : p.resolved
  · rwa [Promise.abandon_of_resolved h]
  · rw [Promise.abandon_of_not_resolved h]
    intro e he
    obtain rfl := Except.error.inj (Option.some.inj he)
    rfl

/-- No promise that an operation hands a future out for holds a violation. -/
structure Client.NothingReported (c : Client) : Prop where
  stop : Unreported c.session.sessionStop
  join : Unreported c.session.sessionJoin
  leave : Unreported c.session.sessionLeave
  requests : ∀ q ∈ c.requests, Unreported q.promise

theorem Client.mem_modifyRequest {c : Client} {ref : Nat} {f : Request → Request}
    {q' : Request} (h : q' ∈ (c.modifyRequest ref f).requests) :
    q' ∈ c.requests ∨ ∃ q ∈ c.requests, q' = f q := by
  obtain ⟨i, hi⟩ := List.mem_iff_getElem?.mp h
  rw [Client.getElem?_modifyRequest] at hi
  split at hi
  · obtain ⟨q, hq, rfl⟩ := Option.map_eq_some_iff.mp hi
    exact .inr ⟨q, List.mem_of_getElem? hq, rfl⟩
  · exact .inl (List.mem_of_getElem? hi)

section

variable {c d : Client}

theorem Client.NothingReported.of_modify (hc : c.NothingReported) (ref : Nat)
    (f : Request → Request)
    (hf : ∀ q, Unreported q.promise → Unreported (f q).promise) :
    ∀ q ∈ (c.modifyRequest ref f).requests, Unreported q.promise := by
  intro q hq
  rcases mem_modifyRequest hq with hq | ⟨q', hq', rfl⟩
  · exact hc.requests q hq
  · exact hf q' (hc.requests q' hq')

theorem Client.NothingReported.sent (hc : c.NothingReported) (buffer : Frame) :
    (c.sent buffer).NothingReported := by
  constructor
  · simpa [Client.sent, setSession] using hc.stop
  · simpa [Client.sent, setSession] using hc.join
  · simpa [Client.sent, setSession] using hc.leave
  · exact hc.requests

theorem Client.NothingReported.settled (hc : c.NothingReported) (ref : Nat)
    {r : Except Exn Reply} (hr : ∀ e, r = .error e → e.isViolation = false) :
    (c.settled ref r).NothingReported :=
  { hc with
    requests := hc.of_modify _ _ fun _ _ e he => hr e (Option.some.inj he) }

theorem Client.NothingReported.enter (hc : c.NothingReported) (ref : Nat)
    (r : UInt64) (entry : Entry) : (c.enter ref r entry).NothingReported := by
  have hf : ∀ q : Request, Unreported q.promise →
      Unreported (if (c.session.pending entry.kind r).isSome then
        q.promise.abandon .brokenPromise else q.promise) := by
    intro q hq
    split
    · exact hq.abandon
    · exact hq
  have hrequests := hc.of_modify ref (fun q => { q with
    entered := true
    promise := if (c.session.pending entry.kind r).isSome then
      q.promise.abandon .brokenPromise else q.promise }) hf
  cases entry <;> exact ⟨hc.stop, hc.join, hc.leave, hrequests⟩

theorem Act.nothingReported (h : Act c d) (hc : c.NothingReported) :
    d.NothingReported := by
  cases h with
  | submit h =>
      refine { hc with requests := fun q hq => ?_ }
      rcases List.mem_append.mp hq with hq | hq
      · exact hc.requests q hq
      · obtain rfl := List.mem_singleton.mp hq
        exact unreported_new
  | retrieveStop h => exact { hc with stop := hc.stop.getFuture h }
  | retrieveJoin h => exact { hc with join := hc.join.getFuture h }
  | retrieveLeave h => exact { hc with leave := hc.leave.getFuture h }
  | settleStop h => exact { hc with stop := .settle_ok h }
  | answer =>
      unfold Client.answer
      split <;> exact { hc with }
  | abandon h =>
      exact { hc with requests := hc.of_modify _ _ fun _ hq => hq.abandon }
  | joined | left | published | handed =>
      refine Client.NothingReported.sent ?_ _
      exact { hc with }
  | @entered n ref r entry buffer h =>
      have hdequeue : (c.dequeue n).NothingReported := { hc with }
      exact (hdequeue.enter ref r entry).sent buffer
  | _ => exact { hc with }

theorem Move.nothingReported (h : Move c d) (hc : c.NothingReported) :
    d.NothingReported := by
  cases h with
  | quiet h =>
      cases h with
      | act h => exact h.nothingReported hc
      | settleJoin h => exact { hc with join := .settle_ok h }
      | settleLeave h => exact { hc with leave := .settle_ok h }
      | goodbye =>
          have hreset : (c.setSession
            { c.session with sessionId := 0 }).NothingReported := { hc with }
          unfold Client.left
          simp only
          split
          · exact hreset
          · exact hreset.sent _
      | _ => exact { hc with }
  | answer h =>
      cases h with
      | failed =>
          -- what the peer reports is a `runtime_error`
          exact hc.settled _ fun _ he => Except.error.inj he ▸ rfl
      | resulted => exact hc.settled _ fun _ he => nomatch he
      | @subscribed _ r s q he hq =>
          have hinstalled : (c.installHandler s q.handler).NothingReported :=
            { hc with }
          exact { hinstalled.settled q.response
            (r := .ok (.subscription s)) fun _ he => nomatch he with }
      | @unsubscribed _ r q he hq =>
          exact { hc.settled q.response (r := .ok .unsubscribed)
            fun _ he => nomatch he with }
      | @registered _ r g q he hq =>
          have hinstalled : (c.installProcedure g q.procedure).NothingReported :=
            { hc with }
          exact hinstalled.settled q.response fun _ he => nomatch he
      | subscribedTwice | registeredTwice => exact { hc with }
  | destroy =>
      -- a broken promise tells of no violation
      refine ⟨hc.stop.abandon, hc.join.abandon, hc.leave.abandon, fun q hq => ?_⟩
      obtain ⟨i, hi, rfl⟩ := List.mem_mapIdx.mp hq
      have hmem := hc.requests _ (List.getElem_mem hi)
      split
      · exact hmem
      · exact hmem.abandon

/-- **No promise ever holds a violation.** -/
theorem Client.Reachable.nothingReported (h : c.Reachable) : c.NothingReported :=
  h.invariant
    (fun _ => ⟨unreported_new, unreported_new, unreported_new,
      fun _ hq => absurd hq List.not_mem_nil⟩)
    fun _ _ hm hc => hm.nothingReported hc

end

/-- The operation that dispatched the task returns a future. -/
def Task.hasFuture : Task → Bool
  | .publish _ | .sendResult .. => false
  | _ => true

/-- The promise behind that future holds the exception `e`. -/
def Task.Reports (c : Client) (e : Exn) : Task → Prop
  | .stop => c.session.sessionStop.outcome = some (.error e)
  | .join _ => c.session.sessionJoin.outcome = some (.error e)
  | .leave _ => c.session.sessionLeave.outcome = some (.error e)
  | .request response _ _ _ => ∃ q, c.requests[response]? = some q ∧
      q.promise.outcome = some (.error e)
  | .publish _ | .sendResult .. => False

theorem Client.Reachable.not_reports {c : Client} (h : c.Reachable) {t : Task}
    {s : WampSession} {e : Exn} (hv : t.violation s = some e) :
    ¬ t.Reports c e := by
  have hc := h.nothingReported
  have he := Task.isViolation hv
  intro hr
  have hclear : e.isViolation = false := by
    cases t with
    | stop => exact hc.stop e hr
    | join => exact hc.join e hr
    | leave => exact hc.leave e hr
    | request response =>
        obtain ⟨q, hq, ho⟩ := hr
        exact hc.requests q (List.mem_of_getElem? hq) e ho
    | publish | sendResult => exact hr.elim
  rw [he] at hclear
  cases hclear

/-- What holds of every violation that a task of the run finds, if the
operation behind the task returns a future. -/
def Client.EachViolation (P : Client → Input → Start → Exn → Prop) (c : Client)
    (is : List Input) : Prop :=
  Machine.EachStep Client.step (fun d i => ∀ s ∈ i.ran d, s.2.hasFuture = true →
    ∀ e, s.2.violation s.1.session = some e → P d i s e) c is

/-- No violation leaves its task. -/
def Client.FailuresContained : Client → List Input → Prop :=
  Client.EachViolation fun _ _ s _ => (s.2.body.run s.1).1 = .ok ()

/-- Every violation ends up in the future of its operation, however the run
goes on. -/
def Client.FailuresReported : Client → List Input → Prop :=
  Client.EachViolation fun d i s e => ∃ js, s.2.Reports ((d.step i).runs js) e

/-- No task of the run finds its precondition violated. -/
def Client.NoViolation : Client → List Input → Prop :=
  Client.EachViolation fun _ _ _ _ => False

/-- A law that no violation meets holds of the runs without one. -/
theorem Client.eachViolation_iff {P : Client → Input → Start → Exn → Prop}
    {c : Client} {is : List Input}
    (hP : ∀ pre i s e, s.2.violation s.1.session = some e →
      ¬ P (c.runs pre) i s e) :
    c.EachViolation P is ↔ c.NoViolation is := by
  constructor
  · intro h pre i hi s hs hf e he
    exact hP pre i s e he (h pre i hi s hs hf e he)
  · intro h pre i hi s hs hf e he
    exact (h pre i hi s hs hf e he).elim

/-- A violation leaves its task. -/
theorem Client.failuresContained_iff (plan : Nat → WriteResult) (is : List Input) :
    (Client.new plan).FailuresContained is ↔ (Client.new plan).NoViolation is := by
  apply eachViolation_iff
  intro pre i s e he h
  rw [Task.run_body_of_violation he] at h
  cases h

/-- A violation gets into no promise, however the run goes on. -/
theorem Client.futuresReport_iff (plan : Nat → WriteResult) (is : List Input) :
    (Client.new plan).FailuresReported is ↔ (Client.new plan).NoViolation is := by
  apply eachViolation_iff
  intro pre i s e he h
  obtain ⟨js, hr⟩ := h
  have hreach : ((((Client.new plan).runs pre).step i).runs js).Reachable :=
    ⟨plan, pre ++ i :: js, by rw [Machine.run_append]; rfl⟩
  exact hreach.not_reports he hr

/-- **Exactly when failures are reported through the future**: in the runs in
which no task finds its precondition violated. A violation is neither kept
inside the task nor ever put into a promise. -/
theorem Client.failuresReported_iff (plan : Nat → WriteResult) (is : List Input) :
    (Client.new plan).FailuresContained is ∧ (Client.new plan).FailuresReported is ↔
      (Client.new plan).NoViolation is := by
  rw [failuresContained_iff, futuresReport_iff, and_self]

/-- A `call` before the session is joined: its task lets `no_session_error` out,
and its future gets `broken_promise`. -/
theorem not_failuresReported :
    let is : List Input := [.operate (.call (octets "com.f") .none), .task 0]
    ¬ (Client.new fun _ => .complete).FailuresContained is ∧
      ¬ (Client.new fun _ => .complete).FailuresReported is ∧
      ((Client.new fun _ => .complete).runs is).requests.map
        (fun q => q.promise.outcome matches some (.error .brokenPromise)) =
        [true] := by
  intro is
  have hviolated : ¬ (Client.new fun _ => .complete).NoViolation is := by
    intro h
    exact h [.operate (.call (octets "com.f") .none)] (.task 0)
      (List.prefix_refl _) _ (List.mem_singleton.mpr rfl) rfl .noSessionError rfl
  rw [Client.failuresContained_iff, Client.futuresReport_iff]
  exact ⟨hviolated, hviolated, rfl⟩

end Autobahn
