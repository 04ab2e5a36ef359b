import Mathlib.Logic.Relation
import Autobahn.Session.Machine

/-!
# What user code can do

`Act` lists the elementary changes that operations, tasks and replies make,
each with its guard. Every program that user code can run is a chain of acts,
so what an act cannot do user code cannot do either.
-/

namespace Autobahn

open Foundation MsgPack Relation

/-! ## The states the changes lead to -/

/-- What an operation packs under an id, and the entry its task makes. -/
inductive Operation.Submits : Operation → UInt64 → Entry → Frame → Prop
  | subscribe (r : UInt64) (topic : Octets) (handler : WampEventHandler) :
      Submits (.subscribe topic handler) r (.subscribe handler)
        (subscribeFrame r topic)
  | unsubscribe (r subscription : UInt64) :
      Submits (.unsubscribe subscription) r .unsubscribe
        (unsubscribeFrame r subscription)
  | provide (r : UInt64) (name : Octets) (procedure : WampProcedure)
      (options : List (Octets × Object)) :
      Submits (.provide name procedure options) r (.register procedure)
        (registerFrame r options name)
  | call (r : UInt64) (procedure : Octets) (payload : Payload) (buffer : Frame)
      (h : callFrame r procedure payload = .ok buffer) :
      Submits (.call procedure payload) r .call buffer

/-- The request object made by an operation. -/
def newRequestOf (op : Operation) (entry : Entry) (requestId : UInt64)
    (buffer : Frame) : Request :=
  { kind := entry.kind, operation := op, requestId, buffer }

namespace Client

/-- An id is taken, a request object made, and its task queued. -/
def submit (c : Client) (op : Operation) (entry : Entry) (buffer : Frame) :
    Client :=
  let r := c.session.requestId + 1
  { c.takeId with
    requests := c.requests ++ [newRequestOf op entry r buffer]
    tasks := c.tasks ++ [.request c.requests.length r entry buffer] }

def sent (c : Client) (buffer : Frame) : Client :=
  c.setSession (c.session.send buffer)

/-- A reply passes its buffer on and the handle is spent. -/
def answer (c : Client) (h : Nat) (buffer : Frame) : Client :=
  let c' := c.modifyInvocation h fun v =>
    { v with replies := v.replies ++ [buffer], sendable := false }
  if c.alive then c'.enqueue (.sendResult h buffer) else c'

def hand (c : Client) (h : Nat) (buffer : Frame) : Client :=
  c.modifyInvocation h fun v => { v with handed := v.handed ++ [buffer] }

/-- The state after a reply that went through: on the `io_service` thread it
has been handed to `send` as well. -/
def replied (c : Client) (io : Bool) (h : Nat) (buffer : Frame) : Client :=
  let d := c.answer h buffer
  if c.alive ∧ io then ((d.dequeue c.tasks.length).hand h buffer).sent buffer
  else d

/-- The streams are closed by `stop`. -/
def close (c : Client) : Client :=
  c.setSession
    { c.session with stopped := true, inOpen := false, out.isOpen := false }

def markLeft (c : Client) : Client :=
  c.setSession { c.session with goodbyeSent := true, sessionId := 0 }

end Client

/-! ## Elementary changes -/

inductive Act : Client → Client → Prop
  | takeId (c : Client) : Act c c.takeId
  | submit {c : Client} {op : Operation} {entry : Entry} {buffer : Frame}
      (h : op.Submits (c.session.requestId + 1) entry buffer) :
      Act c (c.submit op entry buffer)
  | publish {c : Client} {topic : Octets} {payload : Payload} {buffer : Frame}
      (h : publishFrame (c.session.requestId + 1) topic payload = .ok buffer) :
      Act c (c.takeId.enqueue (.publish buffer))
  | stop (c : Client) : Act c (c.enqueue .stop)
  | join (c : Client) (realm : Octets) :
      Act c (c.enqueue (.join (helloFrame realm)))
  | leave (c : Client) (reason : Octets) :
      Act c (c.enqueue (.leave (goodbyeFrame reason)))
  | retrieveStop {c : Client} {p : Promise Exn Unit}
      (h : c.session.sessionStop.getFuture = some p) :
      Act c (c.setSession (storeStop p c.session))
  | retrieveJoin {c : Client} {p : Promise Exn UInt64}
      (h : c.session.sessionJoin.getFuture = some p) :
      Act c (c.setSession (storeJoin p c.session))
  | retrieveLeave {c : Client} {p : Promise Exn Octets}
      (h : c.session.sessionLeave.getFuture = some p) :
      Act c (c.setSession (storeLeave p c.session))
  | answer {c : Client} {h : Nat} {v : WampInvocation} {attempt : ReplyAttempt}
      {buffer : Frame} (hv : c.invocations[h]? = some v) (hs : v.sendable)
      (hb : attempt.frame v.requestId = .ok buffer) :
      Act c (c.answer h buffer)
  /-- a task that owns no request ends without an effect; a reply does so
  only when the session is gone -/
  | skip {c : Client} {n : Nat} {t : Task} (h : c.tasks[n]? = some t)
      (ht : ∀ ref, t.owns ref = false)
      (hs : c.alive = true → ∀ h buffer, t ≠ .sendResult h buffer) :
      Act c (c.dequeue n)
  | abandon {c : Client} {n ref : Nat} {r : UInt64} {entry : Entry}
      {buffer : Frame} (h : c.tasks[n]? = some (.request ref r entry buffer))
      (hs : c.alive = false ∨ c.session.sessionId = 0) :
      Act c ((c.dequeue n).modifyRequest ref Request.abandon)
  | stopped {c : Client} {n : Nat} (h : c.tasks[n]? = some .stop)
      (ha : c.alive) (hs : c.session.stopped = false)
      (hj : c.session.sessionId = 0) : Act c (c.dequeue n).close
  | settleStop {c : Client} {p : Promise Exn Unit}
      (h : c.session.sessionStop.settle (.ok ()) = some p)
      (hs : c.session.stopped) : Act c (c.setSession (storeStop p c.session))
  | joined {c : Client} {n : Nat} {buffer : Frame}
      (h : c.tasks[n]? = some (.join buffer)) (ha : c.alive)
      (hj : c.session.sessionId = 0) : Act c ((c.dequeue n).sent buffer)
  | left {c : Client} {n : Nat} {buffer : Frame}
      (h : c.tasks[n]? = some (.leave buffer)) (ha : c.alive)
      (hj : c.session.sessionId ≠ 0) (hg : c.session.goodbyeSent = false) :
      Act c ((c.dequeue n).markLeft.sent buffer)
  | published {c : Client} {n : Nat} {buffer : Frame}
      (h : c.tasks[n]? = some (.publish buffer)) (ha : c.alive)
      (hj : c.session.sessionId ≠ 0) : Act c ((c.dequeue n).sent buffer)
  | entered {c : Client} {n ref : Nat} {r : UInt64} {entry : Entry}
      {buffer : Frame} (h : c.tasks[n]? = some (.request ref r entry buffer))
      (ha : c.alive) (hj : c.session.sessionId ≠ 0) :
      Act c (((c.dequeue n).enter ref r entry).sent buffer)
  | handed {c : Client} {n h : Nat} {buffer : Frame}
      (ht : c.tasks[n]? = some (.sendResult h buffer)) (ha : c.alive) :
      Act c (((c.dequeue n).hand h buffer).sent buffer)

abbrev Acts : Client → Client → Prop := ReflTransGen Act

/-! ## Programs of user code are chains of acts -/

section Acts

attribute [local simp] Exec.run_bind

theorem runTask_acts (n : Nat) : Exec.Moves Acts (runTask n) := by
  intro c
  cases ht : c.tasks[n]? with
  | none => simp [runTask, ht, ReflTransGen.refl]
  | some t =>
  by_cases ha : c.alive
  case neg =>
    cases t with
    | request ref r entry buffer =>
        have h := Act.abandon ht (.inl (by simpa using ha))
        simpa [runTask, ht, Task.run, Client.dequeue, ha, Task.drop,
          abandonRequest] using ReflTransGen.single h
    | _ =>
        have h := Act.skip ht (fun _ => rfl) fun hs => absurd hs ha
        simpa [runTask, ht, Task.run, Client.dequeue, ha, Task.drop] using
          ReflTransGen.single h
  have hrun : ((runTask n).run c).2 = (t.body.run (c.dequeue n)).2 := by
    simp [runTask, ht, Task.run, Client.dequeue, ha]
  rw [hrun]
  cases t with
  | stop =>
      have hskip := ReflTransGen.single (Act.skip ht (fun _ => rfl) (by simp))
      by_cases hs : c.session.stopped
      · simpa [Task.body, Client.dequeue, hs] using hskip
      by_cases hj : c.session.sessionId = 0
      case neg => simpa [Task.body, Client.dequeue, hs, hj] using hskip
      have hstop := Act.stopped ht ha (by simpa using hs) hj
      cases hp : c.session.sessionStop.settle (.ok ()) with
      | none =>
          simpa [Task.body, Client.dequeue, hs, hj, settle, hp, Client.close]
            using ReflTransGen.single hstop
      | some p =>
          have hset := Act.settleStop (c := (c.dequeue n).close) hp rfl
          simpa [Task.body, Client.dequeue, hs, hj, settle, hp, Client.close,
            Client.setSession, storeStop] using
            (ReflTransGen.single hstop).tail hset
  | join buffer =>
      by_cases hj : c.session.sessionId = 0
      · simpa [Task.body, Client.dequeue, hj, send, Client.sent] using
          ReflTransGen.single (Act.joined ht ha hj)
      · simpa [Task.body, Client.dequeue, hj] using
          ReflTransGen.single (Act.skip ht (fun _ => rfl) (by simp))
  | leave buffer =>
      have hskip := ReflTransGen.single (Act.skip ht (fun _ => rfl) (by simp))
      by_cases hj : c.session.sessionId = 0
      · simpa [Task.body, Client.dequeue, hj] using hskip
      by_cases hg : c.session.goodbyeSent
      · simpa [Task.body, Client.dequeue, hj, hg] using hskip
      simpa [Task.body, Client.dequeue, hj, hg, send, Client.sent,
        Client.markLeft] using
        ReflTransGen.single (Act.left ht ha hj (by simpa using hg))
  | publish buffer =>
      by_cases hj : c.session.sessionId = 0
      · simpa [Task.body, Client.dequeue, hj] using
          ReflTransGen.single (Act.skip ht (fun _ => rfl) (by simp))
      · simpa [Task.body, Client.dequeue, hj, send, Client.sent] using
          ReflTransGen.single (Act.published ht ha hj)
  | request ref r entry buffer =>
      by_cases hj : c.session.sessionId = 0
      · simpa [Task.body, Client.dequeue, hj, abandonRequest] using
          ReflTransGen.single (Act.abandon ht (.inr hj))
      · simpa [Task.body, Client.dequeue, hj, send, Client.sent] using
          ReflTransGen.single (Act.entered ht ha hj)
  | sendResult h buffer =>
      simpa [Task.body, Client.dequeue, send, Client.sent, Client.hand] using
        ReflTransGen.single (Act.handed ht ha)

theorem dispatch_acts (io : Bool) {t : Task} {c d : Client}
    (h : Acts d (c.enqueue t)) : Acts d ((dispatch io t).run c).2 := by
  cases io with
  | false => simpa [dispatch] using h
  | true =>
      have hrun := runTask_acts c.tasks.length (c.enqueue t)
      simpa [dispatch] using h.trans hrun

theorem stop_acts (io : Bool) : Exec.Moves Acts (stop io) := by
  intro c
  have h := dispatch_acts io (.single (Act.stop c))
  rcases hr : (dispatch io .stop).run c with ⟨a | _, d⟩
  · simpa [stop, hr] using h
  · rw [hr] at h
    cases hp : d.session.sessionStop.getFuture with
    | none => simpa [stop, hr, getFuture, hp] using h
    | some p => simpa [stop, hr, getFuture, hp] using h.tail (.retrieveStop hp)

theorem join_acts (io : Bool) (realm : Octets) :
    Exec.Moves Acts (join io realm) := by
  intro c
  have h := dispatch_acts io (.single (Act.join c realm))
  rcases hr : (dispatch io (.join (helloFrame realm))).run c with ⟨a | _, d⟩
  · simpa [join, hr] using h
  · rw [hr] at h
    cases hp : d.session.sessionJoin.getFuture with
    | none => simpa [join, hr, getFuture, hp] using h
    | some p => simpa [join, hr, getFuture, hp] using h.tail (.retrieveJoin hp)

theorem leave_acts (io : Bool) (reason : Octets) :
    Exec.Moves Acts (leave io reason) := by
  intro c
  have h := dispatch_acts io (.single (Act.leave c reason))
  rcases hr : (dispatch io (.leave (goodbyeFrame reason))).run c with ⟨a | _, d⟩
  · simpa [leave, hr] using h
  · rw [hr] at h
    cases hp : d.session.sessionLeave.getFuture with
    | none => simpa [leave, hr, getFuture, hp] using h
    | some p =>
        simpa [leave, hr, getFuture, hp] using h.tail (.retrieveLeave hp)

/-- A request whose frame cannot be packed has taken an id; any other one is
submitted, and run at once on the `io_service` thread. -/
theorem run_request (io : Bool) (op : Operation) (entry : Entry)
    (frame : UInt64 → Except Exn Frame) (c : Client) :
    (request io op entry frame).run c =
      match frame (c.session.requestId + 1) with
      | .error e => (.error (.throws e), c.takeId)
      | .ok buffer =>
          (if io then runTask c.tasks.length else pure ()).run
            (c.submit op entry buffer) := by
  cases hf : frame (c.session.requestId + 1) with
  | error e => simp [request, nextRequestId, packed, hf, Client.takeId]
  | ok buffer =>
      cases io <;>
        simp [request, nextRequestId, packed, hf, Client.takeId, newRequest,
          dispatch, Client.submit, Client.enqueue, newRequestOf]

theorem request_acts (io : Bool) {op : Operation} {entry : Entry}
    {frame : UInt64 → Except Exn Frame}
    (h : ∀ r buffer, frame r = .ok buffer → op.Submits r entry buffer) :
    Exec.Moves Acts (request io op entry frame) := by
  intro c
  rw [run_request]
  cases hf : frame (c.session.requestId + 1) with
  | error e => exact .single (.takeId c)
  | ok buffer =>
      have hsub := ReflTransGen.single (Act.submit (h _ _ hf))
      cases io with
      | false => simpa using hsub
      | true => simpa using hsub.trans (runTask_acts c.tasks.length _)

theorem publish_acts (io : Bool) (topic : Octets) (payload : Payload) :
    Exec.Moves Acts (publish io topic payload) := by
  intro c
  cases hf : publishFrame (c.session.requestId + 1) topic payload with
  | error e =>
      simpa [publish, nextRequestId, packed, Client.takeId, hf] using
        ReflTransGen.single (Act.takeId c)
  | ok buffer =>
      have h := dispatch_acts io (.single (Act.publish hf))
      simpa [publish, nextRequestId, packed, Client.takeId, hf] using h

theorem operate_acts (io : Bool) (op : Operation) :
    Exec.Moves Acts (operate io op) := by
  cases op with
  | stop => exact stop_acts io
  | join realm => exact join_acts io realm
  | leave reason => exact leave_acts io reason
  | subscribe topic handler =>
      refine request_acts io fun r buffer h => ?_
      obtain rfl := Except.ok.inj h
      exact .subscribe r topic handler
  | unsubscribe subscription =>
      apply request_acts io
      intro r buffer h
      obtain rfl := Except.ok.inj h
      exact .unsubscribe r subscription
  | provide name procedure options =>
      apply request_acts io
      intro r buffer h
      obtain rfl := Except.ok.inj h
      exact .provide r name procedure options
  | publish topic payload => exact publish_acts io topic payload
  | call procedure payload =>
      exact request_acts io fun r buffer h => .call r procedure payload buffer h

/-- A reply call: refused, failed while packing, or through. -/
theorem run_reply (io : Bool) (h : Nat) (attempt : ReplyAttempt) (c : Client) :
    (reply io h attempt).run c =
      match c.invocations[h]? with
      | none => (.ok (), c)
      | some v =>
          if v.sendable then
            match attempt.frame v.requestId with
            | .ok buffer => (.ok (), c.replied io h buffer)
            | .error e => (.error (.throws e), c)
          else (.error (.throws (.runtimeError notSendable)), c) := by
  cases hv : c.invocations[h]? with
  | none => simp [reply, hv]
  | some v =>
  by_cases hs : v.sendable
  case neg => simp [reply, hv, hs]
  cases hb : attempt.frame v.requestId with
  | error e => simp [reply, hv, hs, hb, packed]
  | ok buffer =>
  by_cases ha : c.alive
  case neg =>
    simp [reply, hv, hs, hb, packed, sendResultFn, ha, Client.replied,
      Client.answer, Client.modifyInvocation, List.modify_modify_eq,
      Function.comp_def]
  cases io with
  | false =>
      simp [reply, hv, hs, hb, packed, sendResultFn, dispatch, ha,
        Client.replied, Client.answer, Client.modifyInvocation,
        Client.enqueue, List.modify_modify_eq, Function.comp_def]
  | true =>
      simp [reply, hv, hs, hb, packed, sendResultFn, dispatch, ha,
        Client.replied, Client.answer, Client.modifyInvocation,
        Client.enqueue, List.modify_modify_eq, Function.comp_def, runTask,
        Client.dequeue, Task.run, Task.body, send, Client.hand, Client.sent,
        Client.setSession]

theorem replied_acts {c : Client} {h : Nat} {v : WampInvocation}
    {attempt : ReplyAttempt} {buffer : Frame} (io : Bool)
    (hv : c.invocations[h]? = some v) (hs : v.sendable)
    (hb : attempt.frame v.requestId = .ok buffer) :
    Acts c (c.replied io h buffer) := by
  have hans := ReflTransGen.single (Act.answer hv hs hb)
  unfold Client.replied
  split
  · next hc =>
    have halive : (c.answer h buffer).alive := by
      simp [Client.answer, hc.1, Client.enqueue, Client.modifyInvocation]
    have htask : (c.answer h buffer).tasks[c.tasks.length]? =
        some (.sendResult h buffer) := by
      simp [Client.answer, hc.1, Client.enqueue, Client.modifyInvocation]
    exact hans.tail (.handed htask halive)
  · exact hans

theorem reply_acts (io : Bool) (h : Nat) (attempt : ReplyAttempt) :
    Exec.Moves Acts (reply io h attempt) := by
  intro c
  rw [run_reply]
  cases hv : c.invocations[h]? with
  | none => exact .refl
  | some v =>
      dsimp only
      split
      · next hs =>
        cases hb : attempt.frame v.requestId with
        | error e => exact .refl
        | ok buffer => exact replied_acts io hv hs hb
      · exact .refl

theorem action_acts (io : Bool) : ∀ a : Action, Exec.Moves Acts (a.run io)
  | .invoke op => operate_acts io op
  | .respond h attempt => reply_acts io h attempt
  | .poll n => runTask_acts n

theorem runActions_acts (io : Bool) : ∀ as : List Action,
    Exec.Moves Acts (runActions io as)
  | [] => .pure ()
  | a :: as =>
      .bind (.tryCatch (action_acts io a) fun _ => .pure ())
        fun _ => runActions_acts io as

theorem script_acts (s : Script) : Exec.Moves Acts s.run := by
  refine .bind (runActions_acts true s.actions) fun _ => ?_
  cases s.ending with
  | returns => exact .pure ()
  | throwsStd what => exact .throw _
  | throwsOther => exact .throw _

/-- The state a script leaves, however it ends. -/
def Script.after (s : Script) (c : Client) : Client :=
  ((runActions true s.actions).run c).2

theorem Script.after_acts (s : Script) (c : Client) : Acts c (s.after c) :=
  runActions_acts true s.actions c

/-- A script ends in one way, its own. -/
theorem run_script (s : Script) (c : Client) :
    s.run.run c = (match s.ending with
      | .returns => (.ok (), s.after c)
      | .throwsStd what => (.error (.throws (.user (some what))), s.after c)
      | .throwsOther => (.error (.throws (.user none)), s.after c)) := by
  have hok : ∀ (as : List Action) (c : Client), (runActions true as).run c =
      (.ok (), ((runActions true as).run c).2) := by
    intro as
    induction as with
    | nil => exact fun c => rfl
    | cons a as ih =>
        intro c
        rw [run_runActions_cons]
        exact ih _
  rw [Script.run, Exec.run_bind_ok (hok s.actions c)]
  cases s.ending <;> rfl

end Acts

/-! ## What acts leave alone -/

/-- User code changes neither what events and invocations are routed by, nor
the record of callbacks. -/
theorem Act.routing {c d : Client} (h : Act c d) :
    d.session.subscriptionHandlers = c.session.subscriptionHandlers ∧
    d.session.procedures = c.session.procedures ∧
    d.callbacks = c.callbacks ∧ d.alive = c.alive := by
  cases h
  case answer h v attempt buffer hv hs hb =>
    unfold Client.answer
    split <;> exact ⟨rfl, rfl, rfl, rfl⟩
  all_goals
    refine ⟨?_, ?_, rfl, rfl⟩ <;>
      simp [Client.takeId, Client.submit, Client.enqueue, Client.dequeue,
        Client.setSession, Client.sent, Client.close, Client.markLeft,
        Client.enter, Client.hand, Client.modifyInvocation,
        Client.modifyRequest, storeStop, storeJoin, storeLeave]

theorem Acts.routing {c d : Client} (h : Acts c d) :
    d.session.subscriptionHandlers = c.session.subscriptionHandlers ∧
    d.session.procedures = c.session.procedures ∧
    d.callbacks = c.callbacks ∧ d.alive = c.alive := by
  induction h with
  | refl => exact ⟨rfl, rfl, rfl, rfl⟩
  | tail _ h ih =>
      obtain ⟨h1, h2, h3, h4⟩ := h.routing
      exact ⟨h1.trans ih.1, h2.trans ih.2.1, h3.trans ih.2.2.1,
        h4.trans ih.2.2.2⟩

end Autobahn
