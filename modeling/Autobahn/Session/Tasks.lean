import Autobahn.Session.Lifecycle

/-!
# The tasks an input runs

Whatever a client writes, but for the answer to a GOODBYE, a task writes. A
task runs out of the queue or, posted on the `io_service` thread, at once: in
the middle of a handler, a procedure or a continuation. `Input.ran` lists the
tasks of one input, each with the state it starts in.

`Course c l d` says that the tasks in `l`, and no others, lead from `c` to
`d`. An invariant that needs a condition on every task is proved by one case
for a task and one for what happens around it (`TaskRule.step`).
-/

namespace Autobahn

open Foundation MsgPack Relation

/-! ## Which tasks run -/

/-- A task, with the state it starts in. -/
abbrev Start : Type := Client × Task

/-- The `n`-th task of the queue, if it finds the session. -/
def Client.starts (c : Client) (n : Nat) : List Start :=
  if c.alive then (c.tasks[n]?.map fun t => (c.dequeue n, t)).toList else []

/-- The state in which an operation has posted its task. An operation whose
frame cannot be packed posts none. -/
def Operation.post (c : Client) : Operation → Option Client
  | .stop => some (c.enqueue .stop)
  | .join realm => some (c.enqueue (.join (helloFrame realm)))
  | .leave reason => some (c.enqueue (.leave (goodbyeFrame reason)))
  | .subscribe topic handler =>
      some (c.submit (.subscribe topic handler) (.subscribe handler)
        (subscribeFrame (c.session.requestId + 1) topic))
  | .unsubscribe subscription =>
      some (c.submit (.unsubscribe subscription) .unsubscribe
        (unsubscribeFrame (c.session.requestId + 1) subscription))
  | .provide name procedure options =>
      some (c.submit (.provide name procedure options) (.register procedure)
        (registerFrame (c.session.requestId + 1) options name))
  | .publish topic payload =>
      match publishFrame (c.session.requestId + 1) topic payload with
      | .ok buffer => some (c.takeId.enqueue (.publish buffer))
      | .error _ => none
  | .call procedure payload =>
      match callFrame (c.session.requestId + 1) procedure payload with
      | .ok buffer => some (c.submit (.call procedure payload) .call buffer)
      | .error _ => none

/-- The state in which a reply has posted its task. -/
def ReplyAttempt.post (c : Client) (h : Nat) (attempt : ReplyAttempt) :
    Option Client :=
  match c.invocations[h]? with
  | some v =>
      if v.sendable then
        match attempt.frame v.requestId with
        | .ok buffer => some (c.answer h buffer)
        | .error _ => none
      else none
  | none => none

/-- What an operation or a reply posted runs at once. -/
def Client.ranPosted (c : Client) (posted : Option Client) : List Start :=
  match posted with
  | some d => d.starts c.tasks.length
  | none => []

def Action.ran (c : Client) : Action → List Start
  | .invoke op => c.ranPosted (op.post c)
  | .respond h attempt => c.ranPosted (attempt.post c h)
  | .poll n => c.starts n

def actionsRan (c : Client) : List Action → List Start
  | [] => []
  | a :: as => a.ran c ++ actionsRan ((a.run true).run c).2 as

/-- The handlers of one event, up to one that throws. -/
def handlersRan (user : UserCode) (e : WampEvent) :
    Nat → List WampEventHandler → Client → List Start
  | _, [], _ => []
  | k, h :: hs, c =>
      let called := c.callBack (.event h e)
      actionsRan called (user k).actions ++
        match (user k).ending with
        | .returns => handlersRan user e (k + 1) hs ((user k).after called)
        | _ => []

/-- A procedure, with the automatic ERROR of its catch clauses. -/
def procedureRan (p : WampProcedure) (h : Nat) (s : Script) (c : Client) :
    List Start :=
  let called := c.callBack (.invocation p h)
  actionsRan called s.actions ++
    match s.ending with
    | .returns => []
    | .throwsStd what => (Action.respond h (whatError what)).ran (s.after called)
    | .throwsOther => (Action.respond h bareError).ran (s.after called)

def Incoming.ran (user : UserCode) (c : Client) : Incoming → List Start
  | .event s (some e) =>
      handlersRan user e 0 (c.session.subscriptionHandlers.values s) c
  | .invocation g i details arguments kwArguments =>
      match c.session.procedures.find g with
      | some p => procedureRan p c.invocations.length (user 0)
          { c with invocations := c.invocations ++
            [{ requestId := i, details, arguments, kwArguments, sendable := true }] }
      | none => []
  | _ => []

/-- `leave` and `stop` run their tasks at once; the slot is reached when
neither of them throws. -/
def rxErrorRan (user : UserCode) (error : ReadError) (c : Client) : List Start :=
  if error = .operationAborted then []
  else
    match (settle c.session.sessionLeave (.ok (octets "socket closed"))
        storeLeave).run c with
    | (.error _, _) => []
    | (.ok _, c₁) =>
        (Action.invoke (.leave closeRealm)).ran c₁ ++
          match (leave true closeRealm).run c₁ with
          | (.error _, _) => []
          | (.ok _, c₂) =>
              (Action.invoke .stop).ran c₂ ++
                match (stop true).run c₂ with
                | (.error _, _) => []
                | (.ok _, c₃) =>
                    actionsRan { c₃ with rxErrors := c₃.rxErrors ++ [error] }
                      (user 0).actions

def Input.ran (c : Client) : Input → List Start
  | .operate _ | .handshake _ | .destroy => []
  | .task n => c.starts n
  | .respond io h attempt => if io then (Action.respond h attempt).ran c else []
  | .userCode script => if c.alive then actionsRan c script.actions else []
  | .message obj user =>
      if c.alive then (Incoming.read obj).ran user c else []
  | .rxError error user => if c.alive then rxErrorRan user error c else []

/-! ## What happens around them -/

/-- What is done before a task is run or queued. -/
inductive Prepare : Client → Client → Prop
  | takeId (c : Client) : Prepare c c.takeId
  | submit {c : Client} {op : Operation} {entry : Entry} {buffer : Frame}
      (h : op.Submits (c.session.requestId + 1) entry buffer) :
      Prepare c (c.submit op entry buffer)
  | publish {c : Client} {topic : Octets} {payload : Payload} {buffer : Frame}
      (h : publishFrame (c.session.requestId + 1) topic payload = .ok buffer) :
      Prepare c (c.takeId.enqueue (.publish buffer))
  | stop (c : Client) : Prepare c (c.enqueue .stop)
  | join (c : Client) (realm : Octets) :
      Prepare c (c.enqueue (.join (helloFrame realm)))
  | leave (c : Client) (reason : Octets) :
      Prepare c (c.enqueue (.leave (goodbyeFrame reason)))
  | answer {c : Client} {h : Nat} {v : WampInvocation} {attempt : ReplyAttempt}
      {buffer : Frame} (hv : c.invocations[h]? = some v) (hs : v.sendable)
      (hb : attempt.frame v.requestId = .ok buffer) :
      Prepare c (c.answer h buffer)

theorem Prepare.act {c d : Client} (h : Prepare c d) : Act c d := by
  cases h with
  | takeId => exact .takeId c
  | submit h => exact .submit h
  | publish h => exact .publish h
  | stop => exact .stop c
  | join realm => exact .join c realm
  | leave reason => exact .leave c reason
  | answer hv hs hb => exact .answer hv hs hb

/-- A change of promises, of the session id or of the history: no frame is
written, no task queued, and no request is touched. -/
structure Aside (c d : Client) : Prop where
  quiet : Quiet c d
  alive : d.alive = c.alive
  requests : d.requests = c.requests
  tasks : d.tasks = c.tasks
  out : d.session.out = c.session.out
  stopped : d.session.stopped = c.session.stopped
  goodbyeSent : d.session.goodbyeSent = c.session.goodbyeSent
  pending : ∀ k r, d.session.pending k r = c.session.pending k r

/-- What happens between the tasks. Without a session a task is dropped. -/
inductive Around : Client → Client → Prop
  | prepare {c d : Client} (h : Prepare c d) : Around c d
  | aside {c d : Client} (h : Aside c d) : Around c d
  | drop {c : Client} {n : Nat} {t : Task} (h : c.tasks[n]? = some t)
      (ha : c.alive = false) : Around c (t.drop.run (c.dequeue n)).2

/-- These tasks run on the way from one state to another, in this order. -/
inductive Course : Client → List Start → Client → Prop
  | refl (c : Client) : Course c [] c
  | around {c d e : Client} {l : List Start} (h : Course c l d)
      (h' : Around d e) : Course c l e
  | task {c d : Client} {l : List Start} {n : Nat} {t : Task}
      (h : Course c l d) (ht : d.tasks[n]? = some t) (ha : d.alive = true) :
      Course c (l ++ [(d.dequeue n, t)]) (t.body.run (d.dequeue n)).2

/-! ## The tasks of an input are those it ran -/

section Courses

variable {c d : Client}

attribute [local simp] Exec.run_bind

theorem Course.trans {e : Client} {l l' : List Start} (h : Course c l d)
    (h' : Course d l' e) : Course c (l ++ l') e := by
  induction h' with
  | refl => simpa using h
  | around _ h' ih => exact ih.around h'
  | task _ ht ha ih => simpa using ih.task ht ha

theorem Around.course (h : Around c d) : Course c [] d :=
  (Course.refl c).around h

theorem Prepare.course (h : Prepare c d) : Course c [] d :=
  (Around.prepare h).course

theorem Aside.course (h : Aside c d) : Course c [] d :=
  (Around.aside h).course

/-- Promises and the session id are stored aside. -/
theorem Aside.store {s : WampSession} (hquiet : Quiet c (c.setSession s))
    (h : s.out = c.session.out ∧ s.stopped = c.session.stopped ∧
      s.goodbyeSent = c.session.goodbyeSent)
    (hpending : ∀ k r, s.pending k r = c.session.pending k r) :
    Aside c (c.setSession s) where
  quiet := hquiet
  alive := rfl
  requests := rfl
  tasks := rfl
  out := h.1
  stopped := h.2.1
  goodbyeSent := h.2.2
  pending := hpending

theorem runTask_state {n : Nat} {t : Task} (h : c.tasks[n]? = some t) :
    ((runTask n).run c).2 =
      if c.alive then (t.body.run (c.dequeue n)).2
      else (t.drop.run (c.dequeue n)).2 := by
  by_cases ha : c.alive = true <;>
    simp [runTask, h, Task.run, Client.dequeue, ha]

theorem runTask_quiets {n : Nat} {t : Task} (h : c.tasks[n]? = some t) :
    Quiets c (if c.alive then (t.body.run (c.dequeue n)).2
      else (t.drop.run (c.dequeue n)).2) :=
  runTask_state h ▸ (runTask_acts n c).calms.quiets

theorem Around.quiets (h : Around c d) : Quiets c d := by
  cases h with
  | prepare h => exact .single (.act h.act)
  | aside h => exact .single h.quiet
  | drop h ha =>
      simpa only [ha, Bool.false_eq_true, if_false] using runTask_quiets h

theorem Course.quiets {l : List Start} (h : Course c l d) : Quiets c d := by
  induction h with
  | refl => exact .refl
  | around _ h ih => exact ih.trans h.quiets
  | task _ ht ha ih =>
      exact ih.trans (by simpa only [ha, if_true] using runTask_quiets ht)

theorem runTask_course (n : Nat) (c : Client) :
    Course c (c.starts n) ((runTask n).run c).2 := by
  cases ht : c.tasks[n]? with
  | none => simpa [Client.starts, ht, runTask] using Course.refl c
  | some t =>
      rw [runTask_state ht]
      by_cases ha : c.alive = true
      · simpa [Client.starts, ha, ht] using (Course.refl c).task ht ha
      · simpa [Client.starts, ha] using
          (Around.drop ht (by simpa using ha)).course

/-- What follows the posting of a task: on the `io_service` thread it runs. -/
theorem posted_course (io : Bool) {e : Client} {n : Nat} (hd : Prepare c d)
    (he : e = ((if io then runTask n else pure () : ClientM Unit).run d).2) :
    Course c (if io then d.starts n else []) e := by
  subst he
  cases io with
  | false => simpa using hd.course
  | true => simpa using hd.course.trans (runTask_course n d)

theorem dispatch_course (io : Bool) {t : Task} (hd : Prepare c (c.enqueue t)) :
    Course c (if io then (c.enqueue t).starts c.tasks.length else [])
      ((dispatch io t).run c).2 :=
  posted_course io hd (by cases io <;> simp [dispatch])

/-- An operation that posts a task and takes a future. -/
theorem dispatch_getFuture_course (io : Bool) {t : Task}
    {f : Unit → ClientM Unit} (hd : Prepare c (c.enqueue t))
    (hf : ∀ u e, Course e [] ((f u).run e).2) :
    Course c (if io then (c.enqueue t).starts c.tasks.length else [])
      ((dispatch io t >>= f).run c).2 := by
  have hfirst := dispatch_course io hd
  rcases hr : (dispatch io t).run c with ⟨a | u, e⟩ <;> rw [hr] at hfirst
  · simpa [hr] using hfirst
  · simpa [hr] using hfirst.trans (hf u e)

/-- A future is taken, or was before. -/
theorem getFuture_course {α : Type} {p : Promise Exn α}
    {store : Promise Exn α → WampSession → WampSession}
    (h : ∀ q, p.getFuture = some q →
      Aside c (c.setSession (store q c.session))) :
    Course c [] ((getFuture p store).run c).2 := by
  cases hp : p.getFuture with
  | none => simpa [getFuture, hp] using Course.refl c
  | some q => simpa [getFuture, hp] using (h q hp).course

theorem stop_course (io : Bool) (c : Client) :
    Course c (if io then c.ranPosted (Operation.stop.post c) else [])
      ((stop io).run c).2 :=
  dispatch_getFuture_course io (.stop c) fun _ d => getFuture_course fun _ hq =>
    .store (.act (.retrieveStop hq)) ⟨rfl, rfl, rfl⟩ fun k _ => by cases k <;> rfl

theorem join_course (io : Bool) (realm : Octets) (c : Client) :
    Course c (if io then c.ranPosted ((Operation.join realm).post c) else [])
      ((join io realm).run c).2 :=
  dispatch_getFuture_course io (.join c realm) fun _ d =>
    getFuture_course fun _ hq =>
      .store (.act (.retrieveJoin hq)) ⟨rfl, rfl, rfl⟩ fun k _ => by cases k <;> rfl

theorem leave_course (io : Bool) (reason : Octets) (c : Client) :
    Course c (if io then c.ranPosted ((Operation.leave reason).post c) else [])
      ((leave io reason).run c).2 :=
  dispatch_getFuture_course io (.leave c reason) fun _ d =>
    getFuture_course fun _ hq =>
      .store (.act (.retrieveLeave hq)) ⟨rfl, rfl, rfl⟩ fun k _ => by cases k <;> rfl

/-- A request posts its task once its frame is packed, and before that only
takes an id. -/
theorem request_course (io : Bool) {op : Operation} {entry : Entry}
    {frame : UInt64 → Except Exn Frame}
    (hop : ∀ r buffer, frame r = .ok buffer → op.Submits r entry buffer)
    (hpost : op.post c = match frame (c.session.requestId + 1) with
      | .ok buffer => some (c.submit op entry buffer)
      | .error _ => none) :
    Course c (if io then c.ranPosted (op.post c) else [])
      ((request io op entry frame).run c).2 := by
  rw [run_request, hpost]
  cases hf : frame (c.session.requestId + 1) with
  | error e => cases io <;> exact (Prepare.takeId c).course
  | ok buffer => exact posted_course io (.submit (hop _ _ hf)) rfl

theorem publish_course (io : Bool) (topic : Octets) (payload : Payload) :
    Course c (if io then c.ranPosted ((Operation.publish topic payload).post c)
      else []) ((publish io topic payload).run c).2 := by
  cases hf : publishFrame (c.session.requestId + 1) topic payload with
  | error e =>
      have h := (Prepare.takeId c).course
      cases io <;>
        simpa [publish, nextRequestId, packed, Client.takeId, hf,
          Operation.post, Client.ranPosted] using h
  | ok buffer =>
      have h := posted_course io (n := c.tasks.length) (Prepare.publish hf) rfl
      cases io <;>
        simpa [publish, nextRequestId, packed, Client.takeId, hf, dispatch,
          Operation.post, Client.ranPosted] using h

theorem operate_course (io : Bool) (op : Operation) (c : Client) :
    Course c (if io then c.ranPosted (op.post c) else [])
      ((operate io op).run c).2 := by
  cases op with
  | stop => exact stop_course io c
  | join realm => exact join_course io realm c
  | leave reason => exact leave_course io reason c
  | subscribe topic handler =>
      refine request_course io (fun r buffer hf => ?_) rfl
      obtain rfl := Except.ok.inj hf
      exact .subscribe r topic handler
  | unsubscribe subscription =>
      refine request_course io (fun r buffer hf => ?_) rfl
      obtain rfl := Except.ok.inj hf
      exact .unsubscribe r subscription
  | provide name procedure options =>
      refine request_course io (fun r buffer hf => ?_) rfl
      obtain rfl := Except.ok.inj hf
      exact .provide r name procedure options
  | publish topic payload => exact publish_course io topic payload
  | call procedure payload =>
      exact request_course io
        (fun r buffer hf => .call r procedure payload buffer hf) rfl

/-- A reply posts its task; without a session there is none to run. -/
theorem replied_state (io : Bool) (k : Nat) (buffer : Frame) :
    c.replied io k buffer =
      ((if io then runTask c.tasks.length else pure () : ClientM Unit).run
        (c.answer k buffer)).2 := by
  cases io with
  | false => simp [Client.replied]
  | true =>
      by_cases ha : c.alive = true
      · have htask : (c.answer k buffer).tasks[c.tasks.length]? =
            some (.sendResult k buffer) := by
          simp [Client.answer, ha, Client.enqueue, Client.modifyInvocation]
        have halive : (c.answer k buffer).alive = true := by
          simp [Client.answer, ha, Client.enqueue, Client.modifyInvocation]
        rw [if_pos rfl, runTask_state htask, if_pos halive]
        simp [Client.replied, ha, Task.body, send, Client.hand, Client.sent]
      · have htask : (c.answer k buffer).tasks[c.tasks.length]? = none := by
          simp [Client.answer, ha, Client.modifyInvocation]
        simp [Client.replied, ha, runTask, htask]

theorem reply_course (io : Bool) (k : Nat) (attempt : ReplyAttempt)
    (c : Client) :
    Course c (if io then c.ranPosted (attempt.post c k) else [])
      ((reply io k attempt).run c).2 := by
  have hnone : Course c (if io then [] else []) c := by
    simpa using Course.refl c
  rw [run_reply]
  cases hv : c.invocations[k]? with
  | none => simpa [ReplyAttempt.post, hv, Client.ranPosted] using hnone
  | some v =>
      by_cases hs : v.sendable = true
      case neg =>
        simpa [ReplyAttempt.post, hv, hs, Client.ranPosted] using hnone
      cases hb : attempt.frame v.requestId with
      | error e =>
          simpa [ReplyAttempt.post, hv, hs, hb, Client.ranPosted] using hnone
      | ok buffer =>
          have h := posted_course io (.answer hv hs hb)
            (replied_state io k buffer)
          simpa [ReplyAttempt.post, hv, hs, hb, Client.ranPosted] using h

theorem action_course (a : Action) (c : Client) :
    Course c (a.ran c) ((a.run true).run c).2 := by
  cases a with
  | invoke op => exact operate_course true op c
  | respond k attempt => exact reply_course true k attempt c
  | poll n => exact runTask_course n c

theorem runActions_course (as : List Action) : ∀ c : Client,
    Course c (actionsRan c as) ((runActions true as).run c).2 := by
  induction as with
  | nil => exact Course.refl
  | cons a as ih =>
      intro c
      rw [run_runActions_cons]
      exact (action_course a c).trans (ih ((a.run true).run c).2)

theorem Script.after_course (script : Script) (c : Client) :
    Course c (actionsRan c script.actions) (script.after c) :=
  runActions_course script.actions c

theorem script_course (script : Script) (c : Client) :
    Course c (actionsRan c script.actions) (script.run.run c).2 := by
  have h := script.after_course c
  rw [run_script]
  cases script.ending <;> exact h

/-- The loop over the handlers of one event. -/
theorem callHandlers_course (user : UserCode) (e : WampEvent) (sub : UInt64)
    (hs : List WampEventHandler) : ∀ (k : Nat) (c : Client),
      (∀ h ∈ hs, h ∈ c.session.subscriptionHandlers.values sub) →
      Course c (handlersRan user e k hs c)
        ((callHandlers user e k hs).run c).2 := by
  induction hs with
  | nil => exact fun _ c _ => .refl c
  | cons h hs ih =>
      intro k c hmem
      have hcall : Aside c (c.callBack (.event h e)) :=
        ⟨.event (hmem h List.mem_cons_self), rfl, rfl, rfl, rfl, rfl, rfl,
          fun _ _ => rfl⟩
      have hfirst := hcall.course.trans
        ((user k).after_course (c.callBack (.event h e)))
      have hrun : (callHandler h e (user k)).run c =
          (user k).run.run (c.callBack (.event h e)) := rfl
      rw [callHandlers, Exec.run_bind, hrun, run_script]
      simp only [List.nil_append] at hfirst
      cases hend : (user k).ending with
      | throwsStd what => simpa [handlersRan, hend] using hfirst
      | throwsOther => simpa [handlersRan, hend] using hfirst
      | returns =>
          have hrest := ih (k + 1) ((user k).after (c.callBack (.event h e)))
            fun h' hh' => by
              -- the handlers of the event are the same after the script
              rw [((user k).after_acts (c.callBack (.event h e))).routing.1]
              exact hmem h' (List.mem_cons_of_mem h hh')
          simpa [handlersRan, hend] using hfirst.trans hrest

theorem replyError_course (k : Nat) (attempt : ReplyAttempt) (c : Client) :
    Course c ((Action.respond k attempt).ran c)
      ((replyError k attempt).run c).2 := by
  have h : Course c (c.ranPosted (attempt.post c k))
      ((reply true k attempt).run c).2 := reply_course true k attempt c
  cases hv : c.invocations[k]? with
  | none =>
      simpa [replyError, hv, Action.ran, ReplyAttempt.post, Client.ranPosted]
        using Course.refl c
  | some v =>
      by_cases hs : v.sendable
      · simpa [replyError, hv, hs, Action.ran] using h
      · simpa [replyError, hv, hs, Action.ran, ReplyAttempt.post,
          Client.ranPosted] using Course.refl c

theorem callProcedure_course (p : WampProcedure) (k : Nat) (script : Script)
    (c : Client) :
    Course (c.callBack (.invocation p k)) (procedureRan p k script c)
      ((callProcedure p k script).run c).2 := by
  have h := script.after_course (c.callBack (.invocation p k))
  rw [run_callProcedure, procedureRan]
  cases script.ending with
  | returns => simpa using h
  | throwsStd what => exact h.trans (replyError_course k (whatError what) _)
  | throwsOther => exact h.trans (replyError_course k bareError _)

theorem handleRxError_course (user : UserCode) (error : ReadError) (c : Client) :
    Course c (rxErrorRan user error c) ((handleRxError user error).run c).2 := by
  unfold rxErrorRan
  rw [handleRxError]
  by_cases he : error = .operationAborted
  · simpa [he] using Course.refl c
  rw [if_pos he, if_neg he]
  have hfirst : Course c [] ((settle c.session.sessionLeave
      (.ok (octets "socket closed")) storeLeave).run c).2 := by
    cases hp : c.session.sessionLeave.settle (.ok (octets "socket closed")) with
    | none => simpa [settle, hp] using Course.refl c
    | some p =>
        have hset : Aside c (c.setSession (storeLeave p c.session)) :=
          .store (.settleLeave hp) ⟨rfl, rfl, rfl⟩ fun k _ => by cases k <;> rfl
        simpa [settle, hp] using hset.course
  rw [Exec.run_bind, Exec.run_get]
  dsimp only
  rw [Exec.run_bind]
  rcases h₁ : (settle c.session.sessionLeave (.ok (octets "socket closed"))
    storeLeave).run c with ⟨_ | _, c₁⟩ <;> rw [h₁] at hfirst
  · exact hfirst
  dsimp only
  have hleave : Course c₁ ((Action.invoke (.leave closeRealm)).ran c₁)
    ((leave true closeRealm).run c₁).2 := leave_course true closeRealm c₁
  rw [Exec.run_bind]
  rcases h₂ : (leave true closeRealm).run c₁ with ⟨_ | _, c₂⟩ <;>
    rw [h₂] at hleave
  · simpa using hfirst.trans hleave
  dsimp only
  have hstop : Course c₂ ((Action.invoke .stop).ran c₂)
    ((stop true).run c₂).2 := stop_course true c₂
  rw [Exec.run_bind]
  rcases h₃ : (stop true).run c₂ with ⟨_ | _, c₃⟩ <;> rw [h₃] at hstop
  · simpa using hfirst.trans (hleave.trans hstop)
  have hslot : Aside c₃ { c₃ with rxErrors := c₃.rxErrors ++ [error] } :=
    ⟨.rxError c₃ error, rfl, rfl, rfl, rfl, rfl, rfl, fun _ _ => rfl⟩
  have hscript := hslot.course.trans (script_course (user 0) _)
  simpa using hfirst.trans (hleave.trans (hstop.trans hscript))

theorem welcome_course (user : UserCode) (sessionId : Except Misread UInt64)
    (c : Client) :
    Course c [] (((Incoming.welcome sessionId).handle user).run c).2 := by
  cases sessionId with
  | error e => exact .refl c
  | ok id =>
      have hid : Aside c (c.setSession { c.session with sessionId := id }) :=
        .store (.welcome c id) ⟨rfl, rfl, rfl⟩ fun k _ => by cases k <;> rfl
      cases hp : c.session.sessionJoin.settle (.ok id) with
      | none =>
          simpa [Incoming.handle, readOk, settle, Client.setSession, hp] using
            hid.course
      | some p =>
          have hset : Aside (c.setSession { c.session with sessionId := id })
              (c.setSession { c.session with sessionId := id, sessionJoin := p }) :=
            .store (.settleJoin hp) ⟨rfl, rfl, rfl⟩ fun k _ => by cases k <;> rfl
          simpa [Incoming.handle, readOk, settle, Client.setSession, storeJoin,
            hp] using hid.course.trans hset.course

/-- After a GOODBYE, at most the leave promise is left to resolve. -/
theorem goodbye_course (user : UserCode) (reason : Except Misread Octets)
    (c : Client) :
    Course c.left [] (((Incoming.goodbye reason).handle user).run c).2 := by
  cases reason with
  | error e => simpa [Incoming.handle, readOk] using Course.refl c.left
  | ok text =>
      cases hp : c.session.sessionLeave.settle (.ok text) with
      | none => simpa [Incoming.handle, readOk, settle, hp] using Course.refl c.left
      | some p =>
          have hset : Aside c.left
              (c.left.setSession (storeLeave p c.left.session)) :=
            .store (.settleLeave (by simpa using hp)) ⟨rfl, rfl, rfl⟩
              fun k _ => by cases k <;> rfl
          simpa [Incoming.handle, readOk, settle, hp] using hset.course

theorem handle_course (user : UserCode) {i : Incoming}
    (hg : ∀ reason, i ≠ .goodbye reason) (hi : i.isReply = false) (c : Client) :
    Course c (i.ran user c) ((i.handle user).run c).2 := by
  cases i with
  | welcome sessionId => exact welcome_course user sessionId c
  | goodbye reason => exact absurd rfl (hg reason)
  | event sub content =>
      cases content with
      | none =>
          cases hv : c.session.subscriptionHandlers.values sub <;>
            simpa [Incoming.handle, Incoming.ran, hv] using Course.refl c
      | some e =>
          have hcalls := callHandlers_course user e sub _ 0 c fun _ hh => hh
          cases hv : c.session.subscriptionHandlers.values sub with
          | nil =>
              simpa [Incoming.handle, Incoming.ran, hv, handlersRan] using
                Course.refl c
          | cons handler handlers =>
              rw [hv] at hcalls
              simpa [Incoming.handle, Incoming.ran, hv, swallow_state] using
                hcalls
  | invocation g i details arguments kwArguments =>
      cases hp : c.session.procedures.find g with
      | none => simpa [Incoming.handle, Incoming.ran, hp] using Course.refl c
      | some p =>
          have hnew : Aside c (c.invoke p
              { requestId := i, details, arguments, kwArguments,
                sendable := true }) :=
            ⟨.invocation hp, rfl, rfl, rfl, rfl, rfl, rfl, fun _ _ => rfl⟩
          have hcall := callProcedure_course p c.invocations.length (user 0)
            { c with invocations := c.invocations ++
              [{ requestId := i, details, arguments, kwArguments,
                 sendable := true }] }
          have h := hnew.course.trans hcall
          simpa [Incoming.handle, Incoming.ran, hp, newInvocation] using h
  | _ => cases hi

theorem settleHandshake_course (accepted : Bool) (c : Client) :
    Course c []
      ((settle c.session.handshake (.ok accepted) storeHandshake).run c).2 := by
  cases hp : c.session.handshake.settle (.ok accepted) with
  | none => simpa [settle, hp] using Course.refl c
  | some p =>
      have hset : Aside c (c.setSession (storeHandshake p c.session)) :=
        .store (.settleHandshake hp) ⟨rfl, rfl, rfl⟩ fun k _ => by cases k <;> rfl
      simpa [settle, hp] using hset.course

/-- A chain of changes in which no task runs. -/
abbrev Taskless (c d : Client) : Prop := Course c [] d

instance : Std.Refl Taskless := ⟨Course.refl⟩

instance : IsTrans Client Taskless := ⟨fun _ _ _ => Course.trans⟩

theorem gotHandshakeReply_course (reply : Except ReadError HandshakeReply)
    (c : Client) : Course c [] ((gotHandshakeReply reply).run c).2 :=
  gotHandshakeReply_moves (R := Taskless) settleHandshake_course reply c

/-- **An input runs its tasks and no others**, after a GOODBYE if it brings
one; or it answers a request or ends the session. -/
theorem Client.step_course (c : Client) (i : Input) :
    Course c (i.ran c) (c.step i) ∧ (i.isGoodbye = true → c.alive = false) ∨
    (i.isGoodbye = true ∧ c.alive = true ∧ i.ran c = [] ∧
      Course c.left [] (c.step i)) ∨
    (i.isGoodbye = false ∧ i.ran c = [] ∧
      ∃ obj, Answer (Incoming.read obj) c (c.step i)) ∨
    (i = .destroy ∧ c.step i = c.destroy) := by
  cases i with
  | operate op =>
      refine .inl ⟨?_, by simp [Input.isGoodbye]⟩
      by_cases ha : c.alive = true
      · have h := operate_course false op c
        simpa [Input.ran, Client.step, ha, Input.program] using h
      · simpa [Input.ran, Client.step, ha, Input.needsSession] using Course.refl c
  | task n => exact .inl ⟨runTask_course n c, by simp [Input.isGoodbye]⟩
  | respond io k attempt =>
      exact .inl ⟨reply_course io k attempt c, by simp [Input.isGoodbye]⟩
  | userCode script =>
      refine .inl ⟨?_, by simp [Input.isGoodbye]⟩
      by_cases ha : c.alive = true
      · simpa [Input.ran, Client.step, ha, Input.program] using
          script_course script c
      · simpa [Input.ran, Client.step, ha, Input.needsSession] using Course.refl c
  | message obj user =>
      rw [Client.step_message]
      by_cases ha : c.alive = true
      case neg =>
        refine .inl ⟨?_, fun _ => by simpa using ha⟩
        simpa [Input.ran, ha] using Course.refl c
      simp only [Input.ran, ha, if_true]
      by_cases hg : ∃ m, Incoming.read obj = .goodbye m
      · obtain ⟨m, hg⟩ := hg
        have hbye : (Input.message obj user).isGoodbye = true := by
          simp [Input.isGoodbye, hg]
        rw [hg]
        exact .inr (.inl ⟨hbye, trivial, rfl, goodbye_course user m c⟩)
      have hnot : (Input.message obj user).isGoodbye = false := by
        simp only [Input.isGoodbye]
        split
        · next m hm => exact absurd ⟨m, hm⟩ hg
        · rfl
      rw [hnot]
      cases hi : (Incoming.read obj).isReply with
      | false =>
          exact .inl ⟨handle_course user (not_exists.mp hg) hi c, by simp⟩
      | true =>
          have hran : (Incoming.read obj).ran user c = [] := by
            cases hr : Incoming.read obj <;> rw [hr] at hi <;>
              simp [Incoming.isReply, Incoming.ran] at hi ⊢
          rw [hran]
          rcases handle_reply user hi c with h | h
          · rw [h]
            exact .inl ⟨.refl c, by simp⟩
          · exact .inr (.inr (.inl ⟨rfl, rfl, obj, h⟩))
  | rxError error user =>
      refine .inl ⟨?_, by simp [Input.isGoodbye]⟩
      by_cases ha : c.alive = true
      · simpa [Input.ran, Client.step, ha, Input.program] using
          handleRxError_course user error c
      · simpa [Input.ran, Client.step, ha, Input.needsSession] using Course.refl c
  | handshake reply =>
      refine .inl ⟨?_, by simp [Input.isGoodbye]⟩
      by_cases ha : c.alive = true
      · have h := (gotHandshakeReply_course reply c)
        rcases hr : (gotHandshakeReply reply).run c with ⟨_ | _, d⟩ <;>
          rw [hr] at h <;>
          simpa [Input.ran, Client.step, ha, Input.program, hr] using h
      · simpa [Input.ran, Client.step, ha, Input.needsSession] using Course.refl c
  | destroy =>
      rw [Client.step_destroy]
      split
      · exact .inr (.inr (.inr ⟨rfl, rfl⟩))
      · exact .inl ⟨.refl c, by simp [Input.isGoodbye]⟩

end Courses

/-! ## What the queue holds -/

/-- Every task that can be posted has `P`. -/
structure Posted (P : Task → Prop) : Prop where
  stop : P .stop
  join : ∀ realm, P (.join (helloFrame realm))
  leave : ∀ reason, P (.leave (goodbyeFrame reason))
  publish : ∀ {r topic payload buffer},
    publishFrame r topic payload = .ok buffer → P (.publish buffer)
  request : ∀ {op r entry buffer}, Operation.Submits op r entry buffer →
    ∀ ref, P (.request ref r entry buffer)
  reply : ∀ {attempt i buffer}, ReplyAttempt.frame i attempt = .ok buffer →
    ∀ h, P (.sendResult h buffer)

section Posted

variable {P : Task → Prop} {c d : Client}

theorem Posted.act (hP : Posted P) (hc : ∀ t ∈ c.tasks, P t) (h : Act c d) :
    ∀ t ∈ d.tasks, P t := by
  have hposted : ∀ {t : Task}, P t → ∀ u ∈ c.tasks ++ [t], P u := by
    intro t ht u hu
    rcases List.mem_append.mp hu with hu | hu
    · exact hc u hu
    · obtain rfl := List.mem_singleton.mp hu
      exact ht
  have hrun : ∀ n, ∀ u ∈ c.tasks.eraseIdx n, P u :=
    fun n u hu => hc u (List.mem_of_mem_eraseIdx hu)
  cases h with
  | takeId => exact hc
  | submit h => exact hposted (hP.request h _)
  | publish h => exact hposted (hP.publish h)
  | stop => exact hposted hP.stop
  | join realm => exact hposted (hP.join realm)
  | leave reason => exact hposted (hP.leave reason)
  | answer hv hs hb =>
      unfold Client.answer
      split
      · exact hposted (hP.reply hb _)
      · exact hc
  | retrieveStop h => exact hc
  | retrieveJoin h => exact hc
  | retrieveLeave h => exact hc
  | settleStop h hs => exact hc
  | _ => exact hrun _

theorem Posted.quiet (hP : Posted P) (hc : ∀ t ∈ c.tasks, P t) (h : Quiet c d) :
    ∀ t ∈ d.tasks, P t := by
  cases h with
  | act h => exact hP.act hc h
  | _ => exact hc

theorem Posted.move (hP : Posted P) (hc : ∀ t ∈ c.tasks, P t) (h : Move c d) :
    ∀ t ∈ d.tasks, P t := by
  cases h with
  | quiet h => exact hP.quiet hc h
  | answer h => cases h <;> exact hc
  | destroy => exact hc

theorem Posted.reachable (hP : Posted P) (h : c.Reachable) : ∀ t ∈ c.tasks, P t := by
  refine h.invariant (I := fun c => ∀ t ∈ c.tasks, P t) ?_ fun _ _ hmove hc =>
    hP.move hc hmove
  intro plan t ht
  simp [Client.new] at ht

end Posted

/-! ## What a task writes -/

/-- The frame a task passes to `send`, if its guards let it. -/
def Task.sends (s : WampSession) : Task → Option Frame
  | .stop => none
  | .join buffer => if s.sessionId = 0 then some buffer else none
  | .leave buffer =>
      if s.sessionId ≠ 0 ∧ s.goodbyeSent = false then some buffer else none
  | .publish buffer | .request _ _ _ buffer =>
      if s.sessionId ≠ 0 then some buffer else none
  | .sendResult _ buffer => some buffer

/-- The writes made by `send`. -/
def WampSession.sending (s : WampSession) (buffer : Frame) :
    List (Frame × WriteResult) :=
  if s.stopped then [] else [(buffer, s.out.plan s.out.writes.length)]

section Writes

variable {c d : Client}

attribute [local simp] Exec.run_bind

theorem WampSession.writes_send (s : WampSession) (buffer : Frame) :
    (s.send buffer).out.writes = s.out.writes ++ s.sending buffer := by
  unfold send sending
  split
  · simp
  · rfl

/-- `stop` is the only task that passes nothing on for certain. -/
theorem Task.writes_body (t : Task) (c : Client) :
    (t.body.run c).2.session.out.writes = c.session.out.writes ++
      (t.sends c.session).elim [] c.session.sending := by
  cases t with
  | stop =>
      cases hp : c.session.sessionStop.settle (.ok ()) <;>
        by_cases hs : c.session.stopped <;> by_cases hj : c.session.sessionId = 0 <;>
        simp [Task.body, sends, hs, hj, settle, hp, Client.setSession, storeStop]
  | join buffer =>
      by_cases hj : c.session.sessionId = 0 <;>
        simp [Task.body, sends, hj, send, Client.setSession,
          WampSession.writes_send]
  | leave buffer =>
      by_cases hj : c.session.sessionId = 0 <;>
        by_cases hg : c.session.goodbyeSent <;>
        simp [Task.body, sends, hj, hg, send, Client.setSession,
          WampSession.writes_send, WampSession.sending]
  | publish buffer =>
      by_cases hj : c.session.sessionId = 0 <;>
        simp [Task.body, sends, hj, send, Client.setSession,
          WampSession.writes_send]
  | request ref r entry buffer =>
      by_cases hj : c.session.sessionId = 0 <;>
        simp [Task.body, sends, hj, send, Client.setSession,
          WampSession.writes_send, abandonRequest, Client.modifyRequest,
          Client.enter, WampSession.sending]
  | sendResult h buffer =>
      simp [Task.body, sends, send, Client.setSession,
        WampSession.writes_send, Client.modifyInvocation]

theorem Task.session_drop (t : Task) (c : Client) :
    (t.drop.run c).2.session = c.session := by
  cases t <;> rfl

theorem Prepare.out (h : Prepare c d) : d.session.out = c.session.out := by
  cases h
  case answer =>
    unfold Client.answer
    split <;> rfl
  all_goals rfl

theorem Around.out (h : Around c d) : d.session.out = c.session.out := by
  cases h with
  | prepare h => exact h.out
  | aside h => exact h.out
  | drop h ha => rw [Task.session_drop, Client.dequeue]

theorem Answer.out {i : Incoming} (h : Answer i c d) :
    d.session.out = c.session.out := by
  cases h <;> rfl

theorem Client.left_writes (c : Client) :
    c.left.session.out.writes = c.session.out.writes ++
      if c.session.goodbyeSent then []
      else c.session.sending (goodbyeFrame (octets "wamp.error.goodbye_and_out")) := by
  unfold left
  cases hg : c.session.goodbyeSent <;>
    simp [setSession, hg, WampSession.writes_send, WampSession.sending]

end Writes

/-! ## The rule for tasks -/

/-- Every task the input runs meets `C`, and a GOODBYE finds the session in
`G`. -/
def Input.Meets (C : Client → Task → Prop) (G : Client → Prop) (c : Client)
    (i : Input) : Prop :=
  (∀ s ∈ i.ran c, C s.1 s.2) ∧ (i.isGoodbye = true → c.alive = true → G c)

/-- `P` survives a task exactly if the task meets `C`, and a GOODBYE exactly if
`G` holds; nothing else changes it. `I` is an invariant that helps. -/
structure TaskRule (I P : Client → Prop) (C : Client → Task → Prop)
    (G : Client → Prop) : Prop where
  keep : ∀ {c d}, Quiet c d → I c → I d
  around : ∀ {c d}, Around c d → I c → (P d ↔ P c)
  task : ∀ {c n t}, c.tasks[n]? = some t → c.alive = true → I c →
    (P (t.body.run (c.dequeue n)).2 ↔ P c ∧ C (c.dequeue n) t)
  goodbye : ∀ {c}, I c → (P c.left ↔ P c ∧ G c)
  answer : ∀ {i c d}, Answer i c d → I c → (P d ↔ P c)
  destroy : ∀ {c}, I c → (P c.destroy ↔ P c)

section Rule

variable {I P : Client → Prop} {C : Client → Task → Prop} {G : Client → Prop}
  {c d : Client}

theorem TaskRule.keeps (r : TaskRule I P C G) (h : Quiets c d) (hc : I c) :
    I d := by
  induction h with
  | refl => exact hc
  | tail _ h ih => exact r.keep h ih

theorem TaskRule.course (r : TaskRule I P C G) {l : List Start}
    (h : Course c l d) (hc : I c) : P d ↔ P c ∧ ∀ s ∈ l, C s.1 s.2 := by
  induction h with
  | refl => simp
  | around h h' ih =>
      have hd := r.keeps h.quiets hc
      rw [r.around h' hd, ih]
  | task h ht ha ih =>
      have hd := r.keeps h.quiets hc
      rw [r.task ht ha hd, ih, List.forall_mem_append, List.forall_mem_singleton,
        and_assoc]

/-- **The rule for tasks**, over one input. -/
theorem TaskRule.step (r : TaskRule I P C G) (hc : I c) (i : Input) :
    P (c.step i) ↔ P c ∧ i.Meets C G c := by
  rcases c.step_course i with ⟨h, hg⟩ | ⟨hg, ha, hran, h⟩ | ⟨hg, hran, obj, h⟩ |
    ⟨rfl, h⟩
  · have hG : i.isGoodbye = true → c.alive = true → G c := fun hi ha =>
      absurd ha (by simp [hg hi])
    simp only [r.course h hc, Input.Meets, and_iff_left hG]
  · have hleft := r.keep (.goodbye c) hc
    rw [r.course h hleft, r.goodbye hc]
    simp [Input.Meets, hran, hg, ha]
  · rw [r.answer h hc]
    simp [Input.Meets, hran, hg]
  · rw [h, r.destroy hc]
    simp [Input.Meets, Input.ran, Input.isGoodbye]

end Rule

end Autobahn
