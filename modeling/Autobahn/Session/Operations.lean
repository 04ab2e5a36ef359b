import Autobahn.Session.State

/-!
# Operations, tasks and replies

Everything a user can do with a session or with an invocation handle. An
operation builds its frame in the caller's thread and dispatches a task; the
flag `io` says whether the caller is the `io_service` thread. On that thread
`dispatch` runs the task at once, from any other thread it leaves it in the
queue.

A `Script` is what one call of user code does: a list of such actions, and
how it ends. User code may react to anything, but in one run it has done one
list of things, so quantifying over scripts covers every behaviour.
-/

namespace Autobahn

open Foundation MsgPack

abbrev ClientM : Type → Type := Exec Client Abort

def throwExn {α : Type} (e : Exn) : ClientM α := throw (.throws e)

/-- Packs a user's value, or lets what packing throws through. -/
def packed {α : Type} : Except Exn α → ClientM α
  | .ok a => pure a
  | .error e => throwExn e

def Client.setSession (c : Client) (s : WampSession) : Client :=
  { c with session := s }

def modifySession (f : WampSession → WampSession) : ClientM Unit :=
  modify fun c => c.setSession (f c.session)

@[simp] theorem run_throwExn {α : Type} (e : Exn) (c : Client) :
    (throwExn e : ClientM α).run c = (.error (.throws e), c) := rfl

@[simp] theorem run_modifySession (f : WampSession → WampSession)
    (c : Client) :
    (modifySession f).run c = (.ok (), c.setSession (f c.session)) := rfl

/-! ## Promises -/

/-- `set_value` on a promise of the session. -/
def settle {α : Type} (p : Promise Exn α) (r : Except Exn α)
    (store : Promise Exn α → WampSession → WampSession) : ClientM Unit :=
  match p.settle r with
  | some q => modifySession (store q)
  | none => throwExn .promiseAlreadySatisfied

/-- `get_future` on a promise of the session. -/
def getFuture {α : Type} (p : Promise Exn α)
    (store : Promise Exn α → WampSession → WampSession) : ClientM Unit :=
  match p.getFuture with
  | some q => modifySession (store q)
  | none => throwExn .futureAlreadyRetrieved

/-- What storing a promise keeps, settling one keeps. -/
theorem settle_moves {α : Type} {R : Client → Client → Prop} [Std.Refl R]
    {p : Promise Exn α} {r : Except Exn α}
    {store : Promise Exn α → WampSession → WampSession}
    (h : ∀ q c, R c (c.setSession (store q c.session))) :
    Exec.Moves R (settle p r store) := by
  unfold settle
  split
  · exact .modify (h _)
  · exact .throw _

theorem getFuture_moves {α : Type} {R : Client → Client → Prop} [Std.Refl R]
    {p : Promise Exn α} {store : Promise Exn α → WampSession → WampSession}
    (h : ∀ q c, R c (c.setSession (store q c.session))) :
    Exec.Moves R (getFuture p store) := by
  unfold getFuture
  split
  · exact .modify (h _)
  · exact .throw _

def storeJoin (p : Promise Exn UInt64) (s : WampSession) : WampSession :=
  { s with sessionJoin := p }

def storeLeave (p : Promise Exn Octets) (s : WampSession) : WampSession :=
  { s with sessionLeave := p }

def storeStop (p : Promise Exn Unit) (s : WampSession) : WampSession :=
  { s with sessionStop := p }

def Client.modifyRequest (c : Client) (ref : Nat) (f : Request → Request) :
    Client :=
  { c with requests := c.requests.modify ref f }

/-- `set_value` or `set_exception` on the promise of a request. -/
def settleRequest (ref : Nat) (r : Except Exn Reply) : ClientM Unit := do
  match (← get).requests[ref]? with
  | none => throw .undefined
  | some q =>
      match q.promise.settle r with
      | some p => modify fun c => c.modifyRequest ref fun q => { q with promise := p }
      | none => throwExn .promiseAlreadySatisfied

def Request.abandon (q : Request) : Request :=
  { q with promise := q.promise.abandon .brokenPromise }

/-- The closure that owned the request is gone and nothing else owns it. -/
def abandonRequest (ref : Nat) : ClientM Unit :=
  modify fun c => c.modifyRequest ref Request.abandon

def Client.modifyInvocation (c : Client) (h : Nat)
    (f : WampInvocation → WampInvocation) : Client :=
  { c with invocations := c.invocations.modify h f }

/-! ## Sending -/

/-- `wamp_session::send`: skips a stopped session and swallows a failed
write, so it never throws. -/
def WampSession.send (s : WampSession) (buffer : Frame) : WampSession :=
  if s.stopped then s else { s with out := s.out.write buffer }

def send (buffer : Frame) : ClientM Unit :=
  modifySession fun s => s.send buffer

/-! ## Tasks -/

/-- `emplace` into the table the entry belongs to. -/
def WampSession.emplace (s : WampSession) (entry : Entry) (requestId : UInt64)
    (response : Nat) : WampSession :=
  match entry with
  | .call => { s with calls := s.calls.emplace requestId ⟨response⟩ }
  | .subscribe handler =>
      { s with subscribeRequests :=
          s.subscribeRequests.emplace requestId ⟨handler, response⟩ }
  | .unsubscribe =>
      { s with unsubscribeRequests :=
          s.unsubscribeRequests.emplace requestId ⟨response⟩ }
  | .register procedure =>
      { s with registerRequests :=
          s.registerRequests.emplace requestId ⟨procedure, response⟩ }

/-! ## What `send` and `emplace` leave alone -/

namespace WampSession

/-- A stopped session writes nothing. -/
theorem send_of_stopped {s : WampSession} (h : s.stopped = true)
    (buffer : Frame) : s.send buffer = s := by
  simp [send, h]

section

variable (s : WampSession) (buffer : Frame)

@[simp] theorem send_subscriptionHandlers :
    (s.send buffer).subscriptionHandlers = s.subscriptionHandlers := by
  unfold send
  split <;> rfl

@[simp] theorem send_procedures :
    (s.send buffer).procedures = s.procedures := by
  unfold send
  split <;> rfl

@[simp] theorem send_requestId : (s.send buffer).requestId = s.requestId := by
  unfold send
  split <;> rfl

@[simp] theorem send_calls : (s.send buffer).calls = s.calls := by
  unfold send
  split <;> rfl

@[simp] theorem send_subscribeRequests :
    (s.send buffer).subscribeRequests = s.subscribeRequests := by
  unfold send
  split <;> rfl

@[simp] theorem send_unsubscribeRequests :
    (s.send buffer).unsubscribeRequests = s.unsubscribeRequests := by
  unfold send
  split <;> rfl

@[simp] theorem send_registerRequests :
    (s.send buffer).registerRequests = s.registerRequests := by
  unfold send
  split <;> rfl

@[simp] theorem send_pending (k : RequestKind) (r : UInt64) :
    (s.send buffer).pending k r = s.pending k r := by
  unfold send
  split <;> rfl

@[simp] theorem send_stopped : (s.send buffer).stopped = s.stopped := by
  unfold send
  split <;> rfl

@[simp] theorem send_sessionId : (s.send buffer).sessionId = s.sessionId := by
  unfold send
  split <;> rfl

@[simp] theorem send_goodbyeSent :
    (s.send buffer).goodbyeSent = s.goodbyeSent := by
  unfold send
  split <;> rfl

@[simp] theorem send_handshake : (s.send buffer).handshake = s.handshake := by
  unfold send
  split <;> rfl

@[simp] theorem send_sessionJoin :
    (s.send buffer).sessionJoin = s.sessionJoin := by
  unfold send
  split <;> rfl

@[simp] theorem send_sessionLeave :
    (s.send buffer).sessionLeave = s.sessionLeave := by
  unfold send
  split <;> rfl

@[simp] theorem send_sessionStop :
    (s.send buffer).sessionStop = s.sessionStop := by
  unfold send
  split <;> rfl

variable (entry : Entry) (r : UInt64) (ref : Nat)

@[simp] theorem emplace_subscriptionHandlers :
    (s.emplace entry r ref).subscriptionHandlers = s.subscriptionHandlers := by
  cases entry <;> rfl

@[simp] theorem emplace_procedures :
    (s.emplace entry r ref).procedures = s.procedures := by
  cases entry <;> rfl

@[simp] theorem emplace_requestId :
    (s.emplace entry r ref).requestId = s.requestId := by
  cases entry <;> rfl

@[simp] theorem emplace_out : (s.emplace entry r ref).out = s.out := by
  cases entry <;> rfl

@[simp] theorem emplace_stopped :
    (s.emplace entry r ref).stopped = s.stopped := by
  cases entry <;> rfl

@[simp] theorem emplace_sessionId :
    (s.emplace entry r ref).sessionId = s.sessionId := by
  cases entry <;> rfl

@[simp] theorem emplace_goodbyeSent :
    (s.emplace entry r ref).goodbyeSent = s.goodbyeSent := by
  cases entry <;> rfl

@[simp] theorem emplace_sessionJoin :
    (s.emplace entry r ref).sessionJoin = s.sessionJoin := by
  cases entry <;> rfl

@[simp] theorem emplace_sessionStop :
    (s.emplace entry r ref).sessionStop = s.sessionStop := by
  cases entry <;> rfl

end

end WampSession

/-! ## The body of a task -/

/-- Enters a request into its table. If the key is taken `emplace` does
nothing and reports it, the code ignores the report, and the promise dies with
the closure. -/
def Client.enter (c : Client) (response : Nat) (requestId : UInt64)
    (entry : Entry) : Client :=
  let taken := (c.session.pending entry.kind requestId).isSome
  { c.modifyRequest response fun q =>
      { q with
        entered := true
        promise := if taken then q.promise.abandon .brokenPromise
          else q.promise } with
    session := c.session.emplace entry requestId response
    collisions := c.collisions + if taken then 1 else 0 }

/-- The body of a task, run on the `io_service` thread while the session
exists. -/
def Task.body : Task → ClientM Unit
  | .stop => do
      let s := (← get).session
      if s.stopped then
        throwExn (.protocolError "session already stopped")
      if s.sessionId ≠ 0 then
        throwExn (.protocolError "session still joined")
      modifySession fun s =>
        { s with stopped := true, inOpen := false, out.isOpen := false }
      settle s.sessionStop (.ok ()) storeStop
  | .join buffer => do
      if (← get).session.sessionId ≠ 0 then
        throwExn (.protocolError "session already joined")
      send buffer
  | .leave buffer => do
      let s := (← get).session
      if s.sessionId = 0 then
        throwExn .noSessionError
      if s.goodbyeSent then
        throwExn (.protocolError "goodbye already sent")
      modifySession fun s => { s with goodbyeSent := true, sessionId := 0 }
      send buffer
  | .publish buffer => do
      if (← get).session.sessionId = 0 then
        throwExn .noSessionError
      send buffer
  | .request response requestId entry buffer => do
      if (← get).session.sessionId = 0 then
        -- the closure dies with the exception, and the request with it
        abandonRequest response
        throwExn .noSessionError
      modify fun c => c.enter response requestId entry
      send buffer
  | .sendResult invocation buffer => do
      modify fun c => c.modifyInvocation invocation fun v =>
        { v with handed := v.handed ++ [buffer] }
      send buffer

/-- A task whose `weak_self.lock()` fails does nothing; a request it alone
owned goes away with it. -/
def Task.drop : Task → ClientM Unit
  | .request response _ _ _ => abandonRequest response
  | _ => pure ()

def Task.run (t : Task) : ClientM Unit := do
  if (← get).alive then t.body else t.drop

def Client.enqueue (c : Client) (t : Task) : Client :=
  { c with tasks := c.tasks ++ [t] }

def Client.dequeue (c : Client) (n : Nat) : Client :=
  { c with tasks := c.tasks.eraseIdx n }

/-- Takes the `n`-th task out of the queue and runs it. -/
def runTask (n : Nat) : ClientM Unit := do
  match (← get).tasks[n]? with
  | none => pure ()
  | some t =>
      modify fun c => c.dequeue n
      t.run

/-- `m_io.dispatch`: the task joins the queue and, if the caller is on the
`io_service` thread, is run before `dispatch` returns. -/
def dispatch (io : Bool) (t : Task) : ClientM Unit := do
  let n := (← get).tasks.length
  modify fun c => c.enqueue t
  if io then runTask n

/-! ## Operations -/

/-- `++m_request_id` -/
def Client.takeId (c : Client) : Client :=
  { c with
    session := { c.session with requestId := c.session.requestId + 1 }
    issued := c.issued + 1 }

def nextRequestId : ClientM UInt64 := do
  modify Client.takeId
  return (← get).session.requestId

def newRequest (q : Request) : ClientM Nat := do
  let c ← get
  set { c with requests := c.requests ++ [q] }
  return c.requests.length

def stop (io : Bool) : ClientM Unit := do
  dispatch io .stop
  getFuture (← get).session.sessionStop storeStop

def join (io : Bool) (realm : Octets) : ClientM Unit := do
  dispatch io (.join (helloFrame realm))
  getFuture (← get).session.sessionJoin storeJoin

def leave (io : Bool) (reason : Octets) : ClientM Unit := do
  dispatch io (.leave (goodbyeFrame reason))
  getFuture (← get).session.sessionLeave storeLeave

/-- The common shape of `subscribe`, `unsubscribe`, `provide` and `call`:
take an id, pack the frame, make the request object, dispatch the task. The
future of the new promise is taken right after, for the first time. -/
def request (io : Bool) (operation : Operation) (entry : Entry)
    (frame : UInt64 → Except Exn Frame) : ClientM Unit := do
  let requestId ← nextRequestId
  let buffer ← packed (frame requestId)
  let response ← newRequest { kind := entry.kind, operation, requestId, buffer }
  dispatch io (.request response requestId entry buffer)

def subscribe (io : Bool) (topic : Octets) (handler : WampEventHandler) :
    ClientM Unit :=
  request io (.subscribe topic handler) (.subscribe handler) fun requestId =>
    .ok (subscribeFrame requestId topic)

def unsubscribe (io : Bool) (subscription : UInt64) : ClientM Unit :=
  request io (.unsubscribe subscription) .unsubscribe fun requestId =>
    .ok (unsubscribeFrame requestId subscription)

def provide (io : Bool) (name : Octets) (procedure : WampProcedure)
    (options : List (Octets × Object)) : ClientM Unit :=
  request io (.provide name procedure options) (.register procedure)
    fun requestId => .ok (registerFrame requestId options name)

def call (io : Bool) (procedure : Octets) (payload : Payload) : ClientM Unit :=
  request io (.call procedure payload) .call fun requestId =>
    callFrame requestId procedure payload

def publish (io : Bool) (topic : Octets) (payload : Payload) :
    ClientM Unit := do
  let requestId ← nextRequestId
  let buffer ← packed (publishFrame requestId topic payload)
  dispatch io (.publish buffer)

def operate (io : Bool) : Operation → ClientM Unit
  | .stop => stop io
  | .join realm => join io realm
  | .leave reason => leave io reason
  | .subscribe topic handler => subscribe io topic handler
  | .unsubscribe subscription => unsubscribe io subscription
  | .provide name procedure options => provide io name procedure options
  | .publish topic payload => publish io topic payload
  | .call procedure payload => call io procedure payload

/-! ## Replies to an invocation -/

/-- The six reply calls: `empty_result` and the two `result`s, and the three
`error`s. -/
inductive ReplyAttempt : Type where
  | result (payload : Payload)
  | error (uri : Octets) (payload : Payload)

def ReplyAttempt.frame (requestId : UInt64) : ReplyAttempt → Except Exn Frame
  | .result payload => yieldFrame requestId payload
  | .error uri payload => errorFrame requestId uri payload

/-- The closure stored as `m_send_result_fn`. -/
def sendResultFn (io : Bool) (h : Nat) (buffer : Frame) : ClientM Unit := do
  modify fun c => c.modifyInvocation h fun v =>
    { v with replies := v.replies ++ [buffer] }
  if (← get).alive then
    dispatch io (.sendResult h buffer)

/-- The text of `throw_if_not_sendable`. -/
def notSendable : Octets :=
  octets ("tried to call result() or error() but wamp_invocation " ++
    "is not sendable (double call?)")

/-- One reply call on the invocation with handle `h`. -/
def reply (io : Bool) (h : Nat) (attempt : ReplyAttempt) : ClientM Unit := do
  match (← get).invocations[h]? with
  | none => pure ()
  | some v =>
      if ¬ v.sendable then
        throwExn (.runtimeError notSendable)
      let buffer ← packed (attempt.frame v.requestId)
      sendResultFn io h buffer
      modify fun c => c.modifyInvocation h fun v => { v with sendable := false }

/-! ## Scripts of user code -/

/-- `poll` runs one queued task of the `io_service`. -/
inductive Action : Type where
  | invoke (op : Operation)
  | respond (handle : Nat) (attempt : ReplyAttempt)
  | poll (n : Nat)

/-- How a call of user code ends: it returns, or throws something that
derives from `std::exception`, or something else. -/
inductive Ending : Type where
  | returns
  | throwsStd (what : Octets)
  | throwsOther
deriving DecidableEq

structure Script where
  actions : List Action := []
  ending : Ending := .returns

/-- What user code does in one step of the session: a script for each of its
calls, in the order they are made. -/
abbrev UserCode : Type := Nat → Script

def Action.run (io : Bool) : Action → ClientM Unit
  | .invoke op => operate io op
  | .respond handle attempt => reply io handle attempt
  | .poll n => runTask n

/-- Runs the actions in turn. An action that throws is caught here; a script
that lets the exception out ends with it. -/
def runActions (io : Bool) : List Action → ClientM Unit
  | [] => pure ()
  | a :: as => do
      tryCatch (a.run io) (fun _ => pure ())
      runActions io as

theorem run_runActions_cons (io : Bool) (a : Action) (as : List Action)
    (c : Client) :
    (runActions io (a :: as)).run c =
      (runActions io as).run ((a.run io).run c).2 :=
  Exec.run_attempt_bind _ _ c

def Ending.run : Ending → ClientM Unit
  | .returns => pure ()
  | .throwsStd what => throwExn (.user (some what))
  | .throwsOther => throwExn (.user none)

/-- A call of user code on the `io_service` thread. -/
def Script.run (s : Script) : ClientM Unit := do
  runActions true s.actions
  s.ending.run

end Autobahn
