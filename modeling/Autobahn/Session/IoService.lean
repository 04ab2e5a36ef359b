import Autobahn.Session.Connection

/-!
# User code that polls the io_service

`Connection.step` lets user code run queued tasks. Here it may also complete
reads: a callback that polls the `io_service` can run any handler whose read has
ended, and user code inside that one again. `Code` is what one call of user code
does, with the code run inside each read it completes, and `IoService` the
connection with a record of each callback: what the two tables of callbacks and
the number of calls of `got_message` were when it was called, and what they were
when it returned.

An iterator is a place in its table. It denotes whatever the table holds there
at the time, so a table changed under `process_event` would change what the loop
calls next.
-/

namespace Autobahn

open Foundation MsgPack Conversion

/-! ## Callbacks and their iterators -/

/-- Where `process_event` or `process_invocation` stands in its table. -/
inductive Iterator : Type where
  | subscriptionHandlers (position : Nat)
  | procedures (registrationId : UInt64)

/-- The closures that a table of callbacks can hold. -/
abbrev UserFunction : Type := WampEventHandler ⊕ WampProcedure

def Callback.function : Callback → UserFunction
  | .event handler _ => .inl handler
  | .invocation procedure _ => .inr procedure

/-- `m_subscription_handlers`, `m_procedures`, and how often `got_message` has
been entered. -/
structure Tables where
  entered : Nat
  subscriptionHandlers : Multimap UInt64 WampEventHandler
  procedures : Table UInt64 WampProcedure

/-- The entry an iterator denotes, unless it is at the end. -/
def Tables.entry (t : Tables) : Iterator → Option (UInt64 × UserFunction)
  | .subscriptionHandlers position =>
      (t.subscriptionHandlers.entries[position]?).map fun e => (e.1, .inl e.2)
  | .procedures registrationId =>
      (t.procedures.find registrationId).map fun p => (registrationId, .inr p)

/-- A call of user code that has ended: through which iterator it was made, and
the tables when it was called and when it returned. -/
structure CallbackRun where
  callback : Callback
  itr : Iterator
  called : Tables
  returned : Tables

/-- `got_message` is not re-entered before the callback returns, the tables are
the same then, and the iterator still denotes the entry that was called. -/
structure CallbackRun.Undisturbed (r : CallbackRun) : Prop where
  notReentered : r.returned.entered = r.called.entered
  sameHandlers : r.returned.subscriptionHandlers = r.called.subscriptionHandlers
  sameProcedures : r.returned.procedures = r.called.procedures
  sameEntry : ∃ key, r.called.entry r.itr = some (key, r.callback.function) ∧
    r.returned.entry r.itr = some (key, r.callback.function)

/-! ## The io_service thread -/

/-- The connection and what the `io_service` thread has done. `entered` and
`calls` are history: how often `got_message` was entered, and the callbacks that
have ended. -/
structure IoService (σ : Type) where
  conn : Connection σ
  started : Bool := false
  entered : Nat := 0
  calls : List CallbackRun := []

abbrev IoM (σ : Type) : Type → Type := Exec (IoService σ) Failure

section

variable {σ : Type}

namespace IoService

def client (s : IoService σ) : Client := s.conn.client

def setConn (s : IoService σ) (conn : Connection σ) : IoService σ :=
  { s with conn := conn }

def tables (s : IoService σ) : Tables where
  entered := s.entered
  subscriptionHandlers := s.client.session.subscriptionHandlers
  procedures := s.client.session.procedures

/-- The callback begins. -/
def callBack (s : IoService σ) (callback : Callback) : IoService σ :=
  s.setConn (s.conn.setClient
    { s.client with callbacks := s.client.callbacks ++ [callback] })

/-- The callback is over. -/
def record (s : IoService σ) (r : CallbackRun) : IoService σ :=
  { s with calls := s.calls ++ [r] }

end IoService

def onConnection {α : Type} (p : ConnectionM σ α) : IoM σ α :=
  ExceptT.mk fun s => ((p.run s.conn).1, s.setConn (p.run s.conn).2)

@[simp] theorem run_onConnection {α : Type} (p : ConnectionM σ α)
    (s : IoService σ) :
    (onConnection p).run s = ((p.run s.conn).1, s.setConn (p.run s.conn).2) := rfl

def onSession {α : Type} (p : ClientM α) : IoM σ α := onConnection (onClient p)

namespace IoService

/-- One call of user code through an iterator. -/
def callUser (callback : Callback) (itr : Iterator) (code : IoM σ Unit) :
    IoM σ Unit :=
  ExceptT.mk fun s =>
    let t := (code.run (s.callBack callback)).2
    ((code.run (s.callBack callback)).1,
      t.record { callback, itr, called := s.tables, returned := t.tables })

/-! ## Events -/

/-- `process_event` up to its loop: the event, the iterator, and how many entries
the end iterator is further on. Nothing for a subscription without handlers. -/
def eventOf (message : WampMessage) :
    ClientM (Option (WampEvent × Nat × Nat)) := do
  if message.length ≠ 4 ∧ message.length ≠ 5 ∧ message.length ≠ 6 then
    protocolError "EVENT - length must be 4, 5 or 6"
  checkType message 1 .POSITIVE_INTEGER
    "EVENT - SUBSCRIBED.Subscription must be an integer"
  let subscriptionId ← converted (asUInt64 (← element message 1))
  let handlers := (← get).session.subscriptionHandlers
  let itr := handlers.lowerBound subscriptionId
  let last := handlers.upperBound subscriptionId
  if itr ≠ handlers.finish ∧ itr ≠ last then
    checkType message 2 .POSITIVE_INTEGER
      "EVENT - PUBLISHED.Publication must be an id"
    checkType message 3 .MAP "EVENT - Details must be a dictionary"
    let (arguments, kwArguments) ← payloadAt message 4
      "EVENT - EVENT.Arguments must be a list"
      "EVENT - EVENT.ArgumentsKw must be a dictionary"
    return some ({ arguments, kwArguments }, itr, last - itr)
  else
    return none

variable (users : Nat → IoM σ Unit)

/-- The `while` loop of `process_event`, from an iterator over the next `n`
entries. -/
def callHandlers (event : WampEvent) : Nat → Nat → Nat → IoM σ Unit
  | _, _, 0 => pure ()
  | k, itr, n + 1 => do
      match (← get).client.session.subscriptionHandlers.entries[itr]? with
      | none => throw (.session .undefined)
      | some (_, handler) =>
          callUser (.event handler event) (.subscriptionHandlers itr) (users k)
          callHandlers event (k + 1) (itr + 1) n

/-- `catch (...)` around user code, with nothing done for the exception. -/
def swallow (p : IoM σ Unit) : IoM σ Unit :=
  tryCatch p fun
    | .session .undefined => throw (.session .undefined)
    | _ => pure ()

def processEvent (message : WampMessage) : IoM σ Unit := do
  match ← onSession (eventOf message) with
  | some (event, itr, n) => swallow (callHandlers users event 0 itr n)
  -- silently swallow EVENT for non-existent subscription IDs
  | none => pure ()

/-! ## Invocations -/

/-- `process_invocation` up to the call: the iterator and the invocation. -/
def invocationOf (message : WampMessage) : ClientM (UInt64 × Nat) := do
  if message.length ≠ 4 ∧ message.length ≠ 5 ∧ message.length ≠ 6 then
    protocolError "INVOCATION message length must be 4, 5 or 6"
  checkType message 1 .POSITIVE_INTEGER "INVOCATION.Request must be an integer"
  let requestId ← converted (asUInt64 (← element message 1))
  checkType message 2 .POSITIVE_INTEGER
    "INVOCATION.Registration must be an integer"
  let registrationId ← converted (asUInt64 (← element message 2))
  match (← get).session.procedures.find registrationId with
  | some _ => do
      checkType message 3 .MAP "INVOCATION.Details must be a map"
      let details ← element message 3
      let (arguments, kwArguments) ← payloadAt message 4
        "INVOCATION.Arguments must be an array/vector"
        "INVOCATION.KwArguments must be a map"
      let h ← newInvocation
        { requestId, details, arguments, kwArguments, sendable := true }
      return (registrationId, h)
  | none =>
      protocolError "bogus INVOCATION message for non-registered registration ID"

/-- The procedure call with its two catch clauses. -/
def callProcedure (procedure : WampProcedure) (registrationId : UInt64) (h : Nat)
    (code : IoM σ Unit) : IoM σ Unit :=
  tryCatch (callUser (.invocation procedure h) (.procedures registrationId) code) fun
    | .session (.throws (.user none)) => onSession (replyError h bareError)
    | .session (.throws (.user (some what))) =>
        onSession (replyError h (whatError what))
    | e => throw e

def processInvocation (message : WampMessage) : IoM σ Unit := do
  let (registrationId, h) ← onSession (invocationOf message)
  match (← get).client.session.procedures.find registrationId with
  | none => throw (.session .undefined)
  | some procedure => callProcedure procedure registrationId h (users 0)

/-! ## The handlers -/

/-- The checks of `got_message` in front of its `switch`. -/
def codeOf : Object → ClientM (Option MessageType × WampMessage)
  | .array message => do
      if message.length < 1 then
        protocolError "invalid message structure - missing message code"
      checkType message 0 .POSITIVE_INTEGER
        "invalid message code type - not an integer"
      let code ← converted (asInt (← element message 0))
      return (MessageType.ofCode? code, message)
  | _ => protocolError "invalid message structure - message is not an array"

def gotMessage (obj : Object) : IoM σ Unit := do
  modify fun s => { s with entered := s.entered + 1 }
  match ← onSession (codeOf obj) with
  | (some .EVENT, message) => processEvent users message
  | (some .INVOCATION, message) => processInvocation users message
  -- no other case of the `switch` runs user code
  | _ => onSession (Autobahn.gotMessage (fun _ => {}) obj)

/-- `handleRxError`, with `slot` connected to `m_onRxError`. -/
def handleRxError (slot : IoM σ Unit) (error : ReadError) : IoM σ Unit := do
  onSession (Autobahn.handleRxError (fun _ => {}) error)
  if error ≠ .operationAborted then
    slot

variable (u : Unpacker σ)

def gotMessageHeader (slot : IoM σ Unit) : ReadResult → IoM σ Unit
  | .ok data => onConnection (Connection.gotMessageHeader u (fun _ => {}) (.ok data))
  | .error error => handleRxError slot error

/-- The `while` loop of `got_message_body`. -/
def gotMessages (users : Nat → Nat → IoM σ Unit) (k : Nat) (x : σ) :
    IoM σ Unit :=
  match h : u.next x with
  | .throws => throw .next
  | .noMore t => onConnection (modify fun conn => conn.setUnpacker t)
  | .object obj t => do
      onConnection (modify fun conn => conn.setUnpacker t)
      gotMessage (users k) obj
      gotMessages users (k + 1) t
termination_by u.left x
decreasing_by exact u.left_lt h

section

variable {u} {calls : Nat → Nat → IoM σ Unit} {k : Nat} {x y : σ} {obj : Object}

theorem gotMessages_throws (h : u.next x = .throws) :
    gotMessages u calls k x = throw .next := by
  rw [gotMessages]
  split <;> simp_all

theorem gotMessages_noMore (h : u.next x = .noMore y) :
    gotMessages u calls k x =
      onConnection (modify fun conn => conn.setUnpacker y) := by
  rw [gotMessages]
  split <;> simp_all

theorem gotMessages_object (h : u.next x = .object obj y) :
    gotMessages u calls k x = (do
      onConnection (modify fun conn => conn.setUnpacker y)
      gotMessage (calls k) obj
      gotMessages u calls (k + 1) y) := by
  rw [gotMessages]
  split <;> simp_all

end

/-- `users` is the user code run for each message of the body. -/
def gotMessageBody (users : Nat → Nat → IoM σ Unit) : ReadResult → IoM σ Unit
  | .ok data => do
      let conn := (← get).conn
      let x := u.bufferConsumed conn.unpacker
        (Connection.body conn.messageLength data)
      onConnection (modify fun conn => conn.setUnpacker x)
      gotMessages u users 0 x
      if ¬ (← get).client.session.stopped then
        onConnection receiveMessage
  | .error error => handleRxError (users 0 0) error

def handler (result : ReadResult) (users : Nat → Nat → IoM σ Unit) :
    Read → IoM σ Unit
  | .gotHandshakeReply => onConnection (Connection.gotHandshakeReply result)
  | .gotMessageHeader => gotMessageHeader u (users 0 0) result
  | .gotMessageBody => gotMessageBody u users result

/-- The `n`-th outstanding read ends, and its handler is run. -/
def complete (n : Nat) (result : ReadResult) (users : Nat → Nat → IoM σ Unit) :
    IoM σ Unit := do
  match (← get).conn.reads[n]? with
  | none => pure ()
  | some r => do
      modify fun s => s.setConn { s.conn with reads := s.conn.reads.eraseIdx n }
      handler u result users r

end IoService

/-! ## User code -/

/-- What one call of user code does, one thing after the other: an operation, a
reply or a queued task, or a poll that completes the `n`-th outstanding read,
whose handler runs `users`; and how it ends. -/
inductive Code : Type where
  | ends (ending : Ending)
  | act (a : Action) (rest : Code)
  | read (n : Nat) (result : ReadResult) (users : Nat → Nat → Code) (rest : Code)

namespace Code

/-- As in a script, an exception out of one action is caught there, or the code
ends with it. -/
def run (u : Unpacker σ) : Code → IoM σ Unit
  | .ends ending => onSession ending.run
  | .act a rest => do
      tryCatch (onSession (a.run true)) (fun _ => pure ())
      rest.run u
  | .read n result users rest => do
      tryCatch (IoService.complete u n result fun k j => (users k j).run u)
        (fun _ => pure ())
      rest.run u

/-- The script that is left without the reads. -/
def script : Code → Script
  | .ends ending => { ending }
  | .act a rest => { rest.script with actions := a :: rest.script.actions }
  | .read _ _ _ rest => rest.script

end Code

/-! ## Runs -/

inductive IoInput : Type where
  /-- `start`; `written` says whether its write of the handshake goes through -/
  | start (written : Bool)
  /-- anything but a completion handler -/
  | client (i : Input)
  /-- user code on the `io_service` thread, outside of any callback -/
  | code (c : Code)
  /-- the `n`-th outstanding read ends -/
  | complete (n : Nat) (result : ReadResult) (users : Nat → Nat → Code)

namespace IoService

/-- Before `start` there is no read; a second `start` is not made. -/
def step (u : Unpacker σ) (s : IoService σ) : IoInput → IoService σ
  | .start written =>
      if s.client.alive ∧ ¬ s.started then
        { s with
          started := true
          conn := if written then s.conn.post .gotHandshakeReply else s.conn }
      else s
  | .client i => s.setConn (s.conn.step u (.client i))
  | .code c => if s.client.alive then ((c.run u).run s).2 else s
  | .complete n result users =>
      ((complete u n result fun k j => (users k j).run u).run s).2

/-- A new session that has not been started. -/
def new (u : Unpacker σ) (plan : Nat → WriteResult) : IoService σ where
  conn := { client := Client.new plan, unpacker := u.init }

abbrev runs (u : Unpacker σ) (s : IoService σ) (is : List IoInput) :
    IoService σ :=
  Machine.run (step u) s is

end IoService

end

end Autobahn
