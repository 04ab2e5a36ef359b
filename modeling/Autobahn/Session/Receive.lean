import Autobahn.Session.Operations

/-!
# The receive path

`gotMessage` and the handlers it dispatches to, with the order of their
checks and their error texts, and `handleRxError`. User code runs through
`UserCode`: the first handler or procedure called while a message is
processed runs script 0, the next one script 1, and so on.
-/

namespace Autobahn

open Foundation MsgPack Conversion

/-- `wamp_message`, a `std::vector<msgpack::object>`. -/
abbrev WampMessage : Type := List Object

/-- `message[i]`, unchecked as `operator[]` is. -/
def element (message : WampMessage) (i : Nat) : ClientM Object :=
  match message[i]? with
  | some o => pure o
  | none => throw .undefined

/-- `as<T>()` and `convert`: what the conversion throws is let through. -/
def converted {α : Type} : Except Exn α → ClientM α
  | .ok a => pure a
  | .error e => throwExn e

def protocolError {α : Type} (what : String) : ClientM α :=
  throwExn (.protocolError what)

@[simp] theorem run_protocolError {α : Type} (what : String) (c : Client) :
    (protocolError what : ClientM α).run c =
      (.error (.throws (.protocolError what)), c) := rfl

/-- Throws unless `message[i]` has type `t`. -/
def checkType (message : WampMessage) (i : Nat) (t : ObjectType)
    (what : String) : ClientM Unit := do
  if (← element message i).type ≠ t then
    protocolError what

/-- The optional tail of a message, shared by RESULT, EVENT and INVOCATION:
a list at index `i` and after it a map, each checked only when it is there. -/
def payloadAt (message : WampMessage) (i : Nat) (notList notMap : String) :
    ClientM (Object × Object) := do
  if message.length > i then
    checkType message i .ARRAY notList
    let arguments ← element message i
    if message.length > i + 1 then
      checkType message (i + 1) .MAP notMap
      let kwArguments ← element message (i + 1)
      return (arguments, kwArguments)
    else
      return (arguments, EMPTY_KW_ARGUMENTS)
  else
    return (EMPTY_ARGUMENTS, EMPTY_KW_ARGUMENTS)

/-! ## Session handlers -/

def processWelcome (message : WampMessage) : ClientM Unit := do
  let sessionId ← converted (asUInt64 (← element message 1))
  modifySession fun s => { s with sessionId := sessionId }
  settle (← get).session.sessionJoin (.ok sessionId) storeJoin

/-- The first half of `process_goodbye`: the session is left, and if we did
not initiate closing, a GOODBYE goes back. -/
def closeSession : ClientM Unit := do
  modifySession fun s => { s with sessionId := 0 }
  if ¬ (← get).session.goodbyeSent then
    send (goodbyeFrame (octets "wamp.error.goodbye_and_out"))

def processGoodbye (message : WampMessage) : ClientM Unit := do
  closeSession
  let reason ← converted (asString (← element message 2))
  settle (← get).session.sessionLeave (.ok reason) storeLeave

/-- The text of an ERROR's exception: the URI, and what the keyword
arguments add to it. -/
def errorText (uri : Octets) (kwArguments : Object) : Octets :=
  match asStringMap kwArguments with
  | .ok entries =>
      match findKey (octets "what") entries with
      | some what => uri ++ octets ": " ++ what
      | none => uri
  | .error _ => uri ++ octets ": unknown exception"

/-- The check of `REQUEST.Type` in an ERROR. -/
def checkRequestType (requestType : UInt64) : ClientM Unit := do
  if requestType ≠ MessageType.CALL.code ∧
      requestType ≠ MessageType.REGISTER.code ∧
      requestType ≠ MessageType.UNREGISTER.code ∧
      requestType ≠ MessageType.PUBLISH.code ∧
      requestType ≠ MessageType.SUBSCRIBE.code ∧
      requestType ≠ MessageType.UNSUBSCRIBE.code then
    protocolError ("invalid ERROR message - ERROR.Type must one of CALL, " ++
      "REGISTER, UNREGISTER, SUBSCRIBE, UNSUBSCRIBE")

/-- The optional tail of an ERROR: the arguments are checked and dropped, the
keyword arguments may add to the text. -/
def errorTextAt (message : WampMessage) (uri : Octets) : ClientM Octets := do
  if message.length > 5 then
    checkType message 5 .ARRAY
      "invalid ERROR message structure - Arguments must be a list"
    if message.length > 6 then
      checkType message 6 .MAP
        "invalid ERROR message structure - ArgumentsKw must be a dictionary"
      return errorText uri (← element message 6)
    else
      return uri
  else
    return uri

/-- The `switch` on the request type at the end of `process_error`. -/
def routeError (requestType requestId : UInt64) (error : Octets) :
    ClientM Unit := do
  if requestType = MessageType.CALL.code then
    match (← get).session.calls.find requestId with
    | some call => settleRequest call.result (.error (.runtimeError error))
    | none =>
        protocolError "bogus ERROR message for non-pending CALL request ID"
  -- any other request type: "unhandled ERROR message" goes to std::cerr

def processError (message : WampMessage) : ClientM Unit := do
  if message.length ≠ 5 ∧ message.length ≠ 6 ∧ message.length ≠ 7 then
    protocolError "invalid ERROR message structure - length must be 5, 6 or 7"
  checkType message 1 .POSITIVE_INTEGER
    "invalid ERROR message structure - REQUEST.Type must be an integer"
  let requestType ← converted (asInt (← element message 1))
  checkRequestType requestType
  checkType message 2 .POSITIVE_INTEGER
    "invalid ERROR message structure - REQUEST.Request must be an integer"
  let requestId ← converted (asUInt64 (← element message 2))
  checkType message 3 .MAP
    "invalid ERROR message structure - Details must be a dictionary"
  checkType message 4 .STR
    "invalid ERROR message - Error must be a string (URI)"
  let uri ← converted (asString (← element message 4))
  let error ← errorTextAt message uri
  routeError requestType requestId error

def processCallResult (message : WampMessage) : ClientM Unit := do
  if message.length ≠ 3 ∧ message.length ≠ 4 ∧ message.length ≠ 5 then
    protocolError "RESULT - length must be 3, 4 or 5"
  checkType message 1 .POSITIVE_INTEGER "RESULT - CALL.Request must be an id"
  let requestId ← converted (asUInt64 (← element message 1))
  match (← get).session.calls.find requestId with
  | some call => do
      checkType message 2 .MAP "RESULT - Details must be a dictionary"
      let (arguments, kwArguments) ← payloadAt message 3
        "RESULT - YIELD.Arguments must be a list"
        "RESULT - YIELD.ArgumentsKw must be a dictionary"
      settleRequest call.result (.ok (.result { arguments, kwArguments }))
  | none => protocolError "bogus RESULT message for non-pending request ID"

/-! ## Subscriber handlers -/

def processSubscribed (message : WampMessage) : ClientM Unit := do
  if message.length ≠ 3 then
    protocolError "SUBSCRIBED - length must be 3"
  checkType message 1 .POSITIVE_INTEGER
    "SUBSCRIBED - SUBSCRIBED.Request must be an integer"
  let requestId ← converted (asUInt64 (← element message 1))
  match (← get).session.subscribeRequests.find requestId with
  | some subscribeRequest => do
      checkType message 2 .POSITIVE_INTEGER
        "SUBSCRIBED - SUBSCRIBED.Subscription must be an integer"
      let subscriptionId ← converted (asUInt64 (← element message 2))
      modifySession fun s =>
        { s with subscriptionHandlers :=
            s.subscriptionHandlers.insert subscriptionId subscribeRequest.handler }
      settleRequest subscribeRequest.response (.ok (.subscription subscriptionId))
      modifySession fun s =>
        { s with subscribeRequests := s.subscribeRequests.erase requestId }
  | none => protocolError "SUBSCRIBED - no pending request ID"

def processUnsubscribed (message : WampMessage) : ClientM Unit := do
  if message.length ≠ 2 then
    protocolError "UNSUBSCRIBED - length must be 2"
  checkType message 1 .POSITIVE_INTEGER
    "UNSUBSCRIBED - UNSUBSCRIBED.Request must be an integer"
  let requestId ← converted (asUInt64 (← element message 1))
  match (← get).session.unsubscribeRequests.find requestId with
  | some unsubscribeRequest => do
      settleRequest unsubscribeRequest.response (.ok .unsubscribed)
      modifySession fun s =>
        { s with unsubscribeRequests := s.unsubscribeRequests.erase requestId }
  | none => protocolError "UNSUBSCRIBED - no pending request ID"

/-- One call of an event handler. -/
def callHandler (handler : WampEventHandler) (event : WampEvent) (s : Script) :
    ClientM Unit := do
  modify fun c => { c with callbacks := c.callbacks ++ [.event handler event] }
  s.run

/-- The `while` loop of `process_event`: the handlers from one iterator up to
another, the `k`-th call of user code first. -/
def callHandlers (user : UserCode) (event : WampEvent) :
    Nat → List WampEventHandler → ClientM Unit
  | _, [] => pure ()
  | k, handler :: handlers => do
      callHandler handler event (user k)
      callHandlers user event (k + 1) handlers

/-- `catch (...)` around user code, with nothing done for the exception. -/
def swallow (p : ClientM Unit) : ClientM Unit :=
  tryCatch p fun
    | .throws _ => pure ()
    | .undefined => throw .undefined

def processEvent (user : UserCode) (message : WampMessage) : ClientM Unit := do
  if message.length ≠ 4 ∧ message.length ≠ 5 ∧ message.length ≠ 6 then
    protocolError "EVENT - length must be 4, 5 or 6"
  checkType message 1 .POSITIVE_INTEGER
    "EVENT - SUBSCRIBED.Subscription must be an integer"
  let subscriptionId ← converted (asUInt64 (← element message 1))
  let handlers := (← get).session.subscriptionHandlers
  let itr := handlers.lowerBound subscriptionId
  let last := handlers.upperBound subscriptionId
  if itr ≠ handlers.finish ∧ itr ≠ last then
    checkType message 2 .POSITIVE_INTEGER
      "EVENT - PUBLISHED.Publication must be an id"
    checkType message 3 .MAP "EVENT - Details must be a dictionary"
    let (arguments, kwArguments) ← payloadAt message 4
      "EVENT - EVENT.Arguments must be a list"
      "EVENT - EVENT.ArgumentsKw must be a dictionary"
    swallow (callHandlers user { arguments, kwArguments } 0
      (handlers.between itr last))
  -- else silently swallow EVENT for non-existent subscription IDs

/-! ## Callee handlers -/

def processRegistered (message : WampMessage) : ClientM Unit := do
  if message.length ≠ 3 then
    protocolError "REGISTERED - length must be 3"
  checkType message 1 .POSITIVE_INTEGER
    "REGISTERED - REGISTERED.Request must be an integer"
  let requestId ← converted (asUInt64 (← element message 1))
  match (← get).session.registerRequests.find requestId with
  | some registerRequest => do
      checkType message 2 .POSITIVE_INTEGER
        "REGISTERED - REGISTERED.Registration must be an integer"
      let registrationId ← converted (asUInt64 (← element message 2))
      modifySession fun s =>
        { s with procedures :=
            s.procedures.assign registrationId registerRequest.procedure }
      settleRequest registerRequest.response (.ok (.registration registrationId))
  | none => protocolError "REGISTERED - no pending request ID"

/-- The automatic ERROR reply of the two catch clauses around a procedure. -/
def replyError (h : Nat) (attempt : ReplyAttempt) : ClientM Unit := do
  match (← get).invocations[h]? with
  | none => pure ()
  | some v => if v.sendable then reply true h attempt

def runtimeErrorUri : Octets := octets "wamp.error.runtime_error"

/-- `error("wamp.error.runtime_error", EMPTY_ARGUMENTS, {{"what", what}})` -/
def whatError (what : Octets) : ReplyAttempt :=
  .error runtimeErrorUri
    (.listMap (.ok []) (.ok [(.str (octets "what"), .str what)]))

/-- `error("wamp.error.runtime_error")` -/
def bareError : ReplyAttempt := .error runtimeErrorUri .none

/-- The procedure call with its two catch clauses. -/
def callProcedure (procedure : WampProcedure) (h : Nat) (s : Script) :
    ClientM Unit := do
  modify fun c =>
    { c with callbacks := c.callbacks ++ [.invocation procedure h] }
  tryCatch s.run fun
    | .throws (.user none) => replyError h bareError
    | .throws (.user (some what)) => replyError h (whatError what)
    | e => throw e

def newInvocation (v : WampInvocation) : ClientM Nat := do
  let c ← get
  set { c with invocations := c.invocations ++ [v] }
  return c.invocations.length

def processInvocation (user : UserCode) (message : WampMessage) :
    ClientM Unit := do
  if message.length ≠ 4 ∧ message.length ≠ 5 ∧ message.length ≠ 6 then
    protocolError "INVOCATION message length must be 4, 5 or 6"
  checkType message 1 .POSITIVE_INTEGER "INVOCATION.Request must be an integer"
  let requestId ← converted (asUInt64 (← element message 1))
  checkType message 2 .POSITIVE_INTEGER
    "INVOCATION.Registration must be an integer"
  let registrationId ← converted (asUInt64 (← element message 2))
  match (← get).session.procedures.find registrationId with
  | some procedure => do
      checkType message 3 .MAP "INVOCATION.Details must be a map"
      let details ← element message 3
      let (arguments, kwArguments) ← payloadAt message 4
        "INVOCATION.Arguments must be an array/vector"
        "INVOCATION.KwArguments must be a map"
      let h ← newInvocation
        { requestId, details, arguments, kwArguments, sendable := true }
      callProcedure procedure h (user 0)
  | none =>
      protocolError "bogus INVOCATION message for non-registered registration ID"

/-! ## Dispatch -/

def gotMessage (user : UserCode) (obj : Object) : ClientM Unit :=
  match obj with
  | .array message => do
      if message.length < 1 then
        protocolError "invalid message structure - missing message code"
      checkType message 0 .POSITIVE_INTEGER
        "invalid message code type - not an integer"
      let code ← converted (asInt (← element message 0))
      match MessageType.ofCode? code with
      | some .HELLO =>
          protocolError "received HELLO message unexpected for WAMP client roles"
      | some .WELCOME => processWelcome message
      | some .ABORT => pure ()
      | some .CHALLENGE =>
          protocolError "received CHALLENGE message - not implemented"
      | some .AUTHENTICATE =>
          protocolError "received AUTHENTICATE message unexpected for WAMP client roles"
      | some .GOODBYE => processGoodbye message
      | some .HEARTBEAT => pure ()
      | some .ERROR => processError message
      | some .PUBLISH =>
          protocolError "received PUBLISH message unexpected for WAMP client roles"
      | some .PUBLISHED => pure ()
      | some .SUBSCRIBE =>
          protocolError "received SUBSCRIBE message unexpected for WAMP client roles"
      | some .SUBSCRIBED => processSubscribed message
      | some .UNSUBSCRIBE =>
          protocolError "received UNSUBSCRIBE message unexpected for WAMP client roles"
      | some .UNSUBSCRIBED => processUnsubscribed message
      | some .EVENT => processEvent user message
      | some .CALL =>
          protocolError "received CALL message unexpected for WAMP client roles"
      | some .CANCEL =>
          protocolError "received CANCEL message unexpected for WAMP client roles"
      | some .RESULT => processCallResult message
      | some .REGISTER =>
          protocolError "received REGISTER message unexpected for WAMP client roles"
      | some .REGISTERED => processRegistered message
      | some .UNREGISTER =>
          protocolError "received UNREGISTER message unexpected for WAMP client roles"
      | some .UNREGISTERED => pure ()
      | some .INVOCATION => processInvocation user message
      | some .INTERRUPT =>
          protocolError "received INTERRUPT message - not implemented"
      | some .YIELD =>
          protocolError "received YIELD message unexpected for WAMP client roles"
      | none => pure ()
  | _ => protocolError "invalid message structure - message is not an array"

/-! ## Handshake and read errors -/

/-- The four octets of a handshake reply. -/
abbrev HandshakeReply : Type := UInt8 × UInt8 × UInt8 × UInt8

def storeHandshake (p : Promise Exn Bool) (s : WampSession) : WampSession :=
  { s with handshake := p }

/-- `got_handshake_reply`. The result says whether it goes on to
`receive_message`. -/
def gotHandshakeReply : Except ReadError HandshakeReply → ClientM Bool
  | .error _ => do
      settle (← get).session.handshake (.ok false) storeHandshake
      return false
  | .ok (magic, serializer, _, _) => do
      if magic ≠ 0x7F then
        settle (← get).session.handshake (.ok false) storeHandshake
        protocolError "invalid magic byte in RawSocket handshake response"
      if serializer &&& 0x0F ≠ 0x02 then
        settle (← get).session.handshake (.ok false) storeHandshake
        protocolError ("RawSocket handshake reply: server does not speak " ++
          "MsgPack encoding")
      settle (← get).session.handshake (.ok true) storeHandshake
      return true

/-- The default of `leave`'s parameter. -/
def closeRealm : Octets := octets "wamp.error.close_realm"

/-- `handleRxError`; the slot connected to `m_onRxError` is user code. -/
def handleRxError (user : UserCode) (error : ReadError) : ClientM Unit := do
  if error ≠ .operationAborted then
    settle (← get).session.sessionLeave (.ok (octets "socket closed")) storeLeave
    leave true closeRealm
    stop true
    modify fun c => { c with rxErrors := c.rxErrors ++ [error] }
    (user 0).run

end Autobahn
