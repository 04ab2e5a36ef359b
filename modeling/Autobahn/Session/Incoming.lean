import Autobahn.Session.Receive

/-!
# What a received object asks for

`Incoming` is the meaning of a received object, read off its shape alone, and
`Incoming.handle` what the session does about it. That the receive path does
exactly this is `gotMessage_observe`, in the next module; every later fact
about received messages goes by cases on `Incoming`.
-/

namespace Autobahn

open Foundation MsgPack Conversion

/-! ## Outcomes -/

/-- How a call ends, with the text of a `protocol_error` forgotten. -/
inductive Outcome : Type where
  | returned
  | protocolError
  | exception (e : Exn)
  | undefined
deriving DecidableEq

def outcomeOf {α : Type} : Except Abort α → Outcome
  | .ok _ => .returned
  | .error (.throws (.protocolError _)) => .protocolError
  | .error (.throws e) => .exception e
  | .error .undefined => .undefined

/-- The outcome of a program, and the state it leaves. -/
def observe {α : Type} (p : ClientM α) (c : Client) : Outcome × Client :=
  (outcomeOf (p.run c).1, (p.run c).2)

/-! ## Reading an object -/

/-- Why a field that is not checked cannot be read. -/
inductive Misread : Type where
  | missing
  | mistyped
deriving DecidableEq

def Misread.abort : Misread → Abort
  | .missing => .undefined
  | .mistyped => .throws .typeError

inductive Incoming : Type where
  /-- a `protocol_error`, whatever the state -/
  | malformed
  /-- a message code or a request type beyond `int` -/
  | mistyped
  | ignored
  | welcome (sessionId : Except Misread UInt64)
  | goodbye (reason : Except Misread Octets)
  | callError (requestId : UInt64) (text : Octets)
  | result (requestId : UInt64) (value : WampCallResult)
  | subscribed (requestId subscriptionId : UInt64)
  | unsubscribed (requestId : UInt64)
  /-- `none`: what follows the subscription id is malformed -/
  | event (subscriptionId : UInt64) (event : Option WampEvent)
  | registered (requestId registrationId : UInt64)
  | invocation (registrationId requestId : UInt64)
      (details arguments kwArguments : Object)

/-- The optional list and map at the end of a message. -/
def readPayload : List Object → Option (Object × Object)
  | [] => some (EMPTY_ARGUMENTS, EMPTY_KW_ARGUMENTS)
  | [.array a] => some (.array a, EMPTY_KW_ARGUMENTS)
  | [.array a, .map kw] => some (.array a, .map kw)
  | _ => none

/-- A well-formed tail: nothing, a list, or a list and a map. -/
inductive Tail : Type where
  | none
  | list (arguments : List Object)
  | listMap (arguments : List Object) (kwArguments : List (Object × Object))

namespace Tail

def objects : Tail → List Object
  | .none => []
  | .list arguments => [.array arguments]
  | .listMap arguments kwArguments => [.array arguments, .map kwArguments]

/-- What a receiver sees as the arguments. -/
def arguments : Tail → Object
  | .none => EMPTY_ARGUMENTS
  | .list arguments | .listMap arguments _ => .array arguments

def kwArguments : Tail → Object
  | .none | .list _ => EMPTY_KW_ARGUMENTS
  | .listMap _ kwArguments => .map kwArguments

theorem length_objects_le (t : Tail) : t.objects.length ≤ 2 := by
  cases t <;> simp [objects]

end Tail

@[simp] theorem readPayload_objects (t : Tail) :
    readPayload t.objects = some (t.arguments, t.kwArguments) := by
  cases t <;> rfl

def readWelcome : List Object → Incoming
  | [] => .welcome (.error .missing)
  | o :: _ => .welcome ((asUInt64 o).mapError fun _ => .mistyped)

def readGoodbye : List Object → Incoming
  | _ :: o :: _ => .goodbye ((asString o).mapError fun _ => .mistyped)
  | _ => .goodbye (.error .missing)

/-- The request types an ERROR may carry. -/
def isErrorType (t : UInt64) : Prop :=
  t = MessageType.CALL.code ∨ t = MessageType.REGISTER.code ∨
    t = MessageType.UNREGISTER.code ∨ t = MessageType.PUBLISH.code ∨
    t = MessageType.SUBSCRIBE.code ∨ t = MessageType.UNSUBSCRIBE.code

instance (t : UInt64) : Decidable (isErrorType t) := by
  unfold isErrorType
  infer_instance

def readErrorBody (t : UInt64) : List Object → Incoming
  | .positiveInteger r :: .map _ :: .str uri :: rest =>
      match readPayload rest with
      | some (_, kw) =>
          if t = MessageType.CALL.code then .callError r (errorText uri kw)
          else .ignored
      | none => .malformed
  | _ => .malformed

def readErrorFields : List Object → Incoming
  | .positiveInteger t :: rest =>
      if intMax < t then .mistyped
      else if isErrorType t then readErrorBody t rest
      else .malformed
  | _ => .malformed

def readError (fields : List Object) : Incoming :=
  if fields.length < 4 ∨ 6 < fields.length then .malformed
  else readErrorFields fields

def readResult : List Object → Incoming
  | .positiveInteger r :: .map _ :: rest =>
      match readPayload rest with
      | some (arguments, kwArguments) => .result r { arguments, kwArguments }
      | none => .malformed
  | _ => .malformed

def readSubscribed : List Object → Incoming
  | [.positiveInteger r, .positiveInteger s] => .subscribed r s
  | _ => .malformed

def readUnsubscribed : List Object → Incoming
  | [.positiveInteger r] => .unsubscribed r
  | _ => .malformed

def readEventBody : List Object → Option WampEvent
  | .positiveInteger _ :: .map _ :: rest =>
      (readPayload rest).map fun p => { arguments := p.1, kwArguments := p.2 }
  | _ => none

def readEventFields : List Object → Incoming
  | .positiveInteger s :: rest => .event s (readEventBody rest)
  | _ => .malformed

def readEvent (fields : List Object) : Incoming :=
  if fields.length < 3 ∨ 5 < fields.length then .malformed
  else readEventFields fields

def readRegistered : List Object → Incoming
  | [.positiveInteger r, .positiveInteger g] => .registered r g
  | _ => .malformed

def readInvocation : List Object → Incoming
  | .positiveInteger i :: .positiveInteger g :: .map d :: rest =>
      match readPayload rest with
      | some (arguments, kwArguments) =>
          .invocation g i (.map d) arguments kwArguments
      | none => .malformed
  | _ => .malformed

def readFields (code : MessageType) (fields : List Object) : Incoming :=
  match code with
  | .WELCOME => readWelcome fields
  | .GOODBYE => readGoodbye fields
  | .ERROR => readError fields
  | .SUBSCRIBED => readSubscribed fields
  | .UNSUBSCRIBED => readUnsubscribed fields
  | .EVENT => readEvent fields
  | .RESULT => readResult fields
  | .REGISTERED => readRegistered fields
  | .INVOCATION => readInvocation fields
  | .ABORT | .HEARTBEAT | .PUBLISHED | .UNREGISTERED => .ignored
  | _ => .malformed

def Incoming.read : Object → Incoming
  | .array (.positiveInteger n :: fields) =>
      if intMax < n then .mistyped
      else
        match MessageType.ofCode? n with
        | some code => readFields code fields
        | none => .ignored
  | _ => .malformed

/-! ## Handling it -/

namespace Client

/-- A GOODBYE has come in. -/
def left (c : Client) : Client :=
  let s := { c.session with sessionId := 0 }
  c.setSession <| if s.goodbyeSent then s
    else s.send (goodbyeFrame (octets "wamp.error.goodbye_and_out"))

def settled (c : Client) (ref : Nat) (r : Except Exn Reply) : Client :=
  c.modifyRequest ref fun q =>
    { q with promise := { q.promise with outcome := some r } }

def installHandler (c : Client) (s : UInt64) (h : WampEventHandler) : Client :=
  c.setSession { c.session with
    subscriptionHandlers := c.session.subscriptionHandlers.insert s h }

def installProcedure (c : Client) (g : UInt64) (p : WampProcedure) : Client :=
  c.setSession { c.session with procedures := c.session.procedures.assign g p }

def eraseSubscribe (c : Client) (r : UInt64) : Client :=
  c.setSession { c.session with
    subscribeRequests := c.session.subscribeRequests.erase r }

def eraseUnsubscribe (c : Client) (r : UInt64) : Client :=
  c.setSession { c.session with
    unsubscribeRequests := c.session.unsubscribeRequests.erase r }

/-- Can the promise of this request be settled? -/
def Unsettled (c : Client) (ref : Nat) : Prop :=
  ∃ q, c.requests[ref]? = some q ∧ ¬ q.promise.resolved

end Client

/-- Lets a failure found while reading through. -/
def readOk {α : Type} : Except Misread α → ClientM α
  | .ok a => pure a
  | .error m => throw m.abort

def Incoming.handle (user : UserCode) : Incoming → ClientM Unit
  | .malformed => Autobahn.protocolError ""
  | .mistyped => throwExn .typeError
  | .ignored => pure ()
  | .welcome sessionId => do
      let id ← readOk sessionId
      modifySession fun s => { s with sessionId := id }
      settle (← get).session.sessionJoin (.ok id) storeJoin
  | .goodbye reason => do
      modify Client.left
      let text ← readOk reason
      settle (← get).session.sessionLeave (.ok text) storeLeave
  | .callError requestId text => do
      match (← get).session.calls.find requestId with
      | some call => settleRequest call.result (.error (.runtimeError text))
      | none => Autobahn.protocolError ""
  | .result requestId value => do
      match (← get).session.calls.find requestId with
      | some call => settleRequest call.result (.ok (.result value))
      | none => Autobahn.protocolError ""
  | .subscribed requestId subscriptionId => do
      match (← get).session.subscribeRequests.find requestId with
      | some q =>
          modify fun c => c.installHandler subscriptionId q.handler
          settleRequest q.response (.ok (.subscription subscriptionId))
          modify fun c => c.eraseSubscribe requestId
      | none => Autobahn.protocolError ""
  | .unsubscribed requestId => do
      match (← get).session.unsubscribeRequests.find requestId with
      | some q =>
          settleRequest q.response (.ok .unsubscribed)
          modify fun c => c.eraseUnsubscribe requestId
      | none => Autobahn.protocolError ""
  | .event subscriptionId content => do
      match (← get).session.subscriptionHandlers.values subscriptionId with
      | [] => pure ()
      | handlers =>
          match content with
          | some e => swallow (callHandlers user e 0 handlers)
          | none => Autobahn.protocolError ""
  | .registered requestId registrationId => do
      match (← get).session.registerRequests.find requestId with
      | some q =>
          modify fun c => c.installProcedure registrationId q.procedure
          settleRequest q.response (.ok (.registration registrationId))
      | none => Autobahn.protocolError ""
  | .invocation registrationId requestId details arguments kwArguments => do
      match (← get).session.procedures.find registrationId with
      | some procedure =>
          let h ← newInvocation
            { requestId, details, arguments, kwArguments, sendable := true }
          callProcedure procedure h (user 0)
      | none => Autobahn.protocolError ""

end Autobahn
