import Autobahn.Foundation.Containers
import Autobahn.Session.Messages

/-!
# The state of a session and of the program around it

`WampSession` has the members of `wamp_session`. A session is used by a
program that holds futures and invocation handles and posts tasks to an
`io_service`; `Client` is the session together with these.

Objects shared by pointer live in `Client` and are named by their index:
the promises of requests (`requests`) and the invocations (`invocations`).
A few fields are history the code does not keep; they are marked as such and
no modelled function reads them.
-/

namespace Autobahn

open Foundation MsgPack

instance instLinearOrderUInt64 : LinearOrder UInt64 where
  le_refl := UInt64.le_refl
  le_trans _ _ _ := UInt64.le_trans
  le_antisymm _ _ := UInt64.le_antisymm
  le_total := UInt64.le_total
  lt_iff_le_not_ge a b := by
    simp only [UInt64.lt_iff_toNat_lt, UInt64.le_iff_toNat_le]
    omega
  toDecidableLE := inferInstance
  toDecidableEq := inferInstance
  toDecidableLT := inferInstance

/-! ## User code -/

/-- A `wamp_event_handler`: which closure the user passed. -/
structure WampEventHandler where
  id : Nat
deriving DecidableEq, Inhabited

/-- A `wamp_procedure`: which closure the user passed. -/
structure WampProcedure where
  id : Nat
deriving DecidableEq, Inhabited

/-- `EMPTY_ARGUMENTS` -/
def EMPTY_ARGUMENTS : Object := .array []

/-- `EMPTY_KW_ARGUMENTS` -/
def EMPTY_KW_ARGUMENTS : Object := .map []

/-- `type == ARRAY ? via.array.size : 0` -/
def arraySize : Object → Nat
  | .array elements => elements.length
  | _ => 0

/-- `type == MAP ? via.map.size : 0` -/
def mapSize : Object → Nat
  | .map entries => entries.length
  | _ => 0

structure WampEvent where
  arguments : Object := EMPTY_ARGUMENTS
  kwArguments : Object := EMPTY_KW_ARGUMENTS

structure WampCallResult where
  arguments : Object := EMPTY_ARGUMENTS
  kwArguments : Object := EMPTY_KW_ARGUMENTS

/-! ## Requests -/

/-- The calls a user makes on a session. -/
inductive Operation : Type where
  | stop
  | join (realm : Octets)
  | leave (reason : Octets)
  | subscribe (topic : Octets) (handler : WampEventHandler)
  | unsubscribe (subscription : UInt64)
  | provide (name : Octets) (procedure : WampProcedure)
      (options : List (Octets × Object))
  | publish (topic : Octets) (payload : Payload)
  | call (procedure : Octets) (payload : Payload)

/-- The four kinds of request that wait for a reply. -/
inductive RequestKind : Type where
  | call | subscribe | unsubscribe | register
deriving DecidableEq

/-- What a reply resolves a future with. -/
inductive Reply : Type where
  | result (value : WampCallResult)
  | subscription (id : UInt64)
  | unsubscribed
  | registration (id : UInt64)

/-- The promise of one request. `kind`, `operation`, `requestId`, `buffer`
and `entered` are history: which operation made it, under which id and with
which frame, and whether its task has run while joined. -/
structure Request where
  promise : Promise Exn Reply := {}
  kind : RequestKind
  operation : Operation
  requestId : UInt64
  buffer : Frame
  entered : Bool := false

/-- `wamp_call` -/
structure WampCall where
  result : Nat

/-- `wamp_subscribe_request` -/
structure WampSubscribeRequest where
  handler : WampEventHandler
  response : Nat

/-- `wamp_unsubscribe_request` -/
structure WampUnsubscribeRequest where
  response : Nat

/-- `wamp_register_request` -/
structure WampRegisterRequest where
  procedure : WampProcedure
  response : Nat

/-! ## The session -/

/-- How the two writes of one `send` end: both done, or cut short in the
length prefix or in the body after some octets. -/
inductive WriteResult : Type where
  | complete
  | prefixCut (octets : Nat)
  | bodyCut (octets : Nat)
deriving DecidableEq

/-- The output stream: the writes made so far, and how each coming one will
end, which is up to the network. -/
structure OStream where
  writes : List (Frame × WriteResult) := []
  plan : Nat → WriteResult
  isOpen : Bool := true

namespace OStream

def write (o : OStream) (buffer : Frame) : OStream :=
  { o with writes := o.writes ++ [(buffer, o.plan o.writes.length)] }

/-- The frames written completely, in order. -/
def frames (o : OStream) : List Frame :=
  (o.writes.filter (fun w => w.2 = .complete)).map Prod.fst

end OStream

/-- The members of `wamp_session`. -/
structure WampSession where
  inOpen : Bool := true
  out : OStream
  /-- `m_request_id`: the last id taken, not the next one -/
  requestId : UInt64 := 0
  handshake : Promise Exn Bool := {}
  sessionId : UInt64 := 0
  sessionJoin : Promise Exn UInt64 := {}
  goodbyeSent : Bool := false
  sessionLeave : Promise Exn Octets := {}
  stopped : Bool := false
  sessionStop : Promise Exn Unit := {}
  calls : Table UInt64 WampCall := .empty
  subscribeRequests : Table UInt64 WampSubscribeRequest := .empty
  unsubscribeRequests : Table UInt64 WampUnsubscribeRequest := .empty
  subscriptionHandlers : Multimap UInt64 WampEventHandler := .empty
  registerRequests : Table UInt64 WampRegisterRequest := .empty
  procedures : Table UInt64 WampProcedure := .empty

/-- The promise an entry of one of the four tables points to. -/
def WampSession.pending (s : WampSession) (k : RequestKind) (r : UInt64) :
    Option Nat :=
  match k with
  | .call => (s.calls.find r).map WampCall.result
  | .subscribe => (s.subscribeRequests.find r).map WampSubscribeRequest.response
  | .unsubscribe =>
      (s.unsubscribeRequests.find r).map WampUnsubscribeRequest.response
  | .register => (s.registerRequests.find r).map WampRegisterRequest.response

/-! ## Tasks, invocations and the client -/

/-- What a request's task inserts into its table. -/
inductive Entry : Type where
  | call
  | subscribe (handler : WampEventHandler)
  | unsubscribe
  | register (procedure : WampProcedure)

def Entry.kind : Entry → RequestKind
  | .call => .call
  | .subscribe _ => .subscribe
  | .unsubscribe => .unsubscribe
  | .register _ => .register

/-- A closure handed to `m_io.dispatch`, with what it captured. -/
inductive Task : Type where
  | stop
  | join (buffer : Frame)
  | leave (buffer : Frame)
  | publish (buffer : Frame)
  | request (response : Nat) (requestId : UInt64) (entry : Entry)
      (buffer : Frame)
  | sendResult (invocation : Nat) (buffer : Frame)

/-- `wamp_invocation_impl`. `sendable` says whether `m_send_result_fn` is
set. `replies` and `handed` are history: the buffers passed to
`m_send_result_fn`, and those of them that reached `wamp_session::send`. -/
structure WampInvocation where
  requestId : UInt64 := 0
  details : Object := .map []
  arguments : Object := EMPTY_ARGUMENTS
  kwArguments : Object := EMPTY_KW_ARGUMENTS
  sendable : Bool := false
  replies : List Frame := []
  handed : List Frame := []

/-- One call of user code made while a message is processed. -/
inductive Callback : Type where
  | event (handler : WampEventHandler) (event : WampEvent)
  | invocation (procedure : WampProcedure) (invocation : Nat)

/-- A `boost::system::error_code` that a read ends with. -/
inductive ReadError : Type where
  | operationAborted
  | other (code : Nat)
deriving DecidableEq

/-- A session and the program that uses it. `callbacks`, `issued` and
`collisions` are history: the user code run so far, how many request ids
were taken, and how many `emplace` calls met an existing key. -/
structure Client where
  session : WampSession
  alive : Bool := true
  requests : List Request := []
  invocations : List WampInvocation := []
  tasks : List Task := []
  callbacks : List Callback := []
  rxErrors : List ReadError := []
  issued : Nat := 0
  collisions : Nat := 0

/-- A new session on a stream whose writes will end as `plan` says. -/
def Client.new (plan : Nat → WriteResult) : Client where
  session := { out := { plan := plan } }

end Autobahn
