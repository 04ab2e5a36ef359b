import Autobahn.Foundation.Exec
import Autobahn.Foundation.Promise
import Autobahn.MsgPack.Object

/-!
# Message codes, exceptions, conversions and outgoing frames

The vocabulary shared by a session and its invocations: the WAMP message
codes, the exceptions the code throws or lets through, the unchecked
conversions of a decoded value, and the pack sequence of every outgoing
message.

An encoder appends tokens exactly as the source does, array size first. Its
`_eq_pack` lemma says which value the tokens spell, so that everything above
may speak about the message and forget the tokens.
-/

namespace Autobahn

open MsgPack

/-! ## Message codes -/

inductive MessageType : Type where
  | HELLO | WELCOME | ABORT | CHALLENGE | AUTHENTICATE | GOODBYE | HEARTBEAT
  | ERROR | PUBLISH | PUBLISHED | SUBSCRIBE | SUBSCRIBED | UNSUBSCRIBE
  | UNSUBSCRIBED | EVENT | CALL | CANCEL | RESULT | REGISTER | REGISTERED
  | UNREGISTER | UNREGISTERED | INVOCATION | INTERRUPT | YIELD
deriving DecidableEq

namespace MessageType

def code : MessageType → UInt64
  | HELLO => 1
  | WELCOME => 2
  | ABORT => 3
  | CHALLENGE => 4
  | AUTHENTICATE => 5
  | GOODBYE => 6
  | HEARTBEAT => 7
  | ERROR => 8
  | PUBLISH => 16
  | PUBLISHED => 17
  | SUBSCRIBE => 32
  | SUBSCRIBED => 33
  | UNSUBSCRIBE => 34
  | UNSUBSCRIBED => 35
  | EVENT => 36
  | CALL => 48
  | CANCEL => 49
  | RESULT => 50
  | REGISTER => 64
  | REGISTERED => 65
  | UNREGISTER => 66
  | UNREGISTERED => 67
  | INVOCATION => 68
  | INTERRUPT => 69
  | YIELD => 70

/-- `static_cast<message_type>` of an integer, with `none` for a value that
is no enumerator (the cast keeps it, and no `case` matches it). -/
def ofCode? (n : UInt64) : Option MessageType :=
  [HELLO, WELCOME, ABORT, CHALLENGE, AUTHENTICATE, GOODBYE, HEARTBEAT, ERROR,
    PUBLISH, PUBLISHED, SUBSCRIBE, SUBSCRIBED, UNSUBSCRIBE, UNSUBSCRIBED,
    EVENT, CALL, CANCEL, RESULT, REGISTER, REGISTERED, UNREGISTER,
    UNREGISTERED, INVOCATION, INTERRUPT, YIELD].find? (fun t => t.code = n)

@[simp] theorem ofCode?_code (t : MessageType) : ofCode? t.code = some t := by
  cases t <;> rfl

/-- A message as a peer sends it: the code, then the fields. -/
def object (t : MessageType) (fields : List Object) : Object :=
  .array (.positiveInteger t.code :: fields)

/-- `packer.pack(static_cast<int>(t))` -/
def token (t : MessageType) : Token := .positiveInteger t.code

end MessageType

/-! ## Exceptions -/

/-- What the code throws or lets through. `user` stands for whatever user
code throws: with a `what()` if it derives from `std::exception`. -/
inductive Exn : Type where
  | protocolError (what : String)
  | noSessionError
  | runtimeError (what : Octets)
  | typeError
  | promiseAlreadySatisfied
  | futureAlreadyRetrieved
  | brokenPromise
  | user (what : Option Octets)
deriving DecidableEq

/-- How a piece of code can end early. `undefined` is the one kind of
undefined behaviour the receive path can run into: reading `message[i]` at or
past the end. No `catch` clause sees it. -/
inductive Abort : Type where
  | throws (e : Exn)
  | undefined
deriving DecidableEq

/-! ## Conversions: `object::as<T>()` -/

namespace Conversion

def asUInt64 : Object → Except Exn UInt64
  | .positiveInteger n => .ok n
  | _ => .error .typeError

@[simp] theorem asUInt64_positiveInteger (n : UInt64) :
    asUInt64 (.positiveInteger n) = .ok n := rfl

/-- `INT_MAX` -/
def intMax : UInt64 := 2147483647

/-- `as<int>()` of an object already known to be a positive integer. -/
def asInt : Object → Except Exn UInt64
  | .positiveInteger n => if n ≤ intMax then .ok n else .error .typeError
  | _ => .error .typeError

@[simp] theorem asInt_positiveInteger (n : UInt64) :
    asInt (.positiveInteger n) =
      if n ≤ intMax then .ok n else .error .typeError := rfl

/-- A binary converts to `std::string` as well. -/
def asString : Object → Except Exn Octets
  | .str s => .ok s
  | .bin s => .ok s
  | _ => .error .typeError

@[simp] theorem asString_str (s : Octets) : asString (.str s) = .ok s := rfl

/-- `convert` into `std::unordered_map<std::string, std::string>`: every key
and every value must convert. -/
def asStringMap : Object → Except Exn (List (Octets × Octets))
  | .map entries => entries.mapM fun e => do
      let k ← asString e.1
      let v ← asString e.2
      pure (k, v)
  | _ => .error .typeError

/-- `find` in that map: of equal keys the last one was stored. -/
def findKey (key : Octets) (entries : List (Octets × Octets)) : Option Octets :=
  (entries.reverse.find? (fun e => e.1 = key)).map Prod.snd

end Conversion

/-! ## User values to be packed -/

/-- A user's list or map: the value its packing writes, or what packing it
throws. -/
abbrev Packing (α : Type) : Type := Except Exn α

/-- The three shapes an operation takes: no arguments, a list, or a list and
a map. -/
inductive Payload : Type where
  | none
  | list (arguments : Packing (List Object))
  | listMap (arguments : Packing (List Object))
      (kwArguments : Packing (List (Object × Object)))

namespace Payload

/-- The values a payload adds to a message. -/
def objects : Payload → Except Exn (List Object)
  | .none => .ok []
  | .list arguments => do
      let a ← arguments
      pure [.array a]
  | .listMap arguments kwArguments => do
      let a ← arguments
      let kw ← kwArguments
      pure [.array a, .map kw]

end Payload

def packList (arguments : Packing (List Object)) : Except Exn (List Token) :=
  arguments.map fun a => pack (.array a)

def packMap (kwArguments : Packing (List (Object × Object))) :
    Except Exn (List Token) :=
  kwArguments.map fun kw => pack (.map kw)

/-! ## Outgoing messages -/

/-- The contents of one `msgpack::sbuffer`. -/
abbrev Frame : Type := List Token

/-- The fields of the message a frame spells, if it spells exactly one. -/
def decode (frame : Frame) : Option (List Object) :=
  match unpack frame with
  | some (.array fields, []) => some fields
  | _ => none

@[simp] theorem decode_pack (fields : List Object) :
    decode (pack (.array fields)) = some fields := by
  have h := unpack_pack (.array fields) []
  rw [List.append_nil] at h
  simp [decode, h]

section Encoders

open MessageType

/-- `packer.pack(id)` for a `uint64_t` -/
def idToken (id : UInt64) : Token := .positiveInteger id

/-- `[HELLO, Realm|uri, Details|dict]` -/
def helloFrame (realm : Octets) : Frame :=
  [.arrayHeader 3, HELLO.token, .str realm,
    .mapHeader 1, .str (octets "roles"),
    .mapHeader 4,
    .str (octets "caller"), .mapHeader 0,
    .str (octets "callee"), .mapHeader 0,
    .str (octets "publisher"), .mapHeader 0,
    .str (octets "subscriber"), .mapHeader 0]

/-- `[GOODBYE, Details|dict, Reason|uri]` -/
def goodbyeFrame (reason : Octets) : Frame :=
  [.arrayHeader 3, GOODBYE.token, .mapHeader 0, .str reason]

/-- `[SUBSCRIBE, Request|id, Options|dict, Topic|uri]` -/
def subscribeFrame (requestId : UInt64) (topic : Octets) : Frame :=
  [.arrayHeader 4, SUBSCRIBE.token, idToken requestId, .mapHeader 0, .str topic]

/-- `[UNSUBSCRIBE, Request|id, SUBSCRIBED.Subscription|id]` -/
def unsubscribeFrame (requestId subscription : UInt64) : Frame :=
  [.arrayHeader 3, UNSUBSCRIBE.token, idToken requestId, idToken subscription]

/-- `[REGISTER, Request|id, Options|dict, Procedure|uri]` -/
def registerFrame (requestId : UInt64) (options : List (Octets × Object))
    (name : Octets) : Frame :=
  [.arrayHeader 4, REGISTER.token, idToken requestId] ++
    pack (.map (options.map fun o => (.str o.1, o.2))) ++ [.str name]

/-- `[PUBLISH, Request|id, Options|dict, Topic|uri(, Arguments|list
(, ArgumentsKw|dict))]`: three overloads. -/
def publishFrame (requestId : UInt64) (topic : Octets) :
    Payload → Except Exn Frame
  | .none => .ok
      [.arrayHeader 4, PUBLISH.token, idToken requestId, .mapHeader 0, .str topic]
  | .list arguments => do
      let a ← packList arguments
      pure ([.arrayHeader 5, PUBLISH.token, idToken requestId, .mapHeader 0,
        .str topic] ++ a)
  | .listMap arguments kwArguments => do
      let a ← packList arguments
      let kw ← packMap kwArguments
      pure ([.arrayHeader 6, PUBLISH.token, idToken requestId, .mapHeader 0,
        .str topic] ++ a ++ kw)

/-- `[CALL, Request|id, Options|dict, Procedure|uri(, Arguments|list
(, ArgumentsKw|dict))]`: three overloads. -/
def callFrame (requestId : UInt64) (procedure : Octets) :
    Payload → Except Exn Frame
  | .none => .ok
      [.arrayHeader 4, CALL.token, idToken requestId, .mapHeader 0, .str procedure]
  | .list arguments => do
      let a ← packList arguments
      pure ([.arrayHeader 5, CALL.token, idToken requestId, .mapHeader 0,
        .str procedure] ++ a)
  | .listMap arguments kwArguments => do
      let a ← packList arguments
      let kw ← packMap kwArguments
      pure ([.arrayHeader 6, CALL.token, idToken requestId, .mapHeader 0,
        .str procedure] ++ a ++ kw)

/-- `[YIELD, INVOCATION.Request|id, Options|dict(, Arguments|list
(, ArgumentsKw|dict))]`: `empty_result` and two overloads of `result`. -/
def yieldFrame (requestId : UInt64) : Payload → Except Exn Frame
  | .none => .ok
      [.arrayHeader 3, YIELD.token, idToken requestId, .mapHeader 0]
  | .list arguments => do
      let a ← packList arguments
      pure ([.arrayHeader 4, YIELD.token, idToken requestId, .mapHeader 0] ++ a)
  | .listMap arguments kwArguments => do
      let a ← packList arguments
      let kw ← packMap kwArguments
      pure ([.arrayHeader 5, YIELD.token, idToken requestId, .mapHeader 0] ++
        a ++ kw)

/-- `[ERROR, INVOCATION, INVOCATION.Request|id, Details|dict, Error|uri
(, Arguments|list(, ArgumentsKw|dict))]`: three overloads of `error`. -/
def errorFrame (requestId : UInt64) (uri : Octets) : Payload → Except Exn Frame
  | .none => .ok
      [.arrayHeader 5, ERROR.token, INVOCATION.token, idToken requestId,
        .mapHeader 0, .str uri]
  | .list arguments => do
      let a ← packList arguments
      pure ([.arrayHeader 6, ERROR.token, INVOCATION.token, idToken requestId,
        .mapHeader 0, .str uri] ++ a)
  | .listMap arguments kwArguments => do
      let a ← packList arguments
      let kw ← packMap kwArguments
      pure ([.arrayHeader 7, ERROR.token, INVOCATION.token, idToken requestId,
        .mapHeader 0, .str uri] ++ a ++ kw)

/-! ### The message a frame spells -/

/-- A frame that could be packed comes from values that could. -/
theorem exists_of_map_eq_ok {α β : Type} {x : Except Exn α} {f : α → β} {b : β}
    (h : x.map f = .ok b) : ∃ a, x = .ok a ∧ b = f a := by
  cases x with
  | error e => cases h
  | ok a => exact ⟨a, rfl, (Except.ok.inj h).symm⟩

theorem helloFrame_eq_pack (realm : Octets) :
    helloFrame realm = pack (.array [.positiveInteger HELLO.code, .str realm,
      .map [(.str (octets "roles"), .map [(.str (octets "caller"), .map []),
        (.str (octets "callee"), .map []), (.str (octets "publisher"), .map []),
        (.str (octets "subscriber"), .map [])])]]) := by
  simp [helloFrame, pack, packAll, packEntries, token]

theorem goodbyeFrame_eq_pack (reason : Octets) :
    goodbyeFrame reason = pack (.array [.positiveInteger GOODBYE.code, .map [],
      .str reason]) := by
  simp [goodbyeFrame, pack, packAll, packEntries, token]

theorem subscribeFrame_eq_pack (r : UInt64) (topic : Octets) :
    subscribeFrame r topic = pack (.array [.positiveInteger SUBSCRIBE.code,
      .positiveInteger r, .map [], .str topic]) := by
  simp [subscribeFrame, pack, packAll, packEntries, token, idToken]

theorem unsubscribeFrame_eq_pack (r s : UInt64) :
    unsubscribeFrame r s = pack (.array [.positiveInteger UNSUBSCRIBE.code,
      .positiveInteger r, .positiveInteger s]) := by
  simp [unsubscribeFrame, pack, packAll, token, idToken]

theorem registerFrame_eq_pack (r : UInt64) (options : List (Octets × Object))
    (name : Octets) :
    registerFrame r options name = pack (.array
      [.positiveInteger REGISTER.code, .positiveInteger r,
        .map (options.map fun o => (.str o.1, o.2)), .str name]) := by
  simp [registerFrame, pack, packAll, token, idToken]

theorem publishFrame_eq_pack (r : UInt64) (topic : Octets) (p : Payload) :
    publishFrame r topic p = p.objects.map fun os => pack (.array
      ([.positiveInteger PUBLISH.code, .positiveInteger r, .map [],
        .str topic] ++ os)) := by
  rcases p with _ | ⟨a | a⟩ | ⟨a | a, kw | kw⟩ <;>
    simp [publishFrame, Payload.objects, packList, packMap, pack, packAll,
      packEntries, token, idToken, Except.map, bind, Except.bind, pure,
      Except.pure]

theorem callFrame_eq_pack (r : UInt64) (procedure : Octets) (p : Payload) :
    callFrame r procedure p = p.objects.map fun os => pack (.array
      ([.positiveInteger CALL.code, .positiveInteger r, .map [],
        .str procedure] ++ os)) := by
  rcases p with _ | ⟨a | a⟩ | ⟨a | a, kw | kw⟩ <;>
    simp [callFrame, Payload.objects, packList, packMap, pack, packAll,
      packEntries, token, idToken, Except.map, bind, Except.bind, pure,
      Except.pure]

theorem yieldFrame_eq_pack (r : UInt64) (p : Payload) :
    yieldFrame r p = p.objects.map fun os => pack (.array
      ([.positiveInteger YIELD.code, .positiveInteger r, .map []] ++ os)) := by
  rcases p with _ | ⟨a | a⟩ | ⟨a | a, kw | kw⟩ <;>
    simp [yieldFrame, Payload.objects, packList, packMap, pack, packAll,
      packEntries, token, idToken, Except.map, bind, Except.bind, pure,
      Except.pure]

theorem errorFrame_eq_pack (r : UInt64) (uri : Octets) (p : Payload) :
    errorFrame r uri p = p.objects.map fun os => pack (.array
      ([.positiveInteger ERROR.code, .positiveInteger INVOCATION.code,
        .positiveInteger r, .map [], .str uri] ++ os)) := by
  rcases p with _ | ⟨a | a⟩ | ⟨a | a, kw | kw⟩ <;>
    simp [errorFrame, Payload.objects, packList, packMap, pack, packAll,
      packEntries, token, idToken, Except.map, bind, Except.bind, pure,
      Except.pure]

end Encoders

/-! ## What a peer reads in a frame -/

def messageTypeOf (frame : Frame) : Option MessageType :=
  match decode frame with
  | some (.positiveInteger code :: _) => MessageType.ofCode? code
  | _ => none

@[simp] theorem messageTypeOf_pack (t : MessageType) (os : List Object) :
    messageTypeOf (pack (.array (.positiveInteger t.code :: os))) = some t := by
  simp [messageTypeOf]

theorem messageTypeOf_helloFrame (realm : Octets) :
    messageTypeOf (helloFrame realm) = some .HELLO := by
  rw [helloFrame_eq_pack, messageTypeOf_pack]

theorem messageTypeOf_goodbyeFrame (reason : Octets) :
    messageTypeOf (goodbyeFrame reason) = some .GOODBYE := by
  rw [goodbyeFrame_eq_pack, messageTypeOf_pack]

theorem messageTypeOf_publishFrame {r : UInt64} {topic : Octets}
    {payload : Payload} {buffer : Frame}
    (h : publishFrame r topic payload = .ok buffer) :
    messageTypeOf buffer = some .PUBLISH := by
  rw [publishFrame_eq_pack] at h
  obtain ⟨os, -, rfl⟩ := exists_of_map_eq_ok h
  exact messageTypeOf_pack .PUBLISH _

/-- The five client messages that carry a request id of this session. -/
def MessageType.isRequest : MessageType → Bool
  | .PUBLISH | .SUBSCRIBE | .UNSUBSCRIBE | .CALL | .REGISTER => true
  | _ => false

/-- The request id in a request frame, as a peer reads it. -/
def requestIdOf (frame : Frame) : Option UInt64 :=
  match decode frame with
  | some (.positiveInteger code :: .positiveInteger id :: _) =>
      match MessageType.ofCode? code with
      | some t => if t.isRequest then some id else none
      | none => none
  | _ => none

theorem requestIdOf_pack {t : MessageType} (id : UInt64) (os : List Object) :
    requestIdOf (pack (.array
      (.positiveInteger t.code :: .positiveInteger id :: os))) =
      if t.isRequest then some id else none := by
  simp [requestIdOf]

end Autobahn
