import Autobahn.MsgPack.Unpacker
import Autobahn.Session.Machine

/-!
# The chain of reads

`start` posts a read for the handshake reply; its handler posts one for the
header of a message, that one for the body, and that one for the next header.
`Connection` is a client together with the input stream's outstanding reads,
and `Connection.step` runs one completion handler, or anything else the
client can do in between.

A handler that ends with an exception leaves behind what it had done so far;
the exception goes to the caller of `io_service::run`.
-/

namespace Autobahn

open Foundation MsgPack

/-- An outstanding `async_read`, by its completion handler. -/
inductive Read : Type where
  | gotHandshakeReply
  | gotMessageHeader
  | gotMessageBody
deriving DecidableEq

structure Connection (σ : Type) where
  client : Client
  unpacker : σ
  messageLength : UInt32 := 0
  reads : List Read := []

/-- Where an exception out of a completion handler comes from: the session, or
the unpacker. -/
inductive Failure : Type where
  | session (a : Abort)
  | reserveBuffer
  | next
deriving DecidableEq

abbrev ConnectionM (σ : Type) : Type → Type := Exec (Connection σ) Failure

/-- How a read ends: with an error, or with the octets from here on in the
stream, of which it takes as many as it asked for. -/
abbrev ReadResult : Type := Except ReadError (Nat → UInt8)

section

variable {σ : Type}

def Connection.setClient (conn : Connection σ) (c : Client) : Connection σ :=
  { conn with client := c }

def Connection.setUnpacker (conn : Connection σ) (s : σ) : Connection σ :=
  { conn with unpacker := s }

def onClient {α : Type} (p : ClientM α) : ConnectionM σ α :=
  ExceptT.mk fun conn =>
    ((p.run conn.client).1.mapError .session,
      conn.setClient (p.run conn.client).2)

@[simp] theorem run_onClient {α : Type} (p : ClientM α)
    (conn : Connection σ) :
    (onClient p).run conn = ((p.run conn.client).1.mapError .session,
      conn.setClient (p.run conn.client).2) := rfl

def Connection.post (conn : Connection σ) (r : Read) : Connection σ :=
  { conn with reads := conn.reads ++ [r] }

def asyncRead (r : Read) : ConnectionM σ Unit := modify fun conn => conn.post r

def receiveMessage : ConnectionM σ Unit := asyncRead .gotMessageHeader

namespace Connection

def gotHandshakeReply (result : ReadResult) : ConnectionM σ Unit := do
  let started ← onClient (Autobahn.gotHandshakeReply
    (result.map fun data => (data 0, data 1, data 2, data 3)))
  if started then
    receiveMessage

/-- `ntohl` of the length prefix -/
def ntohl (data : Nat → UInt8) : UInt32 :=
  (data 0).toUInt32 <<< 24 ||| (data 1).toUInt32 <<< 16 |||
    (data 2).toUInt32 <<< 8 ||| (data 3).toUInt32

variable (u : Unpacker σ)

def gotMessageHeader (user : UserCode) : ReadResult → ConnectionM σ Unit
  | .ok data => do
      modify fun conn => { conn with messageLength := ntohl data }
      match u.reserveBuffer (← get).unpacker (ntohl data) with
      | none => throw .reserveBuffer
      | some s => do
          modify fun conn => conn.setUnpacker s
          asyncRead .gotMessageBody
  | .error error => onClient (handleRxError user error)

/-- The `while` loop of `got_message_body`. -/
def gotMessages (users : Nat → UserCode) (k : Nat) (s : σ) :
    ConnectionM σ Unit :=
  match h : u.next s with
  | .throws => throw .next
  | .noMore t => modify fun conn => conn.setUnpacker t
  | .object obj t => do
      modify fun conn => conn.setUnpacker t
      onClient (gotMessage (users k) obj)
      gotMessages users (k + 1) t
termination_by u.left s
decreasing_by exact u.left_lt h

section

variable {u} {users : Nat → UserCode} {k : Nat} {s t : σ} {obj : Object}

theorem gotMessages_throws (h : u.next s = .throws) :
    gotMessages u users k s = throw .next := by
  rw [gotMessages]
  split <;> simp_all

theorem gotMessages_noMore (h : u.next s = .noMore t) :
    gotMessages u users k s = modify fun conn => conn.setUnpacker t := by
  rw [gotMessages]
  split <;> simp_all

theorem gotMessages_object (h : u.next s = .object obj t) :
    gotMessages u users k s = (do
      modify fun conn => conn.setUnpacker t
      onClient (gotMessage (users k) obj)
      gotMessages u users (k + 1) t) := by
  rw [gotMessages]
  split <;> simp_all

end

/-- The octets a body of this length takes from the stream. -/
def body (length : UInt32) (data : Nat → UInt8) : Octets :=
  (List.range length.toNat).map data

/-- `users` is the user code run for each message of the body. -/
def gotMessageBody (users : Nat → UserCode) : ReadResult → ConnectionM σ Unit
  | .ok data => do
      let conn ← get
      let s := u.bufferConsumed conn.unpacker (body conn.messageLength data)
      modify fun conn => conn.setUnpacker s
      gotMessages u users 0 s
      if ¬ (← get).client.session.stopped then
        receiveMessage
  | .error error => onClient (handleRxError (users 0) error)

/-- A body is first consumed by the unpacker. -/
theorem run_gotMessageBody_ok (users : Nat → UserCode) (conn : Connection σ)
    (data : Nat → UInt8) :
    (gotMessageBody u users (.ok data)).run conn =
      (gotMessages u users 0 (u.bufferConsumed conn.unpacker
        (body conn.messageLength data)) >>= fun _ => get >>= fun conn : Connection σ =>
          if ¬ conn.client.session.stopped then receiveMessage else pure ()).run
        (conn.setUnpacker (u.bufferConsumed conn.unpacker
          (body conn.messageLength data))) := by
  simp [gotMessageBody, Exec.run_bind]

/-- A body with one value, which `got_message` accepts. -/
theorem run_gotMessageBody_single (users : Nat → UserCode) (conn : Connection σ)
    {data : Nat → UInt8} {t t' : σ} {obj : Object} {c : Client}
    (hnext : u.next (u.bufferConsumed conn.unpacker
      (body conn.messageLength data)) = .object obj t)
    (hmore : u.next t = .noMore t')
    (hgot : (gotMessage (users 0) obj).run conn.client = (.ok (), c)) :
    (gotMessageBody u users (.ok data)).run conn =
      (.ok (), if c.session.stopped then (conn.setUnpacker t').setClient c
        else ((conn.setUnpacker t').setClient c).post .gotMessageHeader) := by
  cases hs : c.session.stopped <;>
    simp [gotMessageBody, gotMessages_object hnext, gotMessages_noMore hmore,
      Exec.run_bind, setUnpacker, setClient, hgot, hs, Except.mapError,
      receiveMessage, asyncRead]

/-- A body in which no value ends. -/
theorem run_gotMessageBody_noMore (users : Nat → UserCode) (conn : Connection σ)
    {data : Nat → UInt8} {t : σ}
    (hmore : u.next (u.bufferConsumed conn.unpacker
      (body conn.messageLength data)) = .noMore t) :
    (gotMessageBody u users (.ok data)).run conn =
      (.ok (), if conn.client.session.stopped then conn.setUnpacker t
        else (conn.setUnpacker t).post .gotMessageHeader) := by
  cases hs : conn.client.session.stopped <;>
    simp [gotMessageBody, gotMessages_noMore hmore, Exec.run_bind, setUnpacker,
      hs, receiveMessage, asyncRead]

end Connection

/-! ## Runs -/

inductive ConnectionInput : Type where
  /-- anything but a completion handler -/
  | client (i : Input)
  /-- the `n`-th outstanding read ends -/
  | complete (n : Nat) (result : ReadResult) (users : Nat → UserCode)

namespace Connection

def handler (u : Unpacker σ) (result : ReadResult) (users : Nat → UserCode) :
    Read → ConnectionM σ Unit
  | .gotHandshakeReply => gotHandshakeReply result
  | .gotMessageHeader => gotMessageHeader u (users 0) result
  | .gotMessageBody => gotMessageBody u users result

/-- An outstanding read owns the session, so this goes away only without one. -/
def allows (conn : Connection σ) : Input → Bool
  | .message .. | .rxError .. | .handshake .. => false
  | .destroy => conn.reads.isEmpty
  | _ => true

def step (u : Unpacker σ) (conn : Connection σ) :
    ConnectionInput → Connection σ
  | .client i =>
      if conn.allows i then conn.setClient (conn.client.step i) else conn
  | .complete n result users =>
      match conn.reads[n]? with
      | none => conn
      | some r => ((handler u result users r).run
          { conn with reads := conn.reads.eraseIdx n }).2

section Step

variable {u : Unpacker σ} {conn : Connection σ} {n : Nat} {result : ReadResult}
  {users : Nat → UserCode}

theorem step_complete_none (h : conn.reads[n]? = none) :
    conn.step u (.complete n result users) = conn := by
  simp [step, h]

theorem step_complete_some {r : Read} (h : conn.reads[n]? = some r) :
    conn.step u (.complete n result users) = ((handler u result users r).run
      { conn with reads := conn.reads.eraseIdx n }).2 := by
  simp [step, h]

end Step

/-- A new session, right after its `start`. -/
def start (u : Unpacker σ) (plan : Nat → WriteResult) : Connection σ where
  client := Client.new plan
  unpacker := u.init
  reads := [.gotHandshakeReply]

end Connection

end

end Autobahn
