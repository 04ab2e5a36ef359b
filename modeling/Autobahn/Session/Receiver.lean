import Autobahn.Foundation.Segments
import Autobahn.MsgPack.Streaming
import Autobahn.Session.Connection

/-!
# A connection fed from a stream

`Receiver` is a connection with the segments of the stream it has not read yet
and, as history, what it did with each frame. A read takes exactly the octets it
asked for, as soon as they are there.

`Connection.passed` are the objects that `got_message_body` hands to
`got_message`: every one it decodes, up to one that is not accepted.
-/

namespace Autobahn

open Foundation MsgPack

/-! ## The objects passed on -/

section

variable {σ : Type} (u : Unpacker σ)

/-- The objects the `while` loop of `got_message_body` passes to
`got_message`. -/
def Connection.passed (users : Nat → UserCode) (k : Nat) (s : σ) (c : Client) :
    List Object :=
  match h : u.next s with
  | .throws => []
  | .noMore _ => []
  | .object obj t =>
      have := u.left_lt h
      obj :: match (gotMessage (users k) obj).run c with
        | (.ok _, d) => Connection.passed users (k + 1) t d
        | (.error _, _) => []
termination_by u.left s

section

variable {u} {users : Nat → UserCode} {k : Nat} {c d : Client} {s t : σ}
  {obj : Object}

theorem Connection.passed_throws (h : u.next s = .throws) :
    Connection.passed u users k s c = [] := by
  rw [Connection.passed]
  split <;> simp_all

theorem Connection.passed_noMore (h : u.next s = .noMore t) :
    Connection.passed u users k s c = [] := by
  rw [Connection.passed]
  split <;> simp_all

theorem Connection.passed_object (h : u.next s = .object obj t) :
    Connection.passed u users k s c =
      obj :: match (gotMessage (users k) obj).run c with
        | (.ok _, d) => Connection.passed u users (k + 1) t d
        | (.error _, _) => [] := by
  rw [Connection.passed]
  split <;> simp_all

end

/-- `got_message` called on one object after another. -/
def gotAll (users : Nat → UserCode) : Nat → List Object → Client → Client
  | _, [], c => c
  | k, obj :: objs, c =>
      gotAll users (k + 1) objs ((gotMessage (users k) obj).run c).2

/-- The loop does to the client what `got_message` does on these objects. -/
theorem Connection.gotMessages_client (users : Nat → UserCode) (k : Nat) (s : σ)
    (conn : Connection σ) :
    ((Connection.gotMessages u users k s).run conn).2.client =
      gotAll users k (Connection.passed u users k s conn.client) conn.client := by
  induction hn : u.left s using Nat.strong_induction_on generalizing k s conn with
  | _ n ih =>
  cases hnext : u.next s with
  | throws =>
      rw [Connection.gotMessages_throws hnext, Connection.passed_throws hnext]
      rfl
  | noMore t =>
      rw [Connection.gotMessages_noMore hnext, Connection.passed_noMore hnext]
      rfl
  | object obj t =>
      have hih := fun conn' =>
        ih (u.left t) (hn ▸ u.left_lt hnext) (k + 1) t conn' rfl
      rw [Connection.gotMessages_object hnext, Connection.passed_object hnext]
      rcases hgot : (gotMessage (users k) obj).run conn.client with ⟨a | v, d⟩
      · simp [Exec.run_bind, Connection.setUnpacker, Connection.setClient, hgot,
          Except.mapError, gotAll]
      · simp [Exec.run_bind, Connection.setUnpacker, Connection.setClient, hgot,
          Except.mapError, gotAll, hih]

end

/-! ## The receiver -/

/-- A frame the receive loop has read: its payload, the objects passed to
`got_message`, and how the handler ended. -/
structure ReadFrame where
  payload : Octets
  objects : List Object
  outcome : Except Failure Unit

structure Receiver (σ : Type) where
  conn : Connection σ
  segments : List Octets
  frames : List ReadFrame := []

inductive Event : Type where
  /-- anything but a completion handler -/
  | client (i : Input)
  /-- the outstanding read completes -/
  | read (users : Nat → UserCode)
  /-- the outstanding read fails -/
  | fail (error : ReadError) (users : Nat → UserCode)

section

variable {σ : Type} (u : Unpacker σ)

/-- The octets a read asks for. -/
def Connection.asks (conn : Connection σ) : Read → Nat
  | .gotHandshakeReply | .gotMessageHeader => 4
  | .gotMessageBody => conn.messageLength.toNat

/-- The frame a completed read makes known. -/
def Connection.receives (users : Nat → UserCode) (data : Octets)
    (conn : Connection σ) : Read → List ReadFrame
  | .gotMessageBody =>
      [{ payload := data
         objects := Connection.passed u users 0
           (u.bufferConsumed conn.unpacker data) conn.client
         outcome := ((Connection.gotMessageBody u users
           (.ok fun i => data.getD i 0)).run
             { conn with reads := conn.reads.eraseIdx 0 }).1 }]
  | _ => []

def Receiver.step (r : Receiver σ) : Event → Receiver σ
  | .client i => { r with conn := r.conn.step u (.client i) }
  | .fail error users =>
      { r with conn := r.conn.step u (.complete 0 (.error error) users) }
  | .read users =>
      match r.conn.reads with
      | [] => r
      | read :: _ =>
          match readExactly (r.conn.asks read) r.segments with
          | none => r
          | some (data, rest) =>
              { conn := r.conn.step u
                  (.complete 0 (.ok fun i => data.getD i 0) users)
                segments := rest
                frames := r.frames ++ r.conn.receives u users data read }

abbrev Receiver.runs (r : Receiver σ) (es : List Event) : Receiver σ :=
  Machine.run (Receiver.step u) r es

/-- A body read from the octets it asked for is these octets. -/
theorem Connection.body_getD {data : Octets} {n : UInt32}
    (h : data.length = n.toNat) :
    Connection.body n (fun i => data.getD i 0) = data := by
  apply List.ext_getElem
  · simp [Connection.body, h]
  · intro i h₁ h₂
    simp [Connection.body, h₂]

end

end Autobahn
