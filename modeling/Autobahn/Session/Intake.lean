import Autobahn.Session.Refinement

/-!
# What a session takes from a stream

The receive loop works on octets, the session on messages. `Receiver.inputs` is what
a run of the receive loop is for the session itself: the inputs of `Client.step`, one
after the other. The objects decoded from the frames are its messages and what the
program does is as it was (`Receiver.takes_runs`).
-/

namespace Autobahn

open Foundation MsgPack

/-! ## Kinds of inputs -/

def Input.object? : Input → Option Object
  | .message obj _ => some obj
  | _ => none

/-- What the program does with the session. -/
def Input.isOwn : Input → Bool
  | .operate _ | .task _ | .respond .. | .userCode _ => true
  | _ => false

def Event.own? : Event → Option Input
  | .client i => if i.isOwn then some i else none
  | _ => none

/-- The messages of one body, each with the user code that is run for it. -/
def messagesOf (users : Nat → UserCode) : Nat → List Object → List Input
  | _, [] => []
  | k, obj :: objs => .message obj (users k) :: messagesOf users (k + 1) objs

section

variable (users : Nat → UserCode) (k : Nat) (objs : List Object)

theorem object?_messagesOf :
    (messagesOf users k objs).filterMap Input.object? = objs := by
  induction objs generalizing k with
  | nil => rfl
  | cons obj objs ih =>
      show obj :: (messagesOf users (k + 1) objs).filterMap Input.object? = obj :: objs
      rw [ih]

theorem isOwn_messagesOf : (messagesOf users k objs).filter Input.isOwn = [] := by
  induction objs generalizing k with
  | nil => rfl
  | cons obj objs ih =>
      rw [messagesOf, List.filter_cons_of_neg (by simp [Input.isOwn]), ih]

theorem Client.runs_messagesOf {c : Client} (ha : c.alive = true) :
    c.runs (messagesOf users k objs) = gotAll users k objs c := by
  induction objs generalizing k c with
  | nil => rfl
  | cons obj objs ih =>
      have ha' : (c.step (.message obj (users k))).alive = true :=
        (c.step_alive (by simp)).trans ha
      show (c.step (.message obj (users k))).runs (messagesOf users (k + 1) objs) = _
      rw [ih (k + 1) ha', Client.step_message_run ha]
      rfl

end

/-! ## One event -/

section

variable {σ : Type} (u : Unpacker σ)

namespace Connection

/-- The objects of a body that are handed to `got_message`. -/
def bodyObjects (users : Nat → UserCode) (data : Nat → UInt8)
    (conn : Connection σ) : List Object :=
  passed u users 0
    (u.bufferConsumed conn.unpacker (body conn.messageLength data)) conn.client

/-- What the end of a read is for the session. -/
def inputs (conn : Connection σ) (result : ReadResult) (users : Nat → UserCode) :
    Read → List Input
  | .gotHandshakeReply => [.handshake (replyOf result)]
  | .gotMessageHeader =>
      match result with
      | .ok _ => []
      | .error error => [.rxError error (users 0)]
  | .gotMessageBody =>
      match result with
      | .ok data => messagesOf users 0 (conn.bodyObjects u users data)
      | .error error => [.rxError error (users 0)]

def takes (conn : Connection σ) : ConnectionInput → List Input
  | .client i => if conn.allows i then [i] else []
  | .complete n result users =>
      match conn.reads[n]? with
      | none => []
      | some r => conn.inputs u result users r

variable {u} {conn : Connection σ}

theorem gotMessageBody_client (users : Nat → UserCode) (data : Nat → UInt8)
    (conn : Connection σ) :
    ((gotMessageBody u users (.ok data)).run conn).2.client =
      gotAll users 0 (conn.bodyObjects u users data) conn.client := by
  let s := u.bufferConsumed conn.unpacker (body conn.messageLength data)
  have h : ((gotMessages u users 0 s).run (conn.setUnpacker s)).2.client =
      gotAll users 0 (conn.bodyObjects u users data) conn.client :=
    gotMessages_client u users 0 s (conn.setUnpacker s)
  rw [run_gotMessageBody_ok, Exec.run_bind]
  rcases hx : (gotMessages u users 0 s).run (conn.setUnpacker s) with ⟨a | _, conn'⟩
  · rw [hx] at h
    exact h
  · rw [hx] at h
    cases hs : conn'.client.session.stopped <;>
      simpa [Exec.run_bind, hs, receiveMessage, asyncRead, post] using h

theorem gotHandshakeReply_eq (result : ReadResult) :
    gotHandshakeReply (σ := σ) result =
      onClient (Autobahn.gotHandshakeReply (replyOf result)) >>= fun started =>
        if started then receiveMessage else pure () := rfl

theorem gotHandshakeReply_step (ha : conn.client.alive = true) (result : ReadResult) :
    ((gotHandshakeReply result).run conn).2.client =
      conn.client.step (.handshake (replyOf result)) := by
  have hstep : conn.client.step (.handshake (replyOf result)) =
      ((Autobahn.gotHandshakeReply (replyOf result)).run conn.client).2 := by
    rw [Client.step, if_neg (by simp [ha]), Input.program, Exec.run_bind]
    split
    · next h => rw [h]; rfl
    · next h => rw [h]
  rw [hstep, gotHandshakeReply_eq, Exec.run_bind, run_onClient]
  rcases (Autobahn.gotHandshakeReply (replyOf result)).run conn.client with ⟨a | b, c⟩
  · rfl
  · cases b <;> rfl

theorem rxError_step (ha : conn.client.alive = true) (error : ReadError)
    (user : UserCode) : conn.client.step (.rxError error user) =
      ((handleRxError user error).run conn.client).2 := by
  rw [Client.step, if_neg (by simp [ha])]
  rfl

theorem handler_client (ha : conn.client.alive = true) (result : ReadResult)
    (users : Nat → UserCode) (r : Read) :
    ((handler u result users r).run conn).2.client =
      conn.client.runs (conn.inputs u result users r) := by
  cases r with
  | gotHandshakeReply => exact gotHandshakeReply_step ha result
  | gotMessageHeader =>
      cases result with
      | error error => exact (rxError_step ha error (users 0)).symm
      | ok data => exact gotMessageHeader_client u (users 0) data conn
  | gotMessageBody =>
      cases result with
      | error error => exact (rxError_step ha error (users 0)).symm
      | ok data =>
          rw [handler, gotMessageBody_client, inputs,
            Client.runs_messagesOf users 0 _ ha]

/-- **One step of a connection** is what it takes, for the session. -/
theorem Owned.client_step (h : conn.Owned) (e : ConnectionInput) :
    (conn.step u e).client = conn.client.runs (conn.takes u e) := by
  cases e with
  | client i =>
      rw [step, takes]
      split <;> rfl
  | complete n result users =>
      cases hread : conn.reads[n]? with
      | none =>
          rw [step_complete_none hread, takes, hread]
          rfl
      | some r =>
          have ha : conn.client.alive = true := by
            apply h
            intro hnil
            rw [hnil] at hread
            cases hread
          rw [step_complete_some hread, takes, hread]
          have haway : ({ conn with reads := conn.reads.eraseIdx n } :
              Connection σ).client.alive = true := ha
          exact handler_client haway result users r

end Connection

namespace Receiver

/-- What the event is for the connection; nothing if the read waits on. -/
def input? (r : Receiver σ) : Event → Option ConnectionInput
  | .client i => some (.client i)
  | .fail error users => some (.complete 0 (.error error) users)
  | .read users =>
      match r.conn.reads with
      | [] => none
      | read :: _ => (readExactly (r.conn.asks read) r.segments).map fun (data, _) =>
          .complete 0 (.ok fun i => data.getD i 0) users

def takes (r : Receiver σ) (e : Event) : List Input :=
  (r.input? e).elim [] (r.conn.takes u)

/-- What the session takes along a run. -/
abbrev inputs (r : Receiver σ) (es : List Event) : List Input :=
  Machine.collected (Receiver.step u) (takes u) r es

/-- The objects handed to `got_message` so far. -/
def objects (r : Receiver σ) : List Object := r.frames.flatMap ReadFrame.objects

variable {u} {r : Receiver σ}

/-- Frames that hold one message each. -/
theorem objects_eq {os : List Object}
    (h : r.frames.map ReadFrame.objects = os.map fun o => [o]) : r.objects = os := by
  rw [objects, List.flatMap_def, h, ← List.flatMap_def]
  exact List.flatMap_singleton' os

theorem conn_step (r : Receiver σ) (e : Event) :
    (r.step u e).conn = (r.input? e).elim r.conn (r.conn.step u) := by
  cases e with
  | client i => rfl
  | fail error users => rfl
  | read users =>
      cases hreads : r.conn.reads with
      | nil => simp [step, input?, hreads]
      | cons read reads =>
          cases hread : readExactly (r.conn.asks read) r.segments <;>
            simp [step, input?, hreads, hread]

theorem step_owned (h : r.conn.Owned) (e : Event) : (r.step u e).conn.Owned := by
  rw [conn_step]
  cases r.input? e with
  | none => exact h
  | some i => exact (h.step_follows i).1

theorem client_step (h : r.conn.Owned) (e : Event) :
    (r.step u e).conn.client = r.conn.client.runs (r.takes u e) := by
  rw [conn_step, takes]
  cases r.input? e with
  | none => rfl
  | some i => exact h.client_step i

/-! ### Which inputs an event brings -/

theorem object?_failed (conn : Connection σ) (n : Nat) (error : ReadError)
    (users : Nat → UserCode) :
    (conn.takes u (.complete n (.error error) users)).filterMap Input.object? = [] := by
  rw [Connection.takes]
  split
  · rfl
  · next read h => cases read <;> rfl

theorem isOwn_inputs (conn : Connection σ) (result : ReadResult)
    (users : Nat → UserCode) (read : Read) :
    (conn.inputs u result users read).filter Input.isOwn = [] := by
  cases read with
  | gotHandshakeReply => rfl
  | gotMessageHeader => cases result <;> rfl
  | gotMessageBody =>
      cases result with
      | error error => rfl
      | ok data => exact isOwn_messagesOf users 0 _

theorem isOwn_takes_client (conn : Connection σ) (i : Input) :
    (conn.takes u (.client i)).filter Input.isOwn =
      if i.isOwn then [i] else [] := by
  cases i with
  | destroy =>
      cases h : conn.allows .destroy <;> simp [Connection.takes, h, Input.isOwn]
  | _ => rfl

theorem object?_takes_client (conn : Connection σ) (i : Input) :
    (conn.takes u (.client i)).filterMap Input.object? = [] := by
  cases i with
  | destroy =>
      cases h : conn.allows .destroy <;> simp [Connection.takes, h, Input.object?]
  | _ => rfl

theorem isOwn_complete (conn : Connection σ) (n : Nat) (result : ReadResult)
    (users : Nat → UserCode) :
    (conn.takes u (.complete n result users)).filter Input.isOwn = [] := by
  rw [Connection.takes]
  split
  · rfl
  · exact isOwn_inputs conn result users _

theorem isOwn_takes (r : Receiver σ) (e : Event) :
    (r.takes u e).filter Input.isOwn = e.own?.toList := by
  cases e with
  | client i =>
      show (r.conn.takes u (.client i)).filter Input.isOwn = _
      rw [isOwn_takes_client, Event.own?]
      split <;> rfl
  | fail error users => exact isOwn_complete r.conn 0 (.error error) users
  | read users =>
      rw [takes, input?]
      split
      · rfl
      · cases readExactly _ r.segments with
        | none => rfl
        | some read => exact isOwn_complete r.conn 0 _ users

theorem objects_step (r : Receiver σ) (e : Event) :
    (r.step u e).objects =
      r.objects ++ (r.takes u e).filterMap Input.object? := by
  cases e with
  | client i =>
      show r.objects = r.objects ++ (r.conn.takes u (.client i)).filterMap Input.object?
      rw [object?_takes_client, List.append_nil]
  | fail error users =>
      show r.objects = r.objects ++ (r.conn.takes u
        (.complete 0 (.error error) users)).filterMap Input.object?
      rw [object?_failed, List.append_nil]
  | read users =>
      cases hreads : r.conn.reads with
      | nil => simp [step, takes, input?, hreads]
      | cons read reads =>
      cases hread : readExactly (r.conn.asks read) r.segments with
      | none => simp [step, takes, input?, hreads, hread]
      | some data =>
      obtain ⟨data, rest⟩ := data
      have hstep : (r.step u (.read users)).frames =
          r.frames ++ r.conn.receives u users data read := by
        simp [step, hreads, hread]
      have htakes : r.takes u (.read users) =
          r.conn.inputs u (.ok fun i => data.getD i 0) users read := by
        simp [takes, input?, hreads, hread, Connection.takes]
      rw [objects, hstep, htakes, List.flatMap_append, objects]
      congr 1
      cases read with
      | gotHandshakeReply => rfl
      | gotMessageHeader => rfl
      | gotMessageBody =>
          have hbody : Connection.body r.conn.messageLength (fun i => data.getD i 0) =
              data := Connection.body_getD (readExactly_length hread)
          rw [Connection.inputs, object?_messagesOf, Connection.bodyObjects, hbody]
          exact List.append_nil _

end Receiver

end

/-! ## A run -/

section

variable {σ : Type} {u : Unpacker σ}

namespace Receiver

variable {r : Receiver σ}

/-- What a run is for the session: its inputs, with the objects handed on as the
messages and with the program's own as they were. -/
structure Takes (u : Unpacker σ) (r : Receiver σ) (es : List Event) : Prop where
  client : (r.runs u es).conn.client = r.conn.client.runs (r.inputs u es)
  objects : (r.runs u es).objects =
    r.objects ++ (r.inputs u es).filterMap Input.object?
  own : (r.inputs u es).filter Input.isOwn = es.filterMap Event.own?

theorem inputs_snoc (r : Receiver σ) (es : List Event) (e : Event) :
    r.inputs u (es ++ [e]) = r.inputs u es ++ (r.runs u es).takes u e :=
  Machine.collected_snoc _ _ r es e

theorem owned_runs (h : r.conn.Owned) (es : List Event) : (r.runs u es).conn.Owned := by
  induction es using List.reverseRecOn with
  | nil => exact h
  | append_singleton es e ih =>
      rw [runs, Machine.run_snoc]
      exact step_owned ih e

theorem takes_runs (h : r.conn.Owned) (es : List Event) : r.Takes u es := by
  induction es using List.reverseRecOn with
  | nil => exact ⟨rfl, (List.append_nil _).symm, rfl⟩
  | append_singleton es e ih =>
      have hstep := client_step (u := u) (owned_runs (u := u) h es) e
      constructor
      · rw [runs, Machine.run_snoc, hstep, ih.client, inputs_snoc]
        exact (Machine.run_append Client.step _ _ _).symm
      · rw [runs, Machine.run_snoc, objects_step, ih.objects, inputs_snoc,
          List.filterMap_append, List.append_assoc]
      · rw [inputs_snoc, List.filter_append, ih.own, isOwn_takes, List.filterMap_append]
        congr 1

end Receiver

end

end Autobahn
