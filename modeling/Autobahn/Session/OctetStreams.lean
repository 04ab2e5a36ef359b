import Autobahn.Session.Framing

/-!
# From octets to messages

What a router sends is a handshake reply and then its messages, each in a frame of
its own. The receive loop takes them from the stream while the program goes on with
the session.

So the octets are an implementation of the messages: however the stream is cut and
whatever goes wrong, the session is where the program's own inputs and a prefix of
the router's messages take it, both in their order, and if nothing goes wrong it is
all of the messages (`Receiver.delivers_in_order`).
-/

namespace Autobahn

open Foundation MsgPack

section

variable {σ : Type} {u : Unpacker σ} {pending : σ → Octets}
  {decode : Octets → Next Octets} {wire : Frame → Octets} {os : List Object}

namespace Receiver

variable {r : Receiver σ}

theorem step_wired (h : r.conn.Wired) (e : Event) : (r.step u e).conn.Wired := by
  rw [conn_step]
  cases r.input? e with
  | none => exact h
  | some i => exact (h.step u i).1

theorem wired_runs (h : r.conn.Wired) (es : List Event) : (r.runs u es).conn.Wired := by
  induction es using List.reverseRecOn with
  | nil => exact h
  | append_singleton es e ih =>
      rw [runs, Machine.run_snoc]
      exact step_wired ih e

/-! ## A stream of messages -/

/-- The handshake reply and the frames of `os` are to come. -/
structure BeforeReply (pending : σ → Octets) (wire : Frame → Octets)
    (r : Receiver σ) (reply : Octets) (os : List Object) : Prop where
  reads : r.conn.reads = [.gotHandshakeReply]
  length : reply.length = 4
  empty : pending r.conn.unpacker = []
  stream : r.segments.flatten = reply ++ framedAll wire os

/-- How far the reader has come on a stream, with the frames of `os` to come. -/
inductive Phase (pending : σ → Octets) (wire : Frame → Octets) (r : Receiver σ)
    (reply : Octets) : List Object → Prop
  | reply {os : List Object} (h : r.BeforeReply pending wire reply os) :
      Phase pending wire r reply os
  | header {os : List Object} (h : r.BeforeHeader pending wire os) :
      Phase pending wire r reply os
  | body {o : Object} {os : List Object} (h : r.BeforeBody pending wire o os) :
      Phase pending wire r reply (o :: os)
  /-- nothing is read any more -/
  | ended {os : List Object} (h : r.conn.reads = []) : Phase pending wire r reply os

end Receiver

namespace Connection

variable {conn : Connection σ}

/-- A header is read after the reply exactly if it is accepted. -/
theorem gotHandshakeReply_posts (hres : ¬ conn.client.session.handshake.resolved)
    (result : ReadResult) : ∃ c, ((gotHandshakeReply result).run conn).2 =
      if acceptsReply (replyOf result) then (conn.setClient c).post .gotMessageHeader
      else conn.setClient c := by
  obtain ⟨x, hrun, hx⟩ := gotHandshakeReply_cases hres (replyOf result)
  have hclient := run_onClient (Autobahn.gotHandshakeReply (replyOf result)) conn
  rw [hrun] at hclient
  refine ⟨conn.client.setSession (storeHandshake { conn.client.session.handshake with
    outcome := some (.ok (acceptsReply (replyOf result))) } conn.client.session), ?_⟩
  rw [gotHandshakeReply_eq, Exec.run_bind, hclient]
  rcases hx with ⟨rfl, haccepts⟩ | ⟨hne, haccepts⟩
  · rw [haccepts]
    rfl
  · rw [haccepts]
    cases x with
    | error a => rfl
    | ok b =>
        rw [hne b rfl]
        rfl

/-- Behind a body a header is read only if no message was refused and the session
has not been stopped. -/
theorem gotMessageBody_posts (conn : Connection σ) (hr : conn.client.Reachable)
    (ha : conn.client.alive = true) (users : Nat → UserCode) (data : Nat → UInt8) :
    ((gotMessageBody u users (.ok data)).run conn).2.reads = conn.reads ∨
      ((gotMessageBody u users (.ok data)).run conn).1 = .ok () ∧
        ((gotMessageBody u users (.ok data)).run conn).2.client.session.stopped =
          false := by
  let s := u.bufferConsumed conn.unpacker (body conn.messageLength data)
  obtain ⟨x, conn', hrun, -, hreads, -⟩ :=
    gotMessages_spec u users 0 s (conn.setUnpacker s) hr ha
  have hsame : conn'.reads = conn.reads := hreads
  rw [run_gotMessageBody_ok, Exec.run_bind, hrun]
  cases x with
  | error a => exact .inl hsame
  | ok v =>
      cases hs : conn'.client.session.stopped with
      | true => exact .inl (by simpa [Exec.run_bind, hs] using hsame)
      | false =>
          exact .inr (by simp [Exec.run_bind, hs, receiveMessage, asyncRead, post])

/-- A read error ends the reads. -/
theorem reads_failed (error : ReadError) (users : Nat → UserCode) (read : Read)
    (conn : Connection σ) :
    ((handler u (.error error) users read).run conn).2.reads = conn.reads := by
  cases read with
  | gotHandshakeReply =>
      rw [handler, gotHandshakeReply_eq, Exec.run_bind, run_onClient, replyOf]
      cases hs : conn.client.session.handshake.settle (.ok false) <;>
        simp [Autobahn.gotHandshakeReply, Exec.run_bind, settle, hs, Except.map,
          Except.mapError, setClient]
  | gotMessageHeader => rfl
  | gotMessageBody => rfl

end Connection

namespace Receiver

variable {r : Receiver σ} {reply : Octets}

theorem BeforeReply.read (h : r.BeforeReply pending wire reply os)
    (hw : r.conn.Wired) (users : Nat → UserCode) :
    (r.step u (.read users)).frames = r.frames ∧
      if Connection.acceptsReply (Connection.replyOf (.ok fun i => reply.getD i 0)) then
        (r.step u (.read users)).BeforeHeader pending wire os
      else (r.step u (.read users)).conn.reads = [] := by
  have hasks : r.conn.asks .gotHandshakeReply = reply.length := h.length.symm
  obtain ⟨left, hleft, hstep⟩ :=
    Receiver.step_read (u := u) h.reads hasks h.stream users
  have hres : ¬ r.conn.taken.client.session.handshake.resolved := by
    apply hw.handshake.mp
    rw [h.reads]
    exact List.mem_singleton_self _
  have hconn : (r.step u (.read users)).conn = ((Connection.gotHandshakeReply
      (.ok fun i => reply.getD i 0)).run r.conn.taken).2 := by
    rw [hstep]
    rfl
  have hstream : (r.step u (.read users)).segments.flatten = framedAll wire os := by
    rw [hstep]
    exact hleft
  obtain ⟨c, hc⟩ := Connection.gotHandshakeReply_posts hres
    (.ok fun i => reply.getD i 0)
  rw [hc] at hconn
  refine ⟨by rw [hstep]; exact List.append_nil _, ?_⟩
  split
  · next haccepts =>
    rw [if_pos haccepts] at hconn
    exact ⟨by rw [hconn]; rfl, by rw [hconn]; exact h.empty, hstream⟩
  · next haccepts =>
    rw [hconn, if_neg haccepts]
    rfl

/-- Behind the body the next header is read, or nothing any more. -/
theorem BeforeBody.next (hu : u.Streams pending decode) {o : Object}
    {os : List Object} (h : r.BeforeBody pending wire o os) (hw : r.conn.Wired)
    (hvalue : IsValue decode (wire (pack o)) o)
    (hsize : (wire (pack o)).length ≤ maxLength) (users : Nat → UserCode) :
    (r.step u (.read users)).BeforeHeader pending wire os ∨
      (r.step u (.read users)).conn.reads = [] := by
  obtain ⟨f, hf, -, -, hrefused, haccepted⟩ := h.step_read hu hvalue hsize users
  have hasks : r.conn.asks .gotMessageBody = (wire (pack o)).length := by
    rw [Connection.asks, h.length, lengthPrefix_toNat hsize]
  obtain ⟨left, -, hstep⟩ := Receiver.step_read (u := u) h.reads hasks h.stream users
  have halive : r.conn.taken.client.alive = true :=
    hw.alive (by simp [h.reads])
  have hposts := Connection.gotMessageBody_posts (u := u) r.conn.taken
    hw.reachable halive users fun i => (wire (pack o)).getD i 0
  have hconn : (r.step u (.read users)).conn = ((Connection.gotMessageBody u users
      (.ok fun i => (wire (pack o)).getD i 0)).run r.conn.taken).2 := by
    rw [hstep]
    rfl
  rw [← hconn] at hposts
  rcases hposts with hreads | ⟨hok, hopen⟩
  · exact .inr hreads
  rcases hgot : (gotMessage (users 0) o).run r.conn.client with ⟨a | v, c⟩
  · -- the frame is the one whose handler has returned
    have hframe : r.frames ++ [f] = r.frames ++ r.conn.receives u users
        (wire (pack o)) .gotMessageBody := by
      rw [← hf, hstep]
    have hf' := List.append_cancel_left hframe
    have hreturned : f.outcome = .ok () := by
      rw [(List.cons.inj hf').1]
      show ((Connection.gotMessageBody u users _).run
        { r.conn with reads := r.conn.reads.eraseIdx 0 }).1 = .ok ()
      rw [h.reads]
      exact hok
    rw [hrefused a c hgot] at hreturned
    cases hreturned
  · obtain ⟨-, hclient, hheader⟩ := haccepted c hgot
    exact .inl (hheader (hclient ▸ hopen))

theorem step_client (r : Receiver σ) (i : Input) :
    ∃ c, r.step u (.client i) = { r with conn := r.conn.setClient c } := by
  obtain ⟨c, hc⟩ := r.conn.step_client (u := u) i
  exact ⟨c, by simp only [Receiver.step, hc]⟩

theorem Phase.client (h : r.Phase pending wire reply os) (i : Input) :
    (r.step u (.client i)).Phase pending wire reply os := by
  obtain ⟨c, hstep⟩ := step_client (u := u) r i
  rw [hstep]
  cases h with
  | reply h => exact .reply ⟨h.reads, h.length, h.empty, h.stream⟩
  | header h => exact .header ⟨h.reads, h.empty, h.stream⟩
  | body h => exact .body ⟨h.reads, h.length, h.empty, h.stream⟩
  | ended h => exact .ended h

/-- No read is outstanding any more after one that has failed. -/
theorem failed_ended (hw : r.conn.Wired) (error : ReadError) (users : Nat → UserCode) :
    (r.step u (.fail error users)).conn.reads = [] := by
  show (r.conn.step u (.complete 0 (.error error) users)).reads = []
  cases hreads : r.conn.reads[0]? with
  | none =>
      rw [Connection.step_complete_none hreads]
      exact List.eq_nil_of_length_eq_zero (by simpa using hreads)
  | some read =>
      rw [Connection.step_complete_some hreads, Connection.reads_failed]
      exact (hw.reads_eq hreads).2

/-- A read brings the next message, or a part of its frame, or nothing. -/
theorem Phase.read (hu : u.Streams pending decode) (hw : r.conn.Wired)
    (h : r.Phase pending wire reply os)
    (hvalue : ∀ o ∈ os, IsValue decode (wire (pack o)) o)
    (hsize : ∀ o ∈ os, (wire (pack o)).length ≤ maxLength) (users : Nat → UserCode) :
    ∃ done rest, os = done ++ rest ∧
      (r.step u (.read users)).objects = r.objects ++ done ∧
      (r.step u (.read users)).Phase pending wire reply rest := by
  cases h with
  | reply h =>
      obtain ⟨hframes, hnext⟩ := h.read (u := u) hw users
      refine ⟨[], os, rfl, ?_, ?_⟩
      · rw [objects, hframes, List.append_nil, objects]
      · split at hnext
        · exact .header hnext
        · exact .ended hnext
  | header h =>
      cases os with
      | nil =>
          have hwait : r.step u (.read users) = r :=
            Receiver.step_read_wait h.reads (by simp [Connection.asks]) h.stream users
          rw [hwait]
          exact ⟨[], [], rfl, (List.append_nil _).symm, .header h⟩
      | cons o os =>
          obtain ⟨hnext, hframes, -⟩ :=
            h.read hu (hsize o List.mem_cons_self) users
          refine ⟨[], o :: os, rfl, ?_, .body hnext⟩
          rw [objects, hframes, List.append_nil, objects]
  | @body o os h =>
      have hvalue := hvalue o List.mem_cons_self
      have hsize := hsize o List.mem_cons_self
      obtain ⟨f, hf, -, hobjects, -⟩ := h.step_read hu hvalue hsize users
      refine ⟨[o], os, rfl, ?_, ?_⟩
      · rw [objects, hf, List.flatMap_append, List.flatMap_singleton, hobjects, objects]
      · exact (h.next hu hw hvalue hsize users).elim .header .ended
  | ended h =>
      have hstep : r.step u (.read users) = r := by simp only [Receiver.step, h]
      rw [hstep]
      exact ⟨[], os, rfl, (List.append_nil _).symm, .ended h⟩

theorem Phase.step (hu : u.Streams pending decode) (hw : r.conn.Wired)
    (h : r.Phase pending wire reply os)
    (hvalue : ∀ o ∈ os, IsValue decode (wire (pack o)) o)
    (hsize : ∀ o ∈ os, (wire (pack o)).length ≤ maxLength) (e : Event) :
    ∃ done rest, os = done ++ rest ∧ (r.step u e).objects = r.objects ++ done ∧
      (r.step u e).Phase pending wire reply rest := by
  cases e with
  | client i => exact ⟨[], os, rfl, (List.append_nil _).symm, h.client i⟩
  | fail error users =>
      exact ⟨[], os, rfl, (List.append_nil _).symm,
        .ended (failed_ended hw error users)⟩
  | read users => exact h.read hu hw hvalue hsize users

/-- What has been handed on and what is to come are the messages of the stream. -/
theorem Phase.runs (hu : u.Streams pending decode) (hw : r.conn.Wired)
    (h : r.Phase pending wire reply os)
    (hvalue : ∀ o ∈ os, IsValue decode (wire (pack o)) o)
    (hsize : ∀ o ∈ os, (wire (pack o)).length ≤ maxLength) (es : List Event) :
    ∃ done rest, os = done ++ rest ∧ (r.runs u es).objects = r.objects ++ done ∧
      (r.runs u es).Phase pending wire reply rest := by
  induction es using List.reverseRecOn with
  | nil => exact ⟨[], os, rfl, (List.append_nil _).symm, h⟩
  | append_singleton es e ih =>
      obtain ⟨done, rest, rfl, hobjects, hphase⟩ := ih
      obtain ⟨next, rest, rfl, hnext, hphase⟩ := hphase.step hu (wired_runs hw es)
        (fun o ho => hvalue o (List.mem_append_right _ ho))
        (fun o ho => hsize o (List.mem_append_right _ ho)) e
      refine ⟨done ++ next, rest, by rw [List.append_assoc], ?_, ?_⟩
      · rw [Receiver.runs, Machine.run_snoc, hnext, ← List.append_assoc, ← hobjects]
      · rw [Receiver.runs, Machine.run_snoc]
        exact hphase

/-- On a smooth run the reply is still to come, or it was the first read. -/
def Progress (pending : σ → Octets) (wire : Frame → Octets) (reply : Octets)
    (os : List Object) (k : Nat) (r : Receiver σ) : Prop :=
  r.BeforeReply pending wire reply os ∧ r.frames = [] ∧ k = 0 ∨
    ∃ j, k = j + 1 ∧ r.Stage pending wire os j

theorem Progress.step (hu : u.Streams pending decode) (hw : r.conn.Wired)
    (haccepts : Connection.acceptsReply
      (Connection.replyOf (.ok fun i => reply.getD i 0)) = true)
    (hvalue : ∀ o ∈ os, IsValue decode (wire (pack o)) o)
    (hsize : ∀ o ∈ os, (wire (pack o)).length ≤ maxLength) {k : Nat}
    (h : r.Progress pending wire reply os k) {e : Event} (hsmooth : r.Smooth u e) :
    (r.step u e).Progress pending wire reply os (k + if e.isRead then 1 else 0) := by
  rcases h with ⟨h, hnew, rfl⟩ | ⟨j, rfl, h⟩
  · cases e with
    | fail error users => exact absurd rfl (hsmooth.1 error users)
    | client i =>
        obtain ⟨c, hstep⟩ := step_client (u := u) r i
        rw [hstep]
        exact .inl ⟨⟨h.reads, h.length, h.empty, h.stream⟩, hnew, rfl⟩
    | read users =>
        obtain ⟨hframes, hnext⟩ := h.read (u := u) hw users
        rw [if_pos haccepts] at hnext
        exact .inr ⟨0, rfl, hnext.stage (hframes.trans hnew)⟩
  · refine .inr ⟨j + if e.isRead then 1 else 0, ?_, h.step hu hvalue hsize hsmooth⟩
    exact Nat.add_right_comm j 1 _

theorem Progress.runs (hu : u.Streams pending decode) (hw : r.conn.Wired)
    (haccepts : Connection.acceptsReply
      (Connection.replyOf (.ok fun i => reply.getD i 0)) = true)
    (hvalue : ∀ o ∈ os, IsValue decode (wire (pack o)) o)
    (hsize : ∀ o ∈ os, (wire (pack o)).length ≤ maxLength)
    (h : r.Progress pending wire reply os 0) (es : List Event)
    (hsmooth : Machine.EachStep (Receiver.step u) (Receiver.Smooth u) r es) :
    (r.runs u es).Progress pending wire reply os (es.countP Event.isRead) := by
  induction es using List.reverseRecOn with
  | nil => exact h
  | append_singleton es e ih =>
      have hpre := ih (hsmooth.of_isPrefix (List.prefix_append es [e]))
      have hstep := hpre.step hu (wired_runs hw es) haccepts hvalue hsize
        (hsmooth es e (List.prefix_refl _))
      rw [Receiver.runs, Machine.run_snoc, List.countP_append, List.countP_singleton]
      exact hstep

/-- With the reply and two reads for each message they have all been handed on. -/
theorem Progress.complete {k : Nat} (h : r.Progress pending wire reply os k)
    (hk : 1 + 2 * os.length ≤ k) : r.objects = os := by
  rcases h with ⟨-, -, rfl⟩ | ⟨j, rfl, h⟩
  · omega
  · obtain ⟨hframes, -⟩ := h.complete (by omega)
    have hobjects : r.frames.map ReadFrame.objects = os.map fun o => [o] := by
      simpa [Function.comp_def] using congrArg (List.map Prod.snd) hframes
    exact objects_eq hobjects

/-! ## Delivery -/

/-- The session of a receiver is where messages take it: the program's own inputs
are as they were, the messages are the first ones of the stream in their order, and
in a smooth run with reads enough they are all of them. -/
structure Delivers (u : Unpacker σ) (r : Receiver σ) (reply : Octets)
    (os : List Object) (es : List Event) : Prop where
  client : (r.runs u es).conn.client = r.conn.client.runs (r.inputs u es)
  own : (r.inputs u es).filter Input.isOwn = es.filterMap Event.own?
  inOrder : (r.inputs u es).filterMap Input.object? <+: os
  complete : Connection.acceptsReply
      (Connection.replyOf (.ok fun i => reply.getD i 0)) = true →
    Machine.EachStep (Receiver.step u) (Receiver.Smooth u) r es →
    1 + 2 * os.length ≤ es.countP Event.isRead →
    (r.inputs u es).filterMap Input.object? = os

/-- **Messages arrive in order, whatever happens.** On a stream of a handshake reply
and framed messages, cut into segments in any way, a session does what `Client.step`
does on the program's own inputs and a prefix of these messages, and if nothing goes
wrong on all of them. -/
theorem delivers_in_order (hu : u.Streams pending decode)
    (hvalue : ∀ o ∈ os, IsValue decode (wire (pack o)) o)
    (hsize : ∀ o ∈ os, (wire (pack o)).length ≤ maxLength)
    (plan : Nat → WriteResult) (hreply : reply.length = 4) {segments : List Octets}
    (hstream : segments.flatten = reply ++ framedAll wire os) (es : List Event) :
    ({ conn := Connection.start u plan, segments } : Receiver σ).Delivers u reply os
      es := by
  let r : Receiver σ := { conn := Connection.start u plan, segments }
  have hw : r.conn.Wired := Connection.wired_start u plan
  have hstart : r.BeforeReply pending wire reply os := ⟨rfl, hreply, hu.init, hstream⟩
  have htakes := takes_runs (u := u) hw.alive es
  have hobjects : (r.inputs u es).filterMap Input.object? = (r.runs u es).objects :=
    htakes.objects.symm
  refine ⟨htakes.client, htakes.own, ?_, fun haccepts hsmooth henough => ?_⟩
  · obtain ⟨done, rest, hos, hdone, -⟩ :=
      (Phase.reply hstart).runs hu hw hvalue hsize es
    rw [hobjects, hdone, hos]
    exact List.prefix_append done rest
  · have hprogress := Progress.runs hu hw haccepts hvalue hsize
      (.inl ⟨hstart, rfl, rfl⟩) es hsmooth
    rw [hobjects]
    exact hprogress.complete henough

/-- A HEARTBEAT and a WELCOME arrive while the program joins. -/
theorem delivers_two_messages :
    let r : Receiver Octets :=
      { conn := Connection.start octetUnpacker fun _ => .complete
        segments :=
          [[0x7F, 0x02], [0, 0, 0, 0, 0, 2, 0x91, 7, 0], [0, 0, 3, 0x92, 2, 9]] }
    let es : List Event := [.read idle, .client (.operate (.join (octets "realm"))),
      .read idle, .client (.task 0), .read idle, .read idle, .read idle]
    r.Delivers octetUnpacker [0x7F, 0x02, 0, 0] twoMessages es ∧
      (r.runs octetUnpacker es).conn.client.session.sessionId = 9 := by
  intro r es
  refine ⟨delivers_in_order octetUnpacker_streams twoMessages_isValue
    twoMessages_size _ rfl (by decide) es, by decide +kernel⟩

end Receiver

end

end Autobahn
