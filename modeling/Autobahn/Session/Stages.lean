import Autobahn.Session.LostConnection
import Autobahn.Session.Receiver

/-!
# What a step of a connection can do to a launch

A client waits for three things of its session: the handshake, the join future and
the read errors it is told of. `Connection.Wired.stages` says which of them a step
changes, for every step but the end of the session.
-/

namespace Autobahn

open Foundation MsgPack Relation

/-! ## Steps of a session that trouble no stage -/

/-- The join future is as it was, or has got an id. -/
def Client.JoinAdvances (c d : Client) : Prop :=
  d.session.sessionJoin.outcome = c.session.sessionJoin.outcome ∨
  c.session.sessionJoin.outcome = none ∧
    ∃ id, d.session.sessionJoin.outcome = some (.ok id)

/-- No stage has failed from `c` to `d`: the join future gets no exception, a
resolved handshake stays, and no read error is reported. -/
structure Client.Untroubled (c d : Client) : Prop where
  alive : d.alive = c.alive
  join : c.JoinAdvances d
  handshake : c.session.handshake.resolved →
    d.session.handshake = c.session.handshake
  rxErrors : d.rxErrors = c.rxErrors

section Untroubled

variable {c d : Client}

theorem Client.JoinAdvances.trans {e : Client} (h : c.JoinAdvances d)
    (h' : d.JoinAdvances e) : c.JoinAdvances e := by
  rcases h with h | ⟨hc, id, hd⟩
  · rw [JoinAdvances, ← h]
    exact h'
  · rcases h' with h' | ⟨hnone, -⟩
    · exact .inr ⟨hc, id, h'.trans hd⟩
    · rw [hd] at hnone
      cases hnone

theorem Client.JoinAdvances.keeps (h : c.JoinAdvances d) {r : Except Exn UInt64}
    (hr : c.session.sessionJoin.outcome = some r) :
    d.session.sessionJoin.outcome = some r := by
  rcases h with h | ⟨hnone, -⟩
  · exact h.trans hr
  · rw [hr] at hnone
    cases hnone

theorem Client.JoinAdvances.error_of (h : c.JoinAdvances d) {e : Exn}
    (he : d.session.sessionJoin.outcome = some (.error e)) :
    c.session.sessionJoin.outcome = some (.error e) := by
  rcases h with h | ⟨-, id, hid⟩
  · exact h.symm.trans he
  · rw [hid] at he
    cases he

theorem Client.Untroubled.refl (c : Client) : c.Untroubled c :=
  ⟨rfl, .inl rfl, fun _ => rfl, rfl⟩

theorem Client.Untroubled.trans {e : Client} (h : c.Untroubled d)
    (h' : d.Untroubled e) : c.Untroubled e where
  alive := h'.alive.trans h.alive
  join := h.join.trans h'.join
  handshake hr := by
    have heq := h.handshake hr
    rw [h'.handshake (by rwa [heq]), heq]
  rxErrors := h'.rxErrors.trans h.rxErrors

theorem Acts.untroubled (h : Acts c d) : c.Untroubled d :=
  ⟨h.routing.2.2.2, .inl h.calms.continues.join, fun _ => h.handshake, h.rxErrors⟩

/-- Only a WELCOME resolves the join future. -/
theorem Quiet.joinAdvances (h : Quiet c d) : c.JoinAdvances d := by
  cases h with
  | act h => exact .inl h.continues.join
  | settleJoin h =>
      obtain ⟨hres, rfl⟩ := Promise.settle_eq_some.mp h
      refine .inr ⟨?_, _, rfl⟩
      exact Promise.not_resolved_iff.mp hres
  | goodbye => exact .inl (congrArg Promise.outcome c.left_flags.2.2)
  | _ => exact .inl rfl

theorem Quiets.joinAdvances (h : Quiets c d) : c.JoinAdvances d := by
  induction h with
  | refl => exact .inl rfl
  | tail _ h ih => exact ih.trans h.joinAdvances

theorem Client.Untroubled.gotMessage (c : Client) (user : UserCode) (obj : Object) :
    c.Untroubled ((gotMessage user obj).run c).2 := by
  rw [gotMessage_state]
  have hrx := (Incoming.read obj).rxErrors_handle user c
  rcases handle_cases user (Incoming.read obj) c with h | h
  · exact ⟨h.alive, h.joinAdvances, h.handshake, hrx⟩
  · exact ⟨h.alive, .inl h.continues.join, fun _ => h.handshake, hrx⟩

theorem gotAll_untroubled (users : Nat → UserCode) (k : Nat) (objs : List Object)
    (c : Client) : c.Untroubled (gotAll users k objs c) := by
  induction objs generalizing k c with
  | nil => exact .refl c
  | cons obj objs ih =>
      have hfirst := Client.Untroubled.gotMessage c (users k) obj
      exact hfirst.trans (ih (k + 1) ((gotMessage (users k) obj).run c).2)

/-- A read error resolves neither future. -/
theorem handleRxError_join (user : UserCode) (error : ReadError) (c : Client) :
    ((handleRxError user error).run c).2.session.sessionJoin.outcome =
      c.session.sessionJoin.outcome := by
  have h : Exec.Moves Calms (handleRxError user error) :=
    handleRxError_moves Acts.calms (fun hp => .single (.settleLeave hp))
      (fun c e => .single (.rxError c e)) user error
  exact (h c).continues.join

end Untroubled

namespace Connection

variable {σ : Type} {u : Unpacker σ}

theorem gotMessageBody_untroubled (users : Nat → UserCode) (data : Nat → UInt8)
    (conn : Connection σ) :
    conn.client.Untroubled
      ((gotMessageBody u users (.ok data)).run conn).2.client := by
  let s := u.bufferConsumed conn.unpacker (body conn.messageLength data)
  have h : conn.client.Untroubled
      ((gotMessages u users 0 s).run (conn.setUnpacker s)).2.client := by
    rw [gotMessages_client]
    exact gotAll_untroubled users 0 _ conn.client
  have hrun : (gotMessageBody u users (.ok data)).run conn =
      (gotMessages u users 0 s >>= fun _ => get >>= fun conn : Connection σ =>
        if ¬ conn.client.session.stopped then receiveMessage else pure ()).run
        (conn.setUnpacker s) := by
    simp [gotMessageBody, Exec.run_bind, s]
  rw [hrun, Exec.run_bind]
  rcases hx : (gotMessages u users 0 s).run (conn.setUnpacker s) with ⟨a | _, conn'⟩
  · rw [hx] at h
    exact h
  · rw [hx] at h
    cases hs : conn'.client.session.stopped <;>
      simpa [Exec.run_bind, hs, receiveMessage, asyncRead, post, setUnpacker] using h

/-- Anything but the end of the handshake read and a read error. -/
def Plain (conn : Connection σ) : ConnectionInput → Prop
  | .client _ => True
  | .complete n result _ =>
      match conn.reads[n]?, result with
      | some .gotHandshakeReply, _ => False
      | some _, .error _ => False
      | _, _ => True

/-- The octets of a handshake reply -/
def replyOf (result : ReadResult) : Except ReadError HandshakeReply :=
  result.map fun data => (data 0, data 1, data 2, data 3)

/-- The end of the handshake read settles the handshake with the verdict on its
reply, and nothing else of the session changes. -/
theorem gotHandshakeReply_client (conn : Connection σ)
    (hres : ¬ conn.client.session.handshake.resolved) (result : ReadResult) :
    ((gotHandshakeReply result).run conn).2.client =
      conn.client.setSession (storeHandshake
        { conn.client.session.handshake with
          outcome := some (.ok (acceptsReply (replyOf result))) }
        conn.client.session) := by
  obtain ⟨x, hrun, -⟩ := gotHandshakeReply_cases hres (replyOf result)
  have hclient := run_onClient (Autobahn.gotHandshakeReply (replyOf result)) conn
  rw [hrun] at hclient
  have hbody : gotHandshakeReply result =
      (onClient (Autobahn.gotHandshakeReply (replyOf result)) >>= fun started =>
        if started then receiveMessage else pure () : ConnectionM σ Unit) := rfl
  rw [hbody, Exec.run_bind, hclient]
  cases x with
  | error a => rfl
  | ok started => cases started <;> rfl

/-- A message header concerns only the unpacker. -/
theorem gotMessageHeader_client (u : Unpacker σ) (user : UserCode)
    (data : Nat → UInt8) (conn : Connection σ) :
    ((gotMessageHeader u user (.ok data)).run conn).2.client = conn.client := by
  cases hb : u.reserveBuffer conn.unpacker (ntohl data) <;>
    simp [gotMessageHeader, Exec.run_bind, hb, asyncRead, post, setUnpacker]

/-- **What one step of a connection does to the stages**: nothing, or a
handshake reply has come and settles the handshake, or a read error is
handled. -/
theorem Wired.stages {conn : Connection σ} (u : Unpacker σ) (h : conn.Wired)
    {e : ConnectionInput} (hd : e ≠ .client .destroy) :
    conn.Plain e ∧ conn.client.Untroubled (conn.step u e).client ∧
      (conn.step u e).client.session.handshake = conn.client.session.handshake ∨
    (∃ n result users, e = .complete n result users ∧
      conn.reads[n]? = some .gotHandshakeReply ∧
      ¬ conn.client.session.handshake.resolved ∧
      (conn.step u e).client = conn.client.setSession (storeHandshake
        { conn.client.session.handshake with
          outcome := some (.ok (acceptsReply (replyOf result))) }
        conn.client.session)) ∨
    ∃ n r error users, e = .complete n (.error error) users ∧
      conn.reads[n]? = some r ∧ r ≠ .gotHandshakeReply ∧
      conn.client.alive = true ∧
      (conn.step u e).client = conn.client.step (.rxError error (users 0)) := by
  cases e with
  | client i =>
      rw [Connection.step]
      split
      · next hi =>
        have hacts := acts_of_allows hi fun h => hd (by rw [h])
        exact .inl ⟨trivial, hacts.untroubled, hacts.handshake⟩
      · exact .inl ⟨trivial, .refl _, rfl⟩
  | complete n result users =>
  cases hread : conn.reads[n]? with
  | none =>
      rw [step_complete_none hread]
      exact .inl ⟨by simp [Plain, hread], .refl _, rfl⟩
  | some r =>
  have hmem : r ∈ conn.reads := List.mem_of_getElem? hread
  have ha := h.alive (List.ne_nil_of_mem hmem)
  have herror : ∀ error : ReadError, conn.client.step (.rxError error (users 0)) =
      ((handleRxError (users 0) error).run conn.client).2 := by
    intro error
    simp [Client.step, Input.needsSession, Input.program, ha]
  -- later reads are made only after an accepted handshake
  have hsame : ∀ {d : Client}, r ≠ .gotHandshakeReply → conn.client.Untroubled d →
      d.session.handshake = conn.client.session.handshake := by
    intro d hr hd
    exact hd.handshake (Promise.resolved_of_outcome (h.accepted r hmem hr))
  rw [step_complete_some hread]
  cases r with
  | gotHandshakeReply =>
      have hres := h.handshake.mp hmem
      exact .inr (.inl ⟨n, result, users, rfl, hread, hres,
        gotHandshakeReply_client { conn with reads := conn.reads.eraseIdx n } hres
          result⟩)
  | gotMessageHeader =>
      cases result with
      | error error =>
          refine .inr (.inr ⟨n, _, error, users, rfl, hread, by decide, ha, ?_⟩)
          rw [herror]
          rfl
      | ok data =>
          have hclient := gotMessageHeader_client u (users 0) data
            { conn with reads := conn.reads.eraseIdx n }
          refine .inl ⟨by simp [Plain, hread], ?_, ?_⟩
          · show conn.client.Untroubled _
            rw [handler, hclient]
            exact .refl _
          · rw [handler, hclient]
  | gotMessageBody =>
      cases result with
      | error error =>
          refine .inr (.inr ⟨n, _, error, users, rfl, hread, by decide, ha, ?_⟩)
          rw [herror]
          rfl
      | ok data =>
          have hbody := gotMessageBody_untroubled (u := u) users data
            { conn with reads := conn.reads.eraseIdx n }
          exact .inl ⟨by simp [Plain, hread], hbody, hsame (by decide) hbody⟩

/-- No read may be out when the session ends. -/
theorem step_destroy (u : Unpacker σ) (conn : Connection σ) :
    conn.step u (.client .destroy) =
      if conn.reads = [] ∧ conn.client.alive = true then
        conn.setClient conn.client.destroy
      else conn := by
  rw [step, Client.step_destroy]
  by_cases ha : conn.client.alive = true
  · simp [allows, ha]
  · have hends : ¬ (conn.reads = [] ∧ conn.client.alive = true) := fun h => ha h.2
    rw [if_neg ha, if_neg hends]
    split <;> rfl

theorem Wired.step_alive {conn : Connection σ} (h : conn.Wired) (u : Unpacker σ)
    {e : ConnectionInput} (hd : e ≠ .client .destroy) :
    (conn.step u e).client.alive = conn.client.alive := by
  rcases h.stages u hd with ⟨-, hu, -⟩ | ⟨_, _, _, -, -, -, hc⟩ |
    ⟨_, _, _, _, -, -, -, -, hc⟩
  · exact hu.alive
  · rw [hc]
    rfl
  · rw [hc]
    exact conn.client.step_alive (by simp)

/-- A resolved handshake stays resolved. -/
theorem Wired.step_resolved {conn : Connection σ} (h : conn.Wired)
    (u : Unpacker σ) (e : ConnectionInput)
    (hr : conn.client.session.handshake.resolved) :
    (conn.step u e).client.session.handshake.resolved := by
  by_cases hd : e = .client .destroy
  · subst hd
    rw [step_destroy]
    split
    · exact Promise.resolved_abandon _ _
    · exact hr
  rcases h.stages u hd with ⟨-, -, hsame⟩ | ⟨_, _, _, -, -, hres, -⟩ |
    ⟨_, _, error, users, -, -, -, -, hc⟩
  · rwa [hsame]
  · exact absurd hr hres
  · have honward := Client.Onward.step conn.client
      (i := .rxError error (users 0)) (by simp)
    rw [hc, honward.handshake hr]
    exact hr

end Connection

end Autobahn
