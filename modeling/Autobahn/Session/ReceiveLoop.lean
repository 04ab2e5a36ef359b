import Autobahn.Session.Acceptance
import Autobahn.Session.Connection

/-!
# The receive loop

`Receiving`: once the handshake is accepted, one read is outstanding or the
session is stopped. Nothing re-arms the loop after an exception, so this holds
of a run exactly when no step ends in one (`everywhere_receiving_iff`).
-/

namespace Autobahn

open Foundation MsgPack Relation

/-! ## What messages and tasks leave alone -/

section Onward

variable {c d : Client}

/-- What holds on from one state to a later one while the session exists. -/
structure Client.Onward (c d : Client) : Prop where
  reachable : c.Reachable → d.Reachable
  alive : d.alive = c.alive
  handshake : c.session.handshake.resolved →
    d.session.handshake = c.session.handshake
  stopped : c.session.stopped = true → d.session.stopped = true

theorem Client.Onward.refl (c : Client) : c.Onward c :=
  ⟨id, rfl, fun _ => rfl, id⟩

theorem Client.Onward.trans {e : Client} (h : c.Onward d) (h' : d.Onward e) :
    c.Onward e where
  reachable := h'.reachable ∘ h.reachable
  alive := h'.alive.trans h.alive
  handshake := fun hr => by
    have heq := h.handshake hr
    rw [h'.handshake (by rwa [heq]), heq]
  stopped := h'.stopped ∘ h.stopped

/-- User code does not touch the handshake. -/
theorem Act.handshake (h : Act c d) :
    d.session.handshake = c.session.handshake := by
  cases h
  case answer =>
    unfold Client.answer
    split <;> rfl
  case entered n ref r entry buffer h ha hj =>
    apply (WampSession.send_handshake _ _).trans
    cases entry <;> rfl
  all_goals
    simp [Client.takeId, Client.submit, Client.enqueue, Client.dequeue,
      Client.setSession, Client.sent, Client.close, Client.markLeft,
      Client.hand, Client.modifyInvocation, Client.modifyRequest, storeStop,
      storeJoin, storeLeave]

theorem Acts.handshake (h : Acts c d) :
    d.session.handshake = c.session.handshake := by
  induction h with
  | refl => rfl
  | tail _ h ih => exact h.handshake.trans ih

/-- A resolved handshake stays as it is. -/
theorem Quiet.handshake (h : Quiet c d) (hr : c.session.handshake.resolved) :
    d.session.handshake = c.session.handshake := by
  cases h with
  | act h => exact h.handshake
  | goodbye =>
      unfold Client.left
      dsimp only
      split
      · rfl
      · exact WampSession.send_handshake _ _
  | settleHandshake h =>
      exact absurd hr (Promise.settle_eq_some.mp h).1
  | _ => rfl

theorem Quiets.handshake (h : Quiets c d)
    (hr : c.session.handshake.resolved) :
    d.session.handshake = c.session.handshake := by
  induction h with
  | refl => rfl
  | tail _ h ih =>
      refine (h.handshake ?_).trans ih
      rw [ih]
      exact hr

theorem Answer.handshake {i : Incoming} (h : Answer i c d) :
    d.session.handshake = c.session.handshake := by
  cases h <;> rfl

theorem Client.Onward.step (c : Client) {i : Input} (hi : i ≠ .destroy) :
    c.Onward (c.step i) where
  reachable := fun h => h.step i
  alive := c.step_alive hi
  handshake := by
    intro hr
    rcases c.step_cases i with h | ⟨obj, user, -, -, h⟩ | ⟨rfl, -⟩
    · exact h.handshake hr
    · exact h.handshake
    · exact absurd rfl hi
  stopped := (c.step_moves i).stopped_of

end Onward

/-! ## The messages of one body -/

section Body

variable {σ : Type} (u : Unpacker σ)

/-- Every message that `next` delivers is accepted in the state that processes
it and `next` does not throw; from the first time this fails the session is
stopped. -/
def Client.AcceptsAll (c : Client) (users : Nat → UserCode) (k : Nat)
    (s : σ) : Prop :=
  match h : u.next s with
  | .throws => c.session.stopped = true
  | .noMore _ => True
  | .object obj t =>
      (c.Accepts obj →
        (c.step (.message obj (users k))).AcceptsAll users (k + 1) t) ∧
      (¬ c.Accepts obj → c.session.stopped = true)
termination_by u.left s
decreasing_by exact u.left_lt h

section

variable {u} {users : Nat → UserCode} {k : Nat} {c : Client} {s t : σ}
  {obj : Object}

theorem Client.acceptsAll_throws (h : u.next s = .throws) :
    c.AcceptsAll u users k s ↔ c.session.stopped = true := by
  rw [Client.AcceptsAll]
  split <;> simp_all

theorem Client.acceptsAll_noMore (h : u.next s = .noMore t) :
    c.AcceptsAll u users k s ↔ True := by
  rw [Client.AcceptsAll]
  split <;> simp_all

theorem Client.acceptsAll_object (h : u.next s = .object obj t) :
    c.AcceptsAll u users k s ↔
      (c.Accepts obj →
        (c.step (.message obj (users k))).AcceptsAll u users (k + 1) t) ∧
      (¬ c.Accepts obj → c.session.stopped = true) := by
  rw [Client.AcceptsAll]
  split <;> simp_all

end

theorem Client.step_message_run {c : Client} (ha : c.alive = true)
    (obj : Object) (user : UserCode) :
    c.step (.message obj user) = ((gotMessage user obj).run c).2 := by
  rw [Client.step_message, if_pos ha, gotMessage_state]

/-- The loop over the messages of a body: the client moves onward, the reads
stay, and the loop returns or the session is stopped exactly when the body is
accepted. -/
theorem gotMessages_spec (users : Nat → UserCode) (k : Nat) (s : σ)
    (conn : Connection σ) (hr : conn.client.Reachable)
    (ha : conn.client.alive = true) :
    ∃ x conn', (Connection.gotMessages u users k s).run conn = (x, conn') ∧
      conn.client.Onward conn'.client ∧ conn'.reads = conn.reads ∧
      (x = .ok () ∨ conn'.client.session.stopped = true ↔
        conn.client.AcceptsAll u users k s) := by
  induction hn : u.left s using Nat.strong_induction_on generalizing k s conn with
  | _ n ih =>
  cases hnext : u.next s with
  | throws =>
      rw [Connection.gotMessages_throws hnext, Client.acceptsAll_throws hnext]
      exact ⟨_, _, rfl, .refl _, rfl, by simp⟩
  | noMore t =>
      rw [Connection.gotMessages_noMore hnext, Client.acceptsAll_noMore hnext]
      exact ⟨_, _, rfl, .refl _, rfl, by simp⟩
  | object obj t =>
      rw [Connection.gotMessages_object hnext, Client.acceptsAll_object hnext,
        Client.step_message_run ha]
      have honward := Client.Onward.step conn.client
        (i := .message obj (users k)) (by simp)
      rw [Client.step_message_run ha] at honward
      let conn' := (conn.setUnpacker t).setClient
        ((gotMessage (users k) obj).run conn.client).2
      rcases hr.gotMessage_accepts ha (users k) obj with
        ⟨haccept, hok⟩ | ⟨haccept, ⟨a, herr⟩, hstopped⟩
      · obtain ⟨x, conn'', hrun, honward', hreads, hiff⟩ :=
          ih (u.left t) (hn ▸ u.left_lt hnext) (k + 1) t conn'
            (honward.reachable hr) (honward.alive.trans ha) rfl
        refine ⟨x, conn'', ?_, honward.trans honward', hreads, ?_⟩
        · rw [← hrun]
          simp [Exec.run_bind, Connection.setUnpacker, hok, conn', Except.mapError]
        · rw [hiff]
          simp [haccept, conn', Connection.setClient]
      · refine ⟨.error (.session a), conn', ?_, honward, rfl, ?_⟩
        · simp [Exec.run_bind, Connection.setUnpacker, herr, conn',
            Except.mapError]
        · simp [haccept, conn', Connection.setClient, hstopped]

end Body

/-! ## The invariant of the chain -/

namespace Connection

section

variable {σ : Type}

/-- Once the handshake is accepted, exactly one read is outstanding or the
session is stopped. -/
def Receiving (conn : Connection σ) : Prop :=
  conn.client.session.handshake.outcome = some (.ok true) →
    conn.reads.length = 1 ∨ conn.client.session.stopped = true

/-- The condition on a completion: memory for the body is there, the body is
accepted, and a read error is one that `handleRxError` can answer by stopping
the session; unless the session is stopped already. -/
def Handled (u : Unpacker σ) (conn : Connection σ) : ConnectionInput → Prop
  | .client _ => True
  | .complete n result users =>
      match conn.reads[n]?, result with
      | some .gotMessageHeader, .ok data =>
          conn.client.session.stopped = true ∨
            u.reserveBuffer conn.unpacker (ntohl data) ≠ none
      | some .gotMessageBody, .ok data => conn.client.AcceptsAll u users 0
          (u.bufferConsumed conn.unpacker (body conn.messageLength data))
      | some .gotMessageHeader, .error error
      | some .gotMessageBody, .error error =>
          conn.client.session.stopped = true ∨ conn.client.Closes error
      | _, _ => True

/-- What holds in every state of the chain, lost or not. -/
structure Wired (conn : Connection σ) : Prop where
  reachable : conn.client.Reachable
  atMostOne : conn.reads.length ≤ 1
  alive : conn.reads ≠ [] → conn.client.alive = true
  handshake : .gotHandshakeReply ∈ conn.reads ↔
    ¬ conn.client.session.handshake.resolved
  accepted : ∀ r ∈ conn.reads, r ≠ .gotHandshakeReply →
    conn.client.session.handshake.outcome = some (.ok true)

theorem wired_start (u : Unpacker σ) (plan : Nat → WriteResult) :
    (start u plan).Wired where
  reachable := Client.reachable_runs plan []
  atMostOne := Nat.le_refl 1
  alive := fun _ => rfl
  handshake := by simp [start, Client.new]
  accepted := by simp [start]

variable {conn : Connection σ}

theorem Wired.reads_eq (h : conn.Wired) {n : Nat} {r : Read}
    (hr : conn.reads[n]? = some r) :
    conn.reads = [r] ∧ conn.reads.eraseIdx n = [] := by
  have hlen := h.atMostOne
  obtain ⟨hn, rfl⟩ := List.getElem?_eq_some_iff.mp hr
  obtain ⟨r, hreads⟩ := List.length_eq_one_iff.mp (by omega : conn.reads.length = 1)
  obtain rfl : n = 0 := by omega
  simp [hreads]

/-- A handler of the message chain has run: it has posted one of the chain's
reads, or none. -/
theorem Wired.onward (h : conn.Wired) (conn' : Connection σ)
    (ha : conn.client.alive = true)
    (hok : conn.client.session.handshake.outcome = some (.ok true))
    (honward : conn.client.Onward conn'.client)
    (hreads : conn'.reads = [] ∨ conn'.reads = [.gotMessageHeader] ∨
      conn'.reads = [.gotMessageBody]) :
    conn'.Wired ∧ (conn'.Receiving ↔
      conn'.reads ≠ [] ∨ conn'.client.session.stopped = true) := by
  have hres : conn.client.session.handshake.resolved :=
    Promise.resolved_of_outcome hok
  have hsame := honward.handshake hres
  rw [← hsame] at hres hok
  have hnone : .gotHandshakeReply ∉ conn'.reads := by
    rcases hreads with hr | hr | hr <;> simp [hr]
  refine ⟨⟨honward.reachable h.reachable, ?_, fun _ => honward.alive.trans ha,
    ⟨fun hm => absurd hm hnone, fun hn => absurd hres hn⟩, fun _ _ _ => hok⟩, ?_⟩
  · rcases hreads with hr | hr | hr <;> simp [hr]
  · rw [Receiving]
    simp only [hok, forall_const]
    apply or_congr_left
    rcases hreads with hr | hr | hr <;> simp [hr]

/-! ### One lemma for each handler -/

/-- The connection whose completed read is no longer outstanding. -/
def taken (conn : Connection σ) : Connection σ := { conn with reads := [] }

theorem Wired.rxError (h : conn.Wired) (ha : conn.client.alive = true)
    (hok : conn.client.session.handshake.outcome = some (.ok true))
    (user : UserCode) (error : ReadError) :
    ((onClient (handleRxError user error)).run conn.taken).2.Wired ∧
    (((onClient (handleRxError user error)).run conn.taken).2.Receiving ↔
      conn.client.session.stopped = true ∨ conn.client.Closes error) := by
  have hstep : conn.client.step (.rxError error user) =
      ((handleRxError user error).run conn.client).2 := by
    simp [Client.step, Input.needsSession, Input.program, ha]
  have honward := Client.Onward.step conn.client (i := .rxError error user) (by simp)
  rw [hstep] at honward
  obtain ⟨hwired, hiff⟩ := h.onward
    ((onClient (handleRxError user error)).run conn.taken).2 ha hok
    honward (.inl rfl)
  refine ⟨hwired, hiff.trans ?_⟩
  cases hs : conn.client.session.stopped with
  | true => simpa [Connection.setClient, taken] using honward.stopped hs
  | false =>
      simpa [Connection.setClient, taken] using
        handleRxError_stopped ha hs user error

theorem Wired.messageHeader (u : Unpacker σ) (h : conn.Wired)
    (ha : conn.client.alive = true)
    (hok : conn.client.session.handshake.outcome = some (.ok true))
    (user : UserCode) (data : Nat → UInt8) :
    ((gotMessageHeader u user (.ok data)).run conn.taken).2.Wired ∧
    (((gotMessageHeader u user (.ok data)).run conn.taken).2.Receiving ↔
      conn.client.session.stopped = true ∨
        u.reserveBuffer conn.unpacker (ntohl data) ≠ none) := by
  cases hb : u.reserveBuffer conn.unpacker (ntohl data) with
  | none =>
      have hrun : (gotMessageHeader u user (.ok data)).run conn.taken =
          (.error .reserveBuffer,
            { conn.taken with messageLength := ntohl data }) := by
        simp [gotMessageHeader, Exec.run_bind, taken, hb]
      rw [hrun]
      obtain ⟨hwired, hiff⟩ := h.onward
        { conn.taken with messageLength := ntohl data } ha hok
        (.refl _) (.inl rfl)
      exact ⟨hwired, hiff.trans (by simp [taken])⟩
  | some s =>
      let conn' := (({ conn.taken with messageLength := ntohl data }).setUnpacker
        s).post .gotMessageBody
      have hrun : (gotMessageHeader u user (.ok data)).run conn.taken =
          (.ok (), conn') := by
        simp [gotMessageHeader, Exec.run_bind, taken, hb, asyncRead, conn']
      rw [hrun]
      obtain ⟨hwired, hiff⟩ := h.onward conn' ha hok
        (.refl _) (.inr (.inr rfl))
      exact ⟨hwired, hiff.trans (by simp [taken, conn', post])⟩

theorem Wired.messageBody (u : Unpacker σ) (h : conn.Wired)
    (ha : conn.client.alive = true)
    (hok : conn.client.session.handshake.outcome = some (.ok true))
    (users : Nat → UserCode) (data : Nat → UInt8) :
    ((gotMessageBody u users (.ok data)).run conn.taken).2.Wired ∧
    (((gotMessageBody u users (.ok data)).run conn.taken).2.Receiving ↔
      conn.client.AcceptsAll u users 0
        (u.bufferConsumed conn.unpacker (body conn.messageLength data))) := by
  let s := u.bufferConsumed conn.unpacker (body conn.messageLength data)
  obtain ⟨x, conn', hrun, honward, hreads, hiff⟩ := gotMessages_spec u users 0 s
    (conn.taken.setUnpacker s) h.reachable ha
  have hstart : (gotMessageBody u users (.ok data)).run conn.taken =
      (gotMessages u users 0 s >>= fun _ => get >>= fun conn : Connection σ =>
        if ¬ conn.client.session.stopped then receiveMessage else pure ()).run
        (conn.taken.setUnpacker s) := by
    simp [gotMessageBody, Exec.run_bind, taken, s]
  rw [hstart, Exec.run_bind, hrun]
  cases x with
  | error a =>
      obtain ⟨hwired, hreceiving⟩ := h.onward conn' ha hok honward (.inl hreads)
      refine ⟨hwired, hreceiving.trans (Iff.trans ?_ hiff)⟩
      simp [hreads, Connection.setUnpacker, taken]
  | ok u' =>
      have haccepted := hiff.mp (.inl rfl)
      by_cases hs : conn'.client.session.stopped = true
      · obtain ⟨hwired, hreceiving⟩ := h.onward conn' ha hok honward (.inl hreads)
        simp only [Exec.run_bind, Exec.run_get, hs, not_true_eq_false, if_false,
          Exec.run_pure]
        exact ⟨hwired, iff_of_true (hreceiving.mpr (.inr hs)) haccepted⟩
      · have hposted : (conn'.post .gotMessageHeader).reads =
            [.gotMessageHeader] := by simp [post, hreads, setUnpacker, taken]
        obtain ⟨hwired, hreceiving⟩ := h.onward
          (conn'.post .gotMessageHeader) ha hok honward
          (.inr (.inl hposted))
        simp only [Exec.run_bind, Exec.run_get, hs]
        exact ⟨hwired, iff_of_true
          (hreceiving.mpr (.inl (by simp [hposted]))) haccepted⟩

/-- The magic octet, and in the low half of the next one the number of
MsgPack. -/
def acceptsReply : Except ReadError HandshakeReply → Bool
  | .ok (magic, serializer, _, _) => magic = 0x7F ∧ serializer &&& 0x0F = 0x02
  | .error _ => false

/-- The client's end of `got_handshake_reply`: an unresolved handshake is
resolved, and the chain goes on exactly when it is accepted. -/
theorem gotHandshakeReply_cases {c : Client}
    (hres : ¬ c.session.handshake.resolved)
    (reply : Except ReadError HandshakeReply) :
    ∃ x, (Autobahn.gotHandshakeReply reply).run c =
      (x, c.setSession (storeHandshake { c.session.handshake with
        outcome := some (.ok (acceptsReply reply)) } c.session)) ∧
      (x = .ok true ∧ acceptsReply reply = true ∨
        (∀ b, x = .ok b → b = false) ∧ acceptsReply reply = false) := by
  have hsettle : ∀ b, c.session.handshake.settle (.ok b) =
      some { c.session.handshake with outcome := some (.ok b) } :=
    fun b => Promise.settle_eq_some.mpr ⟨hres, rfl⟩
  cases reply with
  | error e =>
      exact ⟨.ok false, by
        simp [Autobahn.gotHandshakeReply, Exec.run_bind, settle, hsettle,
          Except.map, acceptsReply],
        .inr ⟨by simp, rfl⟩⟩
  | ok octets =>
      obtain ⟨magic, serializer, o₂, o₃⟩ := octets
      by_cases hm : magic = 0x7F
      case neg =>
        exact ⟨_, by
          simp [Autobahn.gotHandshakeReply, Exec.run_bind, settle, hsettle, hm,
            acceptsReply]
          rfl, .inr ⟨by simp, by simp [acceptsReply, hm]⟩⟩
      by_cases hs : serializer &&& 0x0F = 0x02
      · exact ⟨.ok true, by
          simp [Autobahn.gotHandshakeReply, Exec.run_bind, settle, hsettle, hm,
            hs, Except.map, acceptsReply],
          .inl ⟨rfl, by simp [acceptsReply, hm, hs]⟩⟩
      · exact ⟨_, by
          simp [Autobahn.gotHandshakeReply, Exec.run_bind, settle, hsettle, hm, hs,
            acceptsReply]
          rfl, .inr ⟨by simp, by simp [acceptsReply, hs]⟩⟩

theorem Wired.handshakeReply (h : conn.Wired) (ha : conn.client.alive = true)
    (hres : ¬ conn.client.session.handshake.resolved) (result : ReadResult) :
    ((gotHandshakeReply result).run conn.taken).2.Wired ∧
    ((gotHandshakeReply result).run conn.taken).2.Receiving := by
  obtain ⟨x, hrun, hx⟩ := gotHandshakeReply_cases hres
    (result.map fun data => (data 0, data 1, data 2, data 3))
  generalize acceptsReply (result.map fun data =>
    (data 0, data 1, data 2, data 3)) = accepted at hrun hx
  let c' := conn.client.setSession (storeHandshake { conn.client.session.handshake
    with outcome := some (.ok accepted) } conn.client.session)
  have hreach : c'.Reachable := by
    have hstep := h.reachable.step (.handshake
      (result.map fun data => (data 0, data 1, data 2, data 3)))
    have heq : conn.client.step (.handshake
        (result.map fun data => (data 0, data 1, data 2, data 3))) = c' := by
      simp [Client.step, Input.needsSession, Input.program, ha, hrun, c']
    rwa [heq] at hstep
  have hresolved : c'.session.handshake.resolved := by
    simp [c', Promise.resolved, Client.setSession, storeHandshake]
  have hclient : (onClient (Autobahn.gotHandshakeReply
      (result.map fun data => (data 0, data 1, data 2, data 3)))).run conn.taken =
      (x.mapError .session, conn.taken.setClient c') := by
    rw [run_onClient, show conn.taken.client = conn.client from rfl, hrun]
  have hend : ((gotHandshakeReply result).run conn.taken).2 =
      if accepted then (conn.taken.setClient c').post .gotMessageHeader
      else conn.taken.setClient c' := by
    rw [gotHandshakeReply, Exec.run_bind, hclient]
    rcases hx with ⟨rfl, rfl⟩ | ⟨hne, rfl⟩
    · rfl
    · cases x with
      | error a => rfl
      | ok b =>
          rw [hne b rfl]
          rfl
  rw [hend]
  cases accepted with
  | true =>
      have hreads : ((conn.taken.setClient c').post .gotMessageHeader).reads =
          [.gotMessageHeader] := rfl
      refine ⟨⟨hreach, Nat.le_refl 1, fun _ => ha, ?_, fun _ _ _ => rfl⟩,
        fun _ => .inl rfl⟩
      exact ⟨fun hm => absurd hm (by simp [hreads]),
        fun hn => absurd hresolved hn⟩
  | false =>
      have hreads : (conn.taken.setClient c').reads = [] := rfl
      refine ⟨⟨hreach, Nat.zero_le 1, fun hr => absurd hreads hr, ?_, ?_⟩, ?_⟩
      · exact ⟨fun hm => absurd hm (by simp [hreads]),
          fun hn => absurd hresolved hn⟩
      · simp [hreads]
      · intro hok
        cases hok

/-- What runs between two completions is user code. -/
theorem acts_of_allows {i : Input} (hi : conn.allows i = true)
    (hd : i ≠ .destroy) : Acts conn.client (conn.client.step i) := by
  unfold Client.step
  split
  · exact .refl
  cases i with
  | operate op => exact operate_acts false op _
  | task n => exact runTask_acts n _
  | respond io n attempt => exact reply_acts io n attempt _
  | userCode script => exact script_acts script _
  | destroy => exact absurd rfl hd
  | message obj user => exact absurd hi (by simp [allows])
  | rxError error user => exact absurd hi (by simp [allows])
  | handshake reply => exact absurd hi (by simp [allows])

/-- Between two completions the chain stays as it is. -/
theorem Wired.client (h : conn.Wired) {i : Input} (hi : conn.allows i = true) :
    (conn.setClient (conn.client.step i)).Wired ∧
    (conn.Receiving → (conn.setClient (conn.client.step i)).Receiving) := by
  have hkeep : (conn.client.step i).session.handshake =
      conn.client.session.handshake ∧
      (conn.reads ≠ [] → (conn.client.step i).alive = conn.client.alive) := by
    by_cases hd : i = .destroy
    · subst hd
      have hnil : conn.reads = [] := List.isEmpty_iff.mp hi
      have hres : conn.client.session.handshake.resolved := by
        have hmem := h.handshake
        rw [hnil] at hmem
        simpa using hmem
      rw [Client.step_destroy]
      refine ⟨?_, fun hr => absurd hnil hr⟩
      split
      · exact Promise.abandon_of_resolved hres
      · rfl
    · have hacts := acts_of_allows hi hd
      exact ⟨hacts.handshake, fun _ => hacts.routing.2.2.2⟩
  obtain ⟨hsame, halive⟩ := hkeep
  refine ⟨⟨h.reachable.step i, h.atMostOne, fun hr => (halive hr).trans (h.alive hr),
    ?_, ?_⟩, fun hrec hok => ?_⟩
  · exact h.handshake.trans (by rw [← hsame]; exact Iff.rfl)
  · intro r hr hne
    exact (congrArg Promise.outcome hsame).trans (h.accepted r hr hne)
  · exact (hrec ((congrArg Promise.outcome hsame).symm.trans hok)).imp id
      (conn.client.step_moves i).stopped_of

/-- **One step keeps the chain, and keeps it receiving exactly when its
condition holds.** -/
theorem Wired.step (u : Unpacker σ) (h : conn.Wired) (e : ConnectionInput) :
    (conn.step u e).Wired ∧
    (conn.Receiving → ((conn.step u e).Receiving ↔ conn.Handled u e)) := by
  cases e with
  | client i =>
      rw [Connection.step]
      split
      · next hi =>
        obtain ⟨hwired, hrec⟩ := h.client hi
        exact ⟨hwired, fun hr => iff_of_true (hrec hr) trivial⟩
      · exact ⟨h, fun hr => iff_of_true hr trivial⟩
  | complete n result users =>
  cases hread : conn.reads[n]? with
  | none =>
      rw [step_complete_none hread]
      exact ⟨h, fun hr => iff_of_true hr (by simp [Handled, hread])⟩
  | some r =>
  obtain ⟨hreads, herase⟩ := h.reads_eq hread
  have hmem : r ∈ conn.reads := by simp [hreads]
  have ha := h.alive (by simp [hreads])
  have hstep : conn.step u (.complete n result users) =
      ((handler u result users r).run conn.taken).2 := by
    rw [step_complete_some hread, herase]
    rfl
  rw [hstep]
  cases r with
  | gotHandshakeReply =>
      obtain ⟨hwired, hrec⟩ := h.handshakeReply ha (h.handshake.mp hmem) result
      refine ⟨hwired, fun _ => iff_of_true hrec ?_⟩
      cases result <;> simp [Handled, hread]
  | gotMessageHeader =>
      have hok := h.accepted _ hmem (by decide)
      cases result with
      | error error =>
          obtain ⟨hwired, hrec⟩ := h.rxError ha hok (users 0) error
          exact ⟨hwired, fun _ => hrec.trans (by simp [Handled, hread])⟩
      | ok data =>
          obtain ⟨hwired, hrec⟩ := h.messageHeader u ha hok (users 0) data
          exact ⟨hwired, fun _ => hrec.trans (by simp [Handled, hread])⟩
  | gotMessageBody =>
      have hok := h.accepted _ hmem (by decide)
      cases result with
      | error error =>
          obtain ⟨hwired, hrec⟩ := h.rxError ha hok (users 0) error
          exact ⟨hwired, fun _ => hrec.trans (by simp [Handled, hread])⟩
      | ok data =>
          obtain ⟨hwired, hrec⟩ := h.messageBody u ha hok users data
          exact ⟨hwired, fun _ => hrec.trans (by simp [Handled, hread])⟩

theorem wired_run (u : Unpacker σ) (plan : Nat → WriteResult)
    (es : List ConnectionInput) :
    (Machine.run (step u) (start u plan) es).Wired :=
  Machine.Reachable.invariant ⟨es, rfl⟩ (wired_start u plan)
    fun _ e h => (h.step u e).1

theorem receiving_start (u : Unpacker σ) (plan : Nat → WriteResult) :
    (start u plan).Receiving :=
  fun _ => .inl rfl

/-- **When the receive loop is never lost.** In every run, the loop is alive or
the session stopped in every state exactly when every completion meets its
condition. -/
theorem everywhere_receiving_iff (u : Unpacker σ) (plan : Nat → WriteResult)
    (es : List ConnectionInput) :
    Machine.Everywhere (step u) Receiving (start u plan) es ↔
      Machine.EachStep (step u) (Handled u) (start u plan) es := by
  apply Machine.everywhere_iff_eachStep (receiving_start u plan)
  intro pre e _ hrec
  rw [Machine.run_snoc]
  exact ((wired_run u plan pre).step u e).2 hrec

end

/-- The octets of a read, then zeros. -/
def octetsAt (data : Octets) (n : Nat) : UInt8 := data.getD n 0

/-- A joined session gets a RESULT for a call it never made: nothing is read
from then on, and nothing is stopped. -/
theorem not_everywhere_receiving :
    ¬ Machine.Everywhere (step octetUnpacker) Receiving
      (start octetUnpacker fun _ => .complete)
      [.complete 0 (.ok (octetsAt [0x7F, 0xF2, 0, 0])) fun _ _ => {},
        .complete 0 (.ok (octetsAt [0, 0, 0, 8])) fun _ _ => {},
        -- [WELCOME, 7, {}] and [RESULT, 9, {}]
        .complete 0 (.ok (octetsAt
          [0x93, 0x02, 0x07, 0x80, 0x93, 0x32, 0x09, 0x80])) fun _ _ => {}] := by
  intro h
  have hpre := h [_, _] ⟨[_], rfl⟩
  have hlast := h ([_, _] ++ [_]) (List.prefix_refl _)
  rw [Machine.run_snoc] at hlast
  have hbody := (((wired_run octetUnpacker _ [_, _]).step octetUnpacker _).2 hpre).mp hlast
  have hall := (Client.acceptsAll_object (u := octetUnpacker) rfl).mp hbody
  have hwelcome := hall.1 (fun hr => hr rfl)
  have hresult := (Client.acceptsAll_object (u := octetUnpacker) rfl).mp hwelcome
  refine absurd (hresult.2 ?_) (by decide)
  rintro ⟨e, he, -⟩
  cases he

end Connection

end Autobahn
