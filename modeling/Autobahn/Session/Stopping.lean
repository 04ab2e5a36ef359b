import Autobahn.Session.Callbacks
import Autobahn.Session.Refinement
import Autobahn.Session.Tasks

/-!
# A stopped session winds down

Once `m_stopped` is set nothing is written any more, and only reads that are
already on their way go on: a handshake reply is followed by one header, a header
by one body, and a body by nothing. So at most three more reads complete, and user
code is called for the messages of one body at most (`winds_down`).
-/

namespace Autobahn

open Foundation MsgPack

/-! ## Nothing is written -/

section

variable {c d : Client}

/-- The writes of a stopped session are what they are. -/
theorem stopped_rule (ws : List (Frame × WriteResult)) :
    TaskRule (fun c => c.session.stopped = true)
      (fun c => c.session.out.writes = ws) (fun _ _ => True) (fun _ => True) where
  keep h hs := Moves.stopped_of (.single (.quiet h)) hs
  around h _ := by rw [h.out]
  task {c n t} _ _ hs := by
    have hnone : ∀ buffer, (c.dequeue n).session.sending buffer = [] := by
      intro buffer
      rw [WampSession.sending, if_pos (show (c.dequeue n).session.stopped = true from hs)]
    rw [t.writes_body, and_true]
    cases t.sends (c.dequeue n).session with
    | none => rw [Option.elim_none, List.append_nil]; exact Iff.rfl
    | some buffer =>
        rw [Option.elim_some, hnone, List.append_nil]
        exact Iff.rfl
  goodbye {c} hs := by
    rw [c.left_writes, and_true, WampSession.sending, if_pos hs, ite_self,
      List.append_nil]
  answer h _ := by rw [h.out]
  destroy _ := Iff.rfl

/-- **A stopped session stays stopped, and writes nothing.** -/
theorem Client.stopped_runs (hs : c.session.stopped = true)
    (hr : Machine.Reachable Client.step c d) :
    d.session.stopped = true ∧ d.session.out.writes = c.session.out.writes :=
  hr.invariant (I := fun d => d.session.stopped = true ∧
    d.session.out.writes = c.session.out.writes) ⟨hs, rfl⟩ fun d i hd =>
      ⟨(d.step_moves i).stopped_of hd.1,
        ((stopped_rule c.session.out.writes).step hd.1 i).mpr
          ⟨hd.2, fun _ _ => trivial, fun _ _ => trivial⟩⟩

end

/-! ## The reads come to an end -/

/-- The reads of a stopped session from this one on. -/
def Read.chain : Read → List Read
  | .gotHandshakeReply => [.gotHandshakeReply, .gotMessageHeader, .gotMessageBody]
  | .gotMessageHeader => [.gotMessageHeader, .gotMessageBody]
  | .gotMessageBody => [.gotMessageBody]

namespace Connection

variable {σ : Type} {u : Unpacker σ} {plan : Nat → WriteResult} {conn : Connection σ}

/-- The reads a stopped session has to come, if none of them fails. -/
def left (conn : Connection σ) : List Read := conn.reads.flatMap Read.chain

/-- The read that this input completes. -/
def ended (conn : Connection σ) : ConnectionInput → List Read
  | .client _ => []
  | .complete n _ _ => conn.reads[n]?.toList

/-- The reads that complete along a run. -/
abbrev completions (u : Unpacker σ) (conn : Connection σ)
    (is : List ConnectionInput) : List Read :=
  Machine.collected (step u) ended conn is

theorem handshake_winds (conn : Connection σ) (hnil : conn.reads = [])
    (result : ReadResult) :
    let conn' := ((gotHandshakeReply result).run conn).2
    conn'.left.Sublist [.gotMessageHeader, .gotMessageBody] ∧
      conn'.client.callbacks = conn.client.callbacks := by
  have hcalled : conn.client.Uncalled ((Autobahn.gotHandshakeReply
      (result.map fun data => (data 0, data 1, data 2, data 3))).run
        conn.client).2 :=
    gotHandshakeReply_moves (fun _ c => settle_uncalled _ _ _ c) _ _
  rcases hr : (Autobahn.gotHandshakeReply
    (result.map fun data => (data 0, data 1, data 2, data 3))).run conn.client
    with ⟨e | started, d⟩
  · have hd : d.callbacks = conn.client.callbacks := by
      rw [hr] at hcalled
      exact hcalled.callbacks
    simp [gotHandshakeReply, Exec.run_bind, hr, Except.mapError, setClient, hnil,
      left, hd]
  · have hd : d.callbacks = conn.client.callbacks := by
      rw [hr] at hcalled
      exact hcalled.callbacks
    cases started <;>
      simp [gotHandshakeReply, Exec.run_bind, hr, Except.mapError, setClient, hnil,
        receiveMessage, asyncRead, post, left, Read.chain, hd]

theorem rxError_winds (hnil : conn.reads = []) (user : UserCode) (error : ReadError) :
    let conn' := ((onClient (handleRxError user error)).run conn).2
    conn'.left = [] ∧ conn'.client.callbacks = conn.client.callbacks := by
  refine ⟨?_, (IoService.handleRxError_uncalled user error conn.client).callbacks⟩
  simp [left, setClient, hnil]

theorem header_winds (conn : Connection σ) (hnil : conn.reads = [])
    (user : UserCode) (result : ReadResult) :
    let conn' := ((gotMessageHeader u user result).run conn).2
    conn'.left.Sublist [.gotMessageBody] ∧
      conn'.client.callbacks = conn.client.callbacks := by
  cases result with
  | error error =>
      obtain ⟨hleft, hcalled⟩ := rxError_winds hnil user error
      refine ⟨?_, hcalled⟩
      rw [gotMessageHeader, hleft]
      exact List.nil_sublist _
  | ok data =>
      cases hreserve : u.reserveBuffer conn.unpacker (ntohl data) <;>
        simp [gotMessageHeader, Exec.run_bind, hreserve, asyncRead, setUnpacker,
          post, hnil, left, Read.chain]

theorem body_winds (conn : Connection σ) (hr : conn.client.Reachable)
    (ha : conn.client.alive = true) (hs : conn.client.session.stopped = true)
    (hnil : conn.reads = []) (users : Nat → UserCode) (result : ReadResult) :
    ((gotMessageBody u users result).run conn).2.left = [] := by
  cases result with
  | error error => exact (rxError_winds hnil (users 0) error).1
  | ok data =>
      let x := u.bufferConsumed conn.unpacker (body conn.messageLength data)
      obtain ⟨a, conn', hrun, honward, hreads, -⟩ :=
        gotMessages_spec u users 0 x (conn.setUnpacker x) hr ha
      have hnil' : conn'.reads = [] := hreads.trans hnil
      have hstopped : conn'.client.session.stopped = true := honward.stopped hs
      rw [run_gotMessageBody_ok, Exec.run_bind, hrun]
      cases a <;> simp [Exec.run_bind, hstopped, left, hnil']

/-- A completion leads to fewer reads than it was one of, and only that of a body
calls user code. -/
theorem winds_step (hw : conn.Wired) (hs : conn.client.session.stopped = true)
    (e : ConnectionInput) :
    (conn.ended e ++ (conn.step u e).left).Sublist conn.left ∧
      (.gotMessageBody ∉ conn.ended e →
        (conn.step u e).client.callbacks = conn.client.callbacks) := by
  cases e with
  | client i =>
      rw [step]
      split
      · next hi =>
        refine ⟨List.Sublist.refl _, fun _ => ?_⟩
        show (conn.client.step i).callbacks = conn.client.callbacks
        by_cases hd : i = .destroy
        · subst hd
          rw [Client.step_destroy]
          split <;> rfl
        · exact (acts_of_allows hi hd).uncalled.callbacks
      · exact ⟨List.Sublist.refl _, fun _ => rfl⟩
  | complete n result users =>
      cases hread : conn.reads[n]? with
      | none =>
          rw [step_complete_none hread]
          exact ⟨by simp [ended, hread], fun _ => rfl⟩
      | some r =>
          obtain ⟨hreads, hrest⟩ := hw.reads_eq hread
          have hleft : conn.left = r.chain := by simp [left, hreads]
          have hended : conn.ended (.complete n result users) = [r] := by
            simp [ended, hread]
          have ha : conn.client.alive = true := hw.alive (by simp [hreads])
          rw [step_complete_some hread, hrest, hleft, hended, List.mem_singleton]
          cases r with
          | gotHandshakeReply =>
              obtain ⟨hsub, hcalled⟩ :=
                handshake_winds { conn with reads := [] } rfl result
              exact ⟨hsub.cons_cons _, fun _ => hcalled⟩
          | gotMessageHeader =>
              obtain ⟨hsub, hcalled⟩ :=
                header_winds (u := u) { conn with reads := [] } rfl (users 0) result
              exact ⟨hsub.cons_cons _, fun _ => hcalled⟩
          | gotMessageBody =>
              have hnil := body_winds (u := u) { conn with reads := [] }
                hw.reachable ha hs rfl users result
              refine ⟨?_, fun hne => absurd rfl hne⟩
              rw [handler, hnil]
              exact List.Sublist.refl _

/-! ## Winding down -/

/-- How a stopped session goes on: it writes nothing, its last reads are a part of
the chain, and without a body no user code is called. -/
structure WindsDown (u : Unpacker σ) (conn : Connection σ)
    (is : List ConnectionInput) : Prop where
  stopped : (Machine.run (step u) conn is).client.session.stopped = true
  silent : (Machine.run (step u) conn is).client.session.out.writes =
    conn.client.session.out.writes
  ends : (completions u conn is ++ (Machine.run (step u) conn is).left).Sublist
    conn.left
  quiet : .gotMessageBody ∉ completions u conn is →
    (Machine.run (step u) conn is).client.callbacks = conn.client.callbacks

theorem windsDown_nil (hs : conn.client.session.stopped = true) :
    WindsDown u conn [] :=
  ⟨hs, rfl, List.Sublist.refl _, fun _ => rfl⟩

theorem WindsDown.snoc {is : List ConnectionInput} (h : WindsDown u conn is)
    (hw : (Machine.run (step u) conn is).Wired) (e : ConnectionInput) :
    WindsDown u conn (is ++ [e]) := by
  have hclient := (Owned.step_follows (u := u) hw.alive e).2
  obtain ⟨hstopped, hsilent⟩ := Client.stopped_runs h.stopped hclient
  obtain ⟨hends, hquiet⟩ := winds_step (u := u) hw h.stopped e
  have hcompletions : completions u conn (is ++ [e]) =
      completions u conn is ++ (Machine.run (step u) conn is).ended e :=
    Machine.collected_snoc (step u) ended conn is e
  constructor
  all_goals rw [Machine.run_snoc]
  · exact hstopped
  · exact hsilent.trans h.silent
  · rw [hcompletions, List.append_assoc]
    exact (hends.append_left _).trans h.ends
  · rw [hcompletions, List.mem_append, not_or]
    exact fun hnot => (hquiet hnot.2).trans (h.quiet hnot.1)

/-- **A stopped session winds down.** Whatever happens after it has stopped, it
writes nothing, at most a handshake reply, a header and a body still complete, in
this order, and user code is called for the messages of that body only. -/
theorem winds_down (h : Machine.Reachable (step u) (start u plan) conn)
    (hs : conn.client.session.stopped = true) (is : List ConnectionInput) :
    WindsDown u conn is := by
  have hw : conn.Wired := h.invariant (wired_start u plan) fun _ e hw => (hw.step u e).1
  have hboth : (Machine.run (step u) conn is).Wired ∧ WindsDown u conn is := by
    induction is using List.reverseRecOn with
    | nil => exact ⟨hw, windsDown_nil hs⟩
    | append_singleton is e ih =>
        refine ⟨?_, ih.2.snoc ih.1 e⟩
        rw [Machine.run_snoc]
        exact (ih.1.step u e).1
  exact hboth.2

/-- `stop` is called while the header of an EVENT is on its way. -/
theorem winds_down_after_stop :
    let returns : Nat → UserCode := fun _ _ => {}
    let data (l : Octets) : ReadResult := .ok (octetsAt l)
    let conn := Machine.run (step octetUnpacker) (start octetUnpacker fun _ => .complete)
      [.complete 0 (data [0x7F, 0xF2, 0, 0]) returns, .client (.operate .stop),
        .client (.task 0)]
    WindsDown octetUnpacker conn [.complete 0 (data [0, 0, 0, 5]) returns,
        .complete 0 (data [0x94, 0x24, 0x05, 0x08, 0x80]) returns] ∧
      conn.left = [.gotMessageHeader, .gotMessageBody] := by
  intro returns data conn
  have hreach : Machine.Reachable (step octetUnpacker)
    (start octetUnpacker fun _ => .complete) conn := ⟨_, rfl⟩
  exact ⟨winds_down hreach (by decide +kernel) _, by decide +kernel⟩

end Connection

end Autobahn
