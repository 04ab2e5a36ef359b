import Autobahn.Session.Lifecycle
import Autobahn.Session.ReceiveLoop

/-!
# A lost connection

A read error other than `operation_aborted` is to end with the session left
and stopped, its streams closed, its two promises resolved, and the error
reported once. `handleRxError` gets there through the public `leave` and
`stop`, each of which refuses in some states, so it does exactly for a session
that is joined and on which nobody has called either (`Connection.lost_iff`).
-/

namespace Autobahn

open Foundation MsgPack Relation

section

variable {c d : Client}

/-! ## An unstopped session waits for its stop -/

@[simp] theorem Client.left_sessionStop (c : Client) :
    c.left.session.sessionStop = c.session.sessionStop := by
  simp only [Client.left, Client.setSession]
  split
  · rfl
  · exact WampSession.send_sessionStop _ _

/-- The stop promise of a live session is resolved by stopping it. -/
def Client.StopWaits (c : Client) : Prop :=
  c.alive = true → c.session.sessionStop.resolved → c.session.stopped = true

theorem Act.stopWaits (h : Act c d) (hc : c.StopWaits) : d.StopWaits := by
  cases h
  case answer =>
    unfold Client.answer
    split <;> exact hc
  case retrieveStop p h =>
    exact fun ha hp => hc ha ((Promise.resolved_of_getFuture h).mp hp)
  case stopped => exact fun _ _ => rfl
  case settleStop h hs => exact fun _ _ => hs
  all_goals
    simpa [Client.StopWaits, Client.takeId, Client.submit, Client.enqueue,
      Client.dequeue, Client.setSession, Client.sent, Client.markLeft,
      Client.enter, Client.hand, Client.modifyInvocation, Client.modifyRequest,
      storeJoin, storeLeave] using hc

theorem Move.stopWaits (h : Move c d) (hc : c.StopWaits) : d.StopWaits := by
  cases h with
  | quiet h =>
      cases h with
      | act h => exact h.stopWaits hc
      | goodbye =>
          intro ha hp
          rw [Client.left_sessionStop] at hp
          exact c.left_stopped.trans (hc ha hp)
      | _ => exact hc
  | answer h => cases h <;> exact hc
  | destroy => exact fun ha => absurd ha (by simp [Client.destroy])

theorem Client.Reachable.stopWaits (h : c.Reachable) : c.StopWaits :=
  h.invariant (fun _ _ hp => absurd hp Promise.not_resolved_new)
    fun _ _ hm hc => hm.stopWaits hc

/-! ## Cleaned up, and for good -/

/-- The session is left and stopped, its streams are closed and its promises
resolved, and these errors have been reported. -/
structure Client.CleanedUp (c : Client) (errors : List ReadError) : Prop where
  left : c.session.sessionId = 0
  stopped : c.session.stopped = true
  inClosed : c.session.inOpen = false
  outClosed : c.session.out.isOpen = false
  leaveResolved : c.session.sessionLeave.resolved
  stopResolved : c.session.sessionStop.resolved
  reported : c.rxErrors = errors

/-- A cleaned-up session stays so, whatever the user does with it. -/
theorem Act.cleanedUp {errors : List ReadError} (h : Act c d)
    (hc : c.CleanedUp errors) : d.CleanedUp errors := by
  have hsent : ∀ {e : Client} buffer, e.CleanedUp errors →
      (e.sent buffer).CleanedUp errors := by
    intro e buffer he
    rw [Client.sent, WampSession.send_of_stopped he.stopped]
    exact he
  have hdequeue : ∀ n, (c.dequeue n).CleanedUp errors :=
    fun _ => { hc with }
  cases h with
  | answer =>
      unfold Client.answer
      split <;> exact { hc with }
  | retrieveStop h =>
      exact { hc with
        stopResolved := (Promise.resolved_of_getFuture h).mpr hc.stopResolved }
  | retrieveLeave h =>
      exact { hc with
        leaveResolved := (Promise.resolved_of_getFuture h).mpr hc.leaveResolved }
  | settleStop h =>
      exact { hc with stopResolved := Promise.resolved_of_settle h }
  | stopped _ _ hs =>
      rw [hc.stopped] at hs
      cases hs
  | left _ _ hj => exact absurd hc.left hj
  | published _ _ hj => exact absurd hc.left hj
  | entered _ _ hj => exact absurd hc.left hj
  | joined => exact hsent _ (hdequeue _)
  | @handed n h buffer ht ha => exact hsent _ { hdequeue n with }
  | _ => exact { hc with }

theorem Acts.cleanedUp {errors : List ReadError} (h : Acts c d)
    (hc : c.CleanedUp errors) : d.CleanedUp errors := by
  induction h with
  | refl => exact hc
  | tail _ h ih => exact h.cleanedUp ih

/-! ## How a read error is handled -/

/-- Joined, and nobody has called `leave` or `stop` or said goodbye. -/
structure Client.Closable (c : Client) : Prop where
  joined : c.session.sessionId ≠ 0
  goodbyeSent : c.session.goodbyeSent = false
  leaveWaits : ¬ c.session.sessionLeave.resolved
  leaveUnused : c.session.sessionLeave.retrieved = false
  stopUnused : c.session.sessionStop.retrieved = false

theorem Client.Closable.closes (h : c.Closable) {error : ReadError}
    (he : error ≠ .operationAborted) : c.Closes error :=
  ⟨he, h.leaveWaits, h.joined, h.goodbyeSent, h.leaveUnused⟩

attribute [local simp] Exec.run_bind

/-- `leave` on the `io_service` thread, when nothing speaks against it. -/
theorem run_leave_io (ha : c.alive = true) (hj : c.session.sessionId ≠ 0)
    (hg : c.session.goodbyeSent = false)
    (hr : c.session.sessionLeave.retrieved = false) (reason : Octets) :
    ∃ d, (leave true reason).run c = (.ok (), d) ∧ d.alive = true ∧
      d.session.sessionId = 0 ∧
      d.session.stopped = c.session.stopped ∧
      d.session.sessionLeave =
        { c.session.sessionLeave with retrieved := true } ∧
      d.session.sessionStop = c.session.sessionStop ∧
      d.rxErrors = c.rxErrors := by
  have hrun : (leave true reason).run c = (dispatch true
      (.leave (goodbyeFrame reason)) >>= fun _ => get >>= fun c =>
        getFuture c.session.sessionLeave storeLeave).run c := rfl
  have hbody : (Task.leave (goodbyeFrame reason)).body.run c =
      (.ok (), c.markLeft.sent (goodbyeFrame reason)) := by
    simp [Task.body, hj, hg, send, Client.markLeft, Client.sent]
  have hfuture : c.session.sessionLeave.getFuture =
      some { c.session.sessionLeave with retrieved := true } :=
    Promise.getFuture_eq_some.mpr ⟨hr, rfl⟩
  rw [hrun, Exec.run_bind, run_dispatch_io ha, hbody]
  simp [getFuture, Client.sent, Client.markLeft, Client.setSession, hfuture,
    storeLeave, ha]

/-- `stop` on the `io_service` thread, in a session that is left and not
stopped: only its future can be missing. -/
theorem run_stop_io (ha : c.alive = true) (hs : c.session.stopped = false)
    (hj : c.session.sessionId = 0) (hp : ¬ c.session.sessionStop.resolved) :
    ∃ d, d.session.sessionId = 0 ∧ d.session.stopped = true ∧
      d.session.inOpen = false ∧ d.session.out.isOpen = false ∧
      d.session.sessionLeave = c.session.sessionLeave ∧
      d.session.sessionStop.resolved ∧ d.rxErrors = c.rxErrors ∧
      (stop true).run c = (if c.session.sessionStop.retrieved then
        .error (.throws .futureAlreadyRetrieved) else .ok (), d) := by
  have hrun : (stop true).run c = (dispatch true .stop >>= fun _ => get >>=
      fun c => getFuture c.session.sessionStop storeStop).run c := rfl
  have hsettle : c.session.sessionStop.settle (.ok ()) =
      some { c.session.sessionStop with outcome := some (.ok ()) } :=
    Promise.settle_eq_some.mpr ⟨hp, rfl⟩
  rw [hrun, Exec.run_bind, run_dispatch_io ha]
  by_cases hr : c.session.sessionStop.retrieved
  · simp [Task.body, hs, hj, settle, hsettle, storeStop, getFuture,
      Promise.getFuture, hr, Client.setSession, Promise.resolved]
  · simp [Task.body, hs, hj, settle, hsettle, storeStop, getFuture,
      Promise.getFuture, hr, Client.setSession, Promise.resolved]

/-- With the promise of `leave` settled, the rest of the handler runs. -/
theorem run_handleRxError_left (user : UserCode) {error : ReadError}
    (he : error ≠ .operationAborted) {p : Promise Exn Octets}
    (hp : c.session.sessionLeave.settle (.ok (octets "socket closed")) = some p) :
    (handleRxError user error).run c =
      (leave true closeRealm >>= fun _ => stop true >>= fun _ =>
        (modify fun c : Client =>
          { c with rxErrors := c.rxErrors ++ [error] }) >>= fun _ =>
        (user 0).run).run (c.setSession (storeLeave p c.session)) := by
  simp [handleRxError, he, settle, hp]

/-- The handler of a joined session up to the call of the slot: only `stop`
can still refuse, when its future has been given away. -/
theorem Client.Reachable.run_handleRxError (h : c.Reachable)
    (ha : c.alive = true) (hs : c.session.stopped = false) (user : UserCode)
    {error : ReadError} (hcl : c.Closes error) :
    (c.session.sessionStop.retrieved = true ∧
      ∃ a d, (handleRxError user error).run c = (.error a, d)) ∨
    (c.session.sessionStop.retrieved = false ∧
      ∃ d : Client, d.CleanedUp (c.rxErrors ++ [error]) ∧
        (handleRxError user error).run c = (user 0).run.run d) := by
  obtain ⟨he, hp, hj, hg, hr⟩ := hcl
  let c' := c.setSession (storeLeave { c.session.sessionLeave with
    outcome := some (.ok (octets "socket closed")) } c.session)
  have hset : c.session.sessionLeave.settle (.ok (octets "socket closed")) =
      some { c.session.sessionLeave with
        outcome := some (.ok (octets "socket closed")) } :=
    Promise.settle_eq_some.mpr ⟨hp, rfl⟩
  have hrest := run_handleRxError_left user he hset
  obtain ⟨d, hleave, hd, hdj, hds, hdl, hdp, hdrx⟩ :=
    run_leave_io (c := c') ha hj hg hr closeRealm
  have hwait : ¬ d.session.sessionStop.resolved := by
    rw [hdp]
    intro hres
    rw [h.stopWaits ha hres] at hs
    cases hs
  obtain ⟨e, hej, hes, hein, heout, hel, hep, herx, hstop⟩ :=
    run_stop_io hd (hds.trans hs) hdj hwait
  rw [hrest, Exec.run_bind_ok hleave]
  have hdp' : d.session.sessionStop = c.session.sessionStop := hdp
  rw [hdp'] at hstop
  cases hret : c.session.sessionStop.retrieved with
  | true =>
      have hstop' : (stop true).run d =
          (.error (.throws .futureAlreadyRetrieved), e) := by
        rw [hstop, if_pos hret]
      exact .inl ⟨rfl, _, _, Exec.run_bind_error hstop' _⟩
  | false =>
      have hstop' : (stop true).run d = (.ok (), e) := by
        rw [hstop, if_neg (by simp [hret])]
      refine .inr ⟨rfl, { e with rxErrors := e.rxErrors ++ [error] }, ?_, ?_⟩
      · refine ⟨hej, hes, hein, heout, ?_, hep, ?_⟩
        · show e.session.sessionLeave.resolved
          rw [hel, hdl]
          simp [Promise.resolved, c', Client.setSession, storeLeave]
        · show e.rxErrors ++ [error] = _
          rw [herx, hdrx]
          rfl
      · rw [Exec.run_bind_ok hstop']
        rfl

/-! ### What is reported -/

/-- User code reports nothing. -/
theorem Act.rxErrors (h : Act c d) : d.rxErrors = c.rxErrors := by
  cases h
  case answer =>
    unfold Client.answer
    split <;> rfl
  all_goals rfl

theorem Acts.rxErrors (h : Acts c d) : d.rxErrors = c.rxErrors := by
  induction h with
  | refl => rfl
  | tail _ h ih => exact h.rxErrors.trans ih

/-- The error reaches the slot of `m_onRxError`. -/
structure Client.Reports (c : Client) (error : ReadError) : Prop where
  notAborted : error ≠ .operationAborted
  closable : c.Closable
  running : c.session.stopped = false

theorem Client.Reachable.rxErrors_of_reports (h : c.Reachable)
    (ha : c.alive = true) (user : UserCode) {error : ReadError}
    (hr : c.Reports error) :
    ((handleRxError user error).run c).2.rxErrors = c.rxErrors ++ [error] := by
  rcases h.run_handleRxError ha hr.running user
    (hr.closable.closes hr.notAborted) with ⟨hret, -⟩ | ⟨-, d, hd, hrun⟩
  · rw [hr.closable.stopUnused] at hret
    cases hret
  · rw [hrun]
    exact ((script_acts (user 0) d).cleanedUp hd).reported

/-- `stop` does not return in a session that is stopped or whose stop future
has been given away. -/
theorem stop_io_ok (h : c.StopWaits) (ha : c.alive = true)
    (hj : c.session.sessionId = 0) (hok : ((stop true).run c).1 = .ok ()) :
    c.session.stopped = false ∧ c.session.sessionStop.retrieved = false := by
  have hrun : (stop true).run c = (dispatch true .stop >>= fun _ => get >>=
      fun c => getFuture c.session.sessionStop storeStop).run c := rfl
  cases hs : c.session.stopped with
  | true =>
      rw [hrun, Exec.run_bind, run_dispatch_io ha] at hok
      simp [Task.body, hs] at hok
  | false =>
      have hp : ¬ c.session.sessionStop.resolved := by
        intro hres
        rw [h ha hres] at hs
        cases hs
      obtain ⟨d, -, -, -, -, -, -, -, hstop⟩ := run_stop_io ha hs hj hp
      rw [hstop] at hok
      cases hret : c.session.sessionStop.retrieved with
      | true => simp [hret] at hok
      | false => exact ⟨rfl, rfl⟩

theorem Client.Reachable.rxErrors_of_not_reports (h : c.Reachable)
    (ha : c.alive = true) (user : UserCode) {error : ReadError}
    (hr : ¬ c.Reports error) :
    ((handleRxError user error).run c).2.rxErrors = c.rxErrors := by
  by_cases he : error = .operationAborted
  · simp [handleRxError, he]
  cases hp : c.session.sessionLeave.settle (.ok (octets "socket closed")) with
  | none => simp [handleRxError, he, settle, hp]
  | some p =>
  obtain ⟨hres, rfl⟩ := Promise.settle_eq_some.mp hp
  let c' := c.setSession (storeLeave { c.session.sessionLeave with
    outcome := some (.ok (octets "socket closed")) } c.session)
  have hrest := run_handleRxError_left user he hp
  have hleave := (leave_acts true closeRealm c').rxErrors
  obtain ⟨x, e, hrun, -, -, hok, -⟩ := leave_io (c := c') ha closeRealm
  rw [hrun] at hleave
  rw [hrest]
  cases x with
  | error a =>
      rw [Exec.run_bind_error hrun]
      exact hleave
  | ok _ =>
      obtain ⟨hj, hg, hl⟩ := hok.mp rfl
      obtain ⟨d, hrun', hd, hdj, hds, -, hdp, -⟩ :=
        run_leave_io (c := c') ha hj hg hl closeRealm
      obtain ⟨-, rfl⟩ := Prod.mk.inj (hrun.symm.trans hrun')
      have hstop := (stop_acts true e).rxErrors
      rw [Exec.run_bind_ok hrun]
      cases hx : (stop true).run e with
      | mk y f =>
          rw [hx] at hstop
          cases y with
          | error a =>
              rw [Exec.run_bind_error hx]
              exact hstop.trans hleave
          | ok _ =>
              have hwaits : e.StopWaits := by
                intro _ hres
                rw [hdp] at hres
                exact hds.trans (h.stopWaits ha hres)
              obtain ⟨hs, hret⟩ := stop_io_ok hwaits hd hdj (by rw [hx])
              rw [hds] at hs
              rw [hdp] at hret
              exact absurd ⟨he, ⟨hj, hg, hres, hl, hret⟩, hs⟩ hr

/-- The errors reported stay the same. -/
def Client.SameErrors (c d : Client) : Prop := d.rxErrors = c.rxErrors

instance : Std.Refl Client.SameErrors := ⟨fun _ => rfl⟩

instance : IsTrans Client Client.SameErrors :=
  ⟨fun _ _ _ h h' => Eq.trans h' h⟩

theorem Answer.rxErrors {i : Incoming} (h : Answer i c d) :
    d.rxErrors = c.rxErrors := by
  cases h <;> rfl

/-- Nor does a message. -/
theorem Incoming.rxErrors_handle (i : Incoming) (user : UserCode) (c : Client) :
    ((i.handle user).run c).2.rxErrors = c.rxErrors := by
  cases hi : i.isReply with
  | true =>
      rcases handle_reply user hi c with h | h
      · rw [h]
      · exact h.rxErrors
  | false =>
  cases i with
  | welcome sessionId =>
      cases sessionId with
      | error e => rfl
      | ok id =>
          cases hp : c.session.sessionJoin.settle (.ok id) <;>
            simp [Incoming.handle, readOk, settle, Client.setSession, hp]
  | goodbye reason =>
      have hleft : c.left.rxErrors = c.rxErrors := rfl
      cases reason with
      | error e => simp [Incoming.handle, readOk, hleft]
      | ok text =>
          cases hp : c.session.sessionLeave.settle (.ok text) <;>
            simp [Incoming.handle, readOk, settle, hp, hleft, Client.setSession]
  | event s content =>
      cases hv : c.session.subscriptionHandlers.values s with
      | nil => simp [Incoming.handle, hv]
      | cons h hs =>
          cases content with
          | none => simp [Incoming.handle, hv]
          | some e =>
              have hcalled := callHandlers_moves (R := Client.SameErrors)
                Acts.rxErrors (fun _ _ => rfl) user e s (h :: hs) 0 c
                (by rw [hv]; exact fun _ hh => hh)
              simpa [Incoming.handle, hv, swallow_state, Client.SameErrors]
                using hcalled
  | invocation g r details arguments kwArguments =>
      cases hp : c.session.procedures.find g with
      | none => simp [Incoming.handle, hp]
      | some p =>
          let v : WampInvocation :=
            { requestId := r, details, arguments, kwArguments, sendable := true }
          have hcall : ((callProcedure p c.invocations.length (user 0)).run
              { c with invocations := c.invocations ++ [v] }).2.rxErrors =
              c.rxErrors := (callProcedure_acts _ _ _ _).rxErrors
          simpa [Incoming.handle, hp, newInvocation] using hcall
  | _ => cases hi

/-- **When a read error is handled to the end.** The handler returns with the
session cleaned up and the error reported exactly when the session is closable
and the slot returns. -/
theorem Client.Reachable.handleRxError_iff (h : c.Reachable)
    (ha : c.alive = true) (hs : c.session.stopped = false) (user : UserCode)
    {error : ReadError} (he : error ≠ .operationAborted) :
    (∃ d, (handleRxError user error).run c = (.ok (), d) ∧
      d.CleanedUp (c.rxErrors ++ [error])) ↔
      c.Closable ∧ (user 0).ending = .returns := by
  constructor
  · rintro ⟨d, hrun, hd⟩
    have hcl : c.Closes error := by
      apply (handleRxError_stopped ha hs user error).mp
      rw [hrun]
      exact hd.stopped
    rcases h.run_handleRxError ha hs user hcl with
      ⟨-, a, d', hrun'⟩ | ⟨hret, d', -, hrun'⟩
    · rw [hrun] at hrun'
      cases hrun'
    · obtain ⟨-, hp, hj, hg, hr⟩ := hcl
      refine ⟨⟨hj, hg, hp, hr, hret⟩, ?_⟩
      rw [hrun', run_script] at hrun
      cases hend : (user 0).ending with
      | returns => rfl
      | throwsStd what => rw [hend] at hrun; cases hrun
      | throwsOther => rw [hend] at hrun; cases hrun
  · rintro ⟨hcl, hend⟩
    rcases h.run_handleRxError ha hs user (hcl.closes he) with
      ⟨hret, -⟩ | ⟨-, d, hd, hrun⟩
    · rw [hcl.stopUnused] at hret
      cases hret
    · refine ⟨(user 0).after d, ?_, ((user 0).after_acts d).cleanedUp hd⟩
      rw [hrun, run_script, hend]

end

/-! ## In the chain of reads -/

namespace Connection

section

variable {σ : Type}

/-- The connection whose `n`-th read has completed. -/
def completed (conn : Connection σ) (n : Nat) : Connection σ :=
  { conn with reads := conn.reads.eraseIdx n }

/-- **When a lost connection is cleaned up and reported.** In every state of
every run, a read error in `got_message_header` or `got_message_body` of a
session that is not stopped is handled to the end exactly when the session is
closable and the slot returns. -/
theorem lost_iff (u : Unpacker σ) (plan : Nat → WriteResult)
    (es : List ConnectionInput) {n : Nat} {r : Read} {error : ReadError}
    (users : Nat → UserCode)
    (hr : (Machine.run (step u) (start u plan) es).reads[n]? = some r)
    (hm : r ≠ .gotHandshakeReply)
    (hs : (Machine.run (step u) (start u plan) es).client.session.stopped = false)
    (he : error ≠ .operationAborted) :
    (∃ conn', (handler u (.error error) users r).run
        ((Machine.run (step u) (start u plan) es).completed n) = (.ok (), conn') ∧
      conn'.client.CleanedUp
        ((Machine.run (step u) (start u plan) es).client.rxErrors ++ [error])) ↔
      (Machine.run (step u) (start u plan) es).client.Closable ∧
        (users 0 0).ending = .returns := by
  have hw := wired_run u plan es
  generalize Machine.run (step u) (start u plan) es = conn at hr hs hw ⊢
  have ha : conn.client.alive = true := hw.alive fun hnil => by simp [hnil] at hr
  have hhandler : handler u (.error error) users r =
      onClient (handleRxError (users 0) error) := by
    cases r with
    | gotHandshakeReply => exact absurd rfl hm
    | gotMessageHeader => rfl
    | gotMessageBody => rfl
  rw [hhandler, ← hw.reachable.handleRxError_iff ha hs (users 0) he]
  constructor
  · rintro ⟨conn', hrun, hclean⟩
    rw [run_onClient] at hrun
    obtain ⟨hok, rfl⟩ := Prod.mk.inj hrun
    refine ⟨_, Prod.ext ?_ rfl, hclean⟩
    rcases hx : ((handleRxError (users 0) error).run conn.client).1 with a | x
    · have hx' : ((handleRxError (users 0) error).run
          (conn.completed n).client).1 = .error a := hx
      rw [hx'] at hok
      cases hok
    · rfl
  · rintro ⟨d, hrun, hclean⟩
    have hrun' : (handleRxError (users 0) error).run
        (conn.completed n).client = (.ok (), d) := hrun
    exact ⟨(conn.completed n).setClient d, by rw [run_onClient, hrun']; rfl,
      hclean⟩

end

/-- The stream ends right after the handshake: nothing is closed or reported,
and an exception goes to the caller of `io_service::run`. -/
theorem not_lost_unjoined :
    let conn := Machine.run (step octetUnpacker) (start octetUnpacker fun _ => .complete)
      [.complete 0 (.ok (octetsAt [0x7F, 0xF2, 0, 0])) fun _ _ => {}]
    ¬ ∃ conn', (handler octetUnpacker (.error (.other 2)) (fun _ _ => {})
        .gotMessageHeader).run (conn.completed 0) = (.ok (), conn') ∧
      conn'.client.CleanedUp (conn.client.rxErrors ++ [.other 2]) := by
  rintro conn ⟨conn', hrun, -⟩
  cases hrun

/-- A session that is joined, on which neither `leave` nor `stop` was called,
meets the end of the stream. -/
theorem lost_joined :
    let conn := Machine.run (step octetUnpacker) (start octetUnpacker fun _ => .complete)
      [.complete 0 (.ok (octetsAt [0x7F, 0xF2, 0, 0])) fun _ _ => {},
        .complete 0 (.ok (octetsAt [0, 0, 0, 4])) fun _ _ => {},
        -- [WELCOME, 7, {}]
        .complete 0 (.ok (octetsAt [0x93, 0x02, 0x07, 0x80])) fun _ _ => {}]
    ∃ conn', (handler octetUnpacker (.error (.other 2)) (fun _ _ => {})
        .gotMessageHeader).run (conn.completed 0) = (.ok (), conn') ∧
      conn'.client.CleanedUp (conn.client.rxErrors ++ [.other 2]) := by
  intro conn
  let before := Machine.run (step octetUnpacker)
    (start octetUnpacker fun _ => .complete)
    [.complete 0 (.ok (octetsAt [0x7F, 0xF2, 0, 0])) fun _ _ => {},
      .complete 0 (.ok (octetsAt [0, 0, 0, 4])) fun _ _ => {}]
  have hbody : (gotMessageBody octetUnpacker (fun _ _ => {})
      (.ok (octetsAt [0x93, 0x02, 0x07, 0x80]))).run (before.completed 0) = _ :=
    run_gotMessageBody_single octetUnpacker (fun _ _ => {}) (before.completed 0) rfl rfl
      rfl
  have hconn : conn = _ := congrArg Prod.snd hbody
  refine (lost_iff octetUnpacker (fun _ => .complete) _ (fun _ _ => {}) ?_ ?_ ?_
    ?_).mpr ⟨?_, rfl⟩
  · show conn.reads[0]? = some .gotMessageHeader
    rw [hconn]
    rfl
  · decide
  · show conn.client.session.stopped = false
    rw [hconn]
    rfl
  · decide
  · show conn.client.Closable
    rw [hconn]
    exact ⟨by decide, rfl, by decide, rfl, rfl⟩

end Connection

end Autobahn
