import Autobahn.Session.Invocations

/-!
# What ends the receive path early

When `got_message` returns (`gotMessage_accepts`), and when `handleRxError`
gets as far as stopping the session (`handleRxError_stopped`). A stopped
session stays stopped.
-/

namespace Autobahn

open Foundation MsgPack Relation

/-! ## A stopped session stays stopped -/

section Stopped

variable {c d : Client}

@[simp] theorem Client.left_stopped (c : Client) :
    c.left.session.stopped = c.session.stopped := by
  simp only [Client.left, Client.setSession, WampSession.send]
  split
  · rfl
  · split <;> rfl

theorem Act.stopped_of (h : Act c d) (hs : c.session.stopped = true) :
    d.session.stopped = true := by
  cases h
  case answer =>
    unfold Client.answer
    split <;> exact hs
  case stopped => rfl
  all_goals
    simpa [Client.takeId, Client.submit, Client.enqueue, Client.dequeue,
      Client.setSession, Client.sent, Client.markLeft, Client.enter,
      Client.hand, Client.modifyInvocation, Client.modifyRequest, storeStop,
      storeJoin, storeLeave] using hs

theorem Acts.stopped_of (h : Acts c d) (hs : c.session.stopped = true) :
    d.session.stopped = true := by
  induction h with
  | refl => exact hs
  | tail _ h ih => exact h.stopped_of ih

theorem Move.stopped_of (h : Move c d) (hs : c.session.stopped = true) :
    d.session.stopped = true := by
  cases h with
  | quiet h =>
      cases h with
      | act h => exact h.stopped_of hs
      | goodbye => rw [Client.left_stopped, hs]
      | _ => exact hs
  | answer h => cases h <;> exact hs
  | destroy => exact hs

theorem Moves.stopped_of (h : Moves c d) (hs : c.session.stopped = true) :
    d.session.stopped = true :=
  h.invariant (I := fun c => c.session.stopped = true)
    (fun _ _ hmove hc => hmove.stopped_of hc) hs

end Stopped

/-! ## Which messages are accepted -/

/-- The message is well formed, and what it answers is waiting for it. -/
def Client.Takes (c : Client) : Incoming → Prop
  | .malformed | .mistyped | .welcome (.error _) | .goodbye (.error _) => False
  | .ignored => True
  | .welcome (.ok _) => ¬ c.session.sessionJoin.resolved
  | .goodbye (.ok _) => ¬ c.session.sessionLeave.resolved
  | .callError r _ | .result r _ =>
      ∃ e, c.session.calls.find r = some e ∧ c.Unsettled e.result
  | .subscribed r _ => ∃ e, c.session.subscribeRequests.find r = some e
  | .unsubscribed r => ∃ e, c.session.unsubscribeRequests.find r = some e
  | .event s none => c.session.subscriptionHandlers.values s = []
  | .event _ (some _) => True
  | .registered r _ =>
      ∃ e, c.session.registerRequests.find r = some e ∧ c.Unsettled e.response
  | .invocation g _ _ _ _ => ∃ p, c.session.procedures.find g = some p

def Client.Accepts (c : Client) (obj : Object) : Prop :=
  c.Takes (Incoming.read obj)

section Accepts

variable {c : Client}

/-- A handler returns from what it takes; from anything else it throws, and
has not stopped the session. -/
theorem Client.Coherent.handle_takes (hc : c.Coherent) (ha : c.alive = true)
    (user : UserCode) (i : Incoming) :
    (c.Takes i ∧ ((i.handle user).run c).1 = .ok ()) ∨
    (¬ c.Takes i ∧ (∃ a, ((i.handle user).run c).1 = .error a) ∧
      ((i.handle user).run c).2.session.stopped = c.session.stopped) := by
  cases i with
  | malformed => exact .inr ⟨id, ⟨_, rfl⟩, rfl⟩
  | mistyped => exact .inr ⟨id, ⟨_, rfl⟩, rfl⟩
  | ignored => exact .inl ⟨trivial, rfl⟩
  | welcome sessionId =>
      cases sessionId with
      | error m => exact .inr ⟨id, ⟨_, rfl⟩, rfl⟩
      | ok id =>
          rw [run_welcome]
          split
          · next hp => exact .inr ⟨fun h => h hp, ⟨_, rfl⟩, rfl⟩
          · next hp => exact .inl ⟨hp, rfl⟩
  | goodbye reason =>
      cases reason with
      | error m =>
          rw [run_goodbye_error]
          exact .inr ⟨id, ⟨_, rfl⟩, c.left_stopped⟩
      | ok text =>
          rw [run_goodbye]
          split
          · next hp => exact .inr ⟨fun h => h hp, ⟨_, rfl⟩, c.left_stopped⟩
          · next hp => exact .inl ⟨hp, rfl⟩
  | callError r text =>
      cases he : c.session.calls.find r with
      | none =>
          rw [run_callError_none user he]
          exact .inr ⟨by simp [Client.Takes, he], ⟨_, rfl⟩, rfl⟩
      | some e =>
          rw [run_callError user he]
          rcases hc.run_settleRequest (WampSession.entryAt_call he)
            (.error (.runtimeError text)) with ⟨hq, hrun⟩ | ⟨hq, hrun⟩ <;>
            simp [hrun, Client.Takes, he, hq]
  | result r value =>
      cases he : c.session.calls.find r with
      | none =>
          rw [run_result_none user he]
          exact .inr ⟨by simp [Client.Takes, he], ⟨_, rfl⟩, rfl⟩
      | some e =>
          rw [run_result user he]
          rcases hc.run_settleRequest (WampSession.entryAt_call he)
            (.ok (.result value)) with ⟨hq, hrun⟩ | ⟨hq, hrun⟩ <;>
            simp [hrun, Client.Takes, he, hq]
  | subscribed r s =>
      cases he : c.session.subscribeRequests.find r with
      | none => simp [run_subscribed_none user he, Client.Takes, he]
      | some e => simp [hc.run_subscribed user ha s he, Client.Takes, he]
  | unsubscribed r =>
      cases he : c.session.unsubscribeRequests.find r with
      | none => simp [run_unsubscribed_none user he, Client.Takes, he]
      | some e => simp [hc.run_unsubscribed user ha he, Client.Takes, he]
  | event s content =>
      by_cases hv : c.session.subscriptionHandlers.values s = []
      · cases content <;> simp [run_event_nil user hv, Client.Takes, hv]
      · cases content with
        | none => simp [run_event_none user hv, Client.Takes, hv]
        | some e => simp [run_event user s e c, Client.Takes]
  | registered r g =>
      cases he : c.session.registerRequests.find r with
      | none => simp [run_registered_none user he, Client.Takes, he]
      | some e =>
          rcases hc.run_registered_cases user g he with ⟨hq, hrun⟩ | ⟨hq, hrun⟩
          · simp [hrun, Client.Takes, he, hq]
          · rw [hrun]
            exact .inr ⟨by simp [Client.Takes, he, hq], ⟨_, rfl⟩, rfl⟩
  | invocation g i details arguments kwArguments =>
      cases hp : c.session.procedures.find g with
      | none => simp [run_invocation_none user hp, Client.Takes, hp]
      | some p => simp [run_invocation user hp, Client.Takes, hp]

/-- **When `got_message` returns.** -/
theorem Client.Reachable.gotMessage_accepts (h : c.Reachable)
    (ha : c.alive = true) (user : UserCode) (obj : Object) :
    (c.Accepts obj ∧ ((gotMessage user obj).run c).1 = .ok ()) ∨
    (¬ c.Accepts obj ∧ (∃ a, ((gotMessage user obj).run c).1 = .error a) ∧
      ((gotMessage user obj).run c).2.session.stopped = c.session.stopped) := by
  have hobs := congrArg Prod.fst (gotMessage_observe user c obj)
  simp only [observe] at hobs
  rw [gotMessage_state]
  rcases h.coherent.handle_takes ha user (Incoming.read obj) with
    ⟨htakes, hok⟩ | ⟨htakes, ⟨a, herr⟩, hstop⟩
  · refine .inl ⟨htakes, ?_⟩
    rw [hok] at hobs
    obtain ⟨_, hu⟩ := outcomeOf_eq_returned.mp hobs
    exact hu
  · refine .inr ⟨htakes, ?_, hstop⟩
    rw [herr] at hobs
    cases hr : ((gotMessage user obj).run c).1 with
    | error a' => exact ⟨a', rfl⟩
    | ok u =>
        rw [hr] at hobs
        obtain ⟨_, hu⟩ := outcomeOf_eq_returned.mp hobs.symm
        cases hu

end Accepts

/-! ## How far a read error gets -/

section RxError

variable {c : Client}

attribute [local simp] Exec.run_bind

/-- On the `io_service` thread `dispatch` runs its task in place. -/
theorem run_dispatch_io (ha : c.alive = true) (t : Task) :
    (dispatch true t).run c = t.body.run c := by
  have htask : (c.enqueue t).tasks[c.tasks.length]? = some t := by
    simp [Client.enqueue]
  have hback : (c.enqueue t).dequeue c.tasks.length = c := by
    have herase : (c.tasks ++ [t]).eraseIdx c.tasks.length = c.tasks := by
      rw [List.eraseIdx_append_of_length_le (Nat.le_refl _)]
      simp
    simp only [Client.enqueue, Client.dequeue, herase]
  simp [dispatch, runTask, htask, hback, Task.run, ha]

/-- `leave` on the `io_service` thread returns from a joined session that has
neither said goodbye nor given its leave future away. -/
theorem leave_io (ha : c.alive = true) (reason : Octets) :
    ∃ x d, (leave true reason).run c = (x, d) ∧ d.alive = true ∧
      d.session.stopped = c.session.stopped ∧
      (x = .ok () ↔ c.session.sessionId ≠ 0 ∧ c.session.goodbyeSent = false ∧
        c.session.sessionLeave.retrieved = false) ∧
      (x = .ok () → d.session.sessionId = 0) := by
  refine ⟨((leave true reason).run c).1, ((leave true reason).run c).2, rfl, ?_⟩
  have hrun : (leave true reason).run c = (dispatch true
      (.leave (goodbyeFrame reason)) >>= fun _ => get >>= fun c =>
        getFuture c.session.sessionLeave storeLeave).run c := rfl
  rw [hrun, Exec.run_bind, run_dispatch_io ha]
  by_cases hj : c.session.sessionId = 0
  · simp [Task.body, hj, ha]
  by_cases hg : c.session.goodbyeSent
  · simp [Task.body, hj, hg, ha]
  have hbody : (Task.leave (goodbyeFrame reason)).body.run c =
      (.ok (), c.markLeft.sent (goodbyeFrame reason)) := by
    simp [Task.body, hj, hg, send, Client.markLeft, Client.sent]
  have hleave : (c.markLeft.sent (goodbyeFrame reason)).session.sessionLeave =
      c.session.sessionLeave := WampSession.send_sessionLeave _ _
  have hstopped : (c.markLeft.sent (goodbyeFrame reason)).session.stopped =
      c.session.stopped := WampSession.send_stopped _ _
  have hid : (c.markLeft.sent (goodbyeFrame reason)).session.sessionId = 0 :=
    WampSession.send_sessionId _ _
  have halive : (c.markLeft.sent (goodbyeFrame reason)).alive = true := ha
  rw [hbody]
  generalize c.markLeft.sent (goodbyeFrame reason) = d at *
  by_cases hr : c.session.sessionLeave.retrieved
  · simp [getFuture, Promise.getFuture, hleave, hstopped, halive, hr]
  · simp [getFuture, Promise.getFuture, hleave, hstopped, halive, hr, hj, hg,
      hid, storeLeave, Client.setSession]

/-- The session can be stopped after this read error: it is joined, and
neither its leave promise nor its goodbye is spent. -/
def Client.Closes (c : Client) (error : ReadError) : Prop :=
  error ≠ .operationAborted ∧ ¬ c.session.sessionLeave.resolved ∧
    c.session.sessionId ≠ 0 ∧ c.session.goodbyeSent = false ∧
    c.session.sessionLeave.retrieved = false

/-- `stop` leaves a session that is not joined stopped. -/
theorem stop_io (ha : c.alive = true) (hj : c.session.sessionId = 0) :
    ((stop true).run c).2.session.stopped = true := by
  by_cases hs : c.session.stopped = true
  · exact (stop_acts true c).stopped_of hs
  have hrun : (stop true).run c = (dispatch true .stop >>= fun _ => get >>=
      fun c => getFuture c.session.sessionStop storeStop).run c := rfl
  rw [hrun, Exec.run_bind, run_dispatch_io ha]
  cases hp : c.session.sessionStop.settle (.ok ()) with
  | none => simp [Task.body, hs, hj, settle, hp, Client.setSession]
  | some p =>
      cases hg : p.getFuture <;>
        simp [Task.body, hs, hj, settle, hp, Client.setSession, storeStop,
          getFuture, hg]

/-- **What a read error does to a session that is not stopped yet.** -/
theorem handleRxError_stopped (ha : c.alive = true)
    (hs : c.session.stopped = false) (user : UserCode) (error : ReadError) :
    ((handleRxError user error).run c).2.session.stopped = true ↔
      c.Closes error := by
  by_cases he : error = .operationAborted
  · simp [handleRxError, he, hs, Client.Closes]
  cases hp : c.session.sessionLeave.settle (.ok (octets "socket closed")) with
  | none =>
      have hres := Promise.settle_eq_none.mp hp
      simp [handleRxError, he, hs, Client.Closes, settle, hp, hres]
  | some p =>
  obtain ⟨hres, -⟩ := Promise.settle_eq_some.mp hp
  have hretrieved : p.retrieved = c.session.sessionLeave.retrieved := by
    rw [(Promise.settle_eq_some.mp hp).2]
  let d := c.setSession (storeLeave p c.session)
  let rest : ClientM Unit := do
    modify fun c : Client => { c with rxErrors := c.rxErrors ++ [error] }
    (user 0).run
  have hrun : (handleRxError user error).run c =
      (leave true closeRealm >>= fun _ => stop true >>= fun _ => rest).run d := by
    simp [handleRxError, he, settle, hp, d, rest]
  obtain ⟨x, e, hleave, halive, hstopped, hok, hid⟩ :=
    leave_io (c := d) ha closeRealm
  rw [hrun, Exec.run_bind, hleave]
  cases x with
  | error a =>
      have hclosed : ¬ (c.session.sessionId ≠ 0 ∧ c.session.goodbyeSent = false ∧
          p.retrieved = false) := fun h => by
        have := hok.mpr h
        cases this
      rw [hretrieved] at hclosed
      simpa [hstopped, d, Client.setSession, storeLeave, hs, Client.Closes, he,
        hres] using hclosed
  | ok u =>
      have hclosed : c.session.sessionId ≠ 0 ∧ c.session.goodbyeSent = false ∧
          p.retrieved = false := hok.mp rfl
      rw [hretrieved] at hclosed
      refine iff_of_true ?_ ⟨he, hres, hclosed⟩
      have hstop := stop_io halive (hid rfl)
      dsimp only
      rw [Exec.run_bind]
      rcases hr : (stop true).run e with ⟨a | u, f⟩
      · rw [hr] at hstop
        exact hstop
      · rw [hr] at hstop
        exact (script_acts (user 0) _).stopped_of hstop

end RxError

end Autobahn
