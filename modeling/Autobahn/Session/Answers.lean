import Autobahn.Session.Freshness

/-!
# How each message is handled in a reachable state

One equation for each kind of message: how the handler ends and the state it
leaves, over a coherent state. The handlers that walk user code are reduced to
their scripts.
-/

namespace Autobahn

open Foundation MsgPack Relation

section

attribute [local simp] Exec.run_bind

variable {c : Client} (user : UserCode)

/-- An entry's promise exists, so settling it either works or throws. -/
theorem Client.Coherent.run_settleRequest (hc : c.Coherent) {k : RequestKind}
    {r : UInt64} {ref : Nat} {entry : Entry}
    (h : c.session.entryAt k r = some (ref, entry)) (o : Except Exn Reply) :
    (c.Unsettled ref ∧ (settleRequest ref o).run c = (.ok (), c.settled ref o)) ∨
    (¬ c.Unsettled ref ∧ (settleRequest ref o).run c =
      (.error (.throws .promiseAlreadySatisfied), c)) := by
  obtain ⟨q, hq, -⟩ := hc.entries h
  rcases settleRequest_cases ref o c with hs | ⟨hs, -, hrun⟩ | ⟨-, hnone, -⟩
  · exact .inl hs
  · exact .inr ⟨hs, hrun⟩
  · rw [hq] at hnone
    exact absurd hnone (by simp)

theorem run_callError_none {r : UInt64} {text : Octets}
    (h : c.session.calls.find r = none) :
    ((Incoming.callError r text).handle user).run c =
      (.error (.throws (.protocolError "")), c) := by
  simp [Incoming.handle, h]

theorem run_callError {r : UInt64} {text : Octets} {e : WampCall}
    (h : c.session.calls.find r = some e) :
    ((Incoming.callError r text).handle user).run c =
      (settleRequest e.result (.error (.runtimeError text))).run c := by
  simp [Incoming.handle, h]

theorem run_result_none {r : UInt64} {value : WampCallResult}
    (h : c.session.calls.find r = none) :
    ((Incoming.result r value).handle user).run c =
      (.error (.throws (.protocolError "")), c) := by
  simp [Incoming.handle, h]

theorem run_result {r : UInt64} {value : WampCallResult} {e : WampCall}
    (h : c.session.calls.find r = some e) :
    ((Incoming.result r value).handle user).run c =
      (settleRequest e.result (.ok (.result value))).run c := by
  simp [Incoming.handle, h]

theorem run_subscribed_none {r s : UInt64}
    (h : c.session.subscribeRequests.find r = none) :
    ((Incoming.subscribed r s).handle user).run c =
      (.error (.throws (.protocolError "")), c) := by
  simp [Incoming.handle, h]

/-- SUBSCRIBED for a pending id always succeeds. -/
theorem Client.Coherent.run_subscribed (hc : c.Coherent) (ha : c.alive = true)
    {r : UInt64} (s : UInt64) {e : WampSubscribeRequest}
    (h : c.session.subscribeRequests.find r = some e) :
    ((Incoming.subscribed r s).handle user).run c =
      (.ok (), ((c.installHandler s e.handler).settled e.response
        (.ok (.subscription s))).eraseSubscribe r) := by
  have hwait := hc.waiting ha (WampSession.entryAt_subscribe h) (.inl rfl)
  rcases settleRequest_cases e.response (.ok (.subscription s))
    (c.installHandler s e.handler) with ⟨-, hrun⟩ | ⟨hs, -⟩ | ⟨hs, -⟩
  · simp [Incoming.handle, h, hrun]
  · exact absurd hwait hs
  · exact absurd hwait hs

theorem run_unsubscribed_none {r : UInt64}
    (h : c.session.unsubscribeRequests.find r = none) :
    ((Incoming.unsubscribed r).handle user).run c =
      (.error (.throws (.protocolError "")), c) := by
  simp [Incoming.handle, h]

/-- UNSUBSCRIBED for a pending id always succeeds. -/
theorem Client.Coherent.run_unsubscribed (hc : c.Coherent)
    (ha : c.alive = true) {r : UInt64} {e : WampUnsubscribeRequest}
    (h : c.session.unsubscribeRequests.find r = some e) :
    ((Incoming.unsubscribed r).handle user).run c =
      (.ok (), (c.settled e.response (.ok .unsubscribed)).eraseUnsubscribe r) := by
  have hwait := hc.waiting ha (WampSession.entryAt_unsubscribe h) (.inr rfl)
  rcases settleRequest_cases e.response (.ok .unsubscribed) c
    with ⟨-, hrun⟩ | ⟨hs, -⟩ | ⟨hs, -⟩
  · simp [Incoming.handle, h, hrun]
  · exact absurd hwait hs
  · exact absurd hwait hs

theorem run_registered_none {r g : UInt64}
    (h : c.session.registerRequests.find r = none) :
    ((Incoming.registered r g).handle user).run c =
      (.error (.throws (.protocolError "")), c) := by
  simp [Incoming.handle, h]

theorem run_registered {r g : UInt64} {e : WampRegisterRequest}
    (h : c.session.registerRequests.find r = some e) :
    ((Incoming.registered r g).handle user).run c =
      (settleRequest e.response (.ok (.registration g))).run
        (c.installProcedure g e.procedure) := by
  simp [Incoming.handle, h]

/-- REGISTERED for an id in the table: the procedure is in place before the
promise is tried. -/
theorem Client.Coherent.run_registered_cases (hc : c.Coherent) {r : UInt64}
    (g : UInt64) {e : WampRegisterRequest}
    (h : c.session.registerRequests.find r = some e) :
    (c.Unsettled e.response ∧
      ((Incoming.registered r g).handle user).run c =
        (.ok (), (c.installProcedure g e.procedure).settled e.response
          (.ok (.registration g)))) ∨
    (¬ c.Unsettled e.response ∧
      ((Incoming.registered r g).handle user).run c =
        (.error (.throws .promiseAlreadySatisfied),
          c.installProcedure g e.procedure)) := by
  rw [run_registered user h]
  have hc' : (c.installProcedure g e.procedure).Coherent :=
    hc.congr rfl rfl (fun k _ => by cases k <;> rfl) rfl rfl rfl
  exact hc'.run_settleRequest
    (WampSession.entryAt_register (s := (c.installProcedure g e.procedure).session) h) _

/-! ## WELCOME and GOODBYE -/

theorem run_welcome_error (m : Misread) (c : Client) :
    ((Incoming.welcome (.error m)).handle user).run c = (.error m.abort, c) :=
  rfl

/-- The id is stored before the join promise is tried. -/
theorem run_welcome (id : UInt64) (c : Client) :
    ((Incoming.welcome (.ok id)).handle user).run c =
      if c.session.sessionJoin.resolved then
        (.error (.throws .promiseAlreadySatisfied),
          c.setSession { c.session with sessionId := id })
      else (.ok (), c.setSession { c.session with
        sessionId := id
        sessionJoin := { c.session.sessionJoin with outcome := some (.ok id) } }) := by
  split
  · next hp =>
    have hnone := Promise.settle_eq_none (r := .ok id).mpr hp
    simp [Incoming.handle, readOk, settle, Client.setSession, hnone]
  · next hp =>
    have hsome := Promise.settle_eq_some (r := .ok id).mpr ⟨hp, rfl⟩
    simp [Incoming.handle, readOk, settle, Client.setSession, hsome, storeJoin]

theorem run_goodbye_error (m : Misread) (c : Client) :
    ((Incoming.goodbye (.error m)).handle user).run c =
      (.error m.abort, c.left) := by
  simp [Incoming.handle, readOk]

@[simp] theorem Client.left_sessionLeave (c : Client) :
    c.left.session.sessionLeave = c.session.sessionLeave := by
  simp only [Client.left, Client.setSession, WampSession.send]
  split
  · rfl
  · split <;> rfl

/-- The session is left and the GOODBYE sent before the leave promise is
tried. -/
theorem run_goodbye (text : Octets) (c : Client) :
    ((Incoming.goodbye (.ok text)).handle user).run c =
      if c.session.sessionLeave.resolved then
        (.error (.throws .promiseAlreadySatisfied), c.left)
      else (.ok (), c.left.setSession (storeLeave
        { c.session.sessionLeave with outcome := some (.ok text) }
        c.left.session)) := by
  split
  · next hp =>
    have hnone := Promise.settle_eq_none (r := .ok text).mpr hp
    simp [Incoming.handle, readOk, settle, hnone]
  · next hp =>
    have hsome := Promise.settle_eq_some (r := .ok text).mpr ⟨hp, rfl⟩
    simp [Incoming.handle, readOk, settle, hsome]

/-! ## EVENT -/

theorem run_event_nil {s : UInt64} {content : Option WampEvent}
    (h : c.session.subscriptionHandlers.values s = []) :
    ((Incoming.event s content).handle user).run c = (.ok (), c) := by
  simp [Incoming.handle, h]

theorem run_event_none {s : UInt64}
    (h : c.session.subscriptionHandlers.values s ≠ []) :
    ((Incoming.event s none).handle user).run c =
      (.error (.throws (.protocolError "")), c) := by
  cases hv : c.session.subscriptionHandlers.values s with
  | nil => exact absurd hv h
  | cons x xs => simp [Incoming.handle, hv]

/-- The loop is user code: it returns or throws. -/
theorem run_callHandlers (e : WampEvent) (hs : List WampEventHandler) :
    ∀ (k : Nat) (c : Client), ∃ d,
      (callHandlers user e k hs).run c = (.ok (), d) ∨
      ∃ x, (callHandlers user e k hs).run c = (.error (.throws x), d) := by
  induction hs with
  | nil => exact fun k c => ⟨c, .inl rfl⟩
  | cons h hs ih =>
      intro k c
      have hrun := run_script (user k) (c.callBack (.event h e))
      generalize (user k).after (c.callBack (.event h e)) = d at hrun
      have hfirst : (callHandler h e (user k)).run c =
          (user k).run.run (c.callBack (.event h e)) := by
        simp [callHandler, Client.callBack]
      rw [hrun] at hfirst
      cases hend : (user k).ending with
      | returns =>
          rw [hend] at hfirst
          obtain ⟨d', hd'⟩ := ih (k + 1) d
          refine ⟨d', ?_⟩
          simpa [callHandlers, hfirst] using hd'
      | throwsStd what =>
          rw [hend] at hfirst
          exact ⟨d, .inr ⟨.user (some what),
            by simp only [callHandlers, Exec.run_bind, hfirst]⟩⟩
      | throwsOther =>
          rw [hend] at hfirst
          exact ⟨d, .inr ⟨.user none,
            by simp only [callHandlers, Exec.run_bind, hfirst]⟩⟩

/-- A well-formed EVENT never throws. -/
theorem run_event (s : UInt64) (e : WampEvent) (c : Client) :
    ((Incoming.event s (some e)).handle user).run c =
      (.ok (), ((callHandlers user e 0
        (c.session.subscriptionHandlers.values s)).run c).2) := by
  cases hv : c.session.subscriptionHandlers.values s with
  | nil => simp [Incoming.handle, hv, callHandlers]
  | cons h hs =>
      obtain ⟨d, hd | ⟨x, hd⟩⟩ := run_callHandlers user e (h :: hs) 0 c
      · have hsw := swallow_run (e := .typeError) (.inl hd)
        simpa [Incoming.handle, hv, hd] using hsw
      · have hsw := swallow_run (.inr hd)
        simpa [Incoming.handle, hv, hd] using hsw

/-! ## INVOCATION -/

theorem run_invocation_none {g i : UInt64} {details arguments kw : Object}
    (h : c.session.procedures.find g = none) :
    ((Incoming.invocation g i details arguments kw).handle user).run c =
      (.error (.throws (.protocolError "")), c) := by
  simp [Incoming.handle, h]

theorem frame_whatError (r : UInt64) (what : Octets) :
    ∃ buffer, (whatError what).frame r = .ok buffer :=
  ⟨_, rfl⟩

theorem frame_bareError (r : UInt64) :
    ∃ buffer, bareError.frame r = .ok buffer :=
  ⟨_, rfl⟩

/-- The automatic ERROR is only sent when it can be. -/
theorem run_replyError {attempt : ReplyAttempt}
    (h : ∀ r, ∃ buffer, attempt.frame r = .ok buffer) (n : Nat) (c : Client) :
    (replyError n attempt).run c = (.ok (), ((replyError n attempt).run c).2) := by
  cases hv : c.invocations[n]? with
  | none => simp [replyError, hv]
  | some v =>
      by_cases hs : v.sendable
      · obtain ⟨buffer, hb⟩ := h v.requestId
        simp [replyError, hv, hs, run_reply, hb]
      · simp [replyError, hv, hs]

/-- A well-formed INVOCATION of a registered procedure never throws. -/
theorem run_invocation {g i : UInt64} {details arguments kw : Object}
    {p : WampProcedure} (h : c.session.procedures.find g = some p) :
    ((Incoming.invocation g i details arguments kw).handle user).run c =
      (.ok (), ((callProcedure p c.invocations.length (user 0)).run
        { c with invocations := c.invocations ++
            [{ requestId := i, details, arguments, kwArguments := kw,
               sendable := true }] }).2) := by
  have hrun := run_callProcedure p c.invocations.length (user 0)
    { c with invocations := c.invocations ++
        [{ requestId := i, details, arguments, kwArguments := kw,
           sendable := true }] }
  have hok : (callProcedure p c.invocations.length (user 0)).run
      { c with invocations := c.invocations ++
          [{ requestId := i, details, arguments, kwArguments := kw,
             sendable := true }] } = (.ok (), ((callProcedure p
        c.invocations.length (user 0)).run
      { c with invocations := c.invocations ++
          [{ requestId := i, details, arguments, kwArguments := kw,
             sendable := true }] }).2) := by
    rw [hrun]
    cases (user 0).ending with
    | returns => rfl
    | throwsStd what => exact run_replyError (frame_whatError · what) _ _
    | throwsOther => exact run_replyError frame_bareError _ _
  simp only [Incoming.handle, Exec.run_bind, Exec.run_get, h, newInvocation,
    Exec.run_set, Exec.run_pure]
  exact hok

end

end Autobahn
