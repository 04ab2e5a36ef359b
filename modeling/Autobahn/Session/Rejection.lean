import Autobahn.Session.Outstanding

/-!
# How a message can be rejected

Three questions about one message in a reachable state: whether a rejection
leaves the session as it was, whether it is a `protocol_error`, and whether an
ERROR reaches the request it is about. Each has an exact answer in terms of
the message and the state before it.
-/

namespace Autobahn

open Foundation MsgPack

section

variable {c : Client}

theorem outcomeOf_eq_returned {α : Type} {x : Except Abort α} :
    outcomeOf x = .returned ↔ ∃ a, x = .ok a := by
  constructor
  · intro h
    unfold outcomeOf at h
    split at h <;> simp_all
  · rintro ⟨a, rfl⟩
    rfl

theorem observe_of_run {α : Type} {p : ClientM α} {x : Except Abort α}
    {d : Client} (h : p.run c = (x, d)) : observe p c = (outcomeOf x, d) := by
  rw [observe, h]

theorem outcomeOf_misread {α : Type} (m : Misread) :
    outcomeOf (.error m.abort : Except Abort α) ≠ .returned ∧
    outcomeOf (.error m.abort : Except Abort α) ≠ .protocolError := by
  cases m <;> simp [Misread.abort, outcomeOf]

/-! ## Atomic rejection -/

/-- Unless `got_message` returns, everything is as it was before. -/
def Client.AtomicOn (c : Client) (user : UserCode) (obj : Object) : Prop :=
  ∀ a, ((gotMessage user obj).run c).1 = .error a →
    ((gotMessage user obj).run c).2 = c

/-- The changes made ahead of a throw are none: a WELCOME that comes too late
repeats the session id, a GOODBYE that fails finds the session left and its
answer sent or the session stopped, and a second REGISTERED repeats the
procedure. -/
def Client.NothingAhead (c : Client) (obj : Object) : Prop :=
  match Incoming.read obj with
  | .welcome (.ok id) =>
      c.session.sessionJoin.resolved → c.session.sessionId = id
  | .goodbye (.ok _) => c.session.sessionLeave.resolved →
      c.session.sessionId = 0 ∧ (c.session.goodbyeSent ∨ c.session.stopped)
  | .goodbye (.error _) =>
      c.session.sessionId = 0 ∧ (c.session.goodbyeSent ∨ c.session.stopped)
  | .registered r g => ∀ e, c.session.registerRequests.find r = some e →
      c.Unsettled e.response ∨ c.session.procedures.find g = some e.procedure
  | _ => True

theorem Client.atomicOn_iff_observe (c : Client) (user : UserCode)
    (obj : Object) : c.AtomicOn user obj ↔
      ((observe ((Incoming.read obj).handle user) c).1 ≠ .returned →
        (observe ((Incoming.read obj).handle user) c).2 = c) := by
  rw [← gotMessage_observe, Client.AtomicOn, observe]
  dsimp only
  cases hr : ((gotMessage user obj).run c).1 with
  | error a =>
      have hne : outcomeOf (.error a : Except Abort Unit) ≠ .returned := by
        intro h
        obtain ⟨u, hu⟩ := outcomeOf_eq_returned.mp h
        cases hu
      simp [hne]
  | ok u => simp [outcomeOf]

theorem Client.setSession_eq_self {s : WampSession} :
    c.setSession s = c ↔ s = c.session := by
  constructor
  · intro h
    rw [← h]
    rfl
  · rintro rfl
    rfl

theorem Client.setSessionId_eq_self {id : UInt64} :
    c.setSession { c.session with sessionId := id } = c ↔
      c.session.sessionId = id := by
  rw [Client.setSession_eq_self]
  constructor
  · intro h
    rw [← h]
  · rintro rfl
    rfl

theorem Client.left_eq_self :
    c.left = c ↔ c.session.sessionId = 0 ∧
      (c.session.goodbyeSent = true ∨ c.session.stopped = true) := by
  unfold Client.left
  dsimp only
  by_cases hg : c.session.goodbyeSent
  · rw [if_pos hg, Client.setSessionId_eq_self]
    simp [hg]
  by_cases hs : c.session.stopped
  · rw [if_neg hg, WampSession.send, if_pos hs, Client.setSessionId_eq_self]
    simp [hs]
  · simp only [hg, hs, WampSession.send, or_self, and_false, if_false,
      iff_false, Bool.false_eq_true]
    intro h
    -- one more write than before
    have hw := congrArg (fun c : Client => c.session.out.writes.length) h
    simp [Client.setSession, OStream.write] at hw

theorem Client.installProcedure_eq_self {g : UInt64} {p : WampProcedure} :
    c.installProcedure g p = c ↔ c.session.procedures.find g = some p := by
  unfold Client.installProcedure
  rw [Client.setSession_eq_self, ← Table.assign_eq_self]
  constructor
  · intro h
    exact congrArg WampSession.procedures h
  · intro h
    rw [h]

/-- **When a rejection is atomic.** -/
theorem Client.Reachable.atomicOn_iff (h : c.Reachable) (ha : c.alive = true)
    (user : UserCode) (obj : Object) :
    c.AtomicOn user obj ↔ c.NothingAhead obj := by
  have hc := h.coherent
  rw [Client.atomicOn_iff_observe, Client.NothingAhead]
  cases Incoming.read obj with
  | malformed => simp [observe, Incoming.handle]
  | mistyped => simp [observe, Incoming.handle]
  | ignored => simp [observe, Incoming.handle]
  | welcome sessionId =>
      cases sessionId with
      | error m => simp [observe_of_run (run_welcome_error user m c)]
      | ok id =>
          by_cases hp : c.session.sessionJoin.resolved
          · have hrun := run_welcome user id c
            rw [if_pos hp] at hrun
            simp [observe_of_run hrun, outcomeOf, hp,
              Client.setSessionId_eq_self]
          · have hrun := run_welcome user id c
            rw [if_neg hp] at hrun
            simp [observe_of_run hrun, outcomeOf, hp]
  | goodbye reason =>
      cases reason with
      | error m =>
          simp [observe_of_run (run_goodbye_error user m c),
            (outcomeOf_misread m).1, Client.left_eq_self]
      | ok text =>
          by_cases hp : c.session.sessionLeave.resolved
          · have hrun := run_goodbye user text c
            rw [if_pos hp] at hrun
            simp [observe_of_run hrun, outcomeOf, hp, Client.left_eq_self]
          · have hrun := run_goodbye user text c
            rw [if_neg hp] at hrun
            simp [observe_of_run hrun, outcomeOf, hp]
  | callError r text =>
      cases he : c.session.calls.find r with
      | none => simp [observe_of_run (run_callError_none user he)]
      | some e =>
          rw [observe, run_callError user he]
          rcases hc.run_settleRequest (WampSession.entryAt_call he)
            (.error (.runtimeError text)) with ⟨-, hrun⟩ | ⟨-, hrun⟩ <;>
            simp [hrun, outcomeOf]
  | result r value =>
      cases he : c.session.calls.find r with
      | none => simp [observe_of_run (run_result_none user he)]
      | some e =>
          rw [observe, run_result user he]
          rcases hc.run_settleRequest (WampSession.entryAt_call he)
            (.ok (.result value)) with ⟨-, hrun⟩ | ⟨-, hrun⟩ <;>
            simp [hrun, outcomeOf]
  | subscribed r s =>
      cases he : c.session.subscribeRequests.find r with
      | none => simp [observe_of_run (run_subscribed_none user he)]
      | some e =>
          simp [observe_of_run (hc.run_subscribed user ha s he), outcomeOf]
  | unsubscribed r =>
      cases he : c.session.unsubscribeRequests.find r with
      | none => simp [observe_of_run (run_unsubscribed_none user he)]
      | some e =>
          simp [observe_of_run (hc.run_unsubscribed user ha he), outcomeOf]
  | event s content =>
      by_cases hv : c.session.subscriptionHandlers.values s = []
      · simp [observe_of_run (run_event_nil user hv), outcomeOf]
      cases content with
      | none => simp [observe_of_run (run_event_none user hv)]
      | some e => simp [observe_of_run (run_event user s e c), outcomeOf]
  | registered r g =>
      cases he : c.session.registerRequests.find r with
      | none => simp [observe_of_run (run_registered_none user he), he]
      | some e =>
          rcases hc.run_registered_cases user g he with ⟨hq, hrun⟩ | ⟨hq, hrun⟩
          · simp [observe_of_run hrun, outcomeOf, he, hq]
          · simp [observe_of_run hrun, outcomeOf, he, hq,
              Client.installProcedure_eq_self]
  | invocation g i details arguments kwArguments =>
      cases hp : c.session.procedures.find g with
      | none => simp [observe_of_run (run_invocation_none user hp)]
      | some p => simp [observe_of_run (run_invocation user hp), outcomeOf]

/-- A WELCOME that repeats the session id is rejected without a trace. -/
theorem atomicOn_repeated_welcome :
    ((Client.new fun _ => .complete).runs
      [.message (MessageType.WELCOME.object [.positiveInteger 7])
        fun _ => {}]).AtomicOn (fun _ => {})
      (MessageType.WELCOME.object [.positiveInteger 7]) :=
  (Client.Reachable.atomicOn_iff (Client.reachable_runs _ _) rfl _ _).mpr
    fun _ => rfl

/-- A second WELCOME throws and has changed the session id. -/
theorem not_atomicOn_second_welcome :
    ¬ ((Client.new fun _ => .complete).runs
      [.message (MessageType.WELCOME.object [.positiveInteger 7])
        fun _ => {}]).AtomicOn (fun _ => {})
      (MessageType.WELCOME.object [.positiveInteger 9]) :=
  fun h => absurd (congrArg (fun c : Client => c.session.sessionId) (h _ rfl))
    (by decide)

/-! ## Which exceptions escape -/

/-- `got_message` reads inside the message, and returns or throws a
`protocol_error`. -/
def Client.DefinedOn (c : Client) (user : UserCode) (obj : Object) : Prop :=
  ((gotMessage user obj).run c).1 = .ok () ∨
  ∃ what, ((gotMessage user obj).run c).1 =
    .error (.throws (.protocolError what))

/-- No unchecked field is missing or of another type, no code exceeds `int`,
and the promise to be set is not resolved yet. -/
def Client.Sound (c : Client) (obj : Object) : Prop :=
  match Incoming.read obj with
  | .mistyped | .welcome (.error _) | .goodbye (.error _) => False
  | .welcome (.ok _) => ¬ c.session.sessionJoin.resolved
  | .goodbye (.ok _) => ¬ c.session.sessionLeave.resolved
  | .callError r _ | .result r _ =>
      ∀ e, c.session.calls.find r = some e → c.Unsettled e.result
  | .registered r _ => ∀ e, c.session.registerRequests.find r = some e →
      c.Unsettled e.response
  | _ => True

theorem outcomeOf_eq_protocolError {α : Type} {x : Except Abort α} :
    outcomeOf x = .protocolError ↔
      ∃ what, x = .error (.throws (.protocolError what)) := by
  constructor
  · intro h
    unfold outcomeOf at h
    split at h <;> simp_all
  · rintro ⟨what, rfl⟩
    rfl

theorem Client.definedOn_iff_observe (c : Client) (user : UserCode)
    (obj : Object) : c.DefinedOn user obj ↔
      ((observe ((Incoming.read obj).handle user) c).1 = .returned ∨
        (observe ((Incoming.read obj).handle user) c).1 = .protocolError) := by
  rw [← gotMessage_observe, Client.DefinedOn, observe]
  dsimp only
  rw [outcomeOf_eq_returned, outcomeOf_eq_protocolError]
  refine or_congr_left ⟨fun h => ⟨(), h⟩, ?_⟩
  rintro ⟨u, h⟩
  exact h

/-- **When only a `protocol_error` can escape.** -/
theorem Client.Reachable.definedOn_iff (h : c.Reachable) (ha : c.alive = true)
    (user : UserCode) (obj : Object) :
    c.DefinedOn user obj ↔ c.Sound obj := by
  have hc := h.coherent
  rw [Client.definedOn_iff_observe, Client.Sound]
  cases Incoming.read obj with
  | malformed => simp [observe, Incoming.handle, outcomeOf]
  | mistyped => simp [observe, Incoming.handle, outcomeOf]
  | ignored => simp [observe, Incoming.handle, outcomeOf]
  | welcome sessionId =>
      cases sessionId with
      | error m =>
          simp [observe_of_run (run_welcome_error user m c), outcomeOf_misread m]
      | ok id =>
          have hrun := run_welcome user id c
          by_cases hp : c.session.sessionJoin.resolved
          · rw [if_pos hp] at hrun
            simp [observe_of_run hrun, outcomeOf, hp]
          · rw [if_neg hp] at hrun
            simp [observe_of_run hrun, outcomeOf, hp]
  | goodbye reason =>
      cases reason with
      | error m =>
          simp [observe_of_run (run_goodbye_error user m c), outcomeOf_misread m]
      | ok text =>
          have hrun := run_goodbye user text c
          by_cases hp : c.session.sessionLeave.resolved
          · rw [if_pos hp] at hrun
            simp [observe_of_run hrun, outcomeOf, hp]
          · rw [if_neg hp] at hrun
            simp [observe_of_run hrun, outcomeOf, hp]
  | callError r text =>
      cases he : c.session.calls.find r with
      | none => simp [observe_of_run (run_callError_none user he), outcomeOf, he]
      | some e =>
          rw [observe, run_callError user he]
          rcases hc.run_settleRequest (WampSession.entryAt_call he)
            (.error (.runtimeError text)) with ⟨hq, hrun⟩ | ⟨hq, hrun⟩ <;>
            simp [hrun, outcomeOf, he, hq]
  | result r value =>
      cases he : c.session.calls.find r with
      | none => simp [observe_of_run (run_result_none user he), outcomeOf, he]
      | some e =>
          rw [observe, run_result user he]
          rcases hc.run_settleRequest (WampSession.entryAt_call he)
            (.ok (.result value)) with ⟨hq, hrun⟩ | ⟨hq, hrun⟩ <;>
            simp [hrun, outcomeOf, he, hq]
  | subscribed r s =>
      cases he : c.session.subscribeRequests.find r with
      | none => simp [observe_of_run (run_subscribed_none user he), outcomeOf]
      | some e =>
          simp [observe_of_run (hc.run_subscribed user ha s he), outcomeOf]
  | unsubscribed r =>
      cases he : c.session.unsubscribeRequests.find r with
      | none => simp [observe_of_run (run_unsubscribed_none user he), outcomeOf]
      | some e =>
          simp [observe_of_run (hc.run_unsubscribed user ha he), outcomeOf]
  | event s content =>
      by_cases hv : c.session.subscriptionHandlers.values s = []
      · simp [observe_of_run (run_event_nil user hv), outcomeOf]
      cases content with
      | none => simp [observe_of_run (run_event_none user hv), outcomeOf]
      | some e => simp [observe_of_run (run_event user s e c), outcomeOf]
  | registered r g =>
      cases he : c.session.registerRequests.find r with
      | none => simp [observe_of_run (run_registered_none user he), outcomeOf, he]
      | some e =>
          rcases hc.run_registered_cases user g he with ⟨hq, hrun⟩ | ⟨hq, hrun⟩ <;>
            simp [observe_of_run hrun, outcomeOf, he, hq]
  | invocation g i details arguments kwArguments =>
      cases hp : c.session.procedures.find g with
      | none => simp [observe_of_run (run_invocation_none user hp), outcomeOf]
      | some p => simp [observe_of_run (run_invocation user hp), outcomeOf]

/-- The first WELCOME of a session is handled properly. -/
theorem definedOn_welcome :
    (Client.new fun _ => .complete).DefinedOn (fun _ => {})
      (MessageType.WELCOME.object [.positiveInteger 7]) :=
  (Client.Reachable.definedOn_iff (Client.reachable_runs _ []) rfl _ _).mpr
    (by simp [Client.Sound, MessageType.object, read_of_code, readFields,
      readWelcome, Client.new, Except.mapError])

/-- A WELCOME of one element is read past its end. -/
theorem not_definedOn_short_welcome :
    ¬ (Client.new fun _ => .complete).DefinedOn (fun _ => {})
      (MessageType.WELCOME.object []) := by
  rintro (h | ⟨what, h⟩) <;> cases h

end

end Autobahn
