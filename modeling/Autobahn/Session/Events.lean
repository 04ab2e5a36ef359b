import Autobahn.Session.Refusal

/-!
# Subscriptions and events

The handlers of a subscription id are the history of the SUBSCRIBED messages
that carried it (`values_runs`), and an EVENT runs exactly these
(`event_callbacks`). UNSUBSCRIBED takes nothing out of that history;
`unsubscribe_effective_iff` says what is left of it as a promise.
-/

namespace Autobahn

open Foundation MsgPack Relation

/-! ## The history of a subscription id -/

/-- The task of this request ran while joined, and nothing has answered it. -/
def Request.waits (q : Request) : Bool :=
  q.entered && decide (¬ q.promise.resolved)

/-- The handlers passed to the subscribe operations that wait under the
request id `r`. -/
def Client.subscribers (c : Client) (r : UInt64) : List WampEventHandler :=
  c.requests.filterMap fun q =>
    match q.operation with
    | .subscribe _ handler =>
        if q.requestId = r ∧ q.waits then some handler else none
    | _ => none

/-- The handlers whose operations this input answers with a SUBSCRIBED that
carries `s`. -/
def Client.answeredBy (c : Client) (s : UInt64) :
    Input → List WampEventHandler
  | .message obj _ =>
      match Incoming.read obj with
      | .subscribed r s' =>
          if c.alive ∧ s' = s then c.subscribers r else []
      | _ => []
  | _ => []

/-- The same along a run, in the order of the SUBSCRIBED messages. -/
def Client.answered (s : UInt64) : Client → List Input → List WampEventHandler
  | _, [] => []
  | c, i :: is => c.answeredBy s i ++ Client.answered s (c.step i) is

theorem Client.answered_append (s : UInt64) (c : Client) (is js : List Input) :
    Client.answered s c (is ++ js) =
      Client.answered s c is ++ Client.answered s (c.runs is) js := by
  induction is generalizing c with
  | nil => rfl
  | cons i is ih =>
      rw [List.cons_append, Client.answered, Client.answered, ih,
        List.append_assoc]
      rfl

theorem Client.answered_singleton (s : UInt64) (c : Client) (i : Input) :
    Client.answered s c [i] = c.answeredBy s i := by
  rw [Client.answered, Client.answered, List.append_nil]

section

variable {c d : Client}

theorem Request.waits_iff (q : Request) :
    q.waits = true ↔ q.entered = true ∧ ¬ q.promise.resolved := by
  simp [Request.waits]

/-- A subscribe operation that waits under `r` is the one in the table. -/
theorem Client.Coherent.waiting_subscribe (hc : c.Coherent) {i : Nat}
    {q : Request} (hq : c.requests[i]? = some q) (hw : q.waits = true)
    {topic : Octets} {handler : WampEventHandler}
    (hop : q.operation = .subscribe topic handler) :
    ∃ e, c.session.subscribeRequests.find q.requestId = some e ∧
      e.response = i ∧ e.handler = handler := by
  obtain ⟨hentered, hp⟩ := q.waits_iff.mp hw
  obtain ⟨entry, hm⟩ := hc.made q (List.mem_of_getElem? hq)
  have hentry : entry = .subscribe handler := by
    have hsub := hm.submits
    generalize q.buffer = buffer at hsub
    rw [hop] at hsub
    cases hsub
    rfl
  subst hentry
  obtain ⟨entry', h⟩ := hc.tracked hq hentered hp
  rw [hm.kind] at h
  simp only [Entry.kind, WampSession.entryAt, Option.map_eq_some_iff,
    Prod.mk.injEq] at h
  obtain ⟨e, he, hresp, -⟩ := h
  refine ⟨e, he, hresp, ?_⟩
  obtain ⟨q', hq', hm', -, -⟩ := hc.entries (WampSession.entryAt_subscribe he)
  rw [hresp, hq] at hq'
  obtain rfl := Option.some.inj hq'
  obtain ⟨topic', hop'⟩ := hm'.submits.eq_subscribe
  rw [hop] at hop'
  exact (Operation.subscribe.inj hop').2.symm

/-- The table of subscribe requests knows who waits. -/
theorem Client.Coherent.subscribers_eq (hc : c.Coherent) (ha : c.alive = true)
    (r : UInt64) :
    c.subscribers r = ((c.session.subscribeRequests.find r).map
      WampSubscribeRequest.handler).toList := by
  cases he : c.session.subscribeRequests.find r with
  | none =>
      apply filterMap_eq_nil
      intro i q hq
      split
      · next topic handler hop =>
        split
        · next hcond =>
          obtain ⟨hr, hw⟩ := hcond
          obtain ⟨e, he', -⟩ := hc.waiting_subscribe hq hw hop
          rw [hr, he] at he'
          cases he'
        · rfl
      · rfl
  | some e =>
      have hentry := WampSession.entryAt_subscribe he
      obtain ⟨q, hq, hm, hr, hentered⟩ := hc.entries hentry
      obtain ⟨q', hq', hp⟩ := hc.waiting ha hentry (.inl rfl)
      rw [hq] at hq'
      obtain rfl := Option.some.inj hq'
      obtain ⟨topic, hop⟩ := hm.submits.eq_subscribe
      refine filterMap_eq_singleton hq ?_ fun i q' hi hq' => ?_
      · simp [hop, hr, q.waits_iff.mpr ⟨hentered, hp⟩]
      · split
        · next topic' handler' hop' =>
          split
          · next hcond =>
            obtain ⟨hr', hw'⟩ := hcond
            obtain ⟨e', he', hresp, -⟩ := hc.waiting_subscribe hq' hw' hop'
            rw [hr', he] at he'
            obtain rfl := Option.some.inj he'
            exact absurd hresp.symm hi
          · rfl
        · rfl

/-- A move that answers nothing leaves handlers and procedures alone. -/
theorem Quiet.routing (h : Quiet c d) :
    d.session.subscriptionHandlers = c.session.subscriptionHandlers ∧
    d.session.procedures = c.session.procedures := by
  cases h
  case act h => exact ⟨h.routing.1, h.routing.2.1⟩
  case goodbye =>
    unfold Client.left
    dsimp only
    split
    · exact ⟨rfl, rfl⟩
    · exact ⟨WampSession.send_subscriptionHandlers _ _,
        WampSession.send_procedures _ _⟩
  all_goals exact ⟨rfl, rfl⟩

theorem Quiets.routing (h : Quiets c d) :
    d.session.subscriptionHandlers = c.session.subscriptionHandlers ∧
    d.session.procedures = c.session.procedures := by
  induction h with
  | refl => exact ⟨rfl, rfl⟩
  | tail _ h ih => exact ⟨h.routing.1.trans ih.1, h.routing.2.trans ih.2⟩

/-- Only SUBSCRIBED touches the handlers. -/
theorem Answer.handlers {i : Incoming} (h : Answer i c d)
    (hi : ∀ r s, i ≠ .subscribed r s) :
    d.session.subscriptionHandlers = c.session.subscriptionHandlers := by
  cases h
  case subscribed r s e he hq => exact absurd rfl (hi r s)
  case subscribedTwice r s e he hq => exact absurd rfl (hi r s)
  all_goals rfl

theorem Client.answeredBy_of_ne {i : Input} (s : UInt64)
    (h : ∀ obj user r s, i = .message obj user → Incoming.read obj ≠ .subscribed r s) :
    c.answeredBy s i = [] := by
  cases i <;> try rfl
  case message obj user =>
    simp only [Client.answeredBy]
    split
    · next r s' hread => exact absurd hread (h obj user r s' rfl)
    · rfl

/-- One step adds to the values of `s` the handlers it answers. -/
theorem Client.Reachable.values_step (h : c.Reachable) (s : UInt64)
    (i : Input) :
    (c.step i).session.subscriptionHandlers.values s =
      c.session.subscriptionHandlers.values s ++ c.answeredBy s i := by
  have hc := h.coherent
  by_cases hi : ∃ obj user r s', i = .message obj user ∧
      Incoming.read obj = .subscribed r s'
  · obtain ⟨obj, user, r, s', rfl, hread⟩ := hi
    rw [Client.step_message, hread]
    simp only [Client.answeredBy, hread]
    by_cases ha : c.alive = true
    case neg => simp [ha]
    rw [if_pos ha, hc.subscribers_eq ha]
    cases he : c.session.subscribeRequests.find r with
    | none => simp [run_subscribed_none user he]
    | some e =>
        rw [hc.run_subscribed user ha s' he]
        show (c.session.subscriptionHandlers.insert s' e.handler).values s = _
        rw [Multimap.values_insert]
        by_cases hs : s = s'
        · subst hs
          simp [ha]
        · have hs' : ¬ s' = s := fun h => hs h.symm
          simp [hs, hs']
  · simp only [not_exists, not_and] at hi
    rw [Client.answeredBy_of_ne s hi, List.append_nil]
    rcases c.step_cases i with hq | ⟨obj, user, hm, -, hans⟩ | ⟨-, -, hd⟩
    · rw [hq.routing.1]
    · rw [hans.handlers fun r s' => hi obj user r s' hm]
    · rw [hd]
      rfl

/-- **The handlers of a subscription id are its history.** -/
theorem Client.values_runs (plan : Nat → WriteResult) (is : List Input)
    (s : UInt64) :
    ((Client.new plan).runs is).session.subscriptionHandlers.values s =
      Client.answered s (Client.new plan) is := by
  induction is using List.reverseRecOn with
  | nil => rfl
  | append_singleton is i ih =>
      rw [Client.runs, Machine.run_snoc,
        (Client.reachable_runs plan is).values_step s i, ih,
        Client.answered_append, Client.answered_singleton]

/-! ## Processing an EVENT -/

/-- `[EVENT, s, p, details(, args(, kwargs))]` -/
def eventMessage (s p : UInt64) (details : List (Object × Object))
    (tail : Tail) : Object :=
  MessageType.EVENT.object (.positiveInteger s :: .positiveInteger p ::
    .map details :: tail.objects)

def Tail.event (t : Tail) : WampEvent where
  arguments := t.arguments
  kwArguments := t.kwArguments

theorem read_eventMessage (s p : UInt64) (details : List (Object × Object))
    (tail : Tail) :
    Incoming.read (eventMessage s p details tail) =
      .event s (some tail.event) := by
  have hlen := tail.length_objects_le
  rw [eventMessage, MessageType.object, read_of_code, readFields, readEvent,
    if_neg (by simp only [List.length_cons]; omega), readEventFields,
    readEventBody, readPayload_objects]
  rfl

/-- The handlers a walk calls, the `k`-th call of user code first: it goes on
behind a handler that returns. -/
def handlersCalled (user : UserCode) :
    Nat → List WampEventHandler → List WampEventHandler
  | _, [] => []
  | k, h :: hs =>
      h :: if (user k).ending = .returns then handlersCalled user (k + 1) hs
        else []

theorem handlersCalled_isPrefix (user : UserCode) :
    ∀ (k : Nat) (hs : List WampEventHandler), handlersCalled user k hs <+: hs
  | _, [] => List.prefix_refl _
  | k, h :: hs => by
      rw [handlersCalled, List.prefix_cons_inj]
      split
      · exact handlersCalled_isPrefix user (k + 1) hs
      · exact List.nil_prefix

/-- The walk reaches the end exactly when no handler but the last throws. -/
theorem handlersCalled_eq_self (user : UserCode) :
    ∀ (k : Nat) (hs : List WampEventHandler), handlersCalled user k hs = hs ↔
      ∀ j, j + 1 < hs.length → (user (k + j)).ending = .returns
  | _, [] => by simp [handlersCalled]
  | k, [h] => by simp [handlersCalled]
  | k, h :: h' :: hs => by
      have ih := handlersCalled_eq_self user (k + 1) (h' :: hs)
      rw [handlersCalled, List.cons.injEq]
      constructor
      · rintro ⟨-, heq⟩ j hj
        by_cases hret : (user k).ending = .returns
        · rw [if_pos hret, ih] at heq
          cases j with
          | zero => exact hret
          | succ j =>
              rw [← heq j (by simpa using hj)]
              congr 2
              omega
        · rw [if_neg hret] at heq
          cases heq
      · intro hall
        have hret : (user k).ending = .returns := hall 0 (by simp)
        rw [if_pos hret, ih]
        refine ⟨rfl, fun j hj => ?_⟩
        rw [← hall (j + 1) (by simpa using hj)]
        congr 2
        omega

/-- The walk calls handlers in order, and stops at the first that throws. -/
theorem callHandlers_callbacks (user : UserCode) (e : WampEvent)
    (hs : List WampEventHandler) :
    ∀ (k : Nat) (c : Client),
      ((callHandlers user e k hs).run c).2.callbacks =
        c.callbacks ++ (handlersCalled user k hs).map (fun h => .event h e) := by
  induction hs with
  | nil => exact fun k c => by simp [callHandlers, handlersCalled]
  | cons h hs ih =>
      intro k c
      have hacts := (user k).after_acts (c.callBack (.event h e))
      have hrun := run_script (user k) (c.callBack (.event h e))
      generalize (user k).after (c.callBack (.event h e)) = d at hacts hrun
      have hd : d.callbacks = c.callbacks ++ [.event h e] := hacts.routing.2.2.1
      have hfirst : (callHandler h e (user k)).run c =
          (user k).run.run (c.callBack (.event h e)) := by
        simp [callHandler, Client.callBack, Exec.run_bind]
      rw [hrun] at hfirst
      cases hend : (user k).ending with
      | returns =>
          rw [hend] at hfirst
          rw [callHandlers, Exec.run_bind_ok hfirst, ih (k + 1) d, hd]
          simp [handlersCalled, hend]
      | throwsStd what =>
          rw [hend] at hfirst
          rw [callHandlers, Exec.run_bind_error hfirst, hd]
          simp [handlersCalled, hend]
      | throwsOther =>
          rw [hend] at hfirst
          rw [callHandlers, Exec.run_bind_error hfirst, hd]
          simp [handlersCalled, hend]

theorem callHandlers_callbacks_of_returns {user : UserCode}
    (hret : ∀ k, (user k).ending = .returns) (e : WampEvent)
    (hs : List WampEventHandler) (c : Client) :
    ((callHandlers user e 0 hs).run c).2.callbacks =
      c.callbacks ++ hs.map (fun h => .event h e) := by
  rw [callHandlers_callbacks,
    (handlersCalled_eq_self user 0 hs).mpr fun j _ => hret (0 + j)]

theorem run_eventMessage (c : Client) (s p : UInt64)
    (details : List (Object × Object)) (tail : Tail) (user : UserCode) :
    (gotMessage user (eventMessage s p details tail)).run c =
      (.ok (), ((callHandlers user tail.event 0
        (c.session.subscriptionHandlers.values s)).run c).2) := by
  have hobs := gotMessage_observe user c (eventMessage s p details tail)
  rw [read_eventMessage, observe, observe, run_event] at hobs
  obtain ⟨hout, hstate⟩ := Prod.mk.inj hobs
  refine Prod.ext ?_ hstate
  rcases hr : ((gotMessage user (eventMessage s p details tail)).run c).1 with a | a
  · rw [hr] at hout
    rcases a with (_ | _ | _ | _ | _ | _ | _ | _) | _ <;> cases hout
  · rfl

theorem Client.step_event (ha : c.alive = true) (s p : UInt64)
    (details : List (Object × Object)) (tail : Tail) (user : UserCode) :
    c.step (.message (eventMessage s p details tail) user) =
      ((callHandlers user tail.event 0
        (c.session.subscriptionHandlers.values s)).run c).2 := by
  rw [Client.step_message, if_pos ha, read_eventMessage, run_event]

end

/-- **An EVENT runs the history of its subscription id.** In any run, the
handlers called for a well-formed EVENT that carries `s` are those whose
subscribe operations were answered by the SUBSCRIBED messages that carried
`s`, in the order of these, each with the arguments of the EVENT. -/
theorem Client.event_callbacks (plan : Nat → WriteResult) (is : List Input)
    (s p : UInt64) (details : List (Object × Object)) (tail : Tail)
    (user : UserCode) (ha : ((Client.new plan).runs is).alive = true)
    (hret : ∀ k, (user k).ending = .returns) :
    ((Client.new plan).runs
      (is ++ [.message (eventMessage s p details tail) user])).callbacks =
      ((Client.new plan).runs is).callbacks ++
        (Client.answered s (Client.new plan) is).map fun h =>
          .event h { arguments := tail.arguments
                     kwArguments := tail.kwArguments } := by
  rw [Client.runs, Machine.run_snoc, Client.step_event ha,
    callHandlers_callbacks_of_returns hret, Client.values_runs]
  rfl

/-- Two handlers share the id 5: an EVENT right behind the second SUBSCRIBED
runs both, in the order of the SUBSCRIBED messages. -/
theorem event_runs_two_handlers :
    let is : List Input :=
      [.message (MessageType.WELCOME.object [.positiveInteger 7]) fun _ => {},
        .operate (.subscribe (octets "com.t") ⟨0⟩),
        .operate (.subscribe (octets "com.t") ⟨1⟩), .task 0, .task 0,
        .message (MessageType.SUBSCRIBED.object
          [.positiveInteger 2, .positiveInteger 5]) fun _ => {},
        .message (MessageType.SUBSCRIBED.object
          [.positiveInteger 1, .positiveInteger 5]) fun _ => {}]
    ((Client.new fun _ => .complete).runs (is ++
      [.message (eventMessage 5 9 [] (.list [.nil])) fun _ => {}])).callbacks =
      [.event ⟨1⟩ { arguments := .array [.nil] },
        .event ⟨0⟩ { arguments := .array [.nil] }] :=
  Client.event_callbacks _ _ _ _ _ _ _ rfl fun _ => rfl

/-! ## Handlers that throw -/

/-- The same calls of user code, each of which returns. -/
def UserCode.returning (user : UserCode) : UserCode :=
  fun k => { user k with ending := .returns }

/-- In the state `c`, an EVENT for `s` calls every handler installed for `s`
once, the same as if none of them threw, and its processing returns. -/
structure Client.HandlersIsolated (c : Client) (s p : UInt64)
    (details : List (Object × Object)) (tail : Tail) (user : UserCode) :
    Prop where
  processing_returns :
    ((gotMessage user (eventMessage s p details tail)).run c).1 = .ok ()
  each_called_once :
    ((gotMessage user (eventMessage s p details tail)).run c).2.callbacks =
      c.callbacks ++ (c.session.subscriptionHandlers.values s).map fun h =>
        .event h tail.event
  as_if_returning :
    ((gotMessage user (eventMessage s p details tail)).run c).2.callbacks =
      ((gotMessage user.returning (eventMessage s p details tail)).run
        c).2.callbacks

/-- **Exactly when handlers are isolated**: when no handler but the last one
throws. The `try` stands around the loop, so an exception ends the walk. -/
theorem Client.handlersIsolated_iff (c : Client) (s p : UInt64)
    (details : List (Object × Object)) (tail : Tail) (user : UserCode) :
    c.HandlersIsolated s p details tail user ↔
      ∀ k, k + 1 < (c.session.subscriptionHandlers.values s).length →
        (user k).ending = .returns := by
  have hcalled := handlersCalled_eq_self user 0
    (c.session.subscriptionHandlers.values s)
  simp only [Nat.zero_add] at hcalled
  have hcallbacks := callHandlers_callbacks user tail.event
    (c.session.subscriptionHandlers.values s) 0 c
  have hret : ∀ k, (user.returning k).ending = .returns := fun _ => rfl
  have hreturning := callHandlers_callbacks_of_returns hret tail.event
    (c.session.subscriptionHandlers.values s) c
  rw [← hcalled]
  constructor
  · intro h
    have hall := h.each_called_once
    rw [run_eventMessage, hcallbacks, List.append_cancel_left_eq] at hall
    exact List.map_injective_iff.mpr
      (fun _ _ heq => (Callback.event.inj heq).1) hall
  · intro h
    rw [h] at hcallbacks
    constructor
    · rw [run_eventMessage]
    · rw [run_eventMessage, hcallbacks]
    · rw [run_eventMessage, run_eventMessage, hcallbacks, hreturning]

/-- Two handlers are installed for 5 and the first one throws: the second one
is not called. -/
theorem not_handlersIsolated :
    let is : List Input :=
      [.message (MessageType.WELCOME.object [.positiveInteger 7]) fun _ => {},
        .operate (.subscribe (octets "com.t") ⟨0⟩),
        .operate (.subscribe (octets "com.t") ⟨1⟩), .task 0, .task 0,
        .message (MessageType.SUBSCRIBED.object
          [.positiveInteger 1, .positiveInteger 5]) fun _ => {},
        .message (MessageType.SUBSCRIBED.object
          [.positiveInteger 2, .positiveInteger 5]) fun _ => {}]
    ¬ ((Client.new fun _ => .complete).runs is).HandlersIsolated 5 9 [] .none
      fun _ => { ending := .throwsOther } := by
  intro is h
  have hcalls := congrArg List.length h.each_called_once
  rw [run_eventMessage, callHandlers_callbacks, List.length_append,
    List.length_append] at hcalls
  exact absurd hcalls (by decide)

/-! ## Unsubscribing -/

/-- The input is an UNSUBSCRIBED that answers an `unsubscribe(s)` still
waiting for it. -/
def Client.Confirms (c : Client) (s : UInt64) : Input → Prop
  | .message obj _ => c.alive = true ∧ ∃ q ∈ c.requests, q.waits = true ∧
      q.operation = .unsubscribe s ∧
      Incoming.read obj = .unsubscribed q.requestId
  | _ => False

/-- A well-formed EVENT for `s` that came in now would run handlers of this
list only, in its order, each at most once. -/
def Client.EventsRunOnly (c : Client) (s : UInt64)
    (hs : List WampEventHandler) : Prop :=
  ∀ p details tail user, ∃ t, t <+: hs ∧
    (c.step (.message (eventMessage s p details tail) user)).callbacks =
      c.callbacks ++ t.map fun h => .event h
        { arguments := tail.arguments, kwArguments := tail.kwArguments }

/-- What unsubscribing promises along a run: from each UNSUBSCRIBED for `s`
on, an EVENT for `s` runs only handlers of later SUBSCRIBED messages, and the
other subscription ids keep their handlers. -/
def Client.UnsubscribeEffective (c : Client) (is : List Input) : Prop :=
  ∀ pre u post s, pre ++ u :: post <+: is → (c.runs pre).Confirms s u →
    (c.runs (pre ++ u :: post)).EventsRunOnly s
      (Client.answered s (c.runs (pre ++ [u])) post) ∧
    ∀ s' ≠ s, (c.runs (pre ++ [u])).session.subscriptionHandlers.values s' =
      (c.runs pre).session.subscriptionHandlers.values s'

section

variable {c : Client}

theorem Client.Confirms.values {s : UInt64} {u : Input}
    (hu : c.Confirms s u) (h : c.Reachable) (s' : UInt64) :
    (c.step u).session.subscriptionHandlers.values s' =
      c.session.subscriptionHandlers.values s' := by
  rw [h.values_step, Client.answeredBy_of_ne, List.append_nil]
  cases u <;> try exact hu.elim
  case message obj user =>
    obtain ⟨-, q, -, -, -, hread⟩ := hu
    rintro obj' user' r s'' ⟨⟩
    rw [hread]
    simp

theorem Client.Confirms.alive {s : UInt64} {u : Input}
    (hu : c.Confirms s u) (h : c.Reachable) : (c.step u).alive = true := by
  cases u <;> try exact hu.elim
  case message obj user =>
    obtain ⟨ha, q, -, -, -, hread⟩ := hu
    rw [Client.step_message, if_pos ha, hread]
    cases he : c.session.unsubscribeRequests.find q.requestId with
    | none => rw [run_unsubscribed_none user he, ha]
    | some e =>
        rw [h.coherent.run_unsubscribed user ha he]
        exact ha

/-- An EVENT runs the first handler of its id, whatever the others do. -/
theorem Client.EventsRunOnly.values_eq_nil {s : UInt64}
    (h : c.EventsRunOnly s []) (ha : c.alive = true) :
    c.session.subscriptionHandlers.values s = [] := by
  obtain ⟨t, ht, hcb⟩ := h 0 [] .none fun _ => {}
  obtain rfl := List.prefix_nil.mp ht
  rw [Client.step_event ha, callHandlers_callbacks_of_returns fun _ => rfl] at hcb
  simpa using hcb

theorem Client.eventsRunOnly_values (c : Client) (s : UInt64) :
    c.EventsRunOnly s (c.session.subscriptionHandlers.values s) := by
  intro p details tail user
  by_cases ha : c.alive = true
  · refine ⟨_, handlersCalled_isPrefix user 0
      (c.session.subscriptionHandlers.values s), ?_⟩
    rw [Client.step_event ha, callHandlers_callbacks]
    rfl
  · refine ⟨[], List.nil_prefix, ?_⟩
    rw [Client.step_message, if_neg ha]
    simp

end

/-- The values of `s` at the end of a run, seen from the middle of it. -/
theorem Client.values_from (plan : Nat → WriteResult) (pre post : List Input)
    (s : UInt64) :
    ((Client.new plan).runs (pre ++ post)).session.subscriptionHandlers.values s =
      ((Client.new plan).runs pre).session.subscriptionHandlers.values s ++
        Client.answered s ((Client.new plan).runs pre) post := by
  rw [Client.values_runs, Client.values_runs, Client.answered_append]

/-- **When unsubscribing is effective**: when no UNSUBSCRIBED of the run finds
a handler installed for its subscription id. The code removes none. -/
theorem Client.unsubscribe_effective_iff (plan : Nat → WriteResult)
    (is : List Input) :
    (Client.new plan).UnsubscribeEffective is ↔
      Machine.EachStep Client.step (fun c u => ∀ s, c.Confirms s u →
        c.session.subscriptionHandlers.values s = []) (Client.new plan) is := by
  have hstep : ∀ pre u, (Client.new plan).runs (pre ++ [u]) =
      ((Client.new plan).runs pre).step u := fun pre u => Machine.run_snoc _ _ _ _
  constructor
  · intro h pre u hpre s hu
    have hr := Client.reachable_runs plan pre
    obtain ⟨honly, -⟩ := h pre u [] s hpre hu
    rw [hstep, Client.answered] at honly
    rw [← hu.values hr]
    exact honly.values_eq_nil (hu.alive hr)
  · intro h pre u post s hpre hu
    have hr := Client.reachable_runs plan pre
    have hsplit : pre ++ u :: post = (pre ++ [u]) ++ post := by simp
    have hnil : ((Client.new plan).runs (pre ++ [u])).session.subscriptionHandlers.values
        s = [] := by
      rw [hstep, hu.values hr]
      refine h pre u (List.IsPrefix.trans ?_ hpre) s hu
      rw [hsplit]
      exact List.prefix_append _ _
    constructor
    · have honly := ((Client.new plan).runs
        (pre ++ u :: post)).eventsRunOnly_values s
      rw [hsplit, Client.values_from, hnil, List.nil_append] at honly
      rw [hsplit]
      exact honly
    · intro s' hs'
      rw [hstep, hu.values hr]

/-- A subscription is confirmed, unsubscribed from, and still has its
handler: an EVENT for it would run it. -/
theorem not_unsubscribe_effective :
    let pre : List Input :=
      [.message (MessageType.WELCOME.object [.positiveInteger 7]) fun _ => {},
        .operate (.subscribe (octets "com.t") ⟨0⟩), .task 0,
        .message (MessageType.SUBSCRIBED.object
          [.positiveInteger 1, .positiveInteger 5]) fun _ => {},
        .operate (.unsubscribe 5), .task 0]
    ¬ (Client.new fun _ => .complete).UnsubscribeEffective (pre ++
      [.message (MessageType.UNSUBSCRIBED.object [.positiveInteger 2])
        fun _ => {}]) := by
  intro pre h
  obtain ⟨honly, -⟩ := h pre _ [] 5 (List.prefix_refl _)
    ⟨rfl, _, List.mem_cons_of_mem _ List.mem_cons_self, rfl, rfl, rfl⟩
  exact absurd (honly.values_eq_nil rfl) (by decide)

end Autobahn
