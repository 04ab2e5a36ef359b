import Autobahn.Session.Events
import Autobahn.Session.Outgoing
import Autobahn.Session.Provenance

/-!
# What runs an event handler

Only an EVENT runs event handlers (`Client.step_uneventful`), and only a
SUBSCRIBED installs one. A request whose task has run is settled by nothing but
its answer (`Client.Reachable.settles`), so a subscribe waits in its table until
a SUBSCRIBED for it comes (`Client.Reachable.wrote_subscribe`). What a broker
reads in a PUBLISH is what the session's `publish` packed
(`Client.Reachable.wrote_publish`).
-/

namespace Autobahn

open Foundation MsgPack Relation

/-! ## Handler calls -/

def Callback.event? : Callback → Option (WampEventHandler × WampEvent)
  | .event h e => some (h, e)
  | .invocation .. => none

/-- The event handlers called so far, in order, each with its event. -/
def Client.eventCalls (c : Client) : List (WampEventHandler × WampEvent) :=
  c.callbacks.filterMap Callback.event?

/-- No event handler is called. -/
def Client.Uneventful (c d : Client) : Prop := d.eventCalls = c.eventCalls

instance : Std.Refl Client.Uneventful := ⟨fun _ => rfl⟩

instance : IsTrans Client Client.Uneventful :=
  ⟨fun _ _ _ h h' => Eq.trans h' h⟩

section Uneventful

variable {c d : Client}

attribute [local simp] Exec.run_bind

theorem Acts.uneventful (h : Acts c d) : c.Uneventful d := by
  rw [Client.Uneventful, Client.eventCalls, h.routing.2.2.1]
  rfl

theorem Client.uneventful_invocation (c : Client) (p : WampProcedure) (h : Nat) :
    c.Uneventful (c.callBack (.invocation p h)) := by
  simp [Client.Uneventful, Client.eventCalls, Client.callBack, Callback.event?]

theorem settle_uneventful {α : Type} (p : Promise Exn α) (r : Except Exn α)
    (store : Promise Exn α → WampSession → WampSession) :
    Exec.Moves Client.Uneventful (settle p r store) :=
  settle_moves fun _ _ => rfl

theorem readOk_uneventful {α : Type} (x : Except Misread α) :
    Exec.Moves Client.Uneventful (readOk x) := by
  cases x with
  | ok a => exact .pure a
  | error m => exact .throw _

theorem Answer.uneventful {i : Incoming} (h : Answer i c d) : c.Uneventful d := by
  cases h <;> rfl

def Incoming.isEvent : Incoming → Bool
  | .event .. => true
  | _ => false

theorem handle_uneventful (user : UserCode) {i : Incoming}
    (hi : i.isEvent = false) (c : Client) :
    c.Uneventful ((i.handle user).run c).2 := by
  cases hr : i.isReply with
  | true =>
      rcases handle_reply user hr c with h | h
      · rw [h]
        exact refl_of Client.Uneventful c
      · exact h.uneventful
  | false =>
  cases i with
  | welcome sessionId =>
      have h : Exec.Moves Client.Uneventful
          ((Incoming.welcome sessionId).handle user) :=
        .bind (readOk_uneventful sessionId) fun _ =>
          .bind (.modify fun _ => rfl) fun _ =>
            .bind .get fun _ => settle_uneventful _ _ _
      exact h c
  | goodbye reason =>
      have h : Exec.Moves Client.Uneventful ((Incoming.goodbye reason).handle user) :=
        .bind (.modify fun _ => rfl) fun _ =>
          .bind (readOk_uneventful reason) fun _ =>
            .bind .get fun _ => settle_uneventful _ _ _
      exact h c
  | event s content => cases hi
  | invocation g i details arguments kwArguments =>
      cases hp : c.session.procedures.find g with
      | none => simpa [Incoming.handle, hp] using refl_of Client.Uneventful c
      | some p =>
          rw [run_invocation user hp]
          apply trans_of Client.Uneventful _ (callProcedure_acts p _ _ _).uneventful
          exact Client.uneventful_invocation _ _ _
  | _ => cases hr

/-- **Only an EVENT runs event handlers.** -/
theorem Client.step_uneventful (c : Client) {i : Input}
    (hi : ∀ obj user, i = .message obj user →
      (Incoming.read obj).isEvent = false) : c.Uneventful (c.step i) := by
  by_cases hd : i = .destroy
  · subst hd
    unfold Client.step
    split <;> rfl
  cases hm : i.isMessage with
  | false =>
      unfold Client.step
      split
      · rfl
      · exact program_moves (R := Client.Uneventful) Acts.uneventful
          (fun _ => rfl) (fun _ _ => rfl)
          (fun accepted c => settle_uneventful c.session.handshake _ _ c) hm hd c
  | true =>
      cases i <;> simp only [Input.isMessage, Bool.false_eq_true] at hm
      case message obj user =>
        rw [Client.step_message]
        split
        · exact handle_uneventful user (hi obj user rfl) c
        · rfl

/-- An EVENT calls the handlers installed for its subscription, up to the first
that throws. -/
theorem Client.eventCalls_step_event (ha : c.alive = true) (s p : UInt64)
    (details : List (Object × Object)) (tail : Tail) (user : UserCode) :
    (c.step (.message (eventMessage s p details tail) user)).eventCalls =
      c.eventCalls ++ (handlersCalled user 0
        (c.session.subscriptionHandlers.values s)).map fun h => (h, tail.event) := by
  rw [Client.step_event ha, Client.eventCalls, callHandlers_callbacks,
    List.filterMap_append, Client.eventCalls]
  congr 1
  rw [List.filterMap_map]
  exact congrFun List.filterMap_eq_map _

end Uneventful

/-! ## A request waits for its answer -/

/-- What settles a request of this kind whose frame has gone out. -/
inductive RequestKind.Answers : RequestKind → Except Exn Reply → Prop
  | result (value : WampCallResult) : Answers .call (.ok (.result value))
  | error (text : Octets) : Answers .call (.error (.runtimeError text))
  | subscription (s : UInt64) : Answers .subscribe (.ok (.subscription s))
  | unsubscribed : Answers .unsubscribe (.ok .unsubscribed)
  | registration (g : UInt64) : Answers .register (.ok (.registration g))

/-- A request whose task has run is settled by nothing but its answer, as long
as the session is there. -/
def Client.Settles (c : Client) : Prop :=
  c.alive = true → ∀ (ref : Nat) (q : Request) (o : Except Exn Reply),
    c.requests[ref]? = some q → q.entered = true → q.promise.outcome = some o →
    q.kind.Answers o

section Settles

variable {c d : Client}

/-- Each of the requests is as it was, or has been answered. -/
theorem Client.Settles.congr (hc : c.Settles) (halive : d.alive = c.alive)
    (hreq : ∀ {ref : Nat} {q' : Request} {o : Except Exn Reply},
      d.requests[ref]? = some q' → q'.entered = true →
      q'.promise.outcome = some o →
      q'.kind.Answers o ∨ c.requests[ref]? = some q') : d.Settles := by
  intro ha ref q' o hq' he ho
  rcases hreq hq' he ho with h | hq
  · exact h
  · exact hc (halive ▸ ha) ref q' o hq he ho

theorem Client.Settles.same (hc : c.Settles) (halive : d.alive = c.alive)
    (hreq : d.requests = c.requests) : d.Settles :=
  hc.congr halive fun hq' _ _ => .inr (hreq ▸ hq')

/-- One request is answered. -/
theorem Client.Settles.settled (hs : c.Settles) (hc : c.Coherent)
    {k : RequestKind} {r : UInt64} {ref : Nat} {entry : Entry}
    (he : c.session.entryAt k r = some (ref, entry)) {o : Except Exn Reply}
    (ho : k.Answers o) (halive : d.alive = c.alive)
    (hreq : d.requests = (c.settled ref o).requests) : d.Settles := by
  refine hs.congr halive fun {i q' o'} hq' _ ho' => ?_
  rw [hreq, Client.settled, Client.getElem?_modifyRequest] at hq'
  split at hq'
  · next heq =>
    subst heq
    obtain ⟨q, hq, hm, -, -⟩ := hc.entries he
    rw [hq, Option.map_some] at hq'
    obtain rfl := Option.some.inj hq'
    obtain rfl := Option.some.inj ho'
    exact .inl (((WampSession.entryAt_kind he).symm.trans hm.kind.symm) ▸ ho)
  · exact .inr hq'

/-- The task of a request runs: while ids are fresh its key is free, and the
promise goes on waiting. -/
theorem Client.Settles.enter (hs : c.Settles) (hc : c.Coherent)
    (hf : c.Fresh) {n ref : Nat} {r : UInt64} {entry : Entry} {buffer : Frame}
    (ht : c.tasks[n]? = some (.request ref r entry buffer)) :
    (((c.dequeue n).enter ref r entry).sent buffer).Settles := by
  have hmem := List.mem_of_getElem? ht
  have hfree := Client.Fresh.free hc hf hmem
  obtain ⟨q, hq, -, -, -, -, hp⟩ := hc.queued hmem
  refine hs.congr rfl fun {i q' o} hq' _ ho => ?_
  have hgot : ((c.dequeue n).enter ref r entry).requests[i]? = some q' := hq'
  rw [Client.getElem?_enter] at hgot
  split at hgot
  · next heq =>
    subst heq
    have hpending : (c.dequeue n).session.pending entry.kind r = none := by
      rw [WampSession.pending_eq]
      show (c.session.entryAt entry.kind r).map Prod.fst = none
      rw [hfree]
      rfl
    have hq₀ : (c.dequeue n).requests[ref]? = some q := hq
    rw [hq₀, Option.map_some, hpending] at hgot
    obtain rfl := Option.some.inj hgot
    exact absurd (Promise.resolved_of_outcome ho) hp
  · exact .inr hgot

theorem Client.Settles.act (hs : c.Settles) (hc : c.Coherent) (hf : c.Fresh)
    (h : Act c d) : d.Settles := by
  cases h with
  | @submit op entry buffer h =>
      refine hs.congr rfl fun {i q' o} hq' he' _ => .inr ?_
      rw [show (c.submit op entry buffer).requests = c.requests ++
        [newRequestOf op entry (c.session.requestId + 1) buffer] from rfl,
        List.getElem?_append] at hq'
      split at hq'
      · exact hq'
      · obtain rfl := List.mem_singleton.mp (List.mem_of_getElem? hq')
        cases he'
  | @abandon n ref r entry buffer h hj =>
      -- the request has not been entered, so it does not count
      obtain ⟨q, hq, -, -, -, he, -⟩ := hc.queued (List.mem_of_getElem? h)
      refine hs.congr rfl fun {i q' o} hq' he' _ => .inr ?_
      rw [Client.getElem?_modifyRequest] at hq'
      split at hq'
      · next heq =>
        subst heq
        rw [show (c.dequeue n).requests[ref]? = some q from hq,
          Option.map_some] at hq'
        obtain rfl := Option.some.inj hq'
        exact absurd (he.symm.trans he') (by decide)
      · exact hq'
  | entered h ha hj => exact hs.enter hc hf h
  | answer hv hs' hb =>
      unfold Client.answer
      split <;> exact hs.same rfl rfl
  | _ => exact hs.same rfl rfl

theorem Client.Settles.move (hs : c.Settles) (hc : c.Coherent) (hf : c.Fresh)
    (h : Move c d) : d.Settles := by
  cases h with
  | quiet h =>
      cases h with
      | act h => exact hs.act hc hf h
      | _ => exact hs.same rfl rfl
  | answer h =>
      cases h with
      | failed he hq =>
          exact hs.settled hc (WampSession.entryAt_call he) (.error _) rfl rfl
      | resulted he hq =>
          exact hs.settled hc (WampSession.entryAt_call he) (.result _) rfl rfl
      | subscribed he hq =>
          exact hs.settled hc (WampSession.entryAt_subscribe he) (.subscription _)
            rfl rfl
      | unsubscribed he hq =>
          exact hs.settled hc (WampSession.entryAt_unsubscribe he) .unsubscribed
            rfl rfl
      | registered he hq =>
          exact hs.settled hc (WampSession.entryAt_register he) (.registration _)
            rfl rfl
      | subscribedTwice he hq => exact hs.same rfl rfl
      | registeredTwice he hq => exact hs.same rfl rfl
  | destroy => exact fun ha => by cases ha

theorem Client.Reachable.settles (h : c.Reachable)
    (hlt : c.issued < UInt64.size) : c.Settles := by
  have hinv := h.invariant (I := fun c => c.Coherent ∧
    (c.issued < UInt64.size → c.Fresh ∧ c.Settles)) ?_ ?_
  · exact (hinv.2 hlt).2
  · intro plan
    exact ⟨Client.coherent_new plan, fun _ => ⟨Client.fresh_new plan,
      fun _ ref q o hq => by simp [Client.new] at hq⟩⟩
  · rintro c d hmove ⟨hc, hinv⟩
    refine ⟨hc.move hmove, fun hlt => ?_⟩
    obtain ⟨hf, hs⟩ := hinv (Nat.lt_of_le_of_lt hmove.issued_le hlt)
    exact ⟨hf.move hc hlt hmove, hs.move hc hf hmove⟩

/-- Of the answers only a SUBSCRIBED brings a subscription. -/
theorem Answer.subscription (hc : c.Coherent) {i : Incoming} (h : Answer i c d)
    {ref : Nat} {q' : Request} {s : UInt64} (hq' : d.requests[ref]? = some q')
    (ho : q'.promise.outcome = some (.ok (.subscription s))) :
    (∃ q, c.requests[ref]? = some q ∧ q.Ages q' ∧
      q.promise.outcome = some (.ok (.subscription s))) ∨
    i = .subscribed q'.requestId s := by
  -- an answer that leaves the requests as `settled` does, by a value of its own
  have hother : ∀ {ref' : Nat} {o : Except Exn Reply},
      d.requests = (c.settled ref' o).requests → o ≠ .ok (.subscription s) →
      ∃ q, c.requests[ref]? = some q ∧ q.Ages q' ∧
        q.promise.outcome = some (.ok (.subscription s)) := by
    intro ref' o hreq hne
    rcases Client.settled_cases (hreq ▸ hq') ho with hold | ⟨-, heq⟩
    · exact hold
    · exact absurd heq hne
  cases h with
  | failed he hq => exact .inl (hother rfl (by simp))
  | resulted he hq => exact .inl (hother rfl (by simp))
  | unsubscribed he hq => exact .inl (hother rfl (by simp))
  | registered he hq => exact .inl (hother rfl (by simp))
  | subscribedTwice he hq => exact .inl ⟨q', hq', .refl q', ho⟩
  | registeredTwice he hq => exact .inl ⟨q', hq', .refl q', ho⟩
  | @subscribed _ r s' e he hq =>
      have hget : ((c.installHandler s' e.handler).settled e.response
        (.ok (.subscription s'))).requests[ref]? = some q' := hq'
      rcases Client.settled_cases hget ho with hold | ⟨rfl, heq⟩
      · exact .inl hold
      · obtain rfl := Reply.subscription.inj (Except.ok.inj heq)
        obtain ⟨q, hq, -, hid, -⟩ := hc.entries (WampSession.entryAt_subscribe he)
        obtain ⟨q'', hq'', hages, -⟩ := (c.settled_grows e.response
          (.ok (.subscription s'))).requests hq
        obtain rfl := Option.some.inj (hq'.symm.trans hq'')
        exact .inr (by rw [hages.requestId, hid])

/-- **A subscription comes from a SUBSCRIBED under its request's id.** -/
theorem Client.step_subscription (hc : c.Coherent) {i : Input} {ref : Nat}
    {q' : Request} {s : UInt64} (hq' : (c.step i).requests[ref]? = some q')
    (ho : q'.promise.outcome = some (.ok (.subscription s))) :
    (∃ q, c.requests[ref]? = some q ∧ q.Ages q' ∧
      q.promise.outcome = some (.ok (.subscription s))) ∨
    ∃ obj user, i = .message obj user ∧
      Incoming.read obj = .subscribed q'.requestId s := by
  rcases c.step_cases i with h | ⟨obj, user, rfl, ha, h⟩ | ⟨rfl, -, h⟩
  · exact .inl (h.unfulfilled ref q' _ hq' ho)
  · exact (h.subscription hc hq' ho).imp_right fun hread => ⟨obj, user, rfl, hread⟩
  · rw [h] at hq'
    exact .inl (c.destroy_unfulfilled ref q' _ hq' ho)

end Settles

/-! ## What a broker reads -/

/-- The `n`-th write is the whole frame of this `publish`. -/
def Client.Published (c : Client) (n : Nat) (topic : Octets) (p : Payload) : Prop :=
  ∃ r buffer, publishFrame r topic p = .ok buffer ∧
    c.session.out.writes[n]? = some (buffer, .complete)

section Reads

variable {c d : Client}

theorem Client.Published.mono {n : Nat} {topic : Octets} {p : Payload}
    (h : c.Published n topic p) (hgrows : c.Grows d) : d.Published n topic p := by
  obtain ⟨r, buffer, hframe, hw⟩ := h
  exact ⟨r, buffer, hframe, getElem?_of_isPrefix hgrows.writes hw⟩

/-- A packed payload as the tail of a message. -/
theorem Payload.exists_tail {p : Payload} {os : List Object}
    (h : p.objects = .ok os) :
    ∃ tail : Tail, os = tail.objects ∧ p.Carries tail.arguments tail.kwArguments := by
  rcases p with _ | ⟨a | a⟩ | ⟨a | a, kw | kw⟩ <;> cases h
  · exact ⟨.none, rfl, .none⟩
  · exact ⟨.list a, rfl, .list a⟩
  · exact ⟨.listMap a kw, rfl, .listMap a kw⟩

/-- **A PUBLISH is the one its `publish` packed.** -/
theorem Client.Reachable.wrote_publish (h : c.Reachable) {n : Nat} {r : UInt64}
    {options : Object} {topic : Octets} {rest : List Object}
    (hr : c.reads n = some (MessageType.PUBLISH.object
      (.positiveInteger r :: options :: .str topic :: rest))) :
    ∃ p, c.Published n topic p ∧ p.objects = .ok rest := by
  obtain ⟨buffer, hw, hd⟩ := Client.reads_eq_some.mp hr
  obtain ⟨o, ho⟩ := h.writes_outgoing _ (List.mem_of_getElem? hw)
  obtain ⟨fields, hm, rfl⟩ := Outgoing.exists_message ho
  obtain ⟨supplied, hsupplied, rfl⟩ := exists_of_map_eq_ok hm
  rw [decode_pack] at hd
  cases o with
  | publish r' topic' payload =>
      simp only [Outgoing.fields, List.cons_append, List.nil_append,
        Option.some.injEq, List.cons.injEq, Object.str.injEq] at hd
      obtain ⟨-, -, -, rfl, rfl⟩ := hd
      exact ⟨payload, ⟨r', _, ho, hw⟩, hsupplied⟩
  | _ => simp [Outgoing.fields, Outgoing.hello, Outgoing.goodbye, MessageType.code] at hd

theorem Operation.Submits.of_subscribe {op : Operation} {r r' : UInt64}
    {entry : Entry} {buffer : Frame} {options : Object} {topic : Octets}
    {rest : List Object} (h : op.Submits r entry buffer)
    (hd : decode buffer = some (.positiveInteger MessageType.SUBSCRIBE.code ::
      .positiveInteger r' :: options :: .str topic :: rest)) :
    r' = r ∧ ∃ handler, op = .subscribe topic handler ∧
      entry = .subscribe handler := by
  cases h with
  | subscribe _ topic' handler =>
      rw [subscribeFrame_eq_pack, decode_pack] at hd
      simp only [Option.some.injEq, List.cons.injEq,
        Object.positiveInteger.injEq, Object.str.injEq, true_and] at hd
      obtain ⟨rfl, -, rfl, -⟩ := hd
      exact ⟨rfl, handler, rfl, rfl⟩
  | unsubscribe _ subscription =>
      rw [unsubscribeFrame_eq_pack, decode_pack] at hd
      simp [MessageType.code] at hd
  | provide _ name procedure options =>
      rw [registerFrame_eq_pack, decode_pack] at hd
      simp [MessageType.code] at hd
  | call _ procedure payload _ h =>
      rw [callFrame_eq_pack] at h
      obtain ⟨os, hos, rfl⟩ := exists_of_map_eq_ok h
      rw [decode_pack] at hd
      simp [MessageType.code] at hd

/-- The request that a written SUBSCRIBE was made for. -/
theorem Client.Reachable.subscribe_made (h : c.Reachable) {n : Nat}
    {buffer : Frame} {w : WriteResult} {r : UInt64} {rest : List Object}
    (hw : c.session.out.writes[n]? = some (buffer, w))
    (hd : decode buffer = some (.positiveInteger MessageType.SUBSCRIBE.code ::
      .positiveInteger r :: rest)) :
    ∃ (ref : Nat) (q : Request) (entry : Entry), c.requests[ref]? = some q ∧
      q.entered = true ∧ q.Made entry ∧ q.buffer = buffer := by
  have htype := messageTypeOf_of_decode hd
  cases h.source _ (List.mem_of_getElem? hw) with
  | plain hplain =>
      rw [PlainFrame, htype] at hplain
      simp at hplain
  | request hq he hb =>
      obtain ⟨entry, hm⟩ := h.coherent.made _ (List.mem_of_getElem? hq)
      exact ⟨_, _, entry, hq, he, hm, hb⟩
  | reply hv hb =>
      obtain ⟨attempt, hattempt⟩ :=
        h.answered _ _ hv _ ((h.replying.handed_le hv).2 hb)
      have hid := requestIdOf_reply hattempt
      simp [requestIdOf, hd, MessageType.isRequest] at hid

/-- **A SUBSCRIBE is the one its `subscribe` packed**, and while ids last it
waits in its table until a SUBSCRIBED resolves it. -/
theorem Client.Reachable.wrote_subscribe (h : c.Reachable)
    (hlt : c.issued < UInt64.size) (ha : c.alive = true) {n : Nat} {r : UInt64}
    {options : Object} {topic : Octets} {rest : List Object}
    (hr : c.reads n = some (MessageType.SUBSCRIBE.object
      (.positiveInteger r :: options :: .str topic :: rest))) :
    ∃ (q : Request) (handler : WampEventHandler), c.Wrote n q ∧
      q.requestId = r ∧ q.operation = .subscribe topic handler ∧
      ((∃ e, c.session.subscribeRequests.find r = some e ∧ e.handler = handler) ∨
        ∃ s, q.promise.outcome = some (.ok (.subscription s))) := by
  obtain ⟨buffer, hw, hd⟩ := Client.reads_eq_some.mp hr
  obtain ⟨ref, q, entry, hq, he, hm, rfl⟩ := h.subscribe_made hw hd
  obtain ⟨rfl, handler, hop, rfl⟩ := hm.submits.of_subscribe hd
  refine ⟨q, handler, ⟨List.mem_of_getElem? hq, hw⟩, rfl, hop, ?_⟩
  cases ho : q.promise.outcome with
  | some o =>
      have hanswers := h.settles hlt ha ref q o hq he ho
      rw [show q.kind = .subscribe from hm.kind] at hanswers
      cases hanswers with
      | subscription s => exact .inr ⟨s, rfl⟩
  | none =>
      obtain ⟨e, hfind, -, hhandler⟩ := h.coherent.waiting_subscribe hq
        (q.waits_iff.mpr ⟨he, Promise.not_resolved_iff.mpr ho⟩) hop
      exact .inl ⟨e, hfind, hhandler⟩

end Reads

end Autobahn
