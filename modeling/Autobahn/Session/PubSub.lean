import Mathlib.Data.List.Forall2
import Autobahn.Session.Subscribing

/-!
# Publications through a broker

Any number of sessions and a broker between them: a SUBSCRIBE is answered once
with a SUBSCRIBED, and a PUBLISH goes out as one EVENT to each session that has
a subscription for its topic. `PubSub` is the sessions with what the broker
remembers, `PubSub.Step` whatever may happen next.

While ids last, the event handlers a session has called are accounted for by the
deliveries to it, one after the other (`PubSub.Reachable.delivers_faithfully`).
-/

namespace Autobahn

open Foundation MsgPack Relation

/-! ## The broker -/

/-- A SUBSCRIBED that was delivered: to which session, with which id and for
which topic, and the request it answers, with the write that brought it. -/
structure Subscription where
  subscriber : Nat
  id : UInt64
  topic : Octets
  request : UInt64
  write : Nat

/-- An EVENT that was delivered: which of the publisher's writes it stems from,
and to whom it went under which subscriptions. `user` is history: what the
handlers did. -/
structure Delivery where
  publisher : Nat
  publish : Nat
  topic : Octets
  subscriber : Nat
  subscriptions : List Subscription
  user : UserCode

/-- The sessions and the broker's memory, the oldest entries first. -/
structure PubSub where
  clients : Nat → Client
  subscriptions : List Subscription := []
  deliveries : List Delivery := []

/-- Messages that a broker makes only of what a session has sent. -/
def Incoming.isBrokered : Incoming → Bool
  | .subscribed .. | .event .. => true
  | _ => false

def Input.isBrokered : Input → Bool
  | .message obj _ => (Incoming.read obj).isBrokered
  | _ => false

namespace PubSub

/-- One session takes a step. -/
def act (S : PubSub) (k : Nat) (i : Input) : PubSub :=
  { S with clients := Machine.stepAt Client.step S.clients k i }

/-- The subscriptions a session has under one id. -/
def subscriptionsOf (S : PubSub) (k : Nat) (s : UInt64) : List Subscription :=
  S.subscriptions.filter fun x => x.subscriber = k ∧ x.id = s

open MessageType in
/-- A step of the system. The broker delivers to sessions that exist, reads
only what has been written, and is bound to no order. A session hears one id
for one topic only. -/
inductive Step : PubSub → PubSub → Prop
  /-- a session on its own, or a message that has no part in publishing -/
  | act {S : PubSub} (k : Nat) {i : Input} (hi : i.isBrokered = false) :
      Step S (S.act k i)
  | subscribe {S : PubSub} {k n : Nat} {r : UInt64} {options : Object}
      {topic : Octets} (s : UInt64) (user : UserCode)
      (halive : (S.clients k).alive = true)
      (hread : (S.clients k).reads n =
        some (SUBSCRIBE.object [.positiveInteger r, options, .str topic]))
      (honce : ∀ x ∈ S.subscriptions, ¬ (x.subscriber = k ∧ x.request = r))
      (htopic : ∀ x ∈ S.subscriptionsOf k s, x.topic = topic) :
      Step S { S.act k (.message
          (SUBSCRIBED.object [.positiveInteger r, .positiveInteger s]) user) with
        subscriptions := S.subscriptions ++ [⟨k, s, topic, r, n⟩] }
  | event {S : PubSub} {k n : Nat} {r : UInt64} {options : Object}
      {rest : List Object} {x : Subscription} (p : UInt64)
      (details : List (Object × Object)) (user : UserCode)
      (halive : (S.clients x.subscriber).alive = true)
      (hread : (S.clients k).reads n =
        some (PUBLISH.object (.positiveInteger r :: options :: .str x.topic :: rest)))
      (hx : x ∈ S.subscriptions)
      (honce : ∀ δ ∈ S.deliveries,
        ¬ (δ.publisher = k ∧ δ.publish = n ∧ δ.subscriber = x.subscriber)) :
      Step S { S.act x.subscriber (.message (EVENT.object (.positiveInteger x.id ::
          .positiveInteger p :: .map details :: rest)) user) with
        deliveries := S.deliveries ++ [⟨k, n, x.topic, x.subscriber,
          S.subscriptionsOf x.subscriber x.id, user⟩] }

/-- New sessions on any streams. -/
def new (plans : Nat → Nat → WriteResult) : PubSub where
  clients k := Client.new (plans k)

def Reachable (S : PubSub) : Prop := ∃ plans, ReflTransGen Step (new plans) S

/-! ## Faithful delivery -/

/-- The handler is the one that the SUBSCRIBE of this subscription was written
for. -/
def Asked (S : PubSub) (x : Subscription) (h : WampEventHandler) : Prop :=
  (S.clients x.subscriber).Asked x.write (.subscribe x.topic h)

/-- What a delivery made the session call: the handlers of its subscriptions in
their order, up to the first that throws, each with what the publisher's
`publish` packed. -/
def Calls (S : PubSub) (δ : Delivery)
    (calls : List (WampEventHandler × WampEvent)) : Prop :=
  ∃ (p : Payload) (e : WampEvent) (handlers : List WampEventHandler),
    (S.clients δ.publisher).Published δ.publish δ.topic p ∧
    p.Carries e.arguments e.kwArguments ∧
    (∀ x ∈ δ.subscriptions, x ∈ S.subscriptions ∧
      x.subscriber = δ.subscriber ∧ x.topic = δ.topic) ∧
    List.Forall₂ S.Asked δ.subscriptions handlers ∧
    calls = (handlersCalled δ.user 0 handlers).map fun h => (h, e)

/-- The future of a subscribe has the id that the broker gave to its own
SUBSCRIBE. -/
def Resolved (S : PubSub) (k : Nat) (q : Request) (s : UInt64) : Prop :=
  ∃ x ∈ S.subscriptions, x.subscriber = k ∧ x.id = s ∧
    x.request = q.requestId ∧ (S.clients k).Wrote x.write q

structure Faithful (S : PubSub) : Prop where
  /-- the handler calls of a session are those of its deliveries, in order -/
  delivered : ∀ k, ∃ calls,
    List.Forall₂ S.Calls (S.deliveries.filter (·.subscriber = k)) calls ∧
    (S.clients k).eventCalls = calls.flatten
  resolved : ∀ (k : Nat) (q : Request) (s : UInt64), q ∈ (S.clients k).requests →
    q.promise.outcome = some (.ok (.subscription s)) → S.Resolved k q s

/-! ## What a step keeps -/

/-- Nothing that has happened is forgotten. -/
structure Grows (S T : PubSub) : Prop where
  client : ∀ k, (S.clients k).Grows (T.clients k)
  subscriptions : S.subscriptions ⊆ T.subscriptions

section Keep

variable {S T : PubSub} {k : Nat} {i : Input}

theorem act_clients (S : PubSub) (k : Nat) (i : Input) :
    (S.act k i).clients = Machine.stepAt Client.step S.clients k i := rfl

theorem Grows.of_act (hclients : T.clients = Machine.stepAt Client.step S.clients k i)
    (hsubscriptions : S.subscriptions ⊆ T.subscriptions) : S.Grows T where
  client := Machine.stepAt_rel hclients (Client.step_grows _ i) .refl
  subscriptions := hsubscriptions

theorem Asked.mono {x : Subscription} {h : WampEventHandler} (ha : S.Asked x h)
    (hgrows : S.Grows T) : T.Asked x h :=
  Client.Asked.mono ha (hgrows.client _)

theorem Calls.mono {δ : Delivery} {calls : List (WampEventHandler × WampEvent)}
    (h : S.Calls δ calls) (hgrows : S.Grows T) : T.Calls δ calls := by
  obtain ⟨p, e, handlers, hpublished, hcarries, hknown, hasked, rfl⟩ := h
  exact ⟨p, e, handlers, hpublished.mono (hgrows.client _), hcarries,
    fun x hx => ⟨hgrows.subscriptions (hknown x hx).1, (hknown x hx).2⟩,
    hasked.imp fun _ _ ha => ha.mono hgrows, rfl⟩

theorem Resolved.mono {q q' : Request} {s : UInt64} (h : S.Resolved k q s)
    (hgrows : S.Grows T) (hq' : q' ∈ (T.clients k).requests) (hages : q.Ages q') :
    T.Resolved k q' s := by
  obtain ⟨x, hx, hk, hs, hr, hwrote⟩ := h
  refine ⟨x, hgrows.subscriptions hx, hk, hs, hr.trans hages.requestId.symm,
    hq', ?_⟩
  rw [hages.buffer]
  exact getElem?_of_isPrefix (hgrows.client k).writes hwrote.2

/-- Subscriptions stay what they are, so only one that is new has to be looked
at. -/
theorem Faithful.resolved_act (hS : S.Faithful)
    (hreachable : ∀ k, (S.clients k).Reachable) (hgrows : S.Grows T)
    (hclients : T.clients = Machine.stepAt Client.step S.clients k i)
    (hnew : ∀ (ref : Nat) (q : Request) (s : UInt64) obj user,
      (T.clients k).requests[ref]? = some q → i = .message obj user →
      Incoming.read obj = .subscribed q.requestId s → T.Resolved k q s)
    (j : Nat) (q : Request) (s : UInt64) (hq : q ∈ (T.clients j).requests)
    (ho : q.promise.outcome = some (.ok (.subscription s))) :
    T.Resolved j q s := by
  by_cases hj : j = k
  · subst hj
    obtain ⟨ref, href⟩ := List.mem_iff_getElem?.mp hq
    have hstep : ((S.clients j).step i).requests[ref]? = some q := by
      rwa [hclients, Machine.stepAt_self] at href
    rcases Client.step_subscription (hreachable j).coherent hstep ho with
      ⟨q₀, hq₀, hages, ho₀⟩ | ⟨obj, user, hi, hread⟩
    · exact (hS.resolved j q₀ s (List.mem_of_getElem? hq₀) ho₀).mono hgrows hq hages
    · exact hnew ref q s obj user href hi hread
  · have hold : q ∈ (S.clients j).requests := by
      rwa [hclients, Machine.stepAt_of_ne hj] at hq
    exact (hS.resolved j q s hold ho).mono hgrows hq (.refl q)

/-- Steps that deliver no EVENT. -/
theorem Faithful.delivered_act (hS : S.Faithful) (hgrows : S.Grows T)
    (hclients : T.clients = Machine.stepAt Client.step S.clients k i)
    (hevent : ∀ obj user, i = .message obj user →
      (Incoming.read obj).isEvent = false)
    (hdeliveries : T.deliveries = S.deliveries) (j : Nat) :
    ∃ calls, List.Forall₂ T.Calls (T.deliveries.filter (·.subscriber = j)) calls ∧
      (T.clients j).eventCalls = calls.flatten := by
  obtain ⟨calls, hcalls, heq⟩ := hS.delivered j
  rw [hdeliveries]
  refine ⟨calls, hcalls.imp fun _ _ h => h.mono hgrows, ?_⟩
  rw [← heq]
  exact Machine.stepAt_rel (R := Client.Uneventful) hclients
    (Client.step_uneventful _ hevent) (fun _ => rfl) j

/-- The step that delivers an EVENT: the delivery and its calls go together. -/
theorem Faithful.delivered_event (hS : S.Faithful) (hgrows : S.Grows T)
    (δ : Delivery) {new : List (WampEventHandler × WampEvent)}
    (hclients : T.clients = Machine.stepAt Client.step S.clients δ.subscriber i)
    (hdeliveries : T.deliveries = S.deliveries ++ [δ]) (hnew : T.Calls δ new)
    (hcalled : ((S.clients δ.subscriber).step i).eventCalls =
      (S.clients δ.subscriber).eventCalls ++ new) (j : Nat) :
    ∃ calls, List.Forall₂ T.Calls (T.deliveries.filter (·.subscriber = j)) calls ∧
      (T.clients j).eventCalls = calls.flatten := by
  obtain ⟨calls, hcalls, heq⟩ := hS.delivered j
  have hold := hcalls.imp fun _ _ h => h.mono hgrows
  rw [hdeliveries, List.filter_append, hclients]
  by_cases hj : j = δ.subscriber
  · subst hj
    refine ⟨calls ++ [new], List.rel_append hold ?_, ?_⟩
    · rw [List.filter_singleton, decide_eq_true rfl]
      exact .cons hnew .nil
    · rw [Machine.stepAt_self, hcalled, heq]
      simp
  · refine ⟨calls, ?_, ?_⟩
    · rw [List.filter_singleton, decide_eq_false (Ne.symm hj)]
      simpa using hold
    · rw [Machine.stepAt_of_ne hj, heq]

end Keep

/-! ## The invariant -/

/-- Faithful delivery, and what keeps it so: the handlers of an id are those of
its subscriptions, and these are for one topic. -/
structure Sound (S : PubSub) : Prop where
  reachable : ∀ k, (S.clients k).Reachable
  installed : ∀ k s, List.Forall₂ S.Asked (S.subscriptionsOf k s)
    ((S.clients k).session.subscriptionHandlers.values s)
  topic : ∀ k s, ∀ x ∈ S.subscriptionsOf k s, ∀ y ∈ S.subscriptionsOf k s,
    x.topic = y.topic
  faithful : S.Faithful

section Sound

variable {S T : PubSub} {k : Nat} {i : Input}

theorem Sound.reachable_act (hS : S.Sound)
    (hclients : T.clients = Machine.stepAt Client.step S.clients k i) (j : Nat) :
    (T.clients j).Reachable :=
  Machine.forall_stepAt (P := fun _ c => c.Reachable) hclients
    ((hS.reachable k).step i) hS.reachable j

/-- Steps that install no handler. -/
theorem Sound.installed_act (hS : S.Sound) (hgrows : S.Grows T)
    (hclients : T.clients = Machine.stepAt Client.step S.clients k i)
    (hi : ∀ obj user r s, i = .message obj user →
      Incoming.read obj ≠ .subscribed r s)
    (hsubscriptions : T.subscriptions = S.subscriptions) (j : Nat) (s : UInt64) :
    List.Forall₂ T.Asked (T.subscriptionsOf j s)
      ((T.clients j).session.subscriptionHandlers.values s) := by
  have hvalues : ((S.clients k).step i).session.subscriptionHandlers.values s =
      (S.clients k).session.subscriptionHandlers.values s := by
    rw [(hS.reachable k).values_step, Client.answeredBy_of_ne s hi,
      List.append_nil]
  rw [subscriptionsOf, hsubscriptions, Machine.stepAt_rel (R := fun c d =>
    d.session.subscriptionHandlers.values s =
      c.session.subscriptionHandlers.values s) hclients hvalues (fun _ => rfl) j]
  exact (hS.installed j s).imp fun _ _ h => h.mono hgrows

theorem Sound.act (hS : S.Sound) (hi : i.isBrokered = false) :
    (S.act k i).Sound := by
  have hgrows : S.Grows (S.act k i) := .of_act rfl (List.Subset.refl _)
  have hbrokered : ∀ obj user, i = .message obj user →
      (Incoming.read obj).isBrokered = false := by
    rintro obj user rfl
    exact hi
  have hsubscribed : ∀ obj user r s, i = .message obj user →
      Incoming.read obj ≠ .subscribed r s := by
    intro obj user r s heq hread
    have := hbrokered obj user heq
    rw [hread] at this
    cases this
  have hevent : ∀ obj user, i = .message obj user →
      (Incoming.read obj).isEvent = false := by
    intro obj user heq
    have := hbrokered obj user heq
    generalize Incoming.read obj = m at this
    cases m <;> first | rfl | cases this
  exact
    { reachable := hS.reachable_act rfl
      installed := hS.installed_act hgrows rfl hsubscribed rfl
      topic := hS.topic
      faithful :=
        { delivered := hS.faithful.delivered_act hgrows rfl hevent rfl
          resolved := hS.faithful.resolved_act hS.reachable hgrows rfl
            fun ref q s obj user _ heq hread =>
              absurd hread (hsubscribed obj user _ s heq) } }

theorem read_subscribed (r s : UInt64) :
    Incoming.read (MessageType.SUBSCRIBED.object
      [.positiveInteger r, .positiveInteger s]) = .subscribed r s :=
  read_object .SUBSCRIBED _

theorem subscriptionsOf_snoc (x : Subscription) (j : Nat) (s : UInt64)
    (hsubscriptions : T.subscriptions = S.subscriptions ++ [x]) :
    T.subscriptionsOf j s = S.subscriptionsOf j s ++
      if x.subscriber = j ∧ x.id = s then [x] else [] := by
  rw [subscriptionsOf, hsubscriptions, List.filter_append, subscriptionsOf]
  congr 1
  by_cases h : x.subscriber = j ∧ x.id = s <;> simp [h]

theorem mem_subscriptionsOf {x : Subscription} {s : UInt64} :
    x ∈ S.subscriptionsOf k s ↔
      x ∈ S.subscriptions ∧ x.subscriber = k ∧ x.id = s := by
  rw [subscriptionsOf, List.mem_filter, decide_eq_true_eq]

/-- A SUBSCRIBED that is the first for its request finds the handler of the very
`subscribe` it answers. -/
theorem Sound.subscribers_eq (hS : S.Sound) {n : Nat} {r : UInt64}
    {options : Object} {topic : Octets} (hlt : (S.clients k).issued < UInt64.size)
    (halive : (S.clients k).alive = true)
    (hread : (S.clients k).reads n = some (MessageType.SUBSCRIBE.object
      [.positiveInteger r, options, .str topic]))
    (honce : ∀ x ∈ S.subscriptions, ¬ (x.subscriber = k ∧ x.request = r)) :
    ∃ q handler, (S.clients k).Wrote n q ∧ q.requestId = r ∧
      q.operation = .subscribe topic handler ∧
      (S.clients k).subscribers r = [handler] := by
  obtain ⟨q, handler, hwrote, rfl, hop, ⟨e, he, rfl⟩ | ⟨s, ho⟩⟩ :=
    (hS.reachable k).wrote_subscribe hlt halive hread
  · refine ⟨q, e.handler, hwrote, rfl, hop, ?_⟩
    rw [(hS.reachable k).coherent.subscribers_eq halive, he]
    rfl
  · obtain ⟨x, hx, hk, -, hr, -⟩ := hS.faithful.resolved k q s hwrote.1 ho
    exact absurd ⟨hk, hr⟩ (honce x hx)

/-- The one handler that a SUBSCRIBED installs goes with its subscription. -/
theorem Sound.installed_subscribed (hS : S.Sound) {x : Subscription}
    {handler : WampEventHandler} {user : UserCode} (hgrows : S.Grows T)
    (hclients : T.clients = Machine.stepAt Client.step S.clients x.subscriber i)
    (hsubscriptions : T.subscriptions = S.subscriptions ++ [x])
    (halive : (S.clients x.subscriber).alive = true)
    (hi : i = .message (MessageType.SUBSCRIBED.object
      [.positiveInteger x.request, .positiveInteger x.id]) user)
    (hwaits : (S.clients x.subscriber).subscribers x.request = [handler])
    (hasked : T.Asked x handler) (j : Nat) (s : UInt64) :
    List.Forall₂ T.Asked (T.subscriptionsOf j s)
      ((T.clients j).session.subscriptionHandlers.values s) := by
  have hold := (hS.installed j s).imp fun _ _ h => Asked.mono h hgrows
  rw [subscriptionsOf_snoc x j s hsubscriptions, hclients]
  by_cases hj : j = x.subscriber
  · subst hj
    have hanswered : (S.clients x.subscriber).answeredBy s i =
        if x.id = s then [handler] else [] := by
      rw [hi]
      simp only [Client.answeredBy, read_subscribed, halive, true_and, hwaits]
    rw [Machine.stepAt_self, (hS.reachable x.subscriber).values_step, hanswered]
    apply List.rel_append hold
    by_cases hs : x.id = s
    · rw [if_pos hs, if_pos ⟨rfl, hs⟩]
      exact .cons hasked .nil
    · rw [if_neg hs, if_neg fun h => hs h.2]
      exact .nil
  · rw [Machine.stepAt_of_ne hj, if_neg fun h => hj h.1.symm, List.append_nil]
    exact hold

/-- The topic of an id stays the one of its subscriptions. -/
theorem Sound.topic_subscribed (hS : S.Sound) {x : Subscription}
    (hsubscriptions : T.subscriptions = S.subscriptions ++ [x])
    (htopic : ∀ y ∈ S.subscriptionsOf x.subscriber x.id, y.topic = x.topic)
    (j : Nat) (s : UInt64) : ∀ y ∈ T.subscriptionsOf j s,
    ∀ z ∈ T.subscriptionsOf j s, y.topic = z.topic := by
  intro y hy z hz
  rw [subscriptionsOf_snoc x j s hsubscriptions] at hy hz
  split at hy
  · next hnew =>
    obtain ⟨rfl, rfl⟩ := hnew
    rw [if_pos ⟨rfl, rfl⟩] at hz
    have hall : ∀ w ∈ S.subscriptionsOf x.subscriber x.id ++ [x],
        w.topic = x.topic := by
      intro w hw
      rcases List.mem_append.mp hw with hw | hw
      · exact htopic w hw
      · rw [List.mem_singleton.mp hw]
    rw [hall y hy, hall z hz]
  · next hnew =>
    rw [if_neg hnew, List.append_nil] at hz
    rw [List.append_nil] at hy
    exact hS.topic j s y hy z hz

/-- The request that the id of a SUBSCRIBED names is the one that wrote the
SUBSCRIBE. -/
theorem Sound.resolved_subscribed (hS : S.Sound) {x : Subscription} {q₀ q : Request}
    {ref : Nat} (hgrows : S.Grows T) (hx : x ∈ T.subscriptions)
    (hclients : T.clients = Machine.stepAt Client.step S.clients x.subscriber i)
    (hlt : (T.clients x.subscriber).issued < UInt64.size)
    (hwrote : (S.clients x.subscriber).Wrote x.write q₀)
    (hid : q₀.requestId = x.request)
    (hq : (T.clients x.subscriber).requests[ref]? = some q)
    (hid' : x.request = q.requestId) : T.Resolved x.subscriber q x.id := by
  obtain ⟨q₁, hwrote₁, hages⟩ := hwrote.mono (hgrows.client x.subscriber)
  obtain ⟨ref₁, href₁⟩ := List.mem_iff_getElem?.mp hwrote₁.1
  have hfresh := (hS.reachable_act hclients x.subscriber).fresh hlt
  obtain rfl := hfresh.inj href₁ hq (hages.requestId.trans (hid.trans hid'))
  obtain rfl := Option.some.inj (href₁.symm.trans hq)
  exact ⟨x, hx, rfl, rfl, hid', hwrote₁⟩

theorem Sound.subscribe (hS : S.Sound) {n : Nat} {r s : UInt64} {options : Object}
    {topic : Octets} {user : UserCode}
    (hlt : ((S.clients k).step i).issued < UInt64.size)
    (halive : (S.clients k).alive = true)
    (hread : (S.clients k).reads n = some (MessageType.SUBSCRIBE.object
      [.positiveInteger r, options, .str topic]))
    (honce : ∀ x ∈ S.subscriptions, ¬ (x.subscriber = k ∧ x.request = r))
    (htopic : ∀ x ∈ S.subscriptionsOf k s, x.topic = topic)
    (hi : i = .message (MessageType.SUBSCRIBED.object
      [.positiveInteger r, .positiveInteger s]) user) :
    ({ S.act k i with
        subscriptions := S.subscriptions ++ [⟨k, s, topic, r, n⟩] } : PubSub).Sound := by
  have hlt₀ := Nat.lt_of_le_of_lt (Client.step_moves (S.clients k) i).issued_le hlt
  obtain ⟨q₀, handler, hwrote, hid, hop, hwaits⟩ :=
    hS.subscribers_eq hlt₀ halive hread honce
  have hmsg : ∀ obj user', i = .message obj user' →
      Incoming.read obj = .subscribed r s := by
    intro obj user' heq
    obtain ⟨rfl, -⟩ := Input.message.inj (hi.symm.trans heq)
    exact read_subscribed r s
  have hgrows : S.Grows { S.act k i with
      subscriptions := S.subscriptions ++ [⟨k, s, topic, r, n⟩] } :=
    .of_act rfl (List.subset_append_left _ _)
  refine ⟨hS.reachable_act rfl, ?_, hS.topic_subscribed rfl htopic, ?_, ?_⟩
  · apply hS.installed_subscribed hgrows rfl rfl halive hi hwaits
    exact Client.Asked.mono ⟨q₀, hwrote, hop⟩ (hgrows.client k)
  · apply hS.faithful.delivered_act hgrows rfl _ rfl
    intro obj user' heq
    rw [hmsg obj user' heq]
    rfl
  · apply hS.faithful.resolved_act hS.reachable hgrows rfl
    intro ref q s' obj user' hq heq hread'
    rw [hmsg obj user' heq] at hread'
    obtain ⟨hid', rfl⟩ := Incoming.subscribed.inj hread'
    have hlast := List.mem_append_right S.subscriptions
      (List.mem_singleton_self (⟨k, s, topic, r, n⟩ : Subscription))
    have hlt' : ((S.act k i).clients k).issued < UInt64.size := by
      rwa [act_clients, Machine.stepAt_self]
    exact hS.resolved_subscribed hgrows hlast rfl hlt' hwrote hid hq hid'

/-- The EVENT that a broker makes of a PUBLISH, as `Events` writes it. -/
theorem Sound.event (hS : S.Sound) {n : Nat} {r p : UInt64} {options : Object}
    {rest : List Object} {x : Subscription} {details : List (Object × Object)}
    {user : UserCode} (halive : (S.clients x.subscriber).alive = true)
    (hread : (S.clients k).reads n = some (MessageType.PUBLISH.object
      (.positiveInteger r :: options :: .str x.topic :: rest)))
    (hx : x ∈ S.subscriptions)
    (hi : i = .message (MessageType.EVENT.object (.positiveInteger x.id ::
      .positiveInteger p :: .map details :: rest)) user) :
    ({ S.act x.subscriber i with
        deliveries := S.deliveries ++ [⟨k, n, x.topic, x.subscriber,
          S.subscriptionsOf x.subscriber x.id, user⟩] } : PubSub).Sound := by
  obtain ⟨payload, hpublished, hobjects⟩ := (hS.reachable k).wrote_publish hread
  obtain ⟨tail, rfl, hcarries⟩ := payload.exists_tail hobjects
  have hi' : i = .message (eventMessage x.id p details tail) user := hi
  have hmsg : ∀ obj user', i = .message obj user' →
      Incoming.read obj = .event x.id (some tail.event) := by
    intro obj user' heq
    obtain ⟨rfl, -⟩ := Input.message.inj (hi'.symm.trans heq)
    exact read_eventMessage x.id p details tail
  have hsubscribed : ∀ obj user' r s, i = .message obj user' →
      Incoming.read obj ≠ .subscribed r s := by
    intro obj user' r s heq hread
    rw [hmsg obj user' heq] at hread
    cases hread
  let δ : Delivery := ⟨k, n, x.topic, x.subscriber,
    S.subscriptionsOf x.subscriber x.id, user⟩
  have hgrows : S.Grows { S.act x.subscriber i with
      deliveries := S.deliveries ++ [δ] } := .of_act rfl (List.Subset.refl _)
  refine ⟨hS.reachable_act rfl, hS.installed_act hgrows rfl hsubscribed rfl,
    hS.topic, ?_, hS.faithful.resolved_act hS.reachable hgrows rfl ?_⟩
  · apply hS.faithful.delivered_event hgrows δ rfl rfl _
      (hi' ▸ Client.eventCalls_step_event halive x.id p details tail user)
    refine ⟨payload, tail.event, _, hpublished.mono (hgrows.client k), hcarries,
      fun y hy => ?_, (hS.installed _ _).imp fun _ _ h => Asked.mono h hgrows, rfl⟩
    obtain ⟨hmem, hk, hs⟩ := mem_subscriptionsOf.mp hy
    exact ⟨hmem, hk, hS.topic _ _ y hy x (mem_subscriptionsOf.mpr ⟨hx, rfl, rfl⟩)⟩
  · intro ref q s obj user' _ heq hread'
    exact absurd hread' (hsubscribed obj user' _ s heq)

theorem Step.issued_le (h : S.Step T) (j : Nat) :
    (S.clients j).issued ≤ (T.clients j).issued := by
  have hact : ∀ (k : Nat) (i : Input),
      (S.clients j).issued ≤ ((S.act k i).clients j).issued := fun k i =>
    Machine.stepAt_rel (R := fun (c d : Client) => c.issued ≤ d.issued) rfl
      (Client.step_moves _ i).issued_le (fun _ => Nat.le_refl _) j
  cases h <;> exact hact _ _

theorem Sound.step (hS : S.Sound) (h : S.Step T)
    (hids : ∀ k, (T.clients k).issued < UInt64.size) : T.Sound := by
  cases h with
  | act k hi => exact hS.act hi
  | @subscribe k n r options topic s user halive hread honce htopic =>
      have hlt := hids k
      rw [act_clients, Machine.stepAt_self] at hlt
      exact hS.subscribe hlt halive hread honce htopic rfl
  | event p details user halive hread hx honce =>
      exact hS.event halive hread hx rfl

theorem sound_new (plans : Nat → Nat → WriteResult) : (new plans).Sound where
  reachable k := Client.reachable_runs (plans k) []
  installed k s := .nil
  topic k s x hx := by cases hx
  faithful :=
    { delivered := fun k => ⟨[], .nil, rfl⟩
      resolved := fun k q s h => by cases h }

theorem Reachable.sound (h : S.Reachable)
    (hids : ∀ k, (S.clients k).issued < UInt64.size) : S.Sound := by
  obtain ⟨plans, hsteps⟩ := h
  induction hsteps with
  | refl => exact sound_new plans
  | tail _ hstep ih =>
      exact (ih fun k => Nat.lt_of_le_of_lt (hstep.issued_le k) (hids k)).step
        hstep hids

end Sound

/-- **Faithful delivery.** In whatever order sessions and broker take their
steps, a session's event handlers are called for its deliveries only, one
delivery after the other: each calls the handlers that were subscribed to the
topic under its id, in the order of their subscriptions and up to the first
that throws, with what the publisher packed. And a subscription's future has
the id that was given to its own SUBSCRIBE. -/
theorem Reachable.delivers_faithfully {S : PubSub} (h : S.Reachable)
    (hids : ∀ k, (S.clients k).issued < UInt64.size) : S.Faithful :=
  (h.sound hids).faithful

/-! ## One publication -/

/-- Session 0 has subscribed, session 1 has joined. -/
def listening : PubSub :=
  let joined (id : UInt64) : Input :=
    .message (MessageType.WELCOME.object [.positiveInteger id]) fun _ => {}
  let S := ((((new fun _ _ => .complete).act 0 (joined 7)).act 0
    (.operate (.subscribe (octets "com.t") ⟨3⟩))).act 0 (.task 0)).act 1 (joined 8)
  { S.act 0 (.message (MessageType.SUBSCRIBED.object
      [.positiveInteger 1, .positiveInteger 5]) fun _ => {}) with
    subscriptions := [⟨0, 5, octets "com.t", 1, 0⟩] }

theorem reachable_listening : listening.Reachable := by
  refine ⟨fun _ _ => .complete, ?_⟩
  refine .tail ?_ (Step.subscribe (k := 0) (n := 0) 5 (fun _ => {}) rfl rfl
    (fun x hx => by cases hx) fun x hx => by cases hx)
  exact .tail (.tail (.tail (.single (Step.act 0 rfl)) (Step.act 0 rfl))
    (Step.act 0 rfl)) (Step.act 1 rfl)

/-- A PUBLISH with one argument reaches the handler. -/
theorem faithful_one_publication : ∃ S : PubSub, S.Reachable ∧ S.Faithful ∧
    (S.clients 0).eventCalls = [(⟨3⟩, { arguments := .array [.nil] })] ∧
    (S.clients 0).requests.map (fun q => q.promise.outcome) =
      [some (.ok (.subscription 5))] := by
  obtain ⟨plans, h⟩ := reachable_listening
  have hpublish := (h.tail (.act 1 (i := .operate
    (.publish (octets "com.t") (.list (.ok [.nil])))) rfl)).tail
    (.act 1 (i := .task 0) rfl)
  have hevent := hpublish.tail (.event (k := 1) (n := 0)
    (x := ⟨0, 5, octets "com.t", 1, 0⟩) 9 [] (fun _ => {}) rfl rfl
    (List.mem_singleton_self _) fun δ hδ => by cases hδ)
  refine ⟨_, ⟨plans, hevent⟩, Reachable.delivers_faithfully ⟨plans, hevent⟩ ?_, rfl, rfl⟩
  rintro (_ | _ | k)
  · decide
  · decide
  · exact Nat.zero_lt_of_lt (show 0 < UInt64.size by decide)

end PubSub

end Autobahn
