import Autobahn.Session.ErrorText
import Autobahn.Session.Network

/-!
# Errors through a router

The network of `Net` with the two ways in which the router ends a call with an
ERROR: it relays the one that a callee has written as its reply, or it refuses a
CALL itself. `CallErrors` is the network with what the router remembers of them.

While ids last, a call that fails with a text has it from the reply to its own
INVOCATION, or from the refusal of its own CALL
(`CallErrors.Reachable.errors_arrive`).
-/

namespace Autobahn

open Foundation MsgPack Relation

/-! ## What makes a future fail with a text -/

/-- From `c` to `d` futures are at most broken. -/
def Client.OnlyBreaks (c d : Client) : Prop :=
  ∀ (ref : Nat) (q' : Request) (r : Except Exn Reply), d.requests[ref]? = some q' →
    q'.promise.outcome = some r → r ≠ .error .brokenPromise →
    ∃ q, c.requests[ref]? = some q ∧ q.Ages q' ∧ q.promise.outcome = some r

section OnlyBreaks

variable {c d : Client}

theorem Client.OnlyBreaks.same (hreq : d.requests = c.requests) : c.OnlyBreaks d :=
  fun _ q' _ hq' ho _ => ⟨q', hreq ▸ hq', .refl q', ho⟩

theorem Client.OnlyBreaks.trans {e : Client} (h : c.OnlyBreaks d)
    (h' : d.OnlyBreaks e) : c.OnlyBreaks e := by
  intro ref q'' r hq'' ho'' hr
  obtain ⟨q', hq', hages', ho'⟩ := h' ref q'' r hq'' ho'' hr
  obtain ⟨q, hq, hages, ho⟩ := h ref q' r hq' ho' hr
  exact ⟨q, hq, hages.trans hages', ho⟩

theorem Client.OnlyBreaks.modify (ref : Nat) {f : Request → Request}
    (hages : ∀ q : Request, q.Ages (f q))
    (hf : ∀ (q : Request) (r : Except Exn Reply),
      (f q).promise.outcome = some r → r ≠ .error .brokenPromise →
      q.promise.outcome = some r)
    (hreq : d.requests = (c.modifyRequest ref f).requests) : c.OnlyBreaks d := by
  intro i q' r hq' ho hr
  rw [hreq, Client.getElem?_modifyRequest] at hq'
  split at hq'
  · obtain ⟨q, hq, rfl⟩ := Option.map_eq_some_iff.mp hq'
    exact ⟨q, hq, hages q, hf q r ho hr⟩
  · exact ⟨q', hq', .refl q', ho⟩

theorem Act.onlyBreaks (h : Act c d) : c.OnlyBreaks d := by
  cases h with
  | @submit op entry buffer h =>
      intro i q' r hq' ho hr
      rw [show (c.submit op entry buffer).requests = c.requests ++
        [newRequestOf op entry (c.session.requestId + 1) buffer] from rfl,
        List.getElem?_append] at hq'
      split at hq'
      · exact ⟨q', hq', .refl q', ho⟩
      · obtain rfl := List.mem_singleton.mp (List.mem_of_getElem? hq')
        cases ho
  | abandon h hs =>
      exact .modify _ Request.abandon_ages (fun _ _ => Promise.outcome_of_abandon) rfl
  | @entered n ref r entry buffer h ha hj =>
      have hsame : ((c.dequeue n).enter ref r entry).OnlyBreaks
        (((c.dequeue n).enter ref r entry).sent buffer) := .same rfl
      refine Client.OnlyBreaks.trans (.modify ref (f := fun q =>
        { q with
          entered := true
          promise := if ((c.dequeue n).session.pending entry.kind r).isSome
            then q.promise.abandon .brokenPromise else q.promise })
        (fun q => ⟨rfl, rfl, rfl, rfl⟩) (fun q r' ho hr => ?_) rfl) hsame
      dsimp only at ho
      split at ho
      · exact Promise.outcome_of_abandon ho hr
      · exact ho
  | answer hv hs hb =>
      unfold Client.answer
      split <;> exact .same rfl
  | _ => exact .same rfl

theorem Quiets.onlyBreaks (h : Quiets c d) : c.OnlyBreaks d := by
  induction h with
  | refl => exact .same rfl
  | tail _ h ih =>
      apply ih.trans
      cases h with
      | act h => exact h.onlyBreaks
      | _ => exact .same rfl

theorem Client.destroy_onlyBreaks (c : Client) : c.OnlyBreaks c.destroy := by
  intro i q' r hq' ho hr
  rw [Client.getElem?_destroy] at hq'
  obtain ⟨q, hq, rfl⟩ := Option.map_eq_some_iff.mp hq'
  split at ho
  · next hany => exact ⟨q, hq, by rw [if_pos hany]; exact .refl q, ho⟩
  · next hany =>
    refine ⟨q, hq, ?_, Promise.outcome_of_abandon ho hr⟩
    rw [if_neg hany]
    exact q.abandon_ages

/-- The future of the request has failed with this text. -/
def Request.FailedWith (q : Request) (text : Octets) : Prop :=
  q.promise.outcome = some (.error (.runtimeError text))

theorem Client.settled_failedWith {ref i : Nat} {r : Except Exn Reply}
    {q' : Request} {text : Octets} (hq' : (c.settled ref r).requests[i]? = some q')
    (ho : q'.FailedWith text) :
    (∃ q, c.requests[i]? = some q ∧ q.Ages q' ∧ q.FailedWith text) ∨
      (ref = i ∧ r = .error (.runtimeError text)) := by
  rw [Client.settled, Client.getElem?_modifyRequest] at hq'
  split at hq'
  · next heq =>
    obtain ⟨q, hq, rfl⟩ := Option.map_eq_some_iff.mp hq'
    exact .inr ⟨heq, Option.some.inj ho⟩
  · exact .inl ⟨q', hq', .refl q', ho⟩

/-- Of the answers only an ERROR for a call brings a text. -/
theorem Answer.failedWith (hc : c.Coherent) {i : Incoming} (h : Answer i c d)
    {ref : Nat} {q' : Request} {text : Octets}
    (hq' : d.requests[ref]? = some q') (ho : q'.FailedWith text) :
    (∃ q, c.requests[ref]? = some q ∧ q.Ages q' ∧ q.FailedWith text) ∨
      i = .callError q'.requestId text := by
  cases h with
  | @failed _ r e text₀ he hq =>
      rcases Client.settled_failedWith hq' ho with hold | ⟨rfl, heq⟩
      · exact .inl hold
      · obtain rfl := Exn.runtimeError.inj (Except.error.inj heq)
        obtain ⟨q, hq, -, hid, -⟩ := hc.entries (WampSession.entryAt_call he)
        obtain ⟨q'', hq'', hages, -⟩ :=
          (c.settled_grows e.result (.error (.runtimeError text₀))).requests hq
        obtain rfl := Option.some.inj (hq'.symm.trans hq'')
        exact .inr (by rw [hages.requestId, hid])
  | resulted he hq =>
      exact .inl ((Client.settled_failedWith hq' ho).resolve_right fun h => by
        cases h.2)
  | @subscribed _ r s e he hq =>
      have hget : ((c.installHandler s e.handler).settled e.response
        (.ok (.subscription s))).requests[ref]? = some q' := hq'
      exact .inl ((Client.settled_failedWith hget ho).resolve_right fun h => by
        cases h.2)
  | @unsubscribed _ r e he hq =>
      have hget : (c.settled e.response (.ok .unsubscribed)).requests[ref]? =
        some q' := hq'
      exact .inl ((Client.settled_failedWith hget ho).resolve_right fun h => by
        cases h.2)
  | registered he hq =>
      exact .inl ((Client.settled_failedWith hq' ho).resolve_right fun h => by
        cases h.2)
  | subscribedTwice he hq => exact .inl ⟨q', hq', .refl q', ho⟩
  | registeredTwice he hq => exact .inl ⟨q', hq', .refl q', ho⟩

/-- **A call's text comes from an ERROR under its id.** -/
theorem Client.step_failedWith (hc : c.Coherent) {i : Input} {ref : Nat}
    {q' : Request} {text : Octets} (hq' : (c.step i).requests[ref]? = some q')
    (ho : q'.FailedWith text) :
    (∃ q, c.requests[ref]? = some q ∧ q.Ages q' ∧ q.FailedWith text) ∨
      ∃ obj user, i = .message obj user ∧
        Incoming.read obj = .callError q'.requestId text := by
  have hne : (.error (.runtimeError text) : Except Exn Reply) ≠
    .error .brokenPromise := by simp
  rcases c.step_cases i with h | ⟨obj, user, rfl, ha, h⟩ | ⟨rfl, -, h⟩
  · exact .inl (h.onlyBreaks ref q' _ hq' ho hne)
  · exact (h.failedWith hc hq' ho).imp_right fun hread => ⟨obj, user, rfl, hread⟩
  · rw [h] at hq'
    exact .inl (c.destroy_onlyBreaks ref q' _ hq' ho hne)

end OnlyBreaks

/-! ## What the router reads -/

/-- The one reply of the invocation `h` is an ERROR, which describes this text,
and is the whole `n`-th write. -/
def Client.RepliedError (c : Client) (n h : Nat) (text : Octets) : Prop :=
  ∃ (v : WampInvocation) (uri : Octets) (payload : Payload) (tail : Tail)
    (buffer : Frame), c.invocations[h]? = some v ∧ v.replies = [buffer] ∧
      errorFrame v.requestId uri payload = .ok buffer ∧
      c.session.out.writes[n]? = some (buffer, .complete) ∧
      payload.tail = .ok tail ∧ DescribesError uri tail.kwEntries text

section Reads

variable {c d : Client}

theorem Client.RepliedError.mono (hc : c.Replying) {n h : Nat} {text : Octets}
    (he : c.RepliedError n h text) (hgrows : c.Grows d) (hkeeps : c.Keeps d) :
    d.RepliedError n h text := by
  obtain ⟨v, uri, payload, tail, buffer, hv, hreplies, hframe, hw, htail⟩ := he
  obtain ⟨w, hw', hid, -, hspent⟩ := hkeeps h v hv
  have hs : v.sendable = false := by
    have := hc.spent hv
    rw [hreplies] at this
    by_contra hne
    simp [hne] at this
  exact ⟨w, uri, payload, tail, buffer, hw', (hspent hs).2.trans hreplies,
    hid ▸ hframe, getElem?_of_isPrefix hgrows.writes hw, htail⟩

theorem ReplyAttempt.of_error {attempt : ReplyAttempt} {i i' : UInt64}
    {buffer : Frame} {details : Object} {rest : List Object}
    (h : attempt.frame i = .ok buffer)
    (hd : decode buffer = some (.positiveInteger MessageType.ERROR.code ::
      .positiveInteger MessageType.INVOCATION.code :: .positiveInteger i' ::
      details :: rest)) :
    i' = i ∧ ∃ uri payload tail, errorFrame i uri payload = .ok buffer ∧
      payload.tail = .ok tail ∧ rest = .str uri :: tail.objects := by
  cases attempt with
  | result payload =>
      rw [ReplyAttempt.frame, yieldFrame_eq_pack] at h
      obtain ⟨os, -, rfl⟩ := exists_of_map_eq_ok h
      rw [decode_pack] at hd
      simp [MessageType.code] at hd
  | error uri payload =>
      rw [ReplyAttempt.frame] at h
      have hpack := h
      rw [errorFrame_eq_pack, Payload.objects_eq_tail] at hpack
      obtain ⟨os, hos, rfl⟩ := exists_of_map_eq_ok hpack
      obtain ⟨tail, htail, rfl⟩ := exists_of_map_eq_ok hos
      rw [decode_pack] at hd
      simp only [List.cons_append, List.nil_append, Option.some.injEq,
        List.cons.injEq, Object.positiveInteger.injEq, true_and] at hd
      obtain ⟨rfl, -, rfl⟩ := hd
      exact ⟨rfl, uri, payload, tail, h, htail, rfl⟩

/-- A frame that nobody waits for and that is a reply is that of an invocation. -/
theorem Client.Reachable.reply_of_write (h : c.Reachable) {n : Nat} {buffer : Frame}
    {w : WriteResult} (hw : c.session.out.writes[n]? = some (buffer, w))
    (hid : requestIdOf buffer = none) (hplain : ¬ PlainFrame buffer) :
    ∃ (k : Nat) (v : WampInvocation) (attempt : ReplyAttempt),
      c.invocations[k]? = some v ∧ v.replies = [buffer] ∧
      attempt.frame v.requestId = .ok buffer := by
  cases h.source _ (List.mem_of_getElem? hw) with
  | plain hp => exact absurd hp hplain
  | request hq he hb =>
      obtain ⟨entry, hm⟩ := h.coherent.made _ (List.mem_of_getElem? hq)
      rw [← show _ = buffer from hb, hm.submits.requestIdOf] at hid
      cases hid
  | @reply k v hv hb =>
      have hmem := (h.replying.handed_le hv).2 hb
      obtain ⟨attempt, hattempt⟩ := h.answered _ _ hv _ hmem
      exact ⟨k, v, attempt, hv, h.replying.replies_eq hv hmem, hattempt⟩

/-- **An ERROR for an INVOCATION is its one reply.** -/
theorem Client.Reachable.wrote_error (h : c.Reachable) {n : Nat} {i : UInt64}
    {details : Object} {rest : List Object}
    (hr : c.reads n = some (MessageType.ERROR.object
      (.positiveInteger MessageType.INVOCATION.code :: .positiveInteger i ::
        details :: rest))) :
    ∃ (k : Nat) (v : WampInvocation) (uri : Octets) (tail : Tail),
      c.invocations[k]? = some v ∧ v.requestId = i ∧
      rest = .str uri :: tail.objects ∧
      c.RepliedError n k (errorText uri tail.kwArguments) := by
  obtain ⟨buffer, hw, hd⟩ := Client.reads_eq_some.mp hr
  have hid : requestIdOf buffer = none := by
    simp [requestIdOf, hd, MessageType.isRequest]
  have hplain : ¬ PlainFrame buffer := by
    rw [PlainFrame, messageTypeOf_of_decode hd]
    simp
  obtain ⟨k, v, attempt, hv, hreplies, hattempt⟩ := h.reply_of_write hw hid hplain
  obtain ⟨rfl, uri, payload, tail, hframe, htail, rfl⟩ :=
    ReplyAttempt.of_error hattempt hd
  refine ⟨k, v, uri, tail, hv, rfl, rfl, v, uri, payload, tail, buffer, hv, hreplies,
    hframe, hw, htail, ?_⟩
  rw [tail.kwArguments_eq]
  exact describesError_errorText uri tail.kwEntries

/-- What follows in a YIELD is a payload. -/
theorem Client.Reachable.yield_payload (h : c.Reachable) {n : Nat} {i : UInt64}
    {options : Object} {rest : List Object}
    (hr : c.reads n = some (MessageType.YIELD.object
      (.positiveInteger i :: options :: rest))) :
    ∃ arguments kwArguments, readPayload rest = some (arguments, kwArguments) := by
  obtain ⟨buffer, hw, hd⟩ := Client.reads_eq_some.mp hr
  have hid : requestIdOf buffer = none := by
    simp [requestIdOf, hd, MessageType.isRequest]
  have hplain : ¬ PlainFrame buffer := by
    rw [PlainFrame, messageTypeOf_of_decode hd]
    simp
  obtain ⟨k, v, attempt, -, -, hattempt⟩ := h.reply_of_write hw hid hplain
  obtain ⟨-, payload, -, hos⟩ := ReplyAttempt.of_yield hattempt hd
  obtain ⟨arguments, kwArguments, hread, -⟩ := payload.readPayload_objects hos
  exact ⟨arguments, kwArguments, hread⟩

/-- Invocations and runs are only added. -/
theorem Move.hears (h : Move c d) : c.heard <+: d.heard ∧ c.ran <+: d.ran := by
  have hsame : c.Unheard d → c.heard <+: d.heard ∧ c.ran <+: d.ran := fun hu =>
    ⟨hu.heard ▸ List.prefix_refl _, hu.ran ▸ List.prefix_refl _⟩
  have hfields : d.invocations = c.invocations → d.callbacks = c.callbacks →
      c.heard <+: d.heard ∧ c.ran <+: d.ran := fun hinvocations hcallbacks =>
    ⟨by rw [Client.heard, Client.heard, hinvocations],
      by rw [Client.ran, Client.ran, hcallbacks]⟩
  cases h with
  | quiet h =>
      cases h with
      | act h => exact hsame h.unheard
      | event hh => exact hsame (c.unheard_event _ _)
      | invocation hp =>
          simp only [Client.heard, Client.ran, Client.invoke, List.map_append,
            List.filterMap_append]
          exact ⟨List.prefix_append _ _, List.prefix_append _ _⟩
      | _ => exact hfields rfl rfl
  | answer h => cases h <;> exact hfields rfl rfl
  | destroy => exact hfields rfl rfl

theorem Client.step_hears (c : Client) (i : Input) :
    c.heard <+: (c.step i).heard ∧ c.ran <+: (c.step i).ran := by
  have h := c.step_moves i
  generalize c.step i = d at h
  induction h with
  | refl => exact ⟨List.prefix_refl _, List.prefix_refl _⟩
  | tail _ h ih => exact ⟨ih.1.trans h.hears.1, ih.2.trans h.hears.2⟩

end Reads

/-! ## The network with its ERRORs -/

/-- A CALL that the router refused: whose it was and which of the writes, and
what the ERROR said. -/
structure RefusedCall where
  caller : Nat
  call : Nat
  uri : Octets
  tail : Tail

/-- The network and what its router remembers of ERRORs: the relays that ended
with one, with the write of the callee, and the calls it refused. -/
structure CallErrors where
  net : Net
  failures : List (Relay × Nat) := []
  refusals : List RefusedCall := []

/-- An ERROR that answers a call. -/
def Incoming.isCallError : Incoming → Bool
  | .callError .. => true
  | _ => false

def Input.isCallError : Input → Bool
  | .message obj _ => (Incoming.read obj).isCallError
  | _ => false

/-- What the router remembers of the calls it relays. -/
def Net.memory (N : Net) : List Registration × List Relay × List (Relay × Nat) :=
  (N.registrations, N.relays, N.returns)

namespace CallErrors

open MessageType in
/-- A step of the network in which a call hears only ERRORs that are meant for
it, and one answer at most. -/
inductive Step : CallErrors → CallErrors → Prop
  /-- a session on its own, or a message that has no part in a call -/
  | act {S : CallErrors} (k : Nat) {i : Input} (hi : i.isRelayed = false)
      (herror : i.isCallError = false) : Step S { S with net := S.net.act k i }
  /-- a REGISTERED, an INVOCATION or a RESULT -/
  | route {S : CallErrors} {N : Net} (h : S.net.Step N)
      (hmemory : N.memory ≠ S.net.memory)
      (hreturned : ∀ x ∈ N.returns, ∀ w, (x.1, w) ∉ S.failures)
      (hrelayed : ∀ ρ ∈ N.relays, ∀ x ∈ S.refusals,
        ¬ (x.caller = ρ.caller ∧ x.call = ρ.call)) : Step S { S with net := N }
  | fail {S : CallErrors} (ρ : Relay) {w : Nat} {r : UInt64} {options : Object}
      {message rest : List Object} (details : List (Object × Object))
      (user : UserCode) (halive : (S.net.clients ρ.caller).alive = true)
      (hmem : ρ ∈ S.net.relays)
      (honce : ∀ w, (ρ, w) ∉ S.net.returns ∧ (ρ, w) ∉ S.failures)
      (hread : (S.net.clients ρ.callee).reads w = some (ERROR.object
        (.positiveInteger INVOCATION.code :: .positiveInteger ρ.invocation ::
          options :: rest)))
      (hcall : (S.net.clients ρ.caller).reads ρ.call =
        some (CALL.object (.positiveInteger r :: message))) :
      Step S
        { S with
          net := S.net.act ρ.caller (.message (ERROR.object
            (.positiveInteger CALL.code :: .positiveInteger r :: .map details ::
              rest)) user)
          failures := (ρ, w) :: S.failures }
  | refuse {S : CallErrors} {k n : Nat} {r : UInt64} {options : Object}
      {name : Octets} {rest : List Object} (details : List (Object × Object))
      (uri : Octets) (tail : Tail) (user : UserCode)
      (halive : (S.net.clients k).alive = true)
      (hread : (S.net.clients k).reads n =
        some (CALL.object (.positiveInteger r :: options :: .str name :: rest)))
      (hunrelayed : ∀ ρ ∈ S.net.relays, ¬ (ρ.caller = k ∧ ρ.call = n))
      (honce : ∀ x ∈ S.refusals, ¬ (x.caller = k ∧ x.call = n)) :
      Step S
        { S with
          net := S.net.act k (.message (refusal .call r details uri tail) user)
          refusals := ⟨k, n, uri, tail⟩ :: S.refusals }

/-- New sessions on any streams. -/
def new (plans : Nat → Nat → WriteResult) : CallErrors where
  net := Net.new plans

def Reachable (S : CallErrors) : Prop := ∃ plans, ReflTransGen Step (new plans) S

/-! ## Errors arrive -/

/-- The text is that of the reply to the call's own INVOCATION. -/
def Failed (S : CallErrors) (k : Nat) (q : Request) (text : Octets) : Prop :=
  ∃ ρ w run, (ρ, w) ∈ S.failures ∧ ρ.caller = k ∧
    (S.net.clients k).Wrote ρ.call q ∧ run ∈ (S.net.clients ρ.callee).ran ∧
    S.net.Runs ρ run ∧ (S.net.clients ρ.callee).RepliedError w run.2 text

/-- The text is that of the refusal of the call's own CALL. -/
def Declined (S : CallErrors) (k : Nat) (q : Request) (text : Octets) : Prop :=
  ∃ x ∈ S.refusals, x.caller = k ∧ (S.net.clients k).Wrote x.call q ∧
    DescribesError x.uri x.tail.kwEntries text

/-- Results and texts reach the calls that they are meant for. -/
structure Truthful (S : CallErrors) : Prop where
  calls : S.net.NoCrossTalk
  errors : ∀ (k : Nat) (q : Request) (text : Octets),
    q ∈ (S.net.clients k).requests → q.FailedWith text →
    S.Failed k q text ∨ S.Declined k q text

/-! ## What a step keeps -/

/-- Nothing that has happened is forgotten. -/
structure Grows (S T : CallErrors) : Prop where
  net : S.net.Grows T.net
  failures : S.failures ⊆ T.failures
  refusals : S.refusals ⊆ T.refusals

section Keep

variable {S T : CallErrors} {k : Nat} {i : Input}

theorem Failed.mono {q q' : Request} {text : Octets} (h : S.Failed k q text)
    (hreachable : ∀ k, (S.net.clients k).Reachable) (hgrows : S.Grows T)
    (hq' : q' ∈ (T.net.clients k).requests) (hages : q.Ages q') :
    T.Failed k q' text := by
  obtain ⟨ρ, w, run, hfailure, hcaller, hwrote, hran, hruns, hreplied⟩ := h
  refine ⟨ρ, w, run, hgrows.failures hfailure, hcaller, ⟨hq', ?_⟩,
    (hgrows.net.ran _).subset hran, hruns.mono hgrows.net, ?_⟩
  · rw [hages.buffer]
    exact getElem?_of_isPrefix (hgrows.net.client k).writes hwrote.2
  · exact hreplied.mono (hreachable _).replying (hgrows.net.client _)
      (hgrows.net.keeps _)

theorem Declined.mono {q q' : Request} {text : Octets} (h : S.Declined k q text)
    (hgrows : S.Grows T) (hq' : q' ∈ (T.net.clients k).requests)
    (hages : q.Ages q') : T.Declined k q' text := by
  obtain ⟨x, hx, hcaller, hwrote, hdescribes⟩ := h
  refine ⟨x, hgrows.refusals hx, hcaller, ⟨hq', ?_⟩, hdescribes⟩
  rw [hages.buffer]
  exact getElem?_of_isPrefix (hgrows.net.client k).writes hwrote.2

/-- Texts stay what they are, so only one that is new has to be looked at. -/
theorem Truthful.errors_act (hS : S.Truthful)
    (hreachable : ∀ k, (S.net.clients k).Reachable) (hgrows : S.Grows T)
    (hclients : T.net.clients = Machine.stepAt Client.step S.net.clients k i)
    (hnew : ∀ (ref : Nat) (q : Request) (text : Octets) obj user,
      (T.net.clients k).requests[ref]? = some q → i = .message obj user →
      Incoming.read obj = .callError q.requestId text →
      T.Failed k q text ∨ T.Declined k q text)
    (j : Nat) (q : Request) (text : Octets)
    (hq : q ∈ (T.net.clients j).requests) (ho : q.FailedWith text) :
    T.Failed j q text ∨ T.Declined j q text := by
  have hmono : ∀ q₀ ∈ (S.net.clients j).requests, q₀.Ages q →
      q₀.FailedWith text → T.Failed j q text ∨ T.Declined j q text := by
    intro q₀ hq₀ hages ho₀
    exact (hS.errors j q₀ text hq₀ ho₀).imp
      (fun h => h.mono hreachable hgrows hq hages)
      fun h => h.mono hgrows hq hages
  by_cases hj : j = k
  · subst hj
    obtain ⟨ref, href⟩ := List.mem_iff_getElem?.mp hq
    have hstep : ((S.net.clients j).step i).requests[ref]? = some q := by
      rwa [hclients, Machine.stepAt_self] at href
    rcases Client.step_failedWith (hreachable j).coherent hstep ho with
      ⟨q₀, hq₀, hages, ho₀⟩ | ⟨obj, user, hi, hread⟩
    · exact hmono q₀ (List.mem_of_getElem? hq₀) hages ho₀
    · exact hnew ref q text obj user href hi hread
  · have hold : q ∈ (S.net.clients j).requests := by
      rwa [hclients, Machine.stepAt_of_ne hj] at hq
    exact hmono q hold (.refl q) ho

end Keep

/-! ## The steps as steps of the network -/

theorem isRelayed_refusal (r : UInt64) (details : List (Object × Object))
    (uri : Octets) (tail : Tail) :
    (Incoming.read (refusal .call r details uri tail)).isRelayed = false := by
  rw [read_refusal, if_pos rfl]
  rfl

theorem isRelayed_error (fields : List Object) :
    (Incoming.read (MessageType.ERROR.object fields)).isRelayed = false := by
  rw [read_object, readFields, readError]
  split
  · rfl
  · unfold readErrorFields
    split
    · split
      · rfl
      · split
        · unfold readErrorBody
          split
          · split
            · split <;> rfl
            · rfl
          · rfl
        · rfl
    · rfl

theorem Step.net {S T : CallErrors} (h : Step S T) : S.net.Step T.net := by
  cases h with
  | act k hi herror => exact .act k hi
  | route h hmemory hreturned hrelayed => exact h
  | fail ρ details user halive hmem honce hread hcall =>
      exact .act ρ.caller (isRelayed_error _)
  | refuse details uri tail user halive hread hunrelayed honce =>
      exact .act _ (isRelayed_refusal _ details uri tail)

end CallErrors

theorem Net.Grows.act {N M : Net} {k : Nat} {i : Input}
    (hclients : M.clients = Machine.stepAt Client.step N.clients k i)
    (hregistrations : N.registrations ⊆ M.registrations)
    (hreturns : N.returns ⊆ M.returns) : N.Grows M :=
  .of_act hclients ((N.clients k).step_hears i).1 ((N.clients k).step_hears i).2
    hregistrations hreturns

theorem Net.Step.grows {N M : Net} (h : N.Step M) : N.Grows M := by
  cases h with
  | act k hi => exact .act rfl (List.Subset.refl _) (List.Subset.refl _)
  | register g user halive hread =>
      exact .act rfl (List.subset_cons_self _ _) (List.Subset.refl _)
  | invoke i details user halive hread honce hroute hname hfresh =>
      exact .act rfl (List.Subset.refl _) (List.Subset.refl _)
  | result ρ details user halive hmem honce hread hcall =>
      exact .act rfl (List.Subset.refl _) (List.subset_cons_self _ _)

/-- An invocation under the id of a relay is the one that was made for it. -/
theorem Net.Sound.run_of_relay {N : Net} (hN : N.Sound) {ρ : Relay}
    (hρ : ρ ∈ N.relays) {h : Nat} {v : WampInvocation}
    (hv : (N.clients ρ.callee).invocations[h]? = some v)
    (hid : v.requestId = ρ.invocation) :
    ∃ run, run ∈ (N.clients ρ.callee).ran ∧ run.2 = h ∧ N.Runs ρ run := by
  have hheard : (N.clients ρ.callee).heard[h]? = some v.heard := by
    rw [Client.heard, List.getElem?_map, hv]
    rfl
  obtain ⟨p, hran⟩ := (hN.reachable ρ.callee).numbered.exists_ran hheard
  obtain ⟨ρ', hρ', hruns⟩ := exists_of_forall₂ (hN.calls.runs ρ.callee) hran
  obtain ⟨hmem, hcallee⟩ := List.mem_filter.mp hρ'
  have hcallee : ρ'.callee = ρ.callee := by simpa using hcallee
  obtain ⟨_, _, _, _, _, -, -, hheard', -⟩ := hruns.payload
  have hinvocation : ρ'.invocation = ρ.invocation := by
    rw [hcallee, hheard] at hheard'
    exact ((Prod.mk.inj (Option.some.inj hheard')).1.symm).trans hid
  obtain rfl := hN.distinct ρ' hmem ρ hρ hcallee hinvocation
  exact ⟨(p, h), hran, rfl, hruns⟩

/-- The request that an id in use names is the one that wrote the frame. -/
theorem Client.Wrote.eq_of_requestId {c d : Client} {n ref : Nat} {q₀ q : Request}
    (h : c.Wrote n q₀) (hgrows : c.Grows d) (hfresh : d.Fresh)
    (hq : d.requests[ref]? = some q) (hid : q₀.requestId = q.requestId) :
    d.Wrote n q := by
  obtain ⟨q₁, hwrote, hages⟩ := h.mono hgrows
  obtain ⟨ref₁, href₁⟩ := List.mem_iff_getElem?.mp hwrote.1
  obtain rfl := hfresh.inj href₁ hq (hages.requestId.trans hid)
  obtain rfl := Option.some.inj (href₁.symm.trans hq)
  exact hwrote

namespace CallErrors

section Truthful

variable {S T : CallErrors}

theorem read_error_of_refusal {r : UInt64} {details : List (Object × Object)}
    {uri : Octets} {tail : Tail} {id : UInt64} {text : Octets}
    (h : Incoming.read (refusal .call r details uri tail) = .callError id text) :
    r = id ∧ text = errorText uri tail.kwArguments := by
  rw [read_refusal, if_pos rfl] at h
  obtain ⟨hid, htext⟩ := Incoming.callError.inj h
  exact ⟨hid, htext.symm⟩

/-- Steps that deliver no ERROR for a call. -/
theorem Truthful.of_quiet (hS : S.Truthful) {k : Nat} {i : Input}
    (hreachable : ∀ k, (S.net.clients k).Reachable) (hgrows : S.Grows T)
    (hclients : T.net.clients = Machine.stepAt Client.step S.net.clients k i) (hT : T.net.Sound)
    (hquiet : i.isCallError = false) : T.Truthful where
  calls := hT.calls
  errors := hS.errors_act hreachable hgrows hclients
    fun ref q text obj user _ heq hread => by
      rw [heq, Input.isCallError, hread] at hquiet
      cases hquiet

theorem Truthful.route (hS : S.Truthful)
    (hreachable : ∀ k, (S.net.clients k).Reachable) {N : Net}
    (h : S.net.Step N) (hmemory : N.memory ≠ S.net.memory) (hN : N.Sound) :
    ({ S with net := N } : CallErrors).Truthful := by
  have hgrows : S.Grows { S with net := N } :=
    ⟨h.grows, List.Subset.refl _, List.Subset.refl _⟩
  cases h with
  | act k hi => exact absurd rfl hmemory
  | register g user halive hread =>
      refine hS.of_quiet hreachable hgrows rfl hN ?_
      rw [Input.isCallError, read_object]
      rfl
  | invoke i details user halive hread honce hroute hname hfresh =>
      refine hS.of_quiet hreachable hgrows rfl hN ?_
      rw [Input.isCallError, read_object, readFields, readInvocation]
      split <;> rfl
  | result ρ details user halive hmem honce hread hcall =>
      refine hS.of_quiet hreachable hgrows rfl hN ?_
      rw [Input.isCallError, read_object, readFields, readResult]
      split <;> rfl

theorem Truthful.fail (hS : S.Truthful) (hsound : S.net.Sound) (ρ : Relay) {w : Nat}
    {r : UInt64} {options : Object} {message rest : List Object}
    {details : List (Object × Object)} {user : UserCode} (hmem : ρ ∈ S.net.relays)
    (hread : (S.net.clients ρ.callee).reads w = some (MessageType.ERROR.object
      (.positiveInteger MessageType.INVOCATION.code ::
        .positiveInteger ρ.invocation :: options :: rest)))
    (hcall : (S.net.clients ρ.caller).reads ρ.call =
      some (MessageType.CALL.object (.positiveInteger r :: message)))
    (hT : T = { S with
      net := S.net.act ρ.caller (.message (MessageType.ERROR.object
        (.positiveInteger MessageType.CALL.code :: .positiveInteger r ::
          .map details :: rest)) user)
      failures := (ρ, w) :: S.failures })
    (hnet : T.net.Sound)
    (hlt : (T.net.clients ρ.caller).issued < UInt64.size) : T.Truthful := by
  obtain ⟨h, v, uri, tail, hv, hid, rfl, hreplied⟩ :=
    (hsound.reachable ρ.callee).wrote_error hread
  obtain ⟨run, hran, rfl, hruns⟩ := hsound.run_of_relay hmem hv hid
  have hgrows : S.Grows T := by
    subst hT
    exact ⟨.act rfl (List.Subset.refl _) (List.Subset.refl _),
      List.subset_cons_self _ _, List.Subset.refl _⟩
  have hclients : T.net.clients = (S.net.act ρ.caller
      (.message (refusal .call r details uri tail) user)).clients :=
    congrArg (fun T : CallErrors => T.net.clients) hT
  refine ⟨hnet.calls, hS.errors_act hsound.reachable hgrows hclients
    fun ref q text obj user' hq heq hmsg => .inl ?_⟩
  obtain ⟨rfl, -⟩ := Input.message.inj heq
  obtain ⟨hr, rfl⟩ := read_error_of_refusal hmsg
  -- the request that the id names is the one that wrote the CALL
  obtain ⟨_, _, _, _, _, -, ⟨q₀, hwrote, -⟩, -⟩ := hruns.payload
  have hid₀ := hwrote.requestId_eq (hsound.reachable ρ.caller).coherent rfl hcall
  exact ⟨ρ, w, run, by subst hT; exact List.mem_cons_self, rfl,
    hwrote.eq_of_requestId (hgrows.net.client _)
      ((hnet.reachable ρ.caller).fresh hlt) hq (hid₀.trans hr),
    (hgrows.net.ran _).subset hran, hruns.mono hgrows.net,
    hreplied.mono (hsound.reachable _).replying (hgrows.net.client _)
      (hgrows.net.keeps _)⟩

theorem Truthful.refuse (hS : S.Truthful) (hsound : S.net.Sound) {k n : Nat}
    {r : UInt64} {options : Object} {name : Octets} {rest : List Object}
    {details : List (Object × Object)} {uri : Octets} {tail : Tail}
    {user : UserCode}
    (hread : (S.net.clients k).reads n = some (MessageType.CALL.object
      (.positiveInteger r :: options :: .str name :: rest)))
    (hT : T = { S with
      net := S.net.act k (.message (refusal .call r details uri tail) user)
      refusals := ⟨k, n, uri, tail⟩ :: S.refusals })
    (hnet : T.net.Sound)
    (hlt : (T.net.clients k).issued < UInt64.size) : T.Truthful := by
  have hgrows : S.Grows T := by
    subst hT
    exact ⟨.act rfl (List.Subset.refl _) (List.Subset.refl _),
      List.Subset.refl _, List.subset_cons_self _ _⟩
  have hclients : T.net.clients = (S.net.act k
      (.message (refusal .call r details uri tail) user)).clients :=
    congrArg (fun T : CallErrors => T.net.clients) hT
  refine ⟨hnet.calls, hS.errors_act hsound.reachable hgrows hclients
    fun ref q text obj user' hq heq hmsg => .inr ?_⟩
  obtain ⟨rfl, -⟩ := Input.message.inj heq
  obtain ⟨hr, rfl⟩ := read_error_of_refusal hmsg
  obtain ⟨q₀, payload, hwrote, hid₀, -⟩ := (hsound.reachable k).wrote_call hread
  refine ⟨⟨k, n, uri, tail⟩, by subst hT; exact List.mem_cons_self, rfl,
    hwrote.eq_of_requestId (hgrows.net.client k)
      ((hnet.reachable k).fresh hlt) hq (hid₀.trans hr), ?_⟩
  rw [tail.kwArguments_eq]
  exact describesError_errorText uri tail.kwEntries

theorem Truthful.step (hS : S.Truthful) (hsound : S.net.Sound) (h : Step S T)
    (hids : ∀ k, (T.net.clients k).issued < UInt64.size) : T.Truthful := by
  have hnet : T.net.Sound := hsound.step h.net hids
  cases h with
  | act k hi herror =>
      exact hS.of_quiet hsound.reachable
        ⟨.act rfl (List.Subset.refl _) (List.Subset.refl _), List.Subset.refl _,
          List.Subset.refl _⟩ rfl hnet herror
  | route h hmemory hreturned hrelayed =>
      exact hS.route hsound.reachable h hmemory hnet
  | fail ρ details user halive hmem honce hread hcall =>
      exact hS.fail hsound ρ hmem hread hcall rfl hnet (hids _)
  | refuse details uri tail user halive hread hunrelayed honce =>
      exact hS.refuse hsound hread rfl hnet (hids _)

theorem truthful_new (plans : Nat → Nat → WriteResult) : (new plans).Truthful where
  calls := (Net.sound_new plans).calls
  errors k q text hq := by cases hq

/-- With its ERRORs the network is still the network. -/
theorem Reachable.net (h : S.Reachable) : S.net.Reachable := by
  obtain ⟨plans, hsteps⟩ := h
  refine ⟨plans, ?_⟩
  induction hsteps with
  | refl => exact .refl
  | tail _ hstep ih => exact ih.tail hstep.net

theorem Reachable.truthful (h : S.Reachable)
    (hids : ∀ k, (S.net.clients k).issued < UInt64.size) : S.Truthful := by
  obtain ⟨plans, hsteps⟩ := h
  induction hsteps with
  | refl => exact truthful_new plans
  | tail hsteps hstep ih =>
      have hids' := fun k => Nat.lt_of_le_of_lt (hstep.net.issued_le k) (hids k)
      exact (ih hids').step (Reachable.net ⟨plans, hsteps⟩ |>.sound hids') hstep hids

/-- **Errors arrive.** In whatever order sessions and router take their steps, a
call that fails with a text has the one that the reply to its own INVOCATION
describes, or the refusal of its own CALL, and results go where they belong. -/
theorem Reachable.errors_arrive (h : S.Reachable)
    (hids : ∀ k, (S.net.clients k).issued < UInt64.size) : S.Truthful :=
  h.truthful hids

end Truthful

/-! ## A call that throws, and one that is refused -/

theorem reachable_offered : ({ net := Net.offered } : CallErrors).Reachable := by
  have h := (((ReflTransGen.single (Step.act (S := new fun _ _ => .complete) 0
    (i := .message (MessageType.WELCOME.object [.positiveInteger 7]) fun _ => {})
    rfl rfl)).tail (.act 0 (i := .operate (.provide (octets "com.f") ⟨3⟩ [])) rfl
    rfl)).tail (.act 0 (i := .task 0) rfl rfl)).tail (.act 1 (i := .message
    (MessageType.WELCOME.object [.positiveInteger 8]) fun _ => {}) rfl rfl)
  exact ⟨_, h.tail (.route (Net.Step.register (k := 0) (n := 0) 5 (fun _ => {})
    rfl rfl) (fun h => by cases congrArg (fun m => m.1.length) h)
    (fun x hx => by cases hx) fun ρ hρ => by cases hρ)⟩

/-- The outcomes of a call of `com.f`, which throws, and one of `com.g`, which
nobody has registered. -/
def twoErrors : List (Option (Except Exn Reply)) :=
  [some (.error (.runtimeError (octets "wamp.error.runtime_error: x"))),
    some (.error (.runtimeError (octets "wamp.error.no_such_procedure")))]

theorem exists_two_errors : ∃ S : CallErrors, S.Reachable ∧
    (∀ k, (S.net.clients k).issued < UInt64.size) ∧
    (S.net.clients 1).requests.map (fun q => q.promise.outcome) = twoErrors ∧
    S.net.returns = [] ∧ S.failures = [(⟨1, 0, ⟨0, 5, 0⟩, 9⟩, 1)] ∧
    S.refusals = [⟨1, 1, octets "wamp.error.no_such_procedure", .none⟩] := by
  obtain ⟨plans, h⟩ := reachable_offered
  have hcall := (h.tail (.act 1 (i := .operate
    (.call (octets "com.f") .none)) rfl rfl)).tail (.act 1 (i := .task 0) rfl rfl)
  have hinvoke := hcall.tail (.route (Net.Step.invoke (k := 1) (n := 0)
    (x := ⟨0, 5, 0⟩) 9 [] (fun _ => { ending := .throwsStd (octets "x") }) rfl rfl
    (fun ρ hρ => by cases hρ) rfl rfl fun ρ hρ => by cases hρ)
    (fun h => by cases congrArg (fun m => m.2.1.length) h)
    (fun x hx => by cases hx) fun ρ hρ x hx => by cases hx)
  have hfail := hinvoke.tail (.fail ⟨1, 0, ⟨0, 5, 0⟩, 9⟩ (w := 1) [] (fun _ => {})
    rfl (List.mem_singleton_self _)
    (fun w => ⟨fun hw => (by cases hw), fun hw => (by cases hw)⟩) rfl rfl)
  have hother := (hfail.tail (.act 1 (i := .operate
    (.call (octets "com.g") .none)) rfl rfl)).tail (.act 1 (i := .task 0) rfl rfl)
  have hrefuse := hother.tail (.refuse (k := 1) (n := 1) []
    (octets "wamp.error.no_such_procedure") .none (fun _ => {}) rfl rfl
    (fun ρ hρ => by
      obtain rfl := List.mem_singleton.mp hρ
      decide)
    fun x hx => by cases hx)
  refine ⟨_, ⟨plans, hrefuse⟩, ?_, rfl, rfl, rfl, rfl⟩
  rintro (_ | _ | k)
  · decide
  · decide
  · exact Nat.zero_lt_of_lt (show 0 < UInt64.size by decide)

theorem errors_arrive_two_calls : ∃ S : CallErrors, S.Reachable ∧ S.Truthful ∧
    (S.net.clients 1).requests.map (fun q => q.promise.outcome) = twoErrors := by
  obtain ⟨S, h, hids, houtcomes, -⟩ := exists_two_errors
  exact ⟨S, h, Reachable.errors_arrive h hids, houtcomes⟩

end CallErrors

end Autobahn
