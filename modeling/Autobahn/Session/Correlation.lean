import Autobahn.Session.Answers

/-!
# A reply reaches its own request

`Correlated` is what a caller relies on: request ids on the wire are distinct,
no table entry is ever shadowed, and a reply with id `r`, however wrong, can
only touch the operation whose frame carried `r`.
-/

namespace Autobahn

open Foundation MsgPack

/-- What a raw object replies to: the kind of request and the request id of
a RESULT, CALL ERROR, SUBSCRIBED, UNSUBSCRIBED or REGISTERED. -/
def replyTo : Object → Option (RequestKind × UInt64)
  | .array (.positiveInteger n :: .positiveInteger r :: fields) =>
      if n = MessageType.RESULT.code then some (.call, r)
      else if n = MessageType.SUBSCRIBED.code then some (.subscribe, r)
      else if n = MessageType.UNSUBSCRIBED.code then some (.unsubscribe, r)
      else if n = MessageType.REGISTERED.code then some (.register, r)
      else if n = MessageType.ERROR.code ∧ r = MessageType.CALL.code then
        match fields with
        | .positiveInteger r' :: _ => some (.call, r')
        | _ => none
      else none
  | _ => none

/-- The subscription or registration id a raw object carries. -/
def grantedId : Object → Option UInt64
  | .array (_ :: _ :: .positiveInteger s :: _) => some s
  | _ => none

/-- What is read off an object replies to the same request. -/
def Incoming.RepliesTo (i : Incoming) (obj : Object) (k : RequestKind)
    (r : UInt64) : Prop :=
  i = .malformed ∨
  (∃ text, k = .call ∧ i = .callError r text) ∨
  (∃ value, k = .call ∧ i = .result r value) ∨
  (∃ s, k = .subscribe ∧ i = .subscribed r s ∧ grantedId obj = some s) ∨
  (k = .unsubscribe ∧ i = .unsubscribed r) ∨
  ∃ g, k = .register ∧ i = .registered r g ∧ grantedId obj = some g

theorem readResult_cases (r : UInt64) (fields : List Object) :
    readResult (.positiveInteger r :: fields) = .malformed ∨
    ∃ value, readResult (.positiveInteger r :: fields) = .result r value := by
  rcases fields with _ | ⟨d, rest⟩
  · exact .inl rfl
  · cases d <;> try exact .inl rfl
    case map m =>
      cases hp : readPayload rest <;> simp [readResult, hp]

theorem readError_cases (r : UInt64) (fields : List Object) :
    readError (.positiveInteger MessageType.CALL.code :: .positiveInteger r ::
      fields) = .malformed ∨
    ∃ text, readError (.positiveInteger MessageType.CALL.code ::
      .positiveInteger r :: fields) = .callError r text := by
  have hmax : ¬ Conversion.intMax < MessageType.CALL.code := by decide
  have hty : isErrorType MessageType.CALL.code := .inl rfl
  unfold readError
  split
  · exact .inl rfl
  rw [readErrorFields, if_neg hmax, if_pos hty]
  rcases fields with _ | ⟨d, _ | ⟨uri, rest⟩⟩
  · exact .inl rfl
  · cases d <;> exact .inl rfl
  · cases d <;> try exact .inl rfl
    case map m =>
      cases uri <;> try exact .inl rfl
      case str uri =>
        cases hp : readPayload rest <;> simp [readErrorBody, hp]

theorem read_of_code (t : MessageType) (fields : List Object) :
    Incoming.read (.array (.positiveInteger t.code :: fields)) =
      readFields t fields := by
  have hmax : ¬ Conversion.intMax < t.code := by cases t <;> decide
  simp [Incoming.read, hmax]

theorem read_object (t : MessageType) (fields : List Object) :
    Incoming.read (t.object fields) = readFields t fields :=
  read_of_code t fields

theorem read_repliesTo {obj : Object} {k : RequestKind} {r : UInt64}
    (h : replyTo obj = some (k, r)) : (Incoming.read obj).RepliesTo obj k r := by
  unfold replyTo at h
  split at h
  case h_2 => cases h
  case h_1 n r' fields =>
    split at h
    · next hn =>
      obtain ⟨rfl, rfl⟩ := Prod.mk.inj (Option.some.inj h)
      subst hn
      rw [read_of_code, readFields]
      rcases readResult_cases r' fields with hr | ⟨v, hr⟩ <;>
        simp [hr, Incoming.RepliesTo]
    split at h
    · next hn =>
      obtain ⟨rfl, rfl⟩ := Prod.mk.inj (Option.some.inj h)
      subst hn
      rw [read_of_code, readFields]
      rcases fields with _ | ⟨s, _ | ⟨x, rest⟩⟩
      · exact .inl rfl
      · cases s <;> simp [readSubscribed, Incoming.RepliesTo, grantedId]
      · cases s <;> exact .inl rfl
    split at h
    · next hn =>
      obtain ⟨rfl, rfl⟩ := Prod.mk.inj (Option.some.inj h)
      subst hn
      rw [read_of_code, readFields]
      rcases fields with _ | ⟨s, rest⟩ <;>
        simp [readUnsubscribed, Incoming.RepliesTo]
    split at h
    · next hn =>
      obtain ⟨rfl, rfl⟩ := Prod.mk.inj (Option.some.inj h)
      subst hn
      rw [read_of_code, readFields]
      rcases fields with _ | ⟨g, _ | ⟨x, rest⟩⟩
      · exact .inl rfl
      · cases g <;> simp [readRegistered, Incoming.RepliesTo, grantedId]
      · cases g <;> exact .inl rfl
    split at h
    · next hn =>
      obtain ⟨rfl, rfl⟩ := hn
      split at h
      · next fields r'' tail =>
        obtain ⟨rfl, rfl⟩ := Prod.mk.inj (Option.some.inj h)
        rw [read_of_code, readFields]
        rcases readError_cases r'' tail with hr | ⟨text, hr⟩ <;>
          simp [hr, Incoming.RepliesTo]
      · cases h
    · cases h

/-! ## What a reply may touch -/

/-- The operation of kind `k` whose own frame carries `r`. -/
structure Request.Carries (q : Request) (k : RequestKind) (r : UInt64) :
    Prop where
  kind : q.kind = k
  frame : requestIdOf q.buffer = some r

/-- From `c` to `d` nothing changed but the promise of the operation of kind
`k` whose frame carried `r`, and what that operation installs under the id the
message carries. -/
structure Client.AnswersOnly (c d : Client) (obj : Object) (k : RequestKind)
    (r : UInt64) : Prop where
  requests : ∀ ref : Nat, d.requests[ref]? ≠ c.requests[ref]? →
    ∃ q : Request, c.requests[ref]? = some q ∧ q.Carries k r
  handlers :
    d.session.subscriptionHandlers = c.session.subscriptionHandlers ∨
    ∃ q ∈ c.requests, q.Carries k r ∧ ∃ topic handler s,
      q.operation = .subscribe topic handler ∧ grantedId obj = some s ∧
      d.session.subscriptionHandlers =
        c.session.subscriptionHandlers.insert s handler
  procedures : d.session.procedures = c.session.procedures ∨
    ∃ q ∈ c.requests, q.Carries k r ∧ ∃ name procedure options g,
      q.operation = .provide name procedure options ∧
      grantedId obj = some g ∧
      d.session.procedures = c.session.procedures.assign g procedure

section

variable {c d : Client} {obj : Object} {k : RequestKind} {r : UInt64}

theorem Client.AnswersOnly.refl (c : Client) (obj : Object) (k : RequestKind)
    (r : UInt64) : c.AnswersOnly c obj k r where
  requests := fun _ h => absurd rfl h
  handlers := .inl rfl
  procedures := .inl rfl

theorem Client.Coherent.carries (hc : c.Coherent) {ref : Nat} {entry : Entry}
    (h : c.session.entryAt k r = some (ref, entry)) :
    ∃ q : Request, c.requests[ref]? = some q ∧ q.Carries k r ∧
      q.operation.Submits r entry q.buffer := by
  obtain ⟨q, hq, hm, rfl, -⟩ := hc.entries h
  exact ⟨q, hq, ⟨hm.kind.trans (WampSession.entryAt_kind h),
    hm.submits.requestIdOf⟩, hm.submits⟩

theorem Operation.Submits.eq_subscribe {op : Operation} {buffer : Frame}
    {handler : WampEventHandler} (h : op.Submits r (.subscribe handler) buffer) :
    ∃ topic, op = .subscribe topic handler := by
  cases h
  exact ⟨_, rfl⟩

theorem Operation.Submits.eq_provide {op : Operation} {buffer : Frame}
    {procedure : WampProcedure} (h : op.Submits r (.register procedure) buffer) :
    ∃ name options, op = .provide name procedure options := by
  cases h
  exact ⟨_, _, rfl⟩

/-- Settling the promise of an entry touches the operation of its key. -/
theorem Client.Coherent.settled_requests (hc : c.Coherent) {ref : Nat}
    {entry : Entry} (h : c.session.entryAt k r = some (ref, entry))
    {o : Except Exn Reply} (hreq : d.requests = (c.settled ref o).requests) :
    ∀ i : Nat, d.requests[i]? ≠ c.requests[i]? →
      ∃ q : Request, c.requests[i]? = some q ∧ q.Carries k r := by
  intro i hne
  obtain ⟨q, hq, hcarries, -⟩ := hc.carries h
  rcases eq_or_ne ref i with rfl | hi
  · exact ⟨q, hq, hcarries⟩
  · rw [hreq, Client.settled, Client.getElem?_modifyRequest, if_neg hi] at hne
    exact absurd rfl hne

theorem Client.Coherent.settleRequest_answersOnly (hc : c.Coherent)
    {ref : Nat} {entry : Entry}
    (h : c.session.entryAt k r = some (ref, entry)) (o : Except Exn Reply) :
    c.AnswersOnly ((settleRequest ref o).run c).2 obj k r := by
  rcases hc.run_settleRequest h o with ⟨-, hrun⟩ | ⟨-, hrun⟩
  · rw [hrun]
    exact ⟨hc.settled_requests h rfl, .inl rfl, .inl rfl⟩
  · rw [hrun]
    exact .refl c obj k r

/-- Handling a reply touches the operation it replies to, and no other. -/
theorem Client.Coherent.handle_answersOnly (hc : c.Coherent)
    (ha : c.alive = true) (user : UserCode) {i : Incoming}
    (hi : i.RepliesTo obj k r) :
    c.AnswersOnly ((i.handle user).run c).2 obj k r := by
  rcases hi with rfl | ⟨text, rfl, rfl⟩ | ⟨value, rfl, rfl⟩ |
    ⟨s, rfl, rfl, hs⟩ | ⟨rfl, rfl⟩ | ⟨g, rfl, rfl, hg⟩
  · exact .refl c obj k r
  · cases h : c.session.calls.find r with
    | none => rw [run_callError_none user h]; exact .refl ..
    | some e =>
        rw [run_callError user h]
        exact hc.settleRequest_answersOnly (WampSession.entryAt_call h) _
  · cases h : c.session.calls.find r with
    | none => rw [run_result_none user h]; exact .refl ..
    | some e =>
        rw [run_result user h]
        exact hc.settleRequest_answersOnly (WampSession.entryAt_call h) _
  · cases h : c.session.subscribeRequests.find r with
    | none => rw [run_subscribed_none user h]; exact .refl ..
    | some e =>
        rw [hc.run_subscribed user ha s h]
        obtain ⟨q, hq, hcarries, hsub⟩ :=
          hc.carries (WampSession.entryAt_subscribe h)
        refine ⟨hc.settled_requests (WampSession.entryAt_subscribe h) rfl,
          .inr ⟨q, List.mem_of_getElem? hq, hcarries, ?_⟩, .inl rfl⟩
        obtain ⟨topic, hop⟩ := hsub.eq_subscribe
        exact ⟨topic, e.handler, s, hop, hs, rfl⟩
  · cases h : c.session.unsubscribeRequests.find r with
    | none => rw [run_unsubscribed_none user h]; exact .refl ..
    | some e =>
        rw [hc.run_unsubscribed user ha h]
        exact ⟨hc.settled_requests (WampSession.entryAt_unsubscribe h) rfl,
          .inl rfl, .inl rfl⟩
  · cases h : c.session.registerRequests.find r with
    | none => rw [run_registered_none user h]; exact .refl ..
    | some e =>
        obtain ⟨q, hq, hcarries, hsub⟩ :=
          hc.carries (WampSession.entryAt_register h)
        have hown : ∃ name procedure options g',
            q.operation = .provide name procedure options ∧
            grantedId obj = some g' ∧
            (c.installProcedure g e.procedure).session.procedures =
              c.session.procedures.assign g' procedure := by
          obtain ⟨name, options, hop⟩ := hsub.eq_provide
          exact ⟨name, e.procedure, options, g, hop, hg, rfl⟩
        have hmem := List.mem_of_getElem? hq
        rcases hc.run_registered_cases user g h with ⟨-, hrun⟩ | ⟨-, hrun⟩ <;>
          rw [hrun]
        · exact ⟨hc.settled_requests (WampSession.entryAt_register h) rfl,
            .inl rfl, .inr ⟨q, hmem, hcarries, hown⟩⟩
        · exact ⟨fun _ h' => absurd rfl h', .inl rfl,
            .inr ⟨q, hmem, hcarries, hown⟩⟩

end

/-! ## Correlation -/

/-- Requests and replies are correlated by request id. -/
structure Client.Correlated (c : Client) : Prop where
  /-- the ids in the frames written so far -/
  distinct : c.writtenIds.Nodup
  /-- no `emplace` has met an existing key -/
  unshadowed : c.collisions = 0
  unique : ∀ {i j : Nat} {q q' : Request}, c.requests[i]? = some q → c.requests[j]? = some q' →
    requestIdOf q.buffer = requestIdOf q'.buffer → i = j
  keyed : ∀ {k r ref}, c.session.pending k r = some ref →
    ∃ q : Request, c.requests[ref]? = some q ∧ q.Carries k r
  replies : ∀ {obj k r}, replyTo obj = some (k, r) → ∀ user,
    c.AnswersOnly (c.step (.message obj user)) obj k r

/-- **Correlation.** In every state a session can reach with fewer than 2^64
ids taken, a request id names one operation: on the wire, in the tables, and
for whatever reply comes in. -/
theorem Client.Reachable.correlated {c : Client} (h : c.Reachable)
    (hlt : c.issued < UInt64.size) : c.Correlated := by
  have hc := h.coherent
  have hf := h.fresh hlt
  constructor
  case distinct => exact hf.distinct.sublist (List.sublist_append_left _ _)
  case unshadowed => exact hf.collisions
  case unique =>
    intro i j q q' hi hj heq
    obtain ⟨entry, hm⟩ := hc.made q (List.mem_of_getElem? hi)
    obtain ⟨entry', hm'⟩ := hc.made q' (List.mem_of_getElem? hj)
    rw [hm.submits.requestIdOf, hm'.submits.requestIdOf] at heq
    exact hf.inj hi hj (Option.some.inj heq)
  case keyed =>
    intro k r ref hp
    rw [WampSession.pending_eq, Option.map_eq_some_iff] at hp
    obtain ⟨⟨_, entry⟩, hentry, rfl⟩ := hp
    obtain ⟨q, hq, hcarries, -⟩ := hc.carries hentry
    exact ⟨q, hq, hcarries⟩
  case replies =>
    intro obj k r hreply user
    rw [Client.step_message]
    split
    · next ha => exact hc.handle_answersOnly ha user (read_repliesTo hreply)
    · exact .refl c obj k r

/-- A call and a subscribe under way: their ids are 1 and 2. -/
theorem correlated_call_subscribe :
    let c := (Client.new fun _ => .complete).runs
      [.message (MessageType.WELCOME.object [.positiveInteger 7]) fun _ => {},
        .operate (.call (octets "com.f") .none),
        .operate (.subscribe (octets "com.t") ⟨0⟩), .task 0, .task 0]
    c.writtenIds = [1, 2] ∧ c.Correlated :=
  ⟨rfl, (Client.reachable_runs _ _).correlated (by decide)⟩

end Autobahn
