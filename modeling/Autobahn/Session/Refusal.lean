import Autobahn.Session.Rejection

/-!
# Where a router's refusal ends up

`[ERROR, k, r, Details, Error(, Arguments(, ArgumentsKw))]` is the router's
way to refuse the request of kind `k` with id `r`. `refusal_iff` says when
such a message does to the session what it is meant to do.
-/

namespace Autobahn

open Foundation MsgPack

/-- The message code of a request of this kind. -/
def RequestKind.messageType : RequestKind → MessageType
  | .call => .CALL
  | .subscribe => .SUBSCRIBE
  | .unsubscribe => .UNSUBSCRIBE
  | .register => .REGISTER

/-- `[ERROR, k, r, Details, Error(, Arguments(, ArgumentsKw))]` -/
def refusal (k : RequestKind) (r : UInt64) (details : List (Object × Object))
    (uri : Octets) (tail : Tail) : Object :=
  MessageType.ERROR.object (.positiveInteger k.messageType.code ::
    .positiveInteger r :: .map details :: .str uri :: tail.objects)

/-- Between `c` and `d` the promise of `ref`, pending for `(k, r)`, got an
exception whose text starts with the URI, and no other pending request, no
handler and no procedure changed. -/
structure Client.RefusedTo (c d : Client) (k : RequestKind) (r : UInt64)
    (ref : Nat) (uri : Octets) : Prop where
  waited : c.Unsettled ref
  failed : ∃ q text, d.requests[ref]? = some q ∧ uri <+: text ∧
    q.promise.outcome = some (.error (.runtimeError text))
  others : ∀ i ≠ ref, d.requests[i]? = c.requests[i]?
  tables : ∀ k' r', (k', r') ≠ (k, r) →
    d.session.pending k' r' = c.session.pending k' r'
  handlers : d.session.subscriptionHandlers = c.session.subscriptionHandlers
  procedures : d.session.procedures = c.session.procedures

/-- The refusal reaches its request, and is a `protocol_error` when there is
none. -/
def Client.RefusalReaches (c : Client) (user : UserCode) (k : RequestKind)
    (r : UInt64) (details : List (Object × Object)) (uri : Octets)
    (tail : Tail) : Prop :=
  (∀ ref, c.session.pending k r = some ref →
    ((gotMessage user (refusal k r details uri tail)).run c).1 = .ok () ∧
    c.RefusedTo ((gotMessage user (refusal k r details uri tail)).run c).2
      k r ref uri) ∧
  (c.session.pending k r = none →
    ∃ what, ((gotMessage user (refusal k r details uri tail)).run c).1 =
      .error (.throws (.protocolError what)))

theorem isPrefix_errorText (uri : Octets) (kwArguments : Object) :
    uri <+: errorText uri kwArguments := by
  unfold errorText
  split
  · split
    · rw [List.append_assoc]
      exact List.prefix_append uri _
    · exact List.prefix_refl uri
  · exact List.prefix_append uri _

/-- Only a refused CALL is read as more than a message to ignore. -/
theorem read_refusal (k : RequestKind) (r : UInt64)
    (details : List (Object × Object)) (uri : Octets) (tail : Tail) :
    Incoming.read (refusal k r details uri tail) =
      if k = .call then .callError r (errorText uri tail.kwArguments)
      else .ignored := by
  have hlen := tail.length_objects_le
  have hmax : ¬ Conversion.intMax < k.messageType.code := by cases k <;> decide
  have hty : isErrorType k.messageType.code := by cases k <;> decide
  have hcall : (k.messageType.code = MessageType.CALL.code) = (k = .call) := by
    cases k <;> simp [RequestKind.messageType, MessageType.code]
  rw [refusal, MessageType.object, read_of_code, readFields, readError,
    if_neg (by simp only [List.length_cons]; omega), readErrorFields,
    if_neg hmax, if_pos hty, readErrorBody, readPayload_objects]
  simp only [hcall]

section

variable {c : Client}

theorem Client.observe_refusal (c : Client) (user : UserCode) (k : RequestKind)
    (r : UInt64) (details : List (Object × Object)) (uri : Octets)
    (tail : Tail) :
    observe (gotMessage user (refusal k r details uri tail)) c =
      observe ((if k = .call then
        Incoming.callError r (errorText uri tail.kwArguments)
        else .ignored).handle user) c := by
  rw [gotMessage_observe, read_refusal]

theorem Client.refusedTo_settled {ref : Nat} (hq : c.Unsettled ref)
    (r : UInt64) {uri text : Octets} (htext : uri <+: text) :
    c.RefusedTo (c.settled ref (.error (.runtimeError text))) .call r ref
      uri where
  waited := hq
  failed := by
    obtain ⟨q, hq, -⟩ := hq
    refine ⟨{ q with promise := { q.promise with
      outcome := some (.error (.runtimeError text)) } }, text, ?_, htext, rfl⟩
    rw [Client.settled, Client.getElem?_modifyRequest, if_pos rfl, hq]
    rfl
  others := by
    intro i hi
    rw [Client.settled, Client.getElem?_modifyRequest, if_neg hi.symm]
  tables := fun _ _ _ => rfl
  handlers := rfl
  procedures := rfl

/-- **When a refusal reaches its request**: when the request is a call, and
its promise is not resolved already. -/
theorem Client.Reachable.refusal_iff (h : c.Reachable) (user : UserCode)
    (k : RequestKind) (r : UInt64) (details : List (Object × Object))
    (uri : Octets) (tail : Tail) :
    c.RefusalReaches user k r details uri tail ↔
      k = .call ∧ ∀ ref, c.session.pending .call r = some ref →
        c.Unsettled ref := by
  have hobs := c.observe_refusal user k r details uri tail
  by_cases hk : k = .call
  case neg =>
    -- the message is ignored, whether or not the id is pending
    simp only [hk, false_and, iff_false]
    simp only [hk, if_false, Incoming.handle] at hobs
    obtain ⟨hout, hstate⟩ := Prod.mk.inj hobs
    rintro ⟨hpending, hnone⟩
    cases hp : c.session.pending k r with
    | none =>
        obtain ⟨what, hwhat⟩ := hnone hp
        rw [hwhat] at hout
        cases hout
    | some ref =>
        obtain ⟨-, hto⟩ := hpending ref hp
        obtain ⟨q, hq, hwait⟩ := hto.waited
        obtain ⟨q', text, hq', -, hfail⟩ := hto.failed
        rw [hstate] at hq'
        rw [show (Exec.run (pure () : ClientM Unit) c).2 = c from rfl, hq] at hq'
        obtain rfl := Option.some.inj hq'
        exact hwait (by rw [Promise.resolved, hfail]; simp)
  subst hk
  simp only [if_true] at hobs
  simp only [true_and]
  cases he : c.session.calls.find r with
  | none =>
      have hnone : c.session.pending .call r = none := by
        simp [WampSession.pending, he]
      rw [observe_of_run (run_callError_none user he)] at hobs
      obtain ⟨hout, -⟩ := Prod.mk.inj hobs
      refine iff_of_true ⟨fun ref hp => ?_, fun _ => ?_⟩ fun ref hp => ?_
      · rw [hnone] at hp
        cases hp
      · exact outcomeOf_eq_protocolError.mp hout
      · rw [hnone] at hp
        cases hp
  | some e =>
      have hsome : c.session.pending .call r = some e.result := by
        simp [WampSession.pending, he]
      have hrun : ((Incoming.callError r
          (errorText uri tail.kwArguments)).handle user).run c = _ :=
        run_callError user he
      rw [observe, observe, hrun] at hobs
      rcases h.coherent.run_settleRequest (WampSession.entryAt_call he)
        (.error (.runtimeError (errorText uri tail.kwArguments)))
        with ⟨hq, hs⟩ | ⟨hq, hs⟩ <;> rw [hs] at hobs <;>
        obtain ⟨hout, hstate⟩ := Prod.mk.inj hobs
      · refine iff_of_true ⟨fun ref hp => ?_, fun hp => ?_⟩ fun ref hp => ?_
        · rw [hsome] at hp
          obtain rfl := Option.some.inj hp
          obtain ⟨u, hu⟩ := outcomeOf_eq_returned.mp hout
          rw [hstate]
          exact ⟨hu, Client.refusedTo_settled hq r (isPrefix_errorText uri _)⟩
        · rw [hsome] at hp
          cases hp
        · rw [hsome] at hp
          obtain rfl := Option.some.inj hp
          exact hq
      · refine iff_of_false (fun hreach => ?_) fun hall => hq (hall _ hsome)
        exact hq (hreach.1 _ hsome).2.waited

end

/-- A refused call fails with the router's URI. -/
theorem refusal_reaches_call :
    ((Client.new fun _ => .complete).runs
      [.message (MessageType.WELCOME.object [.positiveInteger 7]) fun _ => {},
        .operate (.call (octets "com.f") .none), .task 0]).RefusalReaches
      (fun _ => {}) .call 1 [] (octets "wamp.error.no_such_procedure") .none := by
  refine (Client.Reachable.refusal_iff (Client.reachable_runs _ _) _ _ _ _ _
    _).mpr ⟨rfl, fun ref hp => ?_⟩
  obtain rfl : 0 = ref := Option.some.inj hp
  exact ⟨_, rfl, by decide⟩

/-- A refused subscribe waits for ever. -/
theorem not_refusal_reaches_subscribe :
    ¬ ((Client.new fun _ => .complete).runs
      [.message (MessageType.WELCOME.object [.positiveInteger 7]) fun _ => {},
        .operate (.subscribe (octets "com.t") ⟨0⟩), .task 0]).RefusalReaches
      (fun _ => {}) .subscribe 1 [] (octets "wamp.error.not_authorized") .none := by
  rintro ⟨hreach, -⟩
  obtain ⟨q, text, hq, -, hfail⟩ := (hreach 0 rfl).2.failed
  obtain rfl := Option.some.inj hq
  cases hfail

end Autobahn
