import Autobahn.Session.Acts

/-!
# What one input can do

`Quiet` adds to the acts of user code what the handlers change without
answering a request, and `Answer` lists what the five replies do. An input is
a chain of quiet moves, or one answer, or the end of the session
(`step_cases`), so an invariant is proved by one case for each constructor.
-/

namespace Autobahn

open Foundation MsgPack Relation

namespace Client

def callBack (c : Client) (cb : Callback) : Client :=
  { c with callbacks := c.callbacks ++ [cb] }

/-- An invocation object is made and handed to its procedure. -/
def invoke (c : Client) (p : WampProcedure) (v : WampInvocation) : Client :=
  { c with
    invocations := c.invocations ++ [v]
    callbacks := c.callbacks ++ [.invocation p c.invocations.length] }

end Client

/-! ## Elementary changes -/

inductive Quiet : Client → Client → Prop
  | act {c d : Client} (h : Act c d) : Quiet c d
  | welcome (c : Client) (id : UInt64) :
      Quiet c (c.setSession { c.session with sessionId := id })
  | settleJoin {c : Client} {p : Promise Exn UInt64} {id : UInt64}
      (h : c.session.sessionJoin.settle (.ok id) = some p) :
      Quiet c (c.setSession (storeJoin p c.session))
  | goodbye (c : Client) : Quiet c c.left
  | settleLeave {c : Client} {p : Promise Exn Octets} {text : Octets}
      (h : c.session.sessionLeave.settle (.ok text) = some p) :
      Quiet c (c.setSession (storeLeave p c.session))
  | settleHandshake {c : Client} {p : Promise Exn Bool} {accepted : Bool}
      (h : c.session.handshake.settle (.ok accepted) = some p) :
      Quiet c (c.setSession (storeHandshake p c.session))
  | event {c : Client} {s : UInt64} {h : WampEventHandler} {e : WampEvent}
      (hh : h ∈ c.session.subscriptionHandlers.values s) :
      Quiet c (c.callBack (.event h e))
  | invocation {c : Client} {g i : UInt64} {p : WampProcedure}
      {details arguments kwArguments : Object}
      (hp : c.session.procedures.find g = some p) :
      Quiet c (c.invoke p
        { requestId := i, details, arguments, kwArguments, sendable := true })
  | rxError (c : Client) (e : ReadError) :
      Quiet c { c with rxErrors := c.rxErrors ++ [e] }

/-- The quiet changes in which neither WELCOME nor GOODBYE has a part. -/
inductive Calm : Client → Client → Prop
  | act {c d : Client} (h : Act c d) : Calm c d
  | settleLeave {c : Client} {p : Promise Exn Octets} {text : Octets}
      (h : c.session.sessionLeave.settle (.ok text) = some p) :
      Calm c (c.setSession (storeLeave p c.session))
  | settleHandshake {c : Client} {p : Promise Exn Bool} {accepted : Bool}
      (h : c.session.handshake.settle (.ok accepted) = some p) :
      Calm c (c.setSession (storeHandshake p c.session))
  | event {c : Client} {s : UInt64} {h : WampEventHandler} {e : WampEvent}
      (hh : h ∈ c.session.subscriptionHandlers.values s) :
      Calm c (c.callBack (.event h e))
  | invocation {c : Client} {g i : UInt64} {p : WampProcedure}
      {details arguments kwArguments : Object}
      (hp : c.session.procedures.find g = some p) :
      Calm c (c.invoke p
        { requestId := i, details, arguments, kwArguments, sendable := true })
  | rxError (c : Client) (e : ReadError) :
      Calm c { c with rxErrors := c.rxErrors ++ [e] }

theorem Calm.quiet {c d : Client} (h : Calm c d) : Quiet c d := by
  cases h with
  | act h => exact .act h
  | settleLeave h => exact .settleLeave h
  | settleHandshake h => exact .settleHandshake h
  | event hh => exact .event hh
  | invocation hp => exact .invocation hp
  | rxError e => exact .rxError c e

/-- What a reply does when its request id is in the table. -/
inductive Answer : Incoming → Client → Client → Prop
  | failed {c : Client} {r : UInt64} {e : WampCall} {text : Octets}
      (he : c.session.calls.find r = some e) (hq : c.Unsettled e.result) :
      Answer (.callError r text) c
        (c.settled e.result (.error (.runtimeError text)))
  | resulted {c : Client} {r : UInt64} {e : WampCall} {value : WampCallResult}
      (he : c.session.calls.find r = some e) (hq : c.Unsettled e.result) :
      Answer (.result r value) c (c.settled e.result (.ok (.result value)))
  | subscribed {c : Client} {r s : UInt64} {e : WampSubscribeRequest}
      (he : c.session.subscribeRequests.find r = some e)
      (hq : c.Unsettled e.response) :
      Answer (.subscribed r s) c
        (((c.installHandler s e.handler).settled e.response
          (.ok (.subscription s))).eraseSubscribe r)
  /-- the handler stays and the rest of SUBSCRIBED is cut off by an exception -/
  | subscribedTwice {c : Client} {r s : UInt64} {e : WampSubscribeRequest}
      (he : c.session.subscribeRequests.find r = some e)
      (hq : ¬ c.Unsettled e.response) :
      Answer (.subscribed r s) c (c.installHandler s e.handler)
  | unsubscribed {c : Client} {r : UInt64} {e : WampUnsubscribeRequest}
      (he : c.session.unsubscribeRequests.find r = some e)
      (hq : c.Unsettled e.response) :
      Answer (.unsubscribed r) c
        ((c.settled e.response (.ok .unsubscribed)).eraseUnsubscribe r)
  | registered {c : Client} {r g : UInt64} {e : WampRegisterRequest}
      (he : c.session.registerRequests.find r = some e)
      (hq : c.Unsettled e.response) :
      Answer (.registered r g) c
        ((c.installProcedure g e.procedure).settled e.response
          (.ok (.registration g)))
  | registeredTwice {c : Client} {r g : UInt64} {e : WampRegisterRequest}
      (he : c.session.registerRequests.find r = some e)
      (hq : ¬ c.Unsettled e.response) :
      Answer (.registered r g) c (c.installProcedure g e.procedure)

inductive Move : Client → Client → Prop
  | quiet {c d : Client} (h : Quiet c d) : Move c d
  | answer {i : Incoming} {c d : Client} (h : Answer i c d) : Move c d
  | destroy (c : Client) : Move c c.destroy

abbrev Calms : Client → Client → Prop := ReflTransGen Calm

abbrev Quiets : Client → Client → Prop := ReflTransGen Quiet

abbrev Moves : Client → Client → Prop := ReflTransGen Move

theorem Acts.calms {c d : Client} (h : Acts c d) : Calms c d :=
  ReflTransGen.mono (fun _ _ => Calm.act) _ _ h

theorem Calms.quiets {c d : Client} (h : Calms c d) : Quiets c d :=
  ReflTransGen.mono (fun _ _ => Calm.quiet) _ _ h

theorem Quiets.moves {c d : Client} (h : Quiets c d) : Moves c d :=
  ReflTransGen.mono (fun _ _ => Move.quiet) _ _ h

/-! ## Handlers are chains of moves -/

section Moves

attribute [local simp] Exec.run_bind

theorem settleRequest_cases (ref : Nat) (r : Except Exn Reply) (c : Client) :
    (c.Unsettled ref ∧ (settleRequest ref r).run c = (.ok (), c.settled ref r)) ∨
    (¬ c.Unsettled ref ∧ (∃ q, c.requests[ref]? = some q) ∧
      (settleRequest ref r).run c =
        (.error (.throws .promiseAlreadySatisfied), c)) ∨
    (¬ c.Unsettled ref ∧ c.requests[ref]? = none ∧
      (settleRequest ref r).run c = (.error .undefined, c)) := by
  cases hq : c.requests[ref]? with
  | none => simp [settleRequest, hq, Client.Unsettled]
  | some q =>
      by_cases hp : q.promise.resolved
      · have hnone := Promise.settle_eq_none (r := r).mpr hp
        simp [settleRequest, hq, Client.Unsettled, hp, hnone]
      · have hsome := Promise.settle_eq_some (r := r).mpr ⟨hp, rfl⟩
        refine .inl ⟨⟨q, hq, hp⟩, ?_⟩
        simp only [settleRequest, Exec.run_bind, Exec.run_get, hq, hsome,
          Exec.run_modify, Prod.mk.injEq, true_and]
        simp only [Client.settled, Client.modifyRequest, Client.mk.injEq,
          true_and, and_true]
        refine List.ext_getElem? fun i => ?_
        rcases eq_or_ne ref i with rfl | hne
        · simp [hq]
        · simp [hne]

section

variable {R : Client → Client → Prop} [Std.Refl R] [IsTrans Client R]

/-- The loop over the handlers of one event, in a relation that user code and
the record of its calls keep: a handler that throws ends it. -/
theorem callHandlers_moves (hacts : ∀ {c d}, Acts c d → R c d)
    (hevent : ∀ {c : Client} {s : UInt64} {h : WampEventHandler} (e : WampEvent),
      h ∈ c.session.subscriptionHandlers.values s → R c (c.callBack (.event h e)))
    (user : UserCode) (e : WampEvent) (s : UInt64) (hs : List WampEventHandler) :
    ∀ (k : Nat) (c : Client),
      (∀ h ∈ hs, h ∈ c.session.subscriptionHandlers.values s) →
      R c ((callHandlers user e k hs).run c).2 := by
  induction hs with
  | nil => exact fun _ c _ => Std.Refl.refl c
  | cons h hs ih =>
      intro k c hmem
      have hcb : Acts (c.callBack (.event h e))
          (((callHandler h e (user k)).run c).2) := by
        have := script_acts (user k) (c.callBack (.event h e))
        simpa [callHandler, Client.callBack] using this
      have hfirst : R c ((callHandler h e (user k)).run c).2 :=
        trans_of R (hevent e (hmem h List.mem_cons_self)) (hacts hcb)
      rcases hr : (callHandler h e (user k)).run c with ⟨x | u, d⟩
      · rw [hr] at hfirst
        simpa [callHandlers, hr] using hfirst
      · rw [hr] at hcb hfirst
        have hvalues : d.session.subscriptionHandlers =
            c.session.subscriptionHandlers := hcb.routing.1
        have hrest := ih (k + 1) d fun h' hh' => by
          rw [hvalues]
          exact hmem h' (List.mem_cons_of_mem h hh')
        simpa [callHandlers, hr] using trans_of R hfirst hrest

end

/-- The procedure call, with the automatic ERROR of its catch clauses. -/
theorem run_callProcedure (p : WampProcedure) (h : Nat) (s : Script)
    (c : Client) :
    (callProcedure p h s).run c = (match s.ending with
      | .returns => (.ok (), s.after (c.callBack (.invocation p h)))
      | .throwsStd what => (replyError h (whatError what)).run
          (s.after (c.callBack (.invocation p h)))
      | .throwsOther => (replyError h bareError).run
          (s.after (c.callBack (.invocation p h)))) := by
  have hrun := run_script s (c.callBack (.invocation p h))
  have hbegin : (modify fun c : Client =>
      { c with callbacks := c.callbacks ++ [.invocation p h] } :
        ClientM Unit).run c = (.ok (), c.callBack (.invocation p h)) := rfl
  rw [callProcedure]
  apply (Exec.run_bind_ok hbegin _).trans
  rw [Exec.run_tryCatch, hrun]
  cases s.ending <;> rfl

theorem replyError_acts (h : Nat) (attempt : ReplyAttempt) :
    Exec.Moves Acts (replyError h attempt) := by
  intro c
  cases hv : c.invocations[h]? with
  | none => simp [replyError, hv, ReflTransGen.refl]
  | some v =>
      by_cases hs : v.sendable
      · simpa [replyError, hv, hs] using reply_acts true h attempt c
      · simp [replyError, hv, hs, ReflTransGen.refl]

theorem callProcedure_acts (p : WampProcedure) (h : Nat) (s : Script)
    (c : Client) :
    Acts (c.callBack (.invocation p h)) ((callProcedure p h s).run c).2 := by
  have hd := s.after_acts (c.callBack (.invocation p h))
  rw [run_callProcedure]
  cases s.ending with
  | returns => exact hd
  | throwsStd what => exact hd.trans (replyError_acts h _ _)
  | throwsOther => exact hd.trans (replyError_acts h _ _)

theorem swallow_run {p : ClientM Unit} {c d : Client} {e : Exn}
    (h : p.run c = (.ok (), d) ∨ p.run c = (.error (.throws e), d)) :
    (swallow p).run c = (.ok (), d) := by
  rcases h with h | h <;> simp [swallow, Exec.run_tryCatch, h]

theorem swallow_state (p : ClientM Unit) (c : Client) :
    ((swallow p).run c).2 = (p.run c).2 := by
  rcases hr : p.run c with ⟨(e | _) | _, d⟩ <;>
    simp [swallow, Exec.run_tryCatch, hr]

/-- Neither a change of the session's own state nor a call of user code. -/
def Incoming.isReply : Incoming → Bool
  | .welcome _ | .goodbye _ | .event .. | .invocation .. => false
  | _ => true

/-- A reply that is not taken leaves everything as it was. -/
theorem handle_reply (user : UserCode) {i : Incoming} (hi : i.isReply = true)
    (c : Client) :
    ((i.handle user).run c).2 = c ∨ Answer i c ((i.handle user).run c).2 := by
  cases i with
  | malformed => exact .inl rfl
  | mistyped => exact .inl rfl
  | ignored => exact .inl rfl
  | callError r text =>
      cases he : c.session.calls.find r with
      | none => simp [Incoming.handle, he]
      | some e =>
          rcases settleRequest_cases e.result (.error (.runtimeError text)) c
            with ⟨hq, hrun⟩ | ⟨hq, _, hrun⟩ | ⟨hq, _, hrun⟩
          · simpa [Incoming.handle, he, hrun] using
              Or.inr (Answer.failed he hq)
          · simp [Incoming.handle, he, hrun]
          · simp [Incoming.handle, he, hrun]
  | result r value =>
      cases he : c.session.calls.find r with
      | none => simp [Incoming.handle, he]
      | some e =>
          rcases settleRequest_cases e.result (.ok (.result value)) c
            with ⟨hq, hrun⟩ | ⟨hq, _, hrun⟩ | ⟨hq, _, hrun⟩
          · simpa [Incoming.handle, he, hrun] using
              Or.inr (Answer.resulted he hq)
          · simp [Incoming.handle, he, hrun]
          · simp [Incoming.handle, he, hrun]
  | subscribed r s =>
      cases he : c.session.subscribeRequests.find r with
      | none => simp [Incoming.handle, he]
      | some e =>
          rcases settleRequest_cases e.response (.ok (.subscription s))
            (c.installHandler s e.handler)
            with ⟨hq, hrun⟩ | ⟨hq, _, hrun⟩ | ⟨hq, _, hrun⟩
          · simpa [Incoming.handle, he, hrun] using
              Or.inr (Answer.subscribed (s := s) he hq)
          · simpa [Incoming.handle, he, hrun] using
              Or.inr (Answer.subscribedTwice (s := s) he hq)
          · simpa [Incoming.handle, he, hrun] using
              Or.inr (Answer.subscribedTwice (s := s) he hq)
  | unsubscribed r =>
      cases he : c.session.unsubscribeRequests.find r with
      | none => simp [Incoming.handle, he]
      | some e =>
          rcases settleRequest_cases e.response (.ok .unsubscribed) c
            with ⟨hq, hrun⟩ | ⟨hq, _, hrun⟩ | ⟨hq, _, hrun⟩
          · simpa [Incoming.handle, he, hrun] using
              Or.inr (Answer.unsubscribed he hq)
          · simp [Incoming.handle, he, hrun]
          · simp [Incoming.handle, he, hrun]
  | registered r g =>
      cases he : c.session.registerRequests.find r with
      | none => simp [Incoming.handle, he]
      | some e =>
          rcases settleRequest_cases e.response (.ok (.registration g))
            (c.installProcedure g e.procedure)
            with ⟨hq, hrun⟩ | ⟨hq, _, hrun⟩ | ⟨hq, _, hrun⟩
          · simpa [Incoming.handle, he, hrun] using
              Or.inr (Answer.registered (g := g) he hq)
          · simpa [Incoming.handle, he, hrun] using
              Or.inr (Answer.registeredTwice (g := g) he hq)
          · simpa [Incoming.handle, he, hrun] using
              Or.inr (Answer.registeredTwice (g := g) he hq)
  | _ => cases hi

/-- What a received object other than a WELCOME or a GOODBYE makes the session
do. -/
theorem handle_calms (user : UserCode) {i : Incoming}
    (hw : ∀ sessionId, i ≠ .welcome sessionId)
    (hg : ∀ reason, i ≠ .goodbye reason) (c : Client) :
    Calms c ((i.handle user).run c).2 ∨ Answer i c ((i.handle user).run c).2 := by
  cases hi : i.isReply with
  | true =>
      refine (handle_reply user hi c).imp (fun h => ?_) id
      rw [h]
  | false =>
  cases i with
  | welcome sessionId => exact absurd rfl (hw sessionId)
  | goodbye reason => exact absurd rfl (hg reason)
  | event s content =>
      refine .inl ?_
      cases hv : c.session.subscriptionHandlers.values s with
      | nil => simp [Incoming.handle, hv, ReflTransGen.refl]
      | cons h hs =>
          cases content with
          | none => simp [Incoming.handle, hv, ReflTransGen.refl]
          | some e =>
              have hmoves := callHandlers_moves (R := Calms) Acts.calms
                (fun e hh => .single (.event hh)) user e s (h :: hs) 0 c
                (by rw [hv]; exact fun _ hh => hh)
              simpa [Incoming.handle, hv, swallow_state] using hmoves
  | invocation g i details arguments kwArguments =>
      refine .inl ?_
      cases hp : c.session.procedures.find g with
      | none => simp [Incoming.handle, hp, ReflTransGen.refl]
      | some p =>
          let v : WampInvocation :=
            { requestId := i, details, arguments, kwArguments, sendable := true }
          have h := ReflTransGen.single (@Calm.invocation c g i p details
            arguments kwArguments hp)
          have hcall := (callProcedure_acts p c.invocations.length (user 0)
            { c with invocations := c.invocations ++ [v] }).calms
          simpa [Incoming.handle, hp, newInvocation] using h.trans hcall
  | _ => cases hi

theorem welcome_quiets (user : UserCode) (sessionId : Except Misread UInt64)
    (c : Client) :
    Quiets c (((Incoming.welcome sessionId).handle user).run c).2 := by
  cases sessionId with
  | error e => exact .refl
  | ok id =>
      have h := ReflTransGen.single (Quiet.welcome c id)
      cases hp : c.session.sessionJoin.settle (.ok id) with
      | none =>
          simpa [Incoming.handle, readOk, settle, Client.setSession, hp]
            using h
      | some p =>
          have hset := Quiet.settleJoin (p := p) (c := c.setSession
            { c.session with sessionId := id }) hp
          simpa [Incoming.handle, readOk, settle, Client.setSession, hp]
            using h.tail hset

/-- A GOODBYE leaves the session, and may resolve the leave promise. -/
theorem goodbye_calms (user : UserCode) (reason : Except Misread Octets)
    (c : Client) :
    Calms c.left (((Incoming.goodbye reason).handle user).run c).2 := by
  cases reason with
  | error e => simp [Incoming.handle, readOk, ReflTransGen.refl]
  | ok text =>
      cases hp : c.left.session.sessionLeave.settle (.ok text) with
      | none => simp [Incoming.handle, readOk, settle, hp, ReflTransGen.refl]
      | some p =>
          simpa [Incoming.handle, readOk, settle, hp] using
            ReflTransGen.single (Calm.settleLeave hp)

/-- What a received object makes the session do. -/
theorem handle_cases (user : UserCode) (i : Incoming) (c : Client) :
    Quiets c ((i.handle user).run c).2 ∨ Answer i c ((i.handle user).run c).2 := by
  by_cases hw : ∃ sessionId, i = .welcome sessionId
  · obtain ⟨sessionId, rfl⟩ := hw
    exact .inl (welcome_quiets user sessionId c)
  by_cases hg : ∃ reason, i = .goodbye reason
  · obtain ⟨reason, rfl⟩ := hg
    have hleft := ReflTransGen.single (Quiet.goodbye c)
    exact .inl (hleft.trans (goodbye_calms user reason c).quiets)
  · exact (handle_calms user (not_exists.mp hw) (not_exists.mp hg) c).imp
      Calms.quiets id

/-- The state a message leaves is the one `handle` leaves. -/
theorem gotMessage_state (user : UserCode) (obj : Object) (c : Client) :
    ((gotMessage user obj).run c).2 =
      (((Incoming.read obj).handle user).run c).2 := by
  have h := congrArg Prod.snd (gotMessage_observe user c obj)
  exact h

theorem settleHandshake_calms (accepted : Bool) (c : Client) :
    Calms c ((settle c.session.handshake (.ok accepted) storeHandshake).run c).2 := by
  cases hp : c.session.handshake.settle (.ok accepted) with
  | none => simp [settle, hp, ReflTransGen.refl]
  | some p =>
      simpa [settle, hp] using ReflTransGen.single (Calm.settleHandshake hp)

/-- A handshake reply does nothing but resolve the handshake promise. -/
theorem gotHandshakeReply_moves {R : Client → Client → Prop} [Std.Refl R]
    (h : ∀ accepted c, R c
      ((settle c.session.handshake (.ok accepted) storeHandshake).run c).2)
    (reply : Except ReadError HandshakeReply) :
    Exec.Moves R (gotHandshakeReply reply) := by
  intro c
  have hfalse := h false c
  have htrue := h true c
  cases reply with
  | error e =>
      rcases hr : (settle c.session.handshake (.ok false) storeHandshake).run c
        with ⟨_ | _, d⟩ <;> rw [hr] at hfalse <;>
        simpa [gotHandshakeReply, hr] using hfalse
  | ok octets =>
      obtain ⟨magic, serializer, o₂, o₃⟩ := octets
      rcases hf : (settle c.session.handshake (.ok false) storeHandshake).run c
        with ⟨_ | _, d⟩ <;> rw [hf] at hfalse <;>
      rcases ht : (settle c.session.handshake (.ok true) storeHandshake).run c
        with ⟨_ | _, d'⟩ <;> rw [ht] at htrue <;>
      by_cases hm : magic = 0x7F <;> by_cases hs : serializer &&& 0x0F = 0x02 <;>
        simp [gotHandshakeReply, hf, ht, hm, hs, hfalse, htrue]

/-- What a read error does, in a relation that its steps keep. -/
theorem handleRxError_moves {R : Client → Client → Prop} [Std.Refl R]
    [IsTrans Client R] (hacts : ∀ {c d}, Acts c d → R c d)
    (hleave : ∀ {c : Client} {p : Promise Exn Octets} {text : Octets},
      c.session.sessionLeave.settle (.ok text) = some p →
      R c (c.setSession (storeLeave p c.session)))
    (herror : ∀ (c : Client) (e : ReadError),
      R c { c with rxErrors := c.rxErrors ++ [e] })
    (user : UserCode) (error : ReadError) :
    Exec.Moves R (handleRxError user error) := by
  intro c
  unfold handleRxError
  split
  · have hfirst : R c ((settle c.session.sessionLeave
        (.ok (octets "socket closed")) storeLeave).run c).2 := by
      cases hp : c.session.sessionLeave.settle (.ok (octets "socket closed")) with
      | none => simpa [settle, hp] using Std.Refl.refl c
      | some p => simpa [settle, hp] using hleave hp
    have hrest : Exec.Moves R (do
        leave true closeRealm
        stop true
        modify fun c : Client => { c with rxErrors := c.rxErrors ++ [error] }
        (user 0).run : ClientM Unit) :=
      .bind (fun d => hacts (leave_acts true closeRealm d)) fun _ =>
        .bind (fun d => hacts (stop_acts true d)) fun _ =>
          .bind (.modify fun d => herror d error) fun _ =>
            fun d => hacts (script_acts (user 0) d)
    rw [Exec.run_bind, Exec.run_get]
    dsimp only
    rw [Exec.run_bind]
    rcases hr : (settle c.session.sessionLeave (.ok (octets "socket closed"))
      storeLeave).run c with ⟨_ | _, d⟩
    · rw [hr] at hfirst
      exact hfirst
    · rw [hr] at hfirst
      exact trans_of R hfirst (hrest d)
  · exact Std.Refl.refl c

/-- Does this input bring a message? -/
def Input.isMessage : Input → Bool
  | .message .. => true
  | _ => false

/-- What an input other than a message does, in a relation that its steps
keep. -/
theorem program_moves {R : Client → Client → Prop} [Std.Refl R]
    [IsTrans Client R] (hacts : ∀ {c d}, Acts c d → R c d)
    (hleave : ∀ {c : Client} {p : Promise Exn Octets} {text : Octets},
      c.session.sessionLeave.settle (.ok text) = some p →
      R c (c.setSession (storeLeave p c.session)))
    (herror : ∀ (c : Client) (e : ReadError),
      R c { c with rxErrors := c.rxErrors ++ [e] })
    (hhandshake : ∀ accepted c, R c
      ((settle c.session.handshake (.ok accepted) storeHandshake).run c).2)
    {i : Input} (hi : i.isMessage = false) (hd : i ≠ .destroy) :
    Exec.Moves R i.program := by
  cases i with
  | operate op => exact fun c => hacts (operate_acts false op c)
  | task n => exact fun c => hacts (runTask_acts n c)
  | respond io h attempt => exact fun c => hacts (reply_acts io h attempt c)
  | userCode script => exact fun c => hacts (script_acts script c)
  | message obj user => exact absurd hi (by simp [Input.isMessage])
  | rxError error user => exact handleRxError_moves hacts hleave herror user error
  | handshake reply =>
      exact .bind (gotHandshakeReply_moves hhandshake reply) fun _ => .pure ()
  | destroy => exact absurd rfl hd

theorem program_calms {i : Input} (hi : i.isMessage = false)
    (hd : i ≠ .destroy) : Exec.Moves Calms i.program :=
  program_moves Acts.calms (fun hp => .single (.settleLeave hp))
    (fun c e => .single (.rxError c e)) settleHandshake_calms hi hd

theorem Client.step_message (c : Client) (obj : Object) (user : UserCode) :
    c.step (.message obj user) =
      if c.alive then (((Incoming.read obj).handle user).run c).2 else c := by
  unfold Client.step
  by_cases ha : c.alive
  · simp only [Input.needsSession, ha, not_true, and_false, if_false, if_true]
    exact gotMessage_state user obj c
  · simp [Input.needsSession, ha]

theorem Client.step_calms (c : Client) {i : Input} (hi : i.isMessage = false)
    (hd : i ≠ .destroy) : Calms c (c.step i) := by
  unfold Client.step
  split
  · exact .refl
  · exact program_calms hi hd c

theorem Client.step_destroy (c : Client) :
    c.step .destroy = if c.alive then c.destroy else c := by
  unfold Client.step
  by_cases ha : c.alive <;> simp [Input.needsSession, Input.program, ha]

/-- **An input is quiet, or the answer to a request, or the end of the
session.** -/
theorem Client.step_cases (c : Client) (i : Input) :
    Quiets c (c.step i) ∨
    (∃ obj user, i = .message obj user ∧ c.alive = true ∧
      Answer (Incoming.read obj) c (c.step i)) ∨
    (i = .destroy ∧ c.alive = true ∧ c.step i = c.destroy) := by
  cases hi : i.isMessage with
  | false =>
      by_cases hd : i = .destroy
      · subst hd
        rw [Client.step_destroy]
        split
        · next ha => exact .inr (.inr ⟨rfl, ha, rfl⟩)
        · exact .inl .refl
      · exact .inl (c.step_calms hi hd).quiets
  | true =>
      cases i <;> simp only [Input.isMessage, Bool.false_eq_true] at hi
      case message obj user =>
        rw [Client.step_message]
        split
        · next ha =>
          rcases handle_cases user (Incoming.read obj) c with h | h
          · exact .inl h
          · exact .inr (.inl ⟨obj, user, rfl, ha, h⟩)
        · exact .inl .refl

theorem Quiet.alive {c d : Client} (h : Quiet c d) : d.alive = c.alive := by
  cases h with
  | act h => exact h.routing.2.2.2
  | _ => rfl

theorem Quiets.alive {c d : Client} (h : Quiets c d) : d.alive = c.alive := by
  induction h with
  | refl => rfl
  | tail _ h ih => exact h.alive.trans ih

theorem Answer.alive {i : Incoming} {c d : Client} (h : Answer i c d) :
    d.alive = c.alive := by
  cases h <;> rfl

/-- Only its destruction ends a session. -/
theorem Client.step_alive (c : Client) {i : Input} (hi : i ≠ .destroy) :
    (c.step i).alive = c.alive := by
  rcases c.step_cases i with h | ⟨obj, user, -, -, h⟩ | ⟨rfl, -⟩
  · exact h.alive
  · exact h.alive
  · exact absurd rfl hi

theorem Client.step_moves (c : Client) (i : Input) : Moves c (c.step i) := by
  rcases c.step_cases i with h | ⟨obj, user, -, -, h⟩ | ⟨-, -, h⟩
  · exact h.moves
  · exact .single (.answer h)
  · rw [h]
    exact .single (.destroy c)

theorem Moves.invariant {I : Client → Prop}
    (keep : ∀ c d, Move c d → I c → I d) {c d : Client} (h : Moves c d)
    (hc : I c) : I d := by
  induction h with
  | refl => exact hc
  | tail _ hmove ih => exact keep _ _ hmove ih

/-- What holds of a new session and is kept by every move holds in every
reachable state. -/
theorem Client.Reachable.invariant {I : Client → Prop} {c : Client}
    (h : c.Reachable) (init : ∀ plan, I (Client.new plan))
    (keep : ∀ c d, Move c d → I c → I d) : I c := by
  obtain ⟨plan, hr⟩ := h
  exact Machine.Reachable.invariant hr (init plan) fun c i hc =>
    (c.step_moves i).invariant keep hc

end Moves

end Autobahn
