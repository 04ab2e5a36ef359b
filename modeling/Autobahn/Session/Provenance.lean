import Autobahn.Session.Callee

/-!
# Where frames and results come from

What a peer may rely on when it reads a frame of this session: a CALL or a
REGISTER is the one its operation packed, a YIELD is the one reply of an
invocation (`Client.Reachable.source`). And the result of a call comes from a
RESULT under the call's id (`Client.step_result`).
-/

namespace Autobahn

open Foundation MsgPack Relation

/-! ## What a session never takes back -/

/-- Requests keep their history, and writes are final. -/
structure Client.Grows (c d : Client) : Prop where
  requests : ∀ {ref : Nat} {q : Request}, c.requests[ref]? = some q →
    ∃ q', d.requests[ref]? = some q' ∧ q.Ages q' ∧
      (q.entered = true → q'.entered = true)
  writes : c.session.out.writes <+: d.session.out.writes

section Grows

variable {c d : Client}

theorem Client.Grows.same (hreq : d.requests = c.requests)
    (hwrites : c.session.out.writes <+: d.session.out.writes) : c.Grows d :=
  ⟨fun hq => ⟨_, hreq ▸ hq, .refl _, id⟩, hwrites⟩

theorem Client.Grows.refl (c : Client) : c.Grows c :=
  .same rfl (List.prefix_refl _)

theorem Client.Grows.trans {e : Client} (h : c.Grows d) (h' : d.Grows e) :
    c.Grows e where
  requests := fun hq => by
    obtain ⟨q', hq', hages, hentered⟩ := h.requests hq
    obtain ⟨q'', hq'', hages', hentered'⟩ := h'.requests hq'
    exact ⟨q'', hq'', hages.trans hages', hentered' ∘ hentered⟩
  writes := h.writes.trans h'.writes

theorem Client.Grows.modify {ref : Nat} {f : Request → Request}
    (hf : ∀ q : Request, q.Ages (f q) ∧ (q.entered = true → (f q).entered = true))
    (hreq : d.requests = (c.modifyRequest ref f).requests)
    (hwrites : c.session.out.writes <+: d.session.out.writes) : c.Grows d where
  requests := fun {i q} hq => by
    rw [hreq, Client.getElem?_modifyRequest, hq]
    split
    · exact ⟨f q, rfl, hf q⟩
    · exact ⟨q, rfl, .refl q, id⟩
  writes := hwrites

theorem WampSession.writes_isPrefix_send (s : WampSession) (buffer : Frame) :
    s.out.writes <+: (s.send buffer).out.writes := by
  rw [WampSession.writes_send]
  exact List.prefix_append _ _

theorem Act.grows (h : Act c d) : c.Grows d := by
  cases h with
  | submit h =>
      refine ⟨fun {ref q} hq => ⟨q, ?_, .refl q, id⟩, List.prefix_refl _⟩
      exact getElem?_snoc_of_some hq
  | answer hv hs hb =>
      unfold Client.answer
      split <;> exact .same rfl (List.prefix_refl _)
  | abandon h hs =>
      exact .modify (fun q => ⟨q.abandon_ages, id⟩) rfl (List.prefix_refl _)
  | joined h ha hj => exact .same rfl (WampSession.writes_isPrefix_send _ _)
  | @left n buffer h ha hj hg =>
      exact .same rfl ((c.dequeue n).markLeft.session.writes_isPrefix_send buffer)
  | published h ha hj => exact .same rfl (WampSession.writes_isPrefix_send _ _)
  | @entered n ref r entry buffer h ha hj =>
      have hwrites := ((c.dequeue n).enter ref r entry).session.writes_isPrefix_send
        buffer
      rw [show ((c.dequeue n).enter ref r entry).session.out = c.session.out from
        WampSession.emplace_out _ _ _ _] at hwrites
      refine ⟨fun {i q} hq => ?_, hwrites⟩
      have hget := (c.dequeue n).getElem?_enter ref i r entry
      rw [show (c.dequeue n).requests[i]? = some q from hq] at hget
      split at hget
      · exact ⟨_, hget, ⟨rfl, rfl, rfl, rfl⟩, fun _ => rfl⟩
      · exact ⟨q, hget, .refl q, id⟩
  | handed ht ha => exact .same rfl (WampSession.writes_isPrefix_send _ _)
  | _ => exact .same rfl (List.prefix_refl _)

theorem Client.left_grows (c : Client) : c.Grows c.left := by
  refine .same rfl ?_
  rw [Client.left_writes]
  exact List.prefix_append _ _

theorem Client.settled_grows (c : Client) (ref : Nat) (r : Except Exn Reply) :
    c.Grows (c.settled ref r) :=
  .modify (f := fun q =>
      { q with promise := { q.promise with outcome := some r } })
    (fun _ => ⟨⟨rfl, rfl, rfl, rfl⟩, id⟩) rfl (List.prefix_refl _)

theorem Client.destroy_grows (c : Client) : c.Grows c.destroy where
  requests := fun {ref q} hq => by
    have hget : c.destroy.requests[ref]? =
        some (if c.tasks.any (Task.owns ref) then q else q.abandon) := by
      rw [Client.getElem?_destroy, hq, Option.map_some]
    refine ⟨_, hget, ?_, ?_⟩
    · split
      · exact .refl q
      · exact q.abandon_ages
    · split <;> exact id
  writes := List.prefix_refl _

theorem Move.grows (h : Move c d) : c.Grows d := by
  cases h with
  | quiet h =>
      cases h with
      | act h => exact h.grows
      | goodbye => exact c.left_grows
      | _ => exact .same rfl (List.prefix_refl _)
  | answer h =>
      cases h
      case subscribedTwice => exact .same rfl (List.prefix_refl _)
      case registeredTwice => exact .same rfl (List.prefix_refl _)
      all_goals
        exact ⟨(c.settled_grows _ _).requests, List.prefix_refl _⟩
  | destroy => exact c.destroy_grows

/-- **A step forgets nothing.** -/
theorem Client.step_grows (c : Client) (i : Input) : c.Grows (c.step i) := by
  have h := c.step_moves i
  generalize c.step i = d at h
  induction h with
  | refl => exact .refl c
  | tail _ h ih => exact ih.trans h.grows

end Grows

/-! ## The source of a frame -/

/-- A HELLO, a GOODBYE or a PUBLISH: nobody waits for an answer to it. -/
def PlainFrame (buffer : Frame) : Prop :=
  messageTypeOf buffer = some .HELLO ∨ messageTypeOf buffer = some .GOODBYE ∨
    messageTypeOf buffer = some .PUBLISH

/-- Where a written frame comes from. -/
inductive Client.Source (c : Client) (buffer : Frame) : Prop
  | plain (h : PlainFrame buffer)
  | request {ref : Nat} {q : Request} (hq : c.requests[ref]? = some q)
      (he : q.entered = true) (hb : q.buffer = buffer)
  | reply {h : Nat} {v : WampInvocation} (hv : c.invocations[h]? = some v)
      (hb : buffer ∈ v.handed)

def Task.Plain : Task → Prop
  | .join buffer | .leave buffer | .publish buffer => PlainFrame buffer
  | _ => True

theorem posted_plain : Posted Task.Plain where
  stop := trivial
  join realm := .inl (messageTypeOf_helloFrame realm)
  leave reason := .inr (.inl (messageTypeOf_goodbyeFrame reason))
  publish h := .inr (.inr (messageTypeOf_publishFrame h))
  request _ _ := trivial
  reply _ _ := trivial

section Source

variable {c d : Client}

theorem Client.Source.mono {buffer : Frame} (h : c.Source buffer)
    (hgrows : c.Grows d) (hkeeps : c.Keeps d) : d.Source buffer := by
  cases h with
  | plain h => exact .plain h
  | request hq he hb =>
      obtain ⟨q', hq', hages, hentered⟩ := hgrows.requests hq
      exact .request hq' (hentered he) (hages.buffer.trans hb)
  | reply hv hb =>
      obtain ⟨w, hw, -, hhanded, -⟩ := hkeeps _ _ hv
      exact .reply hw (hhanded.subset hb)

theorem WampSession.mem_writes_send {s : WampSession} {buffer : Frame}
    {w : Frame × WriteResult} (h : w ∈ (s.send buffer).out.writes) :
    w ∈ s.out.writes ∨ w.1 = buffer := by
  rw [WampSession.writes_send, List.mem_append, WampSession.sending] at h
  apply h.imp_right
  intro h
  split at h
  · cases h
  · exact congrArg Prod.fst (List.mem_singleton.mp h)

/-- Whatever a move writes has a source. -/
theorem Move.writes (h : Move c d) (hc : c.Coherent) (hr : c.Replying)
    (hplain : ∀ t ∈ c.tasks, t.Plain) :
    ∀ w ∈ d.session.out.writes, w ∈ c.session.out.writes ∨ d.Source w.1 := by
  cases h with
  | quiet h =>
      cases h with
      | act h =>
          cases h with
          | @joined n buffer h ha hj =>
              intro w hw
              apply (WampSession.mem_writes_send hw).imp_right
              intro heq
              exact .plain (heq ▸ hplain _ (List.mem_of_getElem? h))
          | @left n buffer h ha hj hg =>
              intro w hw
              apply (WampSession.mem_writes_send hw).imp_right
              intro heq
              exact .plain (heq ▸ hplain _ (List.mem_of_getElem? h))
          | @published n buffer h ha hj =>
              intro w hw
              apply (WampSession.mem_writes_send hw).imp_right
              intro heq
              exact .plain (heq ▸ hplain _ (List.mem_of_getElem? h))
          | @entered n ref r entry buffer h ha hj =>
              intro w hw
              rcases WampSession.mem_writes_send hw with hw | heq
              · rw [show ((c.dequeue n).enter ref r entry).session.out =
                  c.session.out from WampSession.emplace_out _ _ _ _] at hw
                exact .inl hw
              · obtain ⟨q, hq, -, -, hb, -⟩ := hc.queued (List.mem_of_getElem? h)
                have hget := (c.dequeue n).getElem?_enter ref ref r entry
                rw [if_pos rfl, show (c.dequeue n).requests[ref]? = some q from hq]
                  at hget
                exact .inr (.request hget rfl (hb.trans heq.symm))
          | @handed n h buffer ht ha =>
              intro w hw
              apply (WampSession.mem_writes_send hw).imp_right
              intro heq
              have hlt := hr.bound (List.mem_of_getElem? ht)
              have hget := (c.dequeue n).getElem?_modifyInvocation h h
                fun v => { v with handed := v.handed ++ [buffer] }
              rw [if_pos rfl, show (c.dequeue n).invocations[h]? = some _ from
                List.getElem?_eq_getElem hlt] at hget
              exact .reply hget (by simp [heq])
          | answer hv hs hb =>
              unfold Client.answer
              split <;> exact fun w hw => .inl hw
          | _ => exact fun w hw => .inl hw
      | goodbye =>
          intro w hw
          rw [Client.left_writes, List.mem_append] at hw
          refine hw.imp_right fun hw => .plain (.inr (.inl ?_))
          split at hw
          · cases hw
          · rw [WampSession.sending] at hw
            split at hw
            · cases hw
            · rw [List.mem_singleton.mp hw]
              exact messageTypeOf_goodbyeFrame _
      | _ => exact fun w hw => .inl hw
  | answer h => cases h <;> exact fun w hw => .inl hw
  | destroy => exact fun w hw => .inl hw

/-- **Every frame a session has written has a source.** -/
theorem Client.Reachable.source (h : c.Reachable) :
    ∀ w ∈ c.session.out.writes, c.Source w.1 := by
  have hinv := h.invariant (I := fun c => (c.Coherent ∧ c.Replying ∧
    ∀ t ∈ c.tasks, t.Plain) ∧ ∀ w ∈ c.session.out.writes, c.Source w.1) ?_ ?_
  · exact hinv.2
  · intro plan
    exact ⟨⟨Client.coherent_new plan, Client.replying_new plan,
      fun t ht => by simp [Client.new] at ht⟩,
      fun w hw => by simp [Client.new] at hw⟩
  · rintro c d hmove ⟨⟨hc, hr, hp⟩, hs⟩
    refine ⟨⟨hc.move hmove, hr.move hmove, posted_plain.move hp hmove⟩, ?_⟩
    intro w hw
    rcases hmove.writes hc hr hp w hw with hold | hnew
    · exact (hs w hold).mono hmove.grows (.move hmove)
    · exact hnew

/-- Every reply of an invocation was packed under its request id. -/
def Client.Answered (c : Client) : Prop :=
  ∀ (h : Nat) (v : WampInvocation), c.invocations[h]? = some v →
    ∀ buffer ∈ v.replies,
      ∃ attempt, ReplyAttempt.frame v.requestId attempt = .ok buffer

theorem Client.Answered.act (hc : c.Answered) (h : Act c d) : d.Answered := by
  cases h with
  | @answer n v attempt buffer hv hs hb =>
      intro i w hw b hmem
      rw [Client.answer_invocations, Client.getElem?_modifyInvocation] at hw
      split at hw
      · next heq =>
        subst heq
        rw [hv] at hw
        obtain rfl := Option.some.inj hw
        rcases List.mem_append.mp hmem with hmem | hmem
        · exact hc _ _ hv b hmem
        · rw [List.mem_singleton.mp hmem]
          exact ⟨attempt, hb⟩
      · exact hc _ _ hw b hmem
  | @handed n h buffer ht ha =>
      intro i w hw b hmem
      have hget := (c.dequeue n).getElem?_modifyInvocation h i
        fun v => { v with handed := v.handed ++ [buffer] }
      rw [show ((c.dequeue n).modifyInvocation h fun v =>
        { v with handed := v.handed ++ [buffer] }).invocations[i]? = some w from hw]
        at hget
      split at hget
      · obtain ⟨v, hv, rfl⟩ := Option.map_eq_some_iff.mp hget.symm
        exact hc _ _ hv b hmem
      · exact hc _ _ hget.symm b hmem
  | _ => exact hc

theorem Client.Reachable.answered (h : c.Reachable) : c.Answered := by
  refine h.invariant (I := Client.Answered) ?_ fun c d hmove hc => ?_
  · intro plan h v hv
    simp [Client.new] at hv
  cases hmove with
  | quiet h =>
      cases h with
      | act h => exact hc.act h
      | invocation hp =>
          intro i w hw b hmem
          rw [Client.invoke, List.getElem?_append] at hw
          split at hw
          · exact hc _ _ hw b hmem
          · obtain rfl := List.mem_singleton.mp (List.mem_of_getElem? hw)
            cases hmem
      | _ => exact hc
  | answer h => cases h <;> exact hc
  | destroy => exact hc

end Source

/-! ## Only an answer fulfils a promise -/

/-- No promise of a request is fulfilled. -/
def Client.Unfulfilled (c d : Client) : Prop :=
  ∀ (ref : Nat) (q' : Request) (reply : Reply), d.requests[ref]? = some q' →
    q'.promise.outcome = some (.ok reply) →
    ∃ q, c.requests[ref]? = some q ∧ q.Ages q' ∧
      q.promise.outcome = some (.ok reply)

section Unfulfilled

variable {c d : Client}

theorem Client.Unfulfilled.same (hreq : d.requests = c.requests) :
    c.Unfulfilled d :=
  fun _ q' _ hq' ho => ⟨q', hreq ▸ hq', .refl q', ho⟩

theorem Client.Unfulfilled.trans {e : Client} (h : c.Unfulfilled d)
    (h' : d.Unfulfilled e) : c.Unfulfilled e := by
  intro ref q'' reply hq'' ho''
  obtain ⟨q', hq', hages', ho'⟩ := h' ref q'' reply hq'' ho''
  obtain ⟨q, hq, hages, ho⟩ := h ref q' reply hq' ho'
  exact ⟨q, hq, hages.trans hages', ho⟩

theorem Client.Unfulfilled.modify {ref : Nat} {f : Request → Request}
    (hf : ∀ (q : Request) (reply : Reply), q.Ages (f q) ∧
      ((f q).promise.outcome = some (.ok reply) →
        q.promise.outcome = some (.ok reply)))
    (hreq : d.requests = (c.modifyRequest ref f).requests) : c.Unfulfilled d := by
  intro i q' reply hq' ho
  rw [hreq, Client.getElem?_modifyRequest] at hq'
  split at hq'
  · obtain ⟨q, hq, rfl⟩ := Option.map_eq_some_iff.mp hq'
    exact ⟨q, hq, (hf q reply).1, (hf q reply).2 ho⟩
  · exact ⟨q', hq', .refl q', ho⟩

theorem Act.unfulfilled (h : Act c d) : c.Unfulfilled d := by
  cases h with
  | @submit op entry buffer h =>
      intro i q' reply hq' ho
      rw [show (c.submit op entry buffer).requests = c.requests ++
        [newRequestOf op entry (c.session.requestId + 1) buffer] from rfl,
        List.getElem?_append] at hq'
      split at hq'
      · exact ⟨q', hq', .refl q', ho⟩
      · obtain rfl := List.mem_singleton.mp (List.mem_of_getElem? hq')
        cases ho
  | abandon h hs =>
      exact .modify (fun q _ => ⟨q.abandon_ages, Promise.outcome_abandon⟩) rfl
  | @entered n ref r entry buffer h ha hj =>
      intro i q' reply hq' ho
      have hget : ((c.dequeue n).enter ref r entry).requests[i]? = some q' := hq'
      rw [Client.getElem?_enter] at hget
      split at hget
      · obtain ⟨q, hq, rfl⟩ := Option.map_eq_some_iff.mp hget
        refine ⟨q, hq, ⟨rfl, rfl, rfl, rfl⟩, ?_⟩
        dsimp only at ho
        split at ho
        · exact Promise.outcome_abandon ho
        · exact ho
      · exact ⟨q', hget, .refl q', ho⟩
  | answer hv hs hb =>
      unfold Client.answer
      split <;> exact .same rfl
  | _ => exact .same rfl

theorem Quiets.unfulfilled (h : Quiets c d) : c.Unfulfilled d := by
  induction h with
  | refl => exact .same rfl
  | tail _ h ih =>
      apply ih.trans
      cases h with
      | act h => exact h.unfulfilled
      | _ => exact .same rfl

theorem Client.destroy_unfulfilled (c : Client) : c.Unfulfilled c.destroy := by
  intro i q' reply hq' ho
  rw [Client.getElem?_destroy] at hq'
  obtain ⟨q, hq, rfl⟩ := Option.map_eq_some_iff.mp hq'
  split at ho
  · next hany => exact ⟨q, hq, by rw [if_pos hany]; exact .refl q, ho⟩
  · next hany =>
    refine ⟨q, hq, ?_, Promise.outcome_abandon ho⟩
    rw [if_neg hany]
    exact q.abandon_ages

theorem Client.settled_cases {ref i : Nat} {r : Except Exn Reply} {q' : Request}
    {reply : Reply} (hq' : (c.settled ref r).requests[i]? = some q')
    (ho : q'.promise.outcome = some (.ok reply)) :
    (∃ q, c.requests[i]? = some q ∧ q.Ages q' ∧
      q.promise.outcome = some (.ok reply)) ∨ (ref = i ∧ r = .ok reply) := by
  rw [Client.settled, Client.getElem?_modifyRequest] at hq'
  split at hq'
  · next heq =>
    obtain ⟨q, hq, rfl⟩ := Option.map_eq_some_iff.mp hq'
    exact .inr ⟨heq, Option.some.inj ho⟩
  · exact .inl ⟨q', hq', .refl q', ho⟩

/-- Of the answers only a RESULT brings the result of a call. -/
theorem Answer.result (hc : c.Coherent) {i : Incoming} (h : Answer i c d)
    {ref : Nat} {q' : Request} {value : WampCallResult}
    (hq' : d.requests[ref]? = some q')
    (ho : q'.promise.outcome = some (.ok (.result value))) :
    (∃ q, c.requests[ref]? = some q ∧ q.Ages q' ∧
      q.promise.outcome = some (.ok (.result value))) ∨
    i = .result q'.requestId value := by
  cases h with
  | failed he hq =>
      rcases Client.settled_cases hq' ho with hold | ⟨-, heq⟩
      · exact .inl hold
      · cases heq
  | @resulted _ r e value₀ he hq =>
      rcases Client.settled_cases hq' ho with hold | ⟨rfl, heq⟩
      · exact .inl hold
      · obtain rfl := Reply.result.inj (Except.ok.inj heq)
        obtain ⟨q, hq, -, hid, -⟩ := hc.entries (WampSession.entryAt_call he)
        obtain ⟨q'', hq'', hages, -⟩ :=
          (c.settled_grows e.result (.ok (.result value₀))).requests hq
        rw [hq'] at hq''
        obtain rfl := Option.some.inj hq''
        exact .inr (by rw [hages.requestId, hid])
  | @subscribed _ r s e he hq =>
      have hget : ((c.installHandler s e.handler).settled e.response
        (.ok (.subscription s))).requests[ref]? = some q' := hq'
      rcases Client.settled_cases hget ho with hold | ⟨-, heq⟩
      · exact .inl hold
      · cases heq
  | @unsubscribed _ r e he hq =>
      have hget : (c.settled e.response (.ok .unsubscribed)).requests[ref]? =
        some q' := hq'
      rcases Client.settled_cases hget ho with hold | ⟨-, heq⟩
      · exact .inl hold
      · cases heq
  | registered he hq =>
      rcases Client.settled_cases hq' ho with hold | ⟨-, heq⟩
      · exact .inl hold
      · cases heq
  | subscribedTwice he hq => exact .inl ⟨q', hq', .refl q', ho⟩
  | registeredTwice he hq => exact .inl ⟨q', hq', .refl q', ho⟩

/-- **A call's result comes from a RESULT under its id.** -/
theorem Client.step_result (hc : c.Coherent) {i : Input} {ref : Nat} {q' : Request}
    {value : WampCallResult} (hq' : (c.step i).requests[ref]? = some q')
    (ho : q'.promise.outcome = some (.ok (.result value))) :
    (∃ q, c.requests[ref]? = some q ∧ q.Ages q' ∧
      q.promise.outcome = some (.ok (.result value))) ∨
    ∃ obj user, i = .message obj user ∧
      Incoming.read obj = .result q'.requestId value := by
  rcases c.step_cases i with h | ⟨obj, user, rfl, ha, h⟩ | ⟨rfl, -, h⟩
  · exact .inl (h.unfulfilled ref q' _ hq' ho)
  · exact (h.result hc hq' ho).imp_right fun hread => ⟨obj, user, rfl, hread⟩
  · rw [h] at hq'
    exact .inl (c.destroy_unfulfilled ref q' _ hq' ho)

end Unfulfilled

/-! ## What a peer reads -/

/-- The message a peer reads in the `n`-th write, if that went out whole. -/
def Client.reads (c : Client) (n : Nat) : Option Object :=
  match c.session.out.writes[n]? with
  | some (buffer, .complete) => (decode buffer).map Object.array
  | _ => none

/-- The `n`-th write is the whole frame of this request. -/
def Client.Wrote (c : Client) (n : Nat) (q : Request) : Prop :=
  q ∈ c.requests ∧ c.session.out.writes[n]? = some (q.buffer, .complete)

/-- The `n`-th write is the whole frame of this operation. -/
def Client.Asked (c : Client) (n : Nat) (op : Operation) : Prop :=
  ∃ q, c.Wrote n q ∧ q.operation = op

/-- What the reader of a packed payload sees: an empty list and an empty map
stand for what is left out. -/
inductive Payload.Carries : Payload → Object → Object → Prop
  | none : Carries .none EMPTY_ARGUMENTS EMPTY_KW_ARGUMENTS
  | list (a : List Object) : Carries (.list (.ok a)) (.array a) EMPTY_KW_ARGUMENTS
  | listMap (a : List Object) (kw : List (Object × Object)) :
      Carries (.listMap (.ok a) (.ok kw)) (.array a) (.map kw)

theorem Payload.readPayload_objects {p : Payload} {os : List Object}
    (h : p.objects = .ok os) :
    ∃ a kw, readPayload os = some (a, kw) ∧ p.Carries a kw := by
  rcases p with _ | ⟨a | a⟩ | ⟨a | a, kw | kw⟩ <;>
    cases h <;> exact ⟨_, _, rfl, by constructor⟩

/-- The one reply of the invocation `h` carries these values, and is the whole
`n`-th write. -/
def Client.Yielded (c : Client) (n h : Nat) (value : WampCallResult) : Prop :=
  ∃ (v : WampInvocation) (payload : Payload) (buffer : Frame),
    c.invocations[h]? = some v ∧ v.replies = [buffer] ∧
      yieldFrame v.requestId payload = .ok buffer ∧
      c.session.out.writes[n]? = some (buffer, .complete) ∧
      payload.Carries value.arguments value.kwArguments

section Reads

variable {c : Client}

theorem Client.reads_eq_some {n : Nat} {fields : List Object} :
    c.reads n = some (.array fields) ↔ ∃ buffer,
      c.session.out.writes[n]? = some (buffer, .complete) ∧
        decode buffer = some fields := by
  unfold Client.reads
  split
  · next buffer h => simp [h]
  · next h =>
    simp only [reduceCtorEq, false_iff, not_exists, not_and]
    intro buffer hw
    exact absurd hw (h buffer)

theorem messageTypeOf_of_decode {buffer : Frame} {t : MessageType}
    {fields : List Object}
    (h : decode buffer = some (.positiveInteger t.code :: fields)) :
    messageTypeOf buffer = some t := by
  rw [messageTypeOf, h]
  exact MessageType.ofCode?_code t

theorem Operation.Submits.of_call {op : Operation} {r r' : UInt64} {entry : Entry}
    {buffer : Frame} {options : Object} {name : Octets} {rest : List Object}
    (h : op.Submits r entry buffer)
    (hd : decode buffer = some (.positiveInteger MessageType.CALL.code ::
      .positiveInteger r' :: options :: .str name :: rest)) :
    r' = r ∧ ∃ payload, op = .call name payload ∧ payload.objects = .ok rest := by
  cases h with
  | subscribe _ topic handler =>
      rw [subscribeFrame_eq_pack, decode_pack] at hd
      simp [MessageType.code] at hd
  | unsubscribe _ subscription =>
      rw [unsubscribeFrame_eq_pack, decode_pack] at hd
      simp [MessageType.code] at hd
  | provide _ name procedure options =>
      rw [registerFrame_eq_pack, decode_pack] at hd
      simp [MessageType.code] at hd
  | call _ procedure payload _ h =>
      rw [callFrame_eq_pack] at h
      obtain ⟨os, hos, rfl⟩ := exists_of_map_eq_ok h
      rw [decode_pack] at hd
      simp only [List.cons_append, List.nil_append, Option.some.injEq,
        List.cons.injEq, Object.positiveInteger.injEq, Object.str.injEq,
        true_and] at hd
      obtain ⟨rfl, -, rfl, rfl⟩ := hd
      exact ⟨rfl, payload, rfl, hos⟩

theorem Operation.Submits.of_register {op : Operation} {r r' : UInt64}
    {entry : Entry} {buffer : Frame} {options : Object} {name : Octets}
    {rest : List Object} (h : op.Submits r entry buffer)
    (hd : decode buffer = some (.positiveInteger MessageType.REGISTER.code ::
      .positiveInteger r' :: options :: .str name :: rest)) :
    r' = r ∧ ∃ p options, op = .provide name p options ∧ entry = .register p := by
  cases h with
  | subscribe _ topic handler =>
      rw [subscribeFrame_eq_pack, decode_pack] at hd
      simp [MessageType.code] at hd
  | unsubscribe _ subscription =>
      rw [unsubscribeFrame_eq_pack, decode_pack] at hd
      simp [MessageType.code] at hd
  | provide _ name' procedure options' =>
      rw [registerFrame_eq_pack, decode_pack] at hd
      simp only [Option.some.injEq, List.cons.injEq,
        Object.positiveInteger.injEq, Object.str.injEq, true_and] at hd
      obtain ⟨rfl, -, rfl, -⟩ := hd
      exact ⟨rfl, procedure, options', rfl, rfl⟩
  | call _ procedure payload _ h =>
      rw [callFrame_eq_pack] at h
      obtain ⟨os, hos, rfl⟩ := exists_of_map_eq_ok h
      rw [decode_pack] at hd
      simp [MessageType.code] at hd

theorem Operation.Submits.entry_of_provide {name : Octets} {p : WampProcedure}
    {options : List (Octets × Object)} {r : UInt64} {entry : Entry}
    {buffer : Frame}
    (h : (Operation.provide name p options).Submits r entry buffer) :
    entry = .register p := by
  cases h
  rfl

theorem ReplyAttempt.of_yield {attempt : ReplyAttempt} {i i' : UInt64}
    {buffer : Frame} {options : Object} {rest : List Object}
    (h : attempt.frame i = .ok buffer)
    (hd : decode buffer = some (.positiveInteger MessageType.YIELD.code ::
      .positiveInteger i' :: options :: rest)) :
    i' = i ∧ ∃ payload, attempt = .result payload ∧ payload.objects = .ok rest := by
  cases attempt with
  | result payload =>
      rw [ReplyAttempt.frame, yieldFrame_eq_pack] at h
      obtain ⟨os, hos, rfl⟩ := exists_of_map_eq_ok h
      rw [decode_pack] at hd
      simp only [List.cons_append, List.nil_append, Option.some.injEq,
        List.cons.injEq, Object.positiveInteger.injEq, true_and] at hd
      obtain ⟨rfl, -, rfl⟩ := hd
      exact ⟨rfl, payload, rfl, hos⟩
  | error uri payload =>
      rw [ReplyAttempt.frame, errorFrame_eq_pack] at h
      obtain ⟨os, -, rfl⟩ := exists_of_map_eq_ok h
      rw [decode_pack] at hd
      simp [MessageType.code] at hd

/-- There is no second reply. -/
theorem Client.Replying.replies_eq (hc : c.Replying) {n : Nat} {v : WampInvocation}
    (hv : c.invocations[n]? = some v) {buffer : Frame} (h : buffer ∈ v.replies) :
    v.replies = [buffer] := by
  have hpos := List.length_pos_of_mem h
  have hlen : v.replies.length = 1 := by
    have := hc.spent hv
    split at this <;> omega
  obtain ⟨b, hb⟩ := List.length_eq_one_iff.mp hlen
  rw [hb] at h ⊢
  rw [List.mem_singleton.mp h]

theorem Client.Reachable.made_of_write (h : c.Reachable) {n : Nat}
    {buffer : Frame} {w : WriteResult} {t : MessageType} {r : UInt64}
    {rest : List Object} (hw : c.session.out.writes[n]? = some (buffer, w))
    (hd : decode buffer =
      some (.positiveInteger t.code :: .positiveInteger r :: rest))
    (ht : t = .CALL ∨ t = .REGISTER) :
    ∃ (ref : Nat) (q : Request) (entry : Entry), c.requests[ref]? = some q ∧
      q.entered = true ∧ q.Made entry ∧ q.buffer = buffer := by
  have htype := messageTypeOf_of_decode hd
  have hid : requestIdOf buffer = some r := by
    rcases ht with rfl | rfl <;> simp [requestIdOf, hd, MessageType.isRequest]
  cases h.source _ (List.mem_of_getElem? hw) with
  | plain hplain =>
      rw [PlainFrame, htype] at hplain
      rcases ht with rfl | rfl <;> simp at hplain
  | request hq he hb =>
      obtain ⟨entry, hm⟩ := h.coherent.made _ (List.mem_of_getElem? hq)
      exact ⟨_, _, entry, hq, he, hm, hb⟩
  | reply hv hb =>
      obtain ⟨attempt, hattempt⟩ :=
        h.answered _ _ hv _ ((h.replying.handed_le hv).2 hb)
      rw [requestIdOf_reply hattempt] at hid
      cases hid

/-- The id in a request frame is the id of its request. -/
theorem Client.Wrote.requestId_eq (hc : c.Coherent) {n : Nat} {q : Request}
    (h : c.Wrote n q) {t : MessageType} (ht : t.isRequest = true) {r : UInt64}
    {rest : List Object}
    (hr : c.reads n = some (t.object (.positiveInteger r :: rest))) :
    q.requestId = r := by
  obtain ⟨buffer, hw, hd⟩ := Client.reads_eq_some.mp hr
  obtain ⟨rfl, -⟩ := Prod.mk.inj (Option.some.inj (h.2.symm.trans hw))
  obtain ⟨entry, hm⟩ := hc.made q h.1
  have hid := hm.submits.requestIdOf
  rw [requestIdOf, hd] at hid
  simpa [ht, eq_comm] using hid

/-- **A CALL is the one its `call` packed.** -/
theorem Client.Reachable.wrote_call (h : c.Reachable) {n : Nat} {r : UInt64}
    {options : Object} {name : Octets} {rest : List Object}
    (hr : c.reads n = some (MessageType.CALL.object
      (.positiveInteger r :: options :: .str name :: rest))) :
    ∃ (q : Request) (payload : Payload), c.Wrote n q ∧ q.requestId = r ∧
      q.operation = .call name payload ∧ payload.objects = .ok rest := by
  obtain ⟨buffer, hw, hd⟩ := Client.reads_eq_some.mp hr
  obtain ⟨ref, q, entry, hq, -, hm, rfl⟩ := h.made_of_write hw hd (.inl rfl)
  obtain ⟨hid, payload, hop, hos⟩ := hm.submits.of_call hd
  exact ⟨q, payload, ⟨List.mem_of_getElem? hq, hw⟩, hid.symm, hop, hos⟩

/-- **A REGISTER is the one its `provide` packed**, and while ids last its
entry waits under its id. -/
theorem Client.Reachable.wrote_register (h : c.Reachable)
    (hlt : c.issued < UInt64.size) {n : Nat} {r : UInt64} {options : Object}
    {name : Octets} {rest : List Object}
    (hr : c.reads n = some (MessageType.REGISTER.object
      (.positiveInteger r :: options :: .str name :: rest))) :
    ∃ (p : WampProcedure) (options : List (Octets × Object)) (ref : Nat),
      c.Asked n (.provide name p options) ∧
      c.session.registerRequests.find r = some ⟨p, ref⟩ := by
  obtain ⟨buffer, hw, hd⟩ := Client.reads_eq_some.mp hr
  obtain ⟨ref, q, entry, hq, he, hm, rfl⟩ := h.made_of_write hw hd (.inr rfl)
  obtain ⟨rfl, p, options, hop, rfl⟩ := hm.submits.of_register hd
  obtain ⟨entry', hentry⟩ := h.registers hlt ref q hq he hm.kind
  obtain ⟨q', hq', hm', -⟩ := h.coherent.entries hentry
  obtain rfl := Option.some.inj (hq'.symm.trans hq)
  obtain rfl := Operation.Submits.entry_of_provide (hop ▸ hm'.submits)
  obtain ⟨e, he, heq⟩ := Option.map_eq_some_iff.mp hentry
  simp only [Prod.mk.injEq, Entry.register.injEq] at heq
  refine ⟨p, options, e.response, ⟨q', ⟨List.mem_of_getElem? hq, hw⟩, hop⟩, ?_⟩
  rw [he, ← heq.2]

/-- **A YIELD is the one reply of its invocation.** -/
theorem Client.Reachable.wrote_yield (h : c.Reachable) {n : Nat} {i : UInt64}
    {options : Object} {rest : List Object}
    (hr : c.reads n = some (MessageType.YIELD.object
      (.positiveInteger i :: options :: rest)))
    {arguments kwArguments : Object}
    (hread : readPayload rest = some (arguments, kwArguments)) :
    ∃ (k : Nat) (v : WampInvocation), c.invocations[k]? = some v ∧
      v.requestId = i ∧ c.Yielded n k { arguments, kwArguments } := by
  obtain ⟨buffer, hw, hd⟩ := Client.reads_eq_some.mp hr
  have hid : requestIdOf buffer = none := by
    simp [requestIdOf, hd, MessageType.isRequest]
  cases h.source _ (List.mem_of_getElem? hw) with
  | plain hplain =>
      rw [PlainFrame, messageTypeOf_of_decode hd] at hplain
      simp at hplain
  | request hq he hb =>
      obtain ⟨entry, hm⟩ := h.coherent.made _ (List.mem_of_getElem? hq)
      rw [← show _ = buffer from hb, hm.submits.requestIdOf] at hid
      cases hid
  | @reply k v hv hb =>
      have hmem := (h.replying.handed_le hv).2 hb
      obtain ⟨attempt, hattempt⟩ := h.answered _ _ hv _ hmem
      obtain ⟨rfl, payload, rfl, hos⟩ := ReplyAttempt.of_yield hattempt hd
      obtain ⟨a, kw, hread', hcarries⟩ := payload.readPayload_objects hos
      obtain ⟨rfl, rfl⟩ := Prod.mk.inj (Option.some.inj (hread'.symm.trans hread))
      exact ⟨k, v, hv, rfl, v, payload, buffer, hv,
        h.replying.replies_eq hv hmem, hattempt, hw, hcarries⟩

/-- A REGISTER spells the name its `provide` was given. -/
theorem Client.Asked.name_eq (hc : c.Coherent) {n : Nat} {name name' : Octets}
    {p : WampProcedure} {options : List (Octets × Object)} {options' : Object}
    {r : UInt64} {rest : List Object} (h : c.Asked n (.provide name p options))
    (hr : c.reads n = some (MessageType.REGISTER.object
      (.positiveInteger r :: options' :: .str name' :: rest))) : name' = name := by
  obtain ⟨q, ⟨hq, hw⟩, hop⟩ := h
  obtain ⟨buffer, hw', hd⟩ := Client.reads_eq_some.mp hr
  obtain ⟨rfl, -⟩ := Prod.mk.inj (Option.some.inj (hw.symm.trans hw'))
  obtain ⟨entry, hm⟩ := hc.made q hq
  obtain ⟨-, p', options', hop', -⟩ := hm.submits.of_register hd
  exact ((Operation.provide.inj (hop.symm.trans hop')).1).symm

variable {d : Client}

theorem Client.Wrote.mono {n : Nat} {q : Request} (h : c.Wrote n q)
    (hgrows : c.Grows d) : ∃ q', d.Wrote n q' ∧ q.Ages q' := by
  obtain ⟨ref, hq⟩ := List.mem_iff_getElem?.mp h.1
  obtain ⟨q', hq', hages, -⟩ := hgrows.requests hq
  refine ⟨q', ⟨List.mem_of_getElem? hq', ?_⟩, hages⟩
  rw [hages.buffer]
  exact getElem?_of_isPrefix hgrows.writes h.2

theorem Client.Asked.mono {n : Nat} {op : Operation} (h : c.Asked n op)
    (hgrows : c.Grows d) : d.Asked n op := by
  obtain ⟨q, hq, hop⟩ := h
  obtain ⟨q', hq', hages⟩ := hq.mono hgrows
  exact ⟨q', hq', hages.operation.trans hop⟩

theorem Client.Yielded.mono (hc : c.Replying) {n k : Nat} {value : WampCallResult}
    (h : c.Yielded n k value) (hgrows : c.Grows d) (hkeeps : c.Keeps d) :
    d.Yielded n k value := by
  obtain ⟨v, payload, buffer, hv, hreplies, hframe, hw, hcarries⟩ := h
  obtain ⟨w, hw', hid, -, hspent⟩ := hkeeps k v hv
  have hs : v.sendable = false := by
    have := hc.spent hv
    rw [hreplies] at this
    by_contra hne
    simp [hne] at this
  exact ⟨w, payload, buffer, hw', (hspent hs).2.trans hreplies, hid ▸ hframe,
    getElem?_of_isPrefix hgrows.writes hw, hcarries⟩

end Reads

end Autobahn
