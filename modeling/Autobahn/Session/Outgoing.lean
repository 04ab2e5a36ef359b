import Autobahn.MsgPack.Format
import Autobahn.Session.Tasks

/-!
# What goes out

Each encoder declares the sizes of its arrays and maps apart from the elements
it packs. `Outgoing.frame` is what an operation packs and `Outgoing.message`
the array that the comment above the encoder announces. They agree for every
operation (`Outgoing.frame_eq_pack`).

An operation of the client queues this frame (`Client.Emits`), and whatever a
session has written is the frame of such an operation
(`Client.Reachable.writes_outgoing`). So each operation emits one message, with
nothing missing and nothing left over (`Outgoing.one_message`).
-/

namespace Autobahn

open Foundation MsgPack

/-! ## The outgoing operations -/

/-- The operations that pack a message. `publish`, `call`, `yield` and `error`
are three overloads each: `empty_result` and the two of `result` pack a YIELD. -/
inductive Outgoing : Type where
  | join (realm : Octets)
  | leave (reason : Octets)
  | goodbyeReply
  | subscribe (requestId : UInt64) (topic : Octets)
  | unsubscribe (requestId subscription : UInt64)
  | provide (requestId : UInt64) (name : Octets) (options : List (Octets × Object))
  | publish (requestId : UInt64) (topic : Octets) (payload : Payload)
  | call (requestId : UInt64) (procedure : Octets) (payload : Payload)
  | yield (requestId : UInt64) (payload : Payload)
  | error (requestId : UInt64) (uri : Octets) (payload : Payload)

namespace Outgoing

/-- What the operation packs, or what packing its arguments throws. -/
def frame : Outgoing → Except Exn Frame
  | join realm => .ok (helloFrame realm)
  | leave reason => .ok (goodbyeFrame reason)
  | goodbyeReply => .ok (goodbyeFrame (octets "wamp.error.goodbye_and_out"))
  | subscribe requestId topic => .ok (subscribeFrame requestId topic)
  | unsubscribe requestId subscription =>
      .ok (unsubscribeFrame requestId subscription)
  | provide requestId name options => .ok (registerFrame requestId options name)
  | publish requestId topic payload => publishFrame requestId topic payload
  | call requestId procedure payload => callFrame requestId procedure payload
  | yield requestId payload => yieldFrame requestId payload
  | error requestId uri payload => errorFrame requestId uri payload

/-! ## The messages they announce -/

/-- The roles a client has, each with no features. -/
def roles : Object :=
  .map [(.str (octets "caller"), .map []), (.str (octets "callee"), .map []),
    (.str (octets "publisher"), .map []), (.str (octets "subscriber"), .map [])]

def hello (realm : Octets) : List Object :=
  [.positiveInteger MessageType.HELLO.code, .str realm,
    .map [(.str (octets "roles"), roles)]]

def goodbye (reason : Octets) : List Object :=
  [.positiveInteger MessageType.GOODBYE.code, .map [], .str reason]

/-- The fields that come before what was supplied of Arguments and
ArgumentsKw. -/
def fields : Outgoing → List Object
  | join realm => hello realm
  | leave reason => goodbye reason
  | goodbyeReply => goodbye (octets "wamp.error.goodbye_and_out")
  | subscribe requestId topic =>
      [.positiveInteger MessageType.SUBSCRIBE.code, .positiveInteger requestId,
        .map [], .str topic]
  | unsubscribe requestId subscription =>
      [.positiveInteger MessageType.UNSUBSCRIBE.code, .positiveInteger requestId,
        .positiveInteger subscription]
  | provide requestId name options =>
      [.positiveInteger MessageType.REGISTER.code, .positiveInteger requestId,
        .map (options.map fun o => (.str o.1, o.2)), .str name]
  | publish requestId topic _ =>
      [.positiveInteger MessageType.PUBLISH.code, .positiveInteger requestId,
        .map [], .str topic]
  | call requestId procedure _ =>
      [.positiveInteger MessageType.CALL.code, .positiveInteger requestId,
        .map [], .str procedure]
  | yield requestId _ =>
      [.positiveInteger MessageType.YIELD.code, .positiveInteger requestId, .map []]
  | error requestId uri _ =>
      [.positiveInteger MessageType.ERROR.code,
        .positiveInteger MessageType.INVOCATION.code, .positiveInteger requestId,
        .map [], .str uri]

def payload : Outgoing → Payload
  | publish _ _ payload | call _ _ payload | yield _ payload
  | error _ _ payload => payload
  | _ => .none

/-- The message as the comment gives it. -/
def message (o : Outgoing) : Except Exn (List Object) :=
  o.payload.objects.map fun supplied => o.fields ++ supplied

/-! ## One message each -/

/-- The tokens of an operation spell its message. -/
theorem frame_eq_pack (o : Outgoing) :
    o.frame = o.message.map fun fields => pack (.array fields) := by
  cases o with
  | join realm => exact congrArg Except.ok (helloFrame_eq_pack realm)
  | leave reason => exact congrArg Except.ok (goodbyeFrame_eq_pack reason)
  | goodbyeReply => exact congrArg Except.ok (goodbyeFrame_eq_pack _)
  | subscribe r topic => exact congrArg Except.ok (subscribeFrame_eq_pack r topic)
  | unsubscribe r subscription =>
      exact congrArg Except.ok (unsubscribeFrame_eq_pack r subscription)
  | provide r name options =>
      exact congrArg Except.ok (registerFrame_eq_pack r options name)
  | publish r topic payload =>
      rw [frame, publishFrame_eq_pack, message, Outgoing.payload]
      cases payload.objects <;> rfl
  | call r procedure payload =>
      rw [frame, callFrame_eq_pack, message, Outgoing.payload]
      cases payload.objects <;> rfl
  | yield r payload =>
      rw [frame, yieldFrame_eq_pack, message, Outgoing.payload]
      cases payload.objects <;> rfl
  | error r uri payload =>
      rw [frame, errorFrame_eq_pack, message, Outgoing.payload]
      cases payload.objects <;> rfl

theorem exists_message {o : Outgoing} {buffer : Frame} (h : o.frame = .ok buffer) :
    ∃ fields, o.message = .ok fields ∧ buffer = pack (.array fields) := by
  rw [frame_eq_pack] at h
  exact exists_of_map_eq_ok h

/-- The frame of an operation is the array the comment gives, with what was supplied
of Arguments and ArgumentsKw behind its fields, whatever follows on the stream:
token for token, and octet for octet where the format has a form for each token. -/
structure Spells (o : Outgoing) (supplied : List Object) (buffer : Frame) : Prop where
  frame : o.frame = .ok buffer
  value : ∀ rest, unpack (buffer ++ rest) = some (.array (o.fields ++ supplied), rest)
  octets : ∀ packed, writeAll buffer = some packed → ∀ rest,
    readValue (packed ++ rest) = some (.array (o.fields ++ supplied), rest)
  written : (∀ t ∈ buffer, t.Fits) → ∃ packed, writeAll buffer = some packed

theorem spells_pack {o : Outgoing} {supplied : List Object}
    (h : o.payload.objects = .ok supplied) :
    o.Spells supplied (pack (.array (o.fields ++ supplied))) where
  frame := by
    rw [frame_eq_pack, message, h]
    rfl
  value rest := unpack_pack _ rest
  octets _ hpacked rest := readValue_write hpacked rest
  written := exists_writeAll

theorem exists_spells {o : Outgoing} {buffer : Frame} (h : o.frame = .ok buffer) :
    ∃ supplied, o.payload.objects = .ok supplied ∧ o.Spells supplied buffer := by
  obtain ⟨fields, hmessage, rfl⟩ := exists_message h
  obtain ⟨supplied, hsupplied, rfl⟩ := exists_of_map_eq_ok hmessage
  exact ⟨supplied, hsupplied, spells_pack hsupplied⟩

end Outgoing

/-! ## What the operations of a client emit -/

/-- What a call of the user packs under the id `r`; a `stop` sends nothing. -/
def Operation.outgoing? (r : UInt64) : Operation → Option Outgoing
  | .stop => none
  | .join realm => some (.join realm)
  | .leave reason => some (.leave reason)
  | .subscribe topic _ => some (.subscribe r topic)
  | .unsubscribe subscription => some (.unsubscribe r subscription)
  | .provide name _ options => some (.provide r name options)
  | .publish topic payload => some (.publish r topic payload)
  | .call procedure payload => some (.call r procedure payload)

/-- What a reply packs for the invocation `r`. -/
def ReplyAttempt.outgoing (r : UInt64) : ReplyAttempt → Outgoing
  | .result payload => .yield r payload
  | .error uri payload => .error r uri payload

/-- The frame a task has captured, which it hands to `send`. -/
def Task.buffer? : Task → Option Frame
  | .stop => none
  | .join buffer | .leave buffer | .publish buffer | .request _ _ _ buffer
  | .sendResult _ buffer => some buffer

/-- The client emits the operation as this frame: a call of the user or a reply
queues one task, which has captured it, and the answer to a GOODBYE writes it. -/
structure Client.Emits (c : Client) (o : Outgoing) (buffer : Frame) : Prop where
  operation : ∀ op : Operation, op.outgoing? (c.session.requestId + 1) = some o →
    ∃ t, (c.step (.operate op)).tasks = c.tasks ++ [t] ∧ t.buffer? = some buffer
  reply : ∀ (k : Nat) (v : WampInvocation) (attempt : ReplyAttempt),
    c.invocations[k]? = some v → v.sendable = true →
    attempt.outgoing v.requestId = o →
    ∃ t, (c.step (.respond false k attempt)).tasks = c.tasks ++ [t] ∧
      t.buffer? = some buffer
  goodbye : o = .goodbyeReply → c.session.goodbyeSent = false →
    ∀ obj reason user, Incoming.read obj = .goodbye reason →
    (c.step (.message obj user)).session.out.writes =
      c.session.out.writes ++ c.session.sending buffer

section Emits

variable {c : Client} {o : Outgoing} {buffer : Frame}

/-- A future is taken from the promise of a session, and nothing else happens. -/
theorem getFuture_tasks {α : Type} (p : Promise Exn α)
    (store : Promise Exn α → WampSession → WampSession) (c : Client) :
    ((getFuture p store).run c).2.tasks = c.tasks := by
  cases hp : p.getFuture <;> simp [getFuture, hp, Client.setSession]

theorem request_tasks {op : Operation} {entry : Entry}
    {frame : UInt64 → Except Exn Frame}
    (h : frame (c.session.requestId + 1) = .ok buffer) :
    ∃ t, ((request false op entry frame).run c).2.tasks = c.tasks ++ [t] ∧
      t.buffer? = some buffer := by
  rw [run_request, h]
  exact ⟨_, rfl, rfl⟩

theorem operate_tasks {op : Operation}
    (ho : op.outgoing? (c.session.requestId + 1) = some o)
    (hb : o.frame = .ok buffer) :
    ∃ t, ((operate false op).run c).2.tasks = c.tasks ++ [t] ∧
      t.buffer? = some buffer := by
  cases op with
  | stop => cases ho
  | join realm =>
      obtain rfl := Option.some.inj ho
      obtain rfl := Except.ok.inj hb
      refine ⟨.join (helloFrame realm), ?_, rfl⟩
      simp [operate, join, dispatch, Exec.run_bind, getFuture_tasks, Client.enqueue]
  | leave reason =>
      obtain rfl := Option.some.inj ho
      obtain rfl := Except.ok.inj hb
      refine ⟨.leave (goodbyeFrame reason), ?_, rfl⟩
      simp [operate, leave, dispatch, Exec.run_bind, getFuture_tasks, Client.enqueue]
  | subscribe topic handler =>
      obtain rfl := Option.some.inj ho
      exact request_tasks hb
  | unsubscribe subscription =>
      obtain rfl := Option.some.inj ho
      exact request_tasks hb
  | provide name procedure options =>
      obtain rfl := Option.some.inj ho
      exact request_tasks hb
  | call procedure payload =>
      obtain rfl := Option.some.inj ho
      exact request_tasks hb
  | publish topic payload =>
      obtain rfl := Option.some.inj ho
      have hb : publishFrame (c.session.requestId + 1) topic payload = .ok buffer := hb
      refine ⟨.publish buffer, ?_, rfl⟩
      simp [operate, publish, nextRequestId, packed, Client.takeId, hb, dispatch,
        Exec.run_bind, Client.enqueue]

/-- **A client emits each operation as its frame.** -/
theorem Client.emits (ha : c.alive = true) (hb : o.frame = .ok buffer) :
    c.Emits o buffer where
  operation op ho := by
    obtain ⟨t, ht, hbuffer⟩ := operate_tasks ho hb
    refine ⟨t, ?_, hbuffer⟩
    rw [Client.step, if_neg (by simp [ha])]
    exact ht
  reply k v attempt hv hs ho := by
    have hframe : attempt.frame v.requestId = .ok buffer := by
      subst ho
      cases attempt <;> exact hb
    refine ⟨.sendResult k buffer, ?_, rfl⟩
    rw [Client.step, if_neg (by simp [Input.needsSession]), Input.program, run_reply,
      hv]
    simp [hs, hframe, Client.replied, Client.answer, ha, Client.enqueue,
      Client.modifyInvocation]
  goodbye ho hg obj reason user hread := by
    subst ho
    obtain rfl := Except.ok.inj hb
    have hleft := c.left_writes
    rw [hg] at hleft
    rw [Client.step_message, if_pos ha, hread]
    cases reason with
    | error m =>
        rw [run_goodbye_error]
        exact hleft
    | ok text =>
        rw [run_goodbye]
        split <;> exact hleft

end Emits

/-! ## What a session has written -/

/-- Some operation packs this frame. -/
def Frame.Packed (buffer : Frame) : Prop := ∃ o : Outgoing, o.frame = .ok buffer

def Task.Packed : Task → Prop
  | .stop => True
  | .join buffer | .leave buffer | .publish buffer | .request _ _ _ buffer
  | .sendResult _ buffer => Frame.Packed buffer

theorem Operation.Submits.packed {op : Operation} {r : UInt64} {entry : Entry}
    {buffer : Frame} (h : op.Submits r entry buffer) : Frame.Packed buffer := by
  cases h with
  | subscribe r topic handler => exact ⟨.subscribe r topic, rfl⟩
  | unsubscribe r subscription => exact ⟨.unsubscribe r subscription, rfl⟩
  | provide r name procedure options => exact ⟨.provide r name options, rfl⟩
  | call r procedure payload buffer h => exact ⟨.call r procedure payload, h⟩

theorem ReplyAttempt.packed {attempt : ReplyAttempt} {r : UInt64} {buffer : Frame}
    (h : attempt.frame r = .ok buffer) : Frame.Packed buffer := by
  cases attempt with
  | result payload => exact ⟨.yield r payload, h⟩
  | error uri payload => exact ⟨.error r uri payload, h⟩

theorem posted_packed : Posted Task.Packed where
  stop := trivial
  join realm := ⟨.join realm, rfl⟩
  leave reason := ⟨.leave reason, rfl⟩
  publish h := ⟨.publish _ _ _, h⟩
  request h _ := h.packed
  reply h _ := ReplyAttempt.packed h

theorem Task.packed_of_sends {t : Task} (ht : t.Packed) {s : WampSession}
    {buffer : Frame} (h : t.sends s = some buffer) : Frame.Packed buffer := by
  cases t with
  | stop => cases h
  | sendResult n b => exact Option.some.inj h ▸ ht
  | _ =>
      simp only [sends, Option.ite_none_right_eq_some, Option.some.injEq] at h
      exact h.2 ▸ ht

def Client.Written (c : Client) : Prop :=
  ∀ w ∈ c.session.out.writes, Frame.Packed w.1

theorem written_sending {s : WampSession} {buffer : Frame} (h : Frame.Packed buffer) :
    ∀ w ∈ s.sending buffer, Frame.Packed w.1 := by
  intro w hw
  unfold WampSession.sending at hw
  split at hw
  · cases hw
  · rw [List.mem_singleton.mp hw]
    exact h

/-- No task and no GOODBYE writes anything else. -/
theorem written_rule :
    TaskRule (fun c => ∀ t ∈ c.tasks, t.Packed) Client.Written (fun _ _ => True)
      fun _ => True where
  keep h hc := posted_packed.quiet hc h
  around h _ := by rw [Client.Written, h.out, Client.Written]
  task := by
    intro c n t ht _ hc
    -- a task sends the frame that it was queued with
    have hsent : ∀ w ∈ (t.sends (c.dequeue n).session).elim []
        (c.dequeue n).session.sending, Frame.Packed w.1 := by
      cases hs : t.sends (c.dequeue n).session with
      | none => exact fun w hw => by cases hw
      | some buffer =>
          exact written_sending
            (Task.packed_of_sends (hc t (List.mem_of_getElem? ht)) hs)
    rw [Client.Written, t.writes_body, List.forall_mem_append, and_true]
    exact and_iff_left hsent
  goodbye := by
    intro c _
    rw [Client.Written, Client.left_writes, List.forall_mem_append, and_true]
    apply and_iff_left
    split
    · exact fun w hw => by cases hw
    · exact written_sending ⟨.goodbyeReply, rfl⟩
  answer h _ := by rw [Client.Written, h.out, Client.Written]
  destroy _ := Iff.rfl

/-- **Whatever a session has written** is what one of its operations packed. -/
theorem Client.Reachable.writes_outgoing {c : Client} (h : c.Reachable) :
    c.Written := by
  obtain ⟨plan, is, rfl⟩ := h
  induction is using List.reverseRecOn with
  | nil => exact fun w hw => by cases hw
  | append_singleton is i ih =>
      rw [Machine.run_snoc]
      have hc := posted_packed.reachable (Client.reachable_runs plan is)
      exact (written_rule.step hc i).mpr ⟨ih, fun _ _ => trivial, fun _ _ => trivial⟩

/-- **Every encoder emits one message.** When the values supplied could be packed,
an operation is emitted as one frame, which spells the array the comment gives:
its fields, and Arguments and ArgumentsKw behind them exactly when they were
supplied. And every frame that a session has written is one that an operation
spells. -/
theorem Outgoing.one_message :
    (∀ (o : Outgoing) (supplied : List Object), o.payload.objects = .ok supplied →
      ∃ buffer, o.Spells supplied buffer ∧
        ∀ c : Client, c.alive = true → c.Emits o buffer) ∧
    ∀ c : Client, c.Reachable → ∀ w ∈ c.session.out.writes,
      ∃ (o : Outgoing) (supplied : List Object),
        o.payload.objects = .ok supplied ∧ o.Spells supplied w.1 := by
  constructor
  · intro o supplied hsupplied
    have hspells := Outgoing.spells_pack hsupplied
    exact ⟨_, hspells, fun c ha => Client.emits ha hspells.frame⟩
  · intro c hc w hw
    obtain ⟨o, ho⟩ := hc.writes_outgoing w hw
    exact ⟨o, Outgoing.exists_spells ho⟩

/-- A call with a list and a map, and a client that has written it. -/
theorem Outgoing.one_message_call :
    let payload : Payload := .listMap (.ok [.positiveInteger 1])
      (.ok [(.str (octets "k"), .positiveInteger 2)])
    let c := (Client.new fun _ => .complete).runs
      [.message (MessageType.WELCOME.object [.positiveInteger 7]) fun _ => {},
        .operate (.call (octets "com.add") payload), .task 0]
    (∃ buffer, (Outgoing.call 1 (octets "com.add") payload).Spells
        [.array [.positiveInteger 1],
          .map [(.str (octets "k"), .positiveInteger 2)]] buffer ∧
      ∀ c : Client, c.alive = true →
        c.Emits (.call 1 (octets "com.add") payload) buffer) ∧
    ∃ w ∈ c.session.out.writes, ∃ (o : Outgoing) (supplied : List Object),
      o.payload.objects = .ok supplied ∧ o.Spells supplied w.1 := by
  intro payload c
  refine ⟨Outgoing.one_message.1 _ _ rfl, ?_⟩
  obtain ⟨w, hw⟩ : ∃ w, w ∈ c.session.out.writes := ⟨_, List.mem_singleton_self _⟩
  exact ⟨w, hw, Outgoing.one_message.2 c (Client.reachable_runs _ _) w hw⟩

end Autobahn
