import Autobahn.Session.Coherence

/-!
# Who still waits

A future can be resolved as long as something can resolve its promise: the
task that is still queued, or the reply that is looked up in a table. A
session that stops, leaves or loses its connection touches neither, so a caller
may wait on in a stopped session. Two things end the wait: the reply, and the end
of the session, which breaks the promise (`Reachable.accounted`).
-/

namespace Autobahn

open Foundation MsgPack Relation

/-- Is the task of this request still queued? -/
def Client.Owned (c : Client) (ref : Nat) : Prop :=
  ∃ t ∈ c.tasks, t.owns ref = true

/-- In a stopped session no request whose task has run is left waiting. -/
def Client.NoneWaits (c : Client) : Prop :=
  c.session.stopped = true → ∀ (ref : Nat) (q : Request),
    c.requests[ref]? = some q → ¬ c.Owned ref → q.promise.resolved

/-- An unresolved request is queued, or entered in a session that lives. -/
def Client.Attended (c : Client) : Prop :=
  ∀ (ref : Nat) (q : Request), c.requests[ref]? = some q →
    ¬ q.promise.resolved → c.Owned ref ∨ (c.alive = true ∧ q.entered = true)

/-- A request waits for its reply: its task has run and nothing has resolved it. -/
structure Client.Waits (c : Client) (ref : Nat) (q : Request) : Prop where
  request : c.requests[ref]? = some q
  ran : ¬ c.Owned ref
  unresolved : ¬ q.promise.resolved

/-- Which kind of request, under which id, a message answers. -/
def Incoming.answered : Incoming → Option (RequestKind × UInt64)
  | .callError r _ | .result r _ => some (.call, r)
  | .subscribed r _ => some (.subscribe, r)
  | .unsubscribed r => some (.unsubscribe, r)
  | .registered r _ => some (.register, r)
  | _ => none

/-- The reply to a request, and the end of the session. Neither an operation nor
a task is among these, no GOODBYE and no read error. -/
def Input.EndsWait (q : Request) : Input → Prop
  | .message obj _ => (Incoming.read obj).answered = some (q.kind, q.requestId)
  | .destroy => True
  | _ => False

/-! ## What keeps it -/

section Keep

variable {c d : Client}

/-- Tasks may be added, and a promise may be resolved. -/
theorem Client.Attended.congr (hc : c.Attended) (ha : d.alive = c.alive)
    (ht : ∀ t ∈ c.tasks, t ∈ d.tasks)
    (hr : ∀ (ref : Nat) (q : Request), d.requests[ref]? = some q →
      ¬ q.promise.resolved → c.requests[ref]? = some q) : d.Attended := by
  intro ref q hq hp
  refine (hc ref q (hr ref q hq hp) hp).imp ?_ fun h => ⟨ha.trans h.1, h.2⟩
  rintro ⟨t, hmem, howns⟩
  exact ⟨t, ht t hmem, howns⟩

/-- A task that owns another request, or none, leaves this one owned. -/
theorem Client.Owned.dequeue {n ref : Nat} {t : Task} (h : c.Owned ref)
    (ht : c.tasks[n]? = some t) (hne : t.owns ref = false) :
    (c.dequeue n).Owned ref := by
  obtain ⟨u, hu, howns⟩ := h
  rcases List.mem_cons.mp ((Client.tasks_perm ht).mem_iff.mpr hu) with rfl | hu
  · exact absurd howns (by simp [hne])
  · exact ⟨u, hu, howns⟩

/-- A task that owns no request leaves the queue, and whatever it does it does
to no request. -/
theorem Client.Attended.run (hc : c.Attended) {n : Nat} {t : Task}
    (ht : c.tasks[n]? = some t) (howns : ∀ ref, t.owns ref = false)
    (htasks : d.tasks = c.tasks.eraseIdx n) (hreq : d.requests = c.requests)
    (ha : d.alive = c.alive) : d.Attended := by
  intro ref q hq hp
  rw [hreq] at hq
  refine (hc ref q hq hp).imp (fun h => ?_) fun h => ⟨ha.trans h.1, h.2⟩
  obtain ⟨u, hu, hown⟩ := h.dequeue ht (howns ref)
  exact ⟨u, htasks ▸ hu, hown⟩

/-- The task of a request leaves the queue once the request is resolved or
entered. -/
theorem Client.Attended.serve (hc : c.Attended) {n ref : Nat} {r : UInt64}
    {entry : Entry} {buffer : Frame}
    (ht : c.tasks[n]? = some (.request ref r entry buffer))
    (htasks : d.tasks = c.tasks.eraseIdx n) (ha : d.alive = c.alive)
    {f : Request → Request} (hreq : ∀ i, d.requests[i]? =
      if ref = i then (c.requests[i]?).map f else c.requests[i]?)
    (hf : ∀ q, (f q).promise.resolved ∨
      (c.alive = true ∧ (f q).entered = true)) : d.Attended := by
  intro i q hq hp
  rw [hreq] at hq
  split at hq
  · obtain ⟨q', -, rfl⟩ := Option.map_eq_some_iff.mp hq
    exact .inr ((hf q').resolve_left hp |>.imp_left ha.trans)
  · next hne =>
    refine (hc i q hq hp).imp (fun h => ?_) fun h => ⟨ha.trans h.1, h.2⟩
    obtain ⟨u, hu, hown⟩ := h.dequeue ht (by simp [Task.owns, hne])
    exact ⟨u, htasks ▸ hu, hown⟩

theorem Client.Attended.act (hc : c.Attended) (h : Act c d) : d.Attended := by
  cases h
  case submit op entry buffer h =>
    intro ref q hq hp
    simp only [Client.submit, List.getElem?_append] at hq
    split at hq
    · refine (hc ref q hq hp).imp ?_ id
      rintro ⟨t, hmem, howns⟩
      exact ⟨t, List.mem_append_left _ hmem, howns⟩
    · next hlt =>
      -- the new request is owned by the task just queued
      refine .inl ⟨_, List.mem_append_right _ List.mem_cons_self, ?_⟩
      obtain ⟨hi, -⟩ := List.getElem?_eq_some_iff.mp hq
      simp only [List.length_singleton] at hi
      simp only [Task.owns, decide_eq_true_eq]
      omega
  case answer k v attempt buffer hv hs hb =>
    unfold Client.answer
    split
    · exact hc.congr rfl (fun t ht => List.mem_append_left _ ht) fun _ _ hq _ => hq
    · exact hc.congr rfl (fun t ht => ht) fun _ _ hq _ => hq
  case skip n t ht howns hs => exact hc.run ht howns rfl rfl rfl
  case stopped n ht ha hs hj => exact hc.run ht (fun _ => rfl) rfl rfl rfl
  case joined n buffer ht ha hj => exact hc.run ht (fun _ => rfl) rfl rfl rfl
  case left n buffer ht ha hj hg => exact hc.run ht (fun _ => rfl) rfl rfl rfl
  case published n buffer ht ha hj => exact hc.run ht (fun _ => rfl) rfl rfl rfl
  case handed n k buffer ht ha => exact hc.run ht (fun _ => rfl) rfl rfl rfl
  case abandon n ref r entry buffer ht hs =>
    exact hc.serve ht rfl rfl ((c.dequeue n).getElem?_modifyRequest ref · _)
      fun q => .inl q.abandon_resolved
  case entered n ref r entry buffer ht ha hj =>
    exact hc.serve ht rfl rfl ((c.dequeue n).getElem?_enter ref · r entry)
      fun q => .inr ⟨ha, rfl⟩
  all_goals
    refine hc.congr rfl (fun t ht => ?_) fun _ _ hq _ => hq
    first
      | exact ht
      | exact List.mem_append_left _ ht

theorem Client.Attended.quiet (hc : c.Attended) (h : Quiet c d) :
    d.Attended := by
  cases h with
  | act h => exact hc.act h
  | goodbye => exact hc.congr rfl (fun t ht => ht) fun _ _ hq _ => hq
  | _ => exact hc

/-- An answer resolves a promise and takes no task away. -/
theorem Client.Attended.settled (hc : c.Attended) (ref : Nat)
    (r : Except Exn Reply) : (c.settled ref r).Attended := by
  refine hc.congr rfl (fun t ht => ht) fun i q hq hp => ?_
  rw [Client.settled, Client.getElem?_modifyRequest] at hq
  split at hq
  · obtain ⟨q', -, rfl⟩ := Option.map_eq_some_iff.mp hq
    exact absurd (by simp [Promise.resolved]) hp
  · exact hq

theorem Client.Attended.answer {i : Incoming} (hc : c.Attended)
    (h : Answer i c d) : d.Attended := by
  cases h with
  | failed he hq => exact hc.settled _ _
  | resulted he hq => exact hc.settled _ _
  | subscribed he hq => exact (Client.Attended.settled (c := c) hc _ _ :)
  | subscribedTwice he hq => exact hc
  | unsubscribed he hq => exact (Client.Attended.settled (c := c) hc _ _ :)
  | registered he hq => exact (Client.Attended.settled (c := c) hc _ _ :)
  | registeredTwice he hq => exact hc

/-- The end of the session breaks every promise that no task owns. -/
theorem Client.attended_destroy (c : Client) : c.destroy.Attended := by
  intro ref q hq hp
  rw [Client.getElem?_destroy] at hq
  obtain ⟨q', -, rfl⟩ := Option.map_eq_some_iff.mp hq
  split at hp
  · next hown => exact .inl (List.any_eq_true.mp hown)
  · exact absurd q'.abandon_resolved hp

theorem Client.Attended.move (hc : c.Attended) : Move c d → d.Attended
  | .quiet h => hc.quiet h
  | .answer h => hc.answer h
  | .destroy c => c.attended_destroy

theorem Client.Reachable.attended (h : c.Reachable) : c.Attended :=
  h.invariant (fun plan ref q hq => by simp [Client.new] at hq)
    fun _ _ hmove hc => hc.move hmove

end Keep

/-! ## What ends a wait -/

section Wait

variable {c d : Client} {ref : Nat} {q : Request}

/-- The request is as it was, and no new task owns it. -/
theorem Client.Waits.congr (h : c.Waits ref q)
    (hreq : d.requests[ref]? = c.requests[ref]?)
    (ht : ∀ t ∈ d.tasks, t.owns ref = true → t ∈ c.tasks) : d.Waits ref q where
  request := hreq.trans h.request
  ran := by
    rintro ⟨t, hmem, howns⟩
    exact h.ran ⟨t, ht t hmem howns, howns⟩
  unresolved := h.unresolved

/-- A task owns no request that waits. -/
theorem Client.Waits.ne (h : c.Waits ref q) {n ref' : Nat} {r : UInt64}
    {entry : Entry} {buffer : Frame}
    (ht : c.tasks[n]? = some (.request ref' r entry buffer)) : ref' ≠ ref := by
  rintro rfl
  exact h.ran ⟨_, List.mem_of_getElem? ht, by simp [Task.owns]⟩

theorem Client.Waits.act (h : c.Waits ref q) (hact : Act c d) : d.Waits ref q := by
  have hrest : ∀ {n : Nat}, ∀ t ∈ c.tasks.eraseIdx n, t.owns ref = true → t ∈ c.tasks :=
    fun t hmem _ => List.mem_of_mem_eraseIdx hmem
  have hqueued : ∀ {u : Task}, u.owns ref = false →
      ∀ t ∈ c.tasks ++ [u], t.owns ref = true → t ∈ c.tasks := by
    intro u hu t hmem howns
    rcases List.mem_append.mp hmem with hmem | hmem
    · exact hmem
    · rw [List.mem_singleton.mp hmem, hu] at howns
      cases howns
  cases hact with
  | submit hsub =>
      -- the request made has the next index
      have hlt : ref < c.requests.length :=
        (List.getElem?_eq_some_iff.mp h.request).1
      refine h.congr (List.getElem?_append_left hlt) (hqueued ?_)
      simp only [Task.owns, decide_eq_false_iff_not]
      exact (Nat.ne_of_lt hlt).symm
  | abandon ht hs =>
      refine h.congr ?_ hrest
      rw [Client.getElem?_modifyRequest, if_neg (h.ne ht)]
      rfl
  | entered ht ha hj =>
      refine h.congr ?_ hrest
      refine ((c.dequeue _).getElem?_enter _ ref _ _).trans ?_
      rw [if_neg (h.ne ht)]
      rfl
  | answer hv hs hb =>
      unfold Client.answer
      split
      · exact h.congr rfl (hqueued rfl)
      · exact h.congr rfl fun _ hmem _ => hmem
  | publish hf => exact h.congr rfl (hqueued rfl)
  | stop => exact h.congr rfl (hqueued rfl)
  | join realm => exact h.congr rfl (hqueued rfl)
  | leave reason => exact h.congr rfl (hqueued rfl)
  | skip ht howns hs => exact h.congr rfl hrest
  | stopped ht ha hs hj => exact h.congr rfl hrest
  | joined ht ha hj => exact h.congr rfl hrest
  | left ht ha hj hg => exact h.congr rfl hrest
  | published ht ha hj => exact h.congr rfl hrest
  | handed ht ha => exact h.congr rfl hrest
  | _ => exact h.congr rfl fun _ hmem _ => hmem

theorem Client.Waits.quiet (h : c.Waits ref q) (hquiet : Quiet c d) :
    d.Waits ref q := by
  cases hquiet with
  | act hact => exact h.act hact
  | _ => exact h.congr rfl fun _ hmem _ => hmem

/-- What answers another request does not resolve this one. -/
theorem Client.Waits.answer {i : Incoming} (h : c.Waits ref q) (hc : c.Coherent)
    (hi : i.answered ≠ some (q.kind, q.requestId)) (hanswer : Answer i c d) :
    d.Waits ref q := by
  have hother : ∀ {k : RequestKind} {r : UInt64} {ref' : Nat} {entry : Entry},
      c.session.entryAt k r = some (ref', entry) → i.answered = some (k, r) →
      ∀ {o : Except Exn Reply}, d.requests = (c.settled ref' o).requests →
      d.tasks = c.tasks → d.Waits ref q := by
    intro k r ref' entry hentry hk o hreq ht
    have hne : ref' ≠ ref := by
      rintro rfl
      obtain ⟨q', hq', hmade, rfl, -⟩ := hc.entries hentry
      obtain rfl := Option.some.inj (hq'.symm.trans h.request)
      rw [← WampSession.entryAt_kind hentry, ← hmade.kind] at hk
      exact hi hk
    refine h.congr ?_ fun t hmem _ => ht ▸ hmem
    rw [hreq, Client.settled, Client.getElem?_modifyRequest, if_neg hne]
  cases hanswer with
  | failed he hq => exact hother (WampSession.entryAt_call he) rfl rfl rfl
  | resulted he hq => exact hother (WampSession.entryAt_call he) rfl rfl rfl
  | subscribed he hq => exact hother (WampSession.entryAt_subscribe he) rfl rfl rfl
  | unsubscribed he hq =>
      exact hother (WampSession.entryAt_unsubscribe he) rfl rfl rfl
  | registered he hq => exact hother (WampSession.entryAt_register he) rfl rfl rfl
  | subscribedTwice he hq => exact h.congr rfl fun _ hmem _ => hmem
  | registeredTwice he hq => exact h.congr rfl fun _ hmem _ => hmem

theorem Client.Waits.step (h : c.Waits ref q) (hc : c.Coherent) {i : Input}
    (hi : ¬ i.EndsWait q) : (c.step i).Waits ref q := by
  rcases c.step_cases i with hquiets | ⟨obj, user, rfl, -, hanswer⟩ | ⟨rfl, -, -⟩
  · generalize c.step i = d at hquiets
    induction hquiets with
    | refl => exact h
    | tail _ hquiet ih => exact ih.quiet hquiet
  · exact h.answer hc hi hanswer
  · exact absurd trivial hi

theorem Client.Reachable.runs (h : c.Reachable) (is : List Input) :
    (c.runs is).Reachable := by
  obtain ⟨plan, hr⟩ := h
  exact ⟨plan, hr.trans ⟨is, rfl⟩⟩

/-- **Only the reply and the end of the session end a wait.** -/
theorem Client.Waits.runs (h : c.Waits ref q) (hc : c.Reachable) {is : List Input}
    (his : ∀ i ∈ is, ¬ i.EndsWait q) : (c.runs is).Waits ref q := by
  induction is generalizing c with
  | nil => exact h
  | cons i is ih =>
      obtain ⟨hi, his⟩ := List.forall_mem_cons.mp his
      exact ih (h.step hc.coherent hi) (hc.step i) his

/-- The end of the session breaks the promise. -/
theorem Client.Waits.destroy (h : c.Waits ref q) (ha : c.alive = true) :
    ∃ q', (c.step .destroy).requests[ref]? = some q' ∧
      q'.promise.outcome = some (.error .brokenPromise) := by
  have hown : c.tasks.any (Task.owns ref) = false := by
    rw [Bool.eq_false_iff]
    exact fun hown => h.ran (List.any_eq_true.mp hown)
  refine ⟨q.abandon, ?_, ?_⟩
  · rw [Client.step_destroy, if_pos ha, Client.getElem?_destroy, h.request]
    simp [hown]
  · rw [Request.abandon, Promise.abandon_of_not_resolved h.unresolved]

end Wait

/-! ## Whom a stopped session keeps waiting -/

/-- A request whose task has run is resolved, or it waits in its table, under its
own id, in a session that still exists. -/
theorem Client.Reachable.tabled {c : Client} (h : c.Reachable) {ref : Nat}
    {q : Request} (hq : c.requests[ref]? = some q) (hran : ¬ c.Owned ref) :
    q.promise.resolved ∨
      (c.alive = true ∧ c.session.pending q.kind q.requestId = some ref) := by
  by_cases hp : q.promise.resolved
  · exact .inl hp
  obtain ⟨ha, he⟩ := (h.attended ref q hq hp).resolve_left hran
  obtain ⟨entry, hentry⟩ := h.coherent.tracked hq he hp
  rw [WampSession.pending_eq, hentry]
  exact .inr ⟨ha, rfl⟩

/-- **No promise is lost track of**: a request whose task has run is resolved,
or it waits in its table, under its own id, in a session that still exists. Then
it waits on through whatever is done and read, its reply apart, and the end of
the session breaks its promise. -/
theorem Client.Reachable.accounted {c : Client} (h : c.Reachable) {ref : Nat}
    {q : Request} (hq : c.requests[ref]? = some q) (hran : ¬ c.Owned ref) :
    (q.promise.resolved ∨
      (c.alive = true ∧ c.session.pending q.kind q.requestId = some ref)) ∧
    (¬ q.promise.resolved → ∀ is : List Input, (∀ i ∈ is, ¬ i.EndsWait q) →
      (c.runs is).requests[ref]? = some q ∧
      ∃ q', (c.runs (is ++ [.destroy])).requests[ref]? = some q' ∧
        q'.promise.outcome = some (.error .brokenPromise)) := by
  refine ⟨h.tabled hq hran, fun hp is his => ?_⟩
  have hwaits := Client.Waits.runs ⟨hq, hran, hp⟩ h his
  have halive : (c.runs is).alive = true :=
    (((h.runs is).tabled hwaits.request hwaits.ran).resolve_left hp).1
  refine ⟨hwaits.request, ?_⟩
  rw [Client.runs, Machine.run_snoc]
  exact hwaits.destroy halive

/-- A call is pending when the session leaves and stops. -/
def stoppedWhilePending : List Input :=
  [.operate (.join (octets "realm1")), .task 0,
    .message (MessageType.WELCOME.object [.positiveInteger 7]) fun _ => {},
    .operate (.call (octets "com.add") .none), .task 0,
    .operate (.leave (octets "bye")), .task 0, .operate .stop, .task 0]

theorem stoppedWhilePending_ran :
    ¬ ((Client.new fun _ => .complete).runs stoppedWhilePending).Owned 0 := by
  rintro ⟨t, ht, -⟩
  cases ht

/-- It waits on in the stopped session. -/
theorem not_noneWaits : ¬ ∀ c : Client, c.Reachable → c.NoneWaits := by
  intro h
  exact absurd (h _ (Client.reachable_runs (fun _ => .complete)
    stoppedWhilePending) rfl 0 _ rfl stoppedWhilePending_ran) (by decide)

/-- It waits on through a GOODBYE and a read error, until the session is gone. -/
theorem accounted_while_stopped :
    let c := (Client.new fun _ => .complete).runs stoppedWhilePending
    let late : List Input :=
      [.message (MessageType.GOODBYE.object [.map [], .str (octets "bye")])
          fun _ => {},
        .rxError (.other 2) fun _ => {}]
    ∃ q : Request, c.requests[0]? = some q ∧
      (q.promise.resolved ∨
        (c.alive = true ∧ c.session.pending q.kind q.requestId = some 0)) ∧
      (c.runs late).requests[0]? = some q ∧
      ∃ q', (c.runs (late ++ [.destroy])).requests[0]? = some q' ∧
        q'.promise.outcome = some (.error .brokenPromise) := by
  intro c late
  obtain ⟨q, hq⟩ : ∃ q, c.requests[0]? = some q := ⟨_, rfl⟩
  have hwaits : ¬ q.promise.resolved := by
    obtain rfl := Option.some.inj hq
    decide
  have h := Client.Reachable.accounted (Client.reachable_runs _ stoppedWhilePending)
    hq stoppedWhilePending_ran
  refine ⟨q, hq, h.1, h.2 hwaits late fun i hi => ?_⟩
  rcases List.mem_cons.mp hi with rfl | hi
  · exact (Option.some_ne_none (q.kind, q.requestId)).symm
  · rw [List.mem_singleton.mp hi]
    exact id

end Autobahn
