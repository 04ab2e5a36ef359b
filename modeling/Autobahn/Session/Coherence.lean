import Mathlib.Data.List.Perm.Basic
import Autobahn.Session.Moves

/-!
# Requests, tasks and tables agree

`Coherent` ties together the four places a request appears in: the request
object, its queued task, the table entry, and the counter its id came from.
It holds in every reachable state, whatever the router sends and however
often the counter has wrapped around.
-/

namespace Autobahn

open Foundation MsgPack Relation

/-! ## The tables as one map -/

/-- The entry of a table, with the promise it points to. -/
def WampSession.entryAt (s : WampSession) (k : RequestKind) (r : UInt64) :
    Option (Nat × Entry) :=
  match k with
  | .call => (s.calls.find r).map fun e => (e.result, .call)
  | .subscribe =>
      (s.subscribeRequests.find r).map fun e => (e.response, .subscribe e.handler)
  | .unsubscribe =>
      (s.unsubscribeRequests.find r).map fun e => (e.response, .unsubscribe)
  | .register =>
      (s.registerRequests.find r).map fun e => (e.response, .register e.procedure)

namespace WampSession

variable {s : WampSession}

theorem pending_eq (k : RequestKind) (r : UInt64) :
    s.pending k r = (s.entryAt k r).map Prod.fst := by
  cases k <;> simp [pending, entryAt, Function.comp_def]

theorem entryAt_call {r : UInt64} {e : WampCall}
    (h : s.calls.find r = some e) :
    s.entryAt .call r = some (e.result, .call) := by
  simp [entryAt, h]

theorem entryAt_subscribe {r : UInt64} {e : WampSubscribeRequest}
    (h : s.subscribeRequests.find r = some e) :
    s.entryAt .subscribe r = some (e.response, .subscribe e.handler) := by
  simp [entryAt, h]

theorem entryAt_unsubscribe {r : UInt64} {e : WampUnsubscribeRequest}
    (h : s.unsubscribeRequests.find r = some e) :
    s.entryAt .unsubscribe r = some (e.response, .unsubscribe) := by
  simp [entryAt, h]

theorem entryAt_register {r : UInt64} {e : WampRegisterRequest}
    (h : s.registerRequests.find r = some e) :
    s.entryAt .register r = some (e.response, .register e.procedure) := by
  simp [entryAt, h]

/-- A table holds entries of its own kind. -/
theorem entryAt_kind {k : RequestKind} {r : UInt64} {ref : Nat} {entry : Entry}
    (h : s.entryAt k r = some (ref, entry)) : entry.kind = k := by
  cases k <;> simp only [entryAt, Option.map_eq_some_iff, Prod.mk.injEq] at h <;>
    obtain ⟨e, -, -, rfl⟩ := h <;> rfl

theorem entryAt_emplace (entry : Entry) (r r' : UInt64) (ref : Nat)
    (k : RequestKind) :
    (s.emplace entry r ref).entryAt k r' =
      if k = entry.kind ∧ r' = r ∧ s.entryAt k r = none then some (ref, entry)
      else s.entryAt k r' := by
  cases entry <;> cases k <;>
    simp only [emplace, entryAt, Entry.kind, Table.find_emplace,
      Option.map_eq_none_iff, reduceCtorEq, false_and, if_false, true_and] <;>
    split <;> simp_all

@[simp] theorem entryAt_send (buffer : Frame) (k : RequestKind) (r : UInt64) :
    (s.send buffer).entryAt k r = s.entryAt k r := by
  unfold send
  split <;> rfl

end WampSession

theorem Client.eraseSubscribe_entryAt (c : Client) (r r' : UInt64)
    (k : RequestKind) :
    (c.eraseSubscribe r).session.entryAt k r' =
      if k = .subscribe ∧ r' = r then none else c.session.entryAt k r' := by
  cases k <;>
    simp only [eraseSubscribe, setSession, WampSession.entryAt, Table.find_erase,
      reduceCtorEq, false_and, if_false, true_and, apply_ite (Option.map _),
      Option.map_none]

theorem Client.eraseUnsubscribe_entryAt (c : Client) (r r' : UInt64)
    (k : RequestKind) :
    (c.eraseUnsubscribe r).session.entryAt k r' =
      if k = .unsubscribe ∧ r' = r then none else c.session.entryAt k r' := by
  cases k <;>
    simp only [eraseUnsubscribe, setSession, WampSession.entryAt, Table.find_erase,
      reduceCtorEq, false_and, if_false, true_and, apply_ite (Option.map _),
      Option.map_none]

/-! ## The invariant -/

/-- The request object is the one its operation makes. -/
structure Request.Made (q : Request) (entry : Entry) : Prop where
  submits : q.operation.Submits q.requestId entry q.buffer
  kind : q.kind = entry.kind

/-- The promise a queued task owns. -/
def Task.request? : Task → Option Nat
  | .request response _ _ _ => some response
  | _ => none

structure Client.Coherent (c : Client) : Prop where
  counter : c.session.requestId = UInt64.ofNat c.issued
  made : ∀ q ∈ c.requests, ∃ entry, q.Made entry
  owners : (c.tasks.filterMap Task.request?).Nodup
  queued : ∀ {ref r entry buffer}, .request ref r entry buffer ∈ c.tasks →
    ∃ q, c.requests[ref]? = some q ∧ q.Made entry ∧ q.requestId = r ∧
      q.buffer = buffer ∧ q.entered = false ∧ ¬ q.promise.resolved
  entries : ∀ {k r ref entry}, c.session.entryAt k r = some (ref, entry) →
    ∃ q, c.requests[ref]? = some q ∧ q.Made entry ∧ q.requestId = r ∧
      q.entered = true
  /-- SUBSCRIBED and UNSUBSCRIBED erase what they answer. -/
  waiting : c.alive = true → ∀ {k r ref entry},
    c.session.entryAt k r = some (ref, entry) →
    k = .subscribe ∨ k = .unsubscribe → c.Unsettled ref
  /-- Whatever is still waited for is in its table. -/
  tracked : ∀ {ref q}, c.requests[ref]? = some q → q.entered = true →
    ¬ q.promise.resolved →
    ∃ entry, c.session.entryAt q.kind q.requestId = some (ref, entry)

/-! ## What keeps it -/

section Keep

variable {c d : Client}

theorem Client.getElem?_modifyRequest (c : Client) (ref i : Nat)
    (f : Request → Request) :
    (c.modifyRequest ref f).requests[i]? =
      if ref = i then (c.requests[i]?).map f else c.requests[i]? := by
  simp only [Client.modifyRequest, List.getElem?_modify]
  split <;> simp

/-- A table entry belongs to no queued task. -/
theorem Client.Coherent.not_owned (hc : c.Coherent) {k : RequestKind}
    {r : UInt64} {ref : Nat} {entry : Entry}
    (h : c.session.entryAt k r = some (ref, entry)) :
    ∀ t ∈ c.tasks, t.request? ≠ some ref := by
  intro t ht howner
  cases t <;> simp only [Task.request?, reduceCtorEq, Option.some.injEq] at howner
  case request response r' entry' buffer =>
    subst howner
    obtain ⟨q, hq, -, -, -, hentered, -⟩ := hc.queued ht
    obtain ⟨q', hq', -, -, hentered'⟩ := hc.entries h
    rw [hq] at hq'
    obtain rfl := Option.some.inj hq'
    rw [hentered] at hentered'
    exact absurd hentered' (by simp)

/-- Moves that touch neither requests nor tasks nor tables. -/
theorem Client.Coherent.congr (hc : c.Coherent)
    (hreq : d.requests = c.requests) (htasks : d.tasks = c.tasks)
    (hentry : ∀ k r, d.session.entryAt k r = c.session.entryAt k r)
    (halive : d.alive = c.alive)
    (hid : d.session.requestId = c.session.requestId)
    (hissued : d.issued = c.issued) : d.Coherent where
  counter := by rw [hid, hissued, hc.counter]
  made := by rw [hreq]; exact hc.made
  owners := by rw [htasks]; exact hc.owners
  queued := by rw [htasks, hreq]; exact hc.queued
  entries := by
    intro k r ref entry h
    rw [hentry] at h
    rw [hreq]
    exact hc.entries h
  waiting := by
    intro ha k r ref entry h hk
    rw [hentry] at h
    rw [halive] at ha
    unfold Client.Unsettled
    rw [hreq]
    exact hc.waiting ha h hk
  tracked := by
    intro ref q hq hentered hp
    rw [hreq] at hq
    obtain ⟨entry, h⟩ := hc.tracked hq hentered hp
    exact ⟨entry, by rw [hentry, h]⟩

/-- The queue may lose tasks, and gain tasks that own no request. -/
theorem Client.Coherent.withTasks (hc : c.Coherent) {ts : List Task}
    (howners : (ts.filterMap Task.request?).Nodup)
    (hmem : ∀ t ∈ ts, t.request? ≠ none → t ∈ c.tasks) :
    { c with tasks := ts }.Coherent where
  counter := hc.counter
  made := hc.made
  owners := howners
  queued := fun h => hc.queued (hmem _ h (by simp [Task.request?]))
  entries := hc.entries
  waiting := hc.waiting
  tracked := hc.tracked

theorem Client.Coherent.enqueue (hc : c.Coherent) {t : Task}
    (ht : t.request? = none) : (c.enqueue t).Coherent := by
  refine hc.withTasks ?_ ?_
  · rw [List.filterMap_append]
    simpa [ht] using hc.owners
  · intro t' hmem hne
    rcases List.mem_append.mp hmem with h | h
    · exact h
    · rw [List.mem_singleton.mp h] at hne
      exact absurd ht hne

theorem Client.Coherent.dequeue (hc : c.Coherent) (n : Nat) :
    (c.dequeue n).Coherent :=
  hc.withTasks (hc.owners.sublist ((List.eraseIdx_sublist _ n).filterMap _))
    fun _ h _ => List.mem_of_mem_eraseIdx h

theorem Client.tasks_perm {n : Nat} {t : Task} (ht : c.tasks[n]? = some t) :
    (t :: (c.dequeue n).tasks).Perm c.tasks := by
  obtain ⟨hn, hget⟩ := List.getElem?_eq_some_iff.mp ht
  rw [← hget]
  exact List.getElem_cons_eraseIdx_perm hn

/-- A task that leaves the queue takes its request with it. -/
theorem Client.Coherent.not_owned_dequeue (hc : c.Coherent) {n : Nat}
    {t : Task} (ht : c.tasks[n]? = some t) {ref : Nat}
    (howner : t.request? = some ref) :
    ∀ t' ∈ (c.dequeue n).tasks, t'.request? ≠ some ref := by
  have hperm := (Client.tasks_perm ht).filterMap Task.request?
  have hnodup := hperm.nodup_iff.mpr hc.owners
  rw [List.filterMap_cons_some howner, List.nodup_cons] at hnodup
  intro t' ht' h'
  exact hnodup.1 (List.mem_filterMap.mpr ⟨t', ht', h'⟩)

/-- What the history of a request is not allowed to forget. -/
structure Request.Ages (q q' : Request) : Prop where
  kind : q'.kind = q.kind
  operation : q'.operation = q.operation
  requestId : q'.requestId = q.requestId
  buffer : q'.buffer = q.buffer

theorem Request.Ages.refl (q : Request) : q.Ages q := ⟨rfl, rfl, rfl, rfl⟩

theorem Request.Ages.trans {q q' q'' : Request} (h : q.Ages q')
    (h' : q'.Ages q'') : q.Ages q'' :=
  ⟨h'.kind.trans h.kind, h'.operation.trans h.operation,
    h'.requestId.trans h.requestId, h'.buffer.trans h.buffer⟩

theorem Request.Made.ages {q q' : Request} {entry : Entry} (hm : q.Made entry)
    (ha : q.Ages q') : q'.Made entry where
  submits := by
    rw [ha.operation, ha.requestId, ha.buffer]
    exact hm.submits
  kind := ha.kind.trans hm.kind

/-- The promise of one request is resolved, and its entry may go with it. -/
theorem Client.Coherent.retire (hc : c.Coherent) {ref : Nat}
    {f : Request → Request} (hages : ∀ q : Request, q.Ages (f q))
    (hentered : ∀ q, (f q).entered = q.entered)
    (hresolved : ∀ q, (f q).promise.resolved)
    (hreq : d.requests = (c.modifyRequest ref f).requests)
    (htasks : d.tasks = c.tasks) (halive : d.alive = c.alive)
    (hid : d.session.requestId = c.session.requestId)
    (hissued : d.issued = c.issued)
    (hentry : ∀ k r, d.session.entryAt k r = c.session.entryAt k r ∨
      (d.session.entryAt k r = none ∧
        ∃ entry, c.session.entryAt k r = some (ref, entry)))
    (hkept : ∀ {k r entry}, d.session.entryAt k r = some (ref, entry) →
      ¬ (k = .subscribe ∨ k = .unsubscribe))
    (hqueue : ∀ t ∈ c.tasks, t.request? ≠ some ref) : d.Coherent where
  counter := by rw [hid, hissued, hc.counter]
  made := by
    intro q hq
    obtain ⟨i, hi⟩ := List.mem_iff_getElem?.mp hq
    rw [hreq, Client.getElem?_modifyRequest] at hi
    split at hi
    · obtain ⟨q', hq', rfl⟩ := Option.map_eq_some_iff.mp hi
      obtain ⟨entry, hm⟩ := hc.made q' (List.mem_of_getElem? hq')
      exact ⟨entry, hm.ages (hages q')⟩
    · exact hc.made q (List.mem_of_getElem? hi)
  owners := by rw [htasks]; exact hc.owners
  queued := by
    intro ref' r entry buffer h
    rw [htasks] at h
    have hne : ref ≠ ref' := fun heq => hqueue _ h (by rw [heq]; rfl)
    rw [hreq, Client.getElem?_modifyRequest, if_neg hne]
    exact hc.queued h
  entries := by
    intro k r ref' entry h
    have h' : c.session.entryAt k r = some (ref', entry) := by
      rcases hentry k r with heq | ⟨hnone, -⟩
      · rw [← heq, h]
      · rw [hnone] at h
        exact absurd h (by simp)
    obtain ⟨q, hq, hm, hr, he⟩ := hc.entries h'
    rw [hreq, Client.getElem?_modifyRequest, hq]
    split
    · exact ⟨f q, rfl, hm.ages (hages q), (hages q).requestId.trans hr,
        (hentered q).trans he⟩
    · exact ⟨q, rfl, hm, hr, he⟩
  waiting := by
    intro ha k r ref' entry h hk
    rw [halive] at ha
    have h' : c.session.entryAt k r = some (ref', entry) := by
      rcases hentry k r with heq | ⟨hnone, -⟩
      · rw [← heq, h]
      · rw [hnone] at h
        exact absurd h (by simp)
    have hne : ref ≠ ref' := by
      rintro rfl
      exact hkept h hk
    obtain ⟨q, hq, hp⟩ := hc.waiting ha h' hk
    refine ⟨q, ?_, hp⟩
    rw [hreq, Client.getElem?_modifyRequest, if_neg hne, hq]
  tracked := by
    intro ref' q hq he hp
    rw [hreq, Client.getElem?_modifyRequest] at hq
    split at hq
    · obtain ⟨q', -, rfl⟩ := Option.map_eq_some_iff.mp hq
      exact absurd (hresolved q') hp
    · next hne =>
      obtain ⟨entry, h⟩ := hc.tracked hq he hp
      refine ⟨entry, ?_⟩
      rcases hentry q.kind q.requestId with heq | ⟨-, entry', h'⟩
      · rw [heq, h]
      · rw [h] at h'
        exact absurd (congrArg Prod.fst (Option.some.inj h')).symm hne

theorem Client.Coherent.takeId (hc : c.Coherent) : c.takeId.Coherent where
  counter := by
    show c.session.requestId + 1 = UInt64.ofNat (c.issued + 1)
    rw [hc.counter, UInt64.ofNat_add]
    rfl
  made := hc.made
  owners := hc.owners
  queued := hc.queued
  entries := hc.entries
  waiting := hc.waiting
  tracked := hc.tracked

theorem Client.Coherent.submit (hc : c.Coherent) {op : Operation}
    {entry : Entry} {buffer : Frame}
    (h : op.Submits (c.session.requestId + 1) entry buffer) :
    (c.submit op entry buffer).Coherent where
  counter := hc.takeId.counter
  made := by
    intro q hq
    rcases List.mem_append.mp hq with hq | hq
    · exact hc.made q hq
    · obtain rfl := List.mem_singleton.mp hq
      exact ⟨entry, h, rfl⟩
  owners := by
    simp only [Client.submit, List.filterMap_append]
    refine List.nodup_append.mpr ⟨hc.owners, by simp [Task.request?], ?_⟩
    intro ref href ref' href'
    obtain ⟨t, ht, howner⟩ := List.mem_filterMap.mp href
    obtain rfl : ref' = c.requests.length := by simpa [Task.request?] using href'
    cases t <;> simp only [Task.request?, reduceCtorEq, Option.some.injEq] at howner
    case request response r entry' buffer' =>
      subst howner
      obtain ⟨q, hq, -⟩ := hc.queued ht
      have := (List.getElem?_eq_some_iff.mp hq).1
      omega
  queued := by
    intro ref r entry' buffer' ht
    rcases List.mem_append.mp ht with ht | ht
    · obtain ⟨q, hq, hrest⟩ := hc.queued ht
      exact ⟨q, getElem?_snoc_of_some hq, hrest⟩
    · simp only [List.mem_singleton, Task.request.injEq] at ht
      obtain ⟨rfl, rfl, rfl, rfl⟩ := ht
      exact ⟨newRequestOf op entry' (c.session.requestId + 1) buffer',
        by simp [Client.submit], ⟨h, rfl⟩, rfl, rfl, rfl, by simp [newRequestOf]⟩
  entries := by
    intro k r ref entry' he
    obtain ⟨q, hq, hrest⟩ := hc.entries he
    exact ⟨q, getElem?_snoc_of_some hq, hrest⟩
  waiting := by
    intro ha k r ref entry' he hk
    obtain ⟨q, hq, hp⟩ := hc.waiting ha he hk
    exact ⟨q, getElem?_snoc_of_some hq, hp⟩
  tracked := by
    intro ref q hq he hp
    by_cases hlt : ref < c.requests.length
    · simp only [Client.submit, List.getElem?_append_left hlt] at hq
      exact hc.tracked hq he hp
    · have hnew : q = newRequestOf op entry (c.session.requestId + 1) buffer := by
        simp only [Client.submit, List.getElem?_append_right (Nat.le_of_not_lt hlt)]
          at hq
        exact (List.mem_singleton.mp (List.mem_of_getElem? hq))
      rw [hnew] at he
      exact absurd he (by simp [newRequestOf])

theorem Client.getElem?_enter (c : Client) (ref i : Nat) (r : UInt64)
    (entry : Entry) :
    (c.enter ref r entry).requests[i]? =
      if ref = i then (c.requests[i]?).map fun q =>
        { q with
          entered := true
          promise := if (c.session.pending entry.kind r).isSome
            then q.promise.abandon .brokenPromise else q.promise }
      else c.requests[i]? :=
  Client.getElem?_modifyRequest c ref i _

theorem Client.entryAt_enter (c : Client) (ref : Nat) (r r' : UInt64)
    (entry : Entry) (k : RequestKind) :
    (c.enter ref r entry).session.entryAt k r' =
      if k = entry.kind ∧ r' = r ∧ c.session.entryAt k r = none
      then some (ref, entry) else c.session.entryAt k r' :=
  WampSession.entryAt_emplace entry r r' ref k

/-- A request's task runs while the session is joined. -/
theorem Client.Coherent.enter (hc : c.Coherent) {n ref : Nat} {r : UInt64}
    {entry : Entry} {buffer : Frame}
    (ht : c.tasks[n]? = some (.request ref r entry buffer)) :
    ((c.dequeue n).enter ref r entry).Coherent := by
  obtain ⟨q, hq, hm, hr, hb, hentered, hp⟩ :=
    hc.queued (List.mem_of_getElem? ht)
  have hothers : ∀ t ∈ (c.dequeue n).tasks, t.request? ≠ some ref :=
    hc.not_owned_dequeue ht rfl
  have hc' := hc.dequeue n
  have hget : ∀ i, ref ≠ i →
      ((c.dequeue n).enter ref r entry).requests[i]? = c.requests[i]? :=
    fun i hi => (Client.getElem?_enter _ ref i r entry).trans (if_neg hi)
  have hself : ((c.dequeue n).enter ref r entry).requests[ref]? = some { q with
      entered := true
      promise := if (c.session.pending entry.kind r).isSome
        then q.promise.abandon .brokenPromise else q.promise } := by
    refine (Client.getElem?_enter _ ref ref r entry).trans ?_
    rw [if_pos rfl]
    show (c.requests[ref]?).map _ = _
    rw [hq]
    rfl
  have hentryAt : ∀ k r', ((c.dequeue n).enter ref r entry).session.entryAt k r' =
      if k = entry.kind ∧ r' = r ∧ c.session.entryAt k r = none
      then some (ref, entry) else c.session.entryAt k r' :=
    fun k r' => (c.dequeue n).entryAt_enter ref r r' entry k
  have hne : ∀ {k r' ref' entry'}, c.session.entryAt k r' = some (ref', entry') →
      ref ≠ ref' := by
    rintro k r' ref' entry' he rfl
    exact hc.not_owned he _ (List.mem_of_getElem? ht) rfl
  constructor
  case counter =>
    show (c.session.emplace entry r ref).requestId = _
    rw [WampSession.emplace_requestId]
    exact hc.counter
  case made =>
    intro q' hq'
    obtain ⟨i, hi⟩ := List.mem_iff_getElem?.mp hq'
    rcases eq_or_ne ref i with rfl | hi'
    · rw [hself] at hi
      obtain rfl := Option.some.inj hi
      exact ⟨entry, hm.ages ⟨rfl, rfl, rfl, rfl⟩⟩
    · rw [hget i hi'] at hi
      exact hc.made q' (List.mem_of_getElem? hi)
  case owners => exact hc'.owners
  case queued =>
    intro ref' r' entry' buffer' h
    have hne' : ref ≠ ref' := by
      rintro rfl
      exact hothers _ h rfl
    obtain ⟨q', hq', hrest⟩ := hc'.queued h
    exact ⟨q', (hget ref' hne').trans hq', hrest⟩
  case entries =>
    intro k r' ref' entry' h
    rw [hentryAt] at h
    split at h
    · next hk =>
      obtain ⟨rfl, rfl⟩ := Prod.mk.inj (Option.some.inj h)
      exact ⟨_, hself, hm.ages ⟨rfl, rfl, rfl, rfl⟩, hr.trans hk.2.1.symm, rfl⟩
    · obtain ⟨q', hq', hrest⟩ := hc.entries h
      exact ⟨q', (hget ref' (hne h)).trans hq', hrest⟩
  case waiting =>
    intro ha k r' ref' entry' h hk
    rw [hentryAt] at h
    split at h
    · next hcond =>
      obtain ⟨rfl, rfl⟩ := Prod.mk.inj (Option.some.inj h)
      have hfree : (c.session.pending entry.kind r).isSome = false := by
        rw [WampSession.pending_eq, ← hcond.1, hcond.2.2]
        rfl
      refine ⟨_, hself, ?_⟩
      simpa [hfree] using hp
    · obtain ⟨q', hq', hp'⟩ := hc.waiting ha h hk
      exact ⟨q', (hget ref' (hne h)).trans hq', hp'⟩
  case tracked =>
    intro ref' q' hq' he hp'
    rcases eq_or_ne ref ref' with rfl | hne'
    · rw [hself] at hq'
      obtain rfl := Option.some.inj hq'
      -- the promise survives only if the key was free
      have hfree : c.session.entryAt entry.kind r = none := by
        by_contra htaken
        refine hp' ?_
        have hsome : (c.session.pending entry.kind r).isSome = true := by
          rw [WampSession.pending_eq, Option.isSome_map]
          exact Option.isSome_iff_ne_none.mpr htaken
        rw [if_pos hsome, Promise.abandon_of_not_resolved hp]
        simp [Promise.resolved]
      refine ⟨entry, ?_⟩
      rw [hentryAt, if_pos ⟨hm.kind, hr, by rw [← hfree]; exact congrArg₂ _ hm.kind rfl⟩]
    · rw [hget ref' hne'] at hq'
      obtain ⟨entry', h⟩ := hc.tracked hq' he hp'
      refine ⟨entry', ?_⟩
      rw [hentryAt, if_neg, h]
      rintro ⟨hk, hr', hnone⟩
      rw [← hr', h] at hnone
      exact absurd hnone (by simp)

theorem Request.abandon_ages (q : Request) : q.Ages q.abandon :=
  ⟨rfl, rfl, rfl, rfl⟩

theorem Request.abandon_resolved (q : Request) : q.abandon.promise.resolved :=
  q.promise.resolved_abandon .brokenPromise

theorem Client.Coherent.destroy (hc : c.Coherent) : c.destroy.Coherent := by
  have hget := c.getElem?_destroy
  have hages : ∀ i (q : Request), q.Ages
      (if c.tasks.any (Task.owns i) then q else q.abandon) := by
    intro i q
    split
    · exact ⟨rfl, rfl, rfl, rfl⟩
    · exact q.abandon_ages
  have hentered : ∀ i (q : Request),
      (if c.tasks.any (Task.owns i) then q else q.abandon).entered =
        q.entered := by
    intro i q
    split <;> rfl
  constructor
  case counter => exact hc.counter
  case made =>
    intro q hq
    obtain ⟨i, hi⟩ := List.mem_iff_getElem?.mp hq
    rw [hget] at hi
    obtain ⟨q', hq', rfl⟩ := Option.map_eq_some_iff.mp hi
    obtain ⟨entry, hm⟩ := hc.made q' (List.mem_of_getElem? hq')
    exact ⟨entry, hm.ages (hages i q')⟩
  case owners => exact hc.owners
  case queued =>
    intro ref r entry buffer ht
    obtain ⟨q, hq, hrest⟩ := hc.queued ht
    have hown : c.tasks.any (Task.owns ref) = true :=
      List.any_eq_true.mpr ⟨_, ht, by simp [Task.owns]⟩
    refine ⟨q, ?_, hrest⟩
    rw [hget, hq, Option.map_some, if_pos hown]
  case entries =>
    intro k r ref entry h
    obtain ⟨q, hq, hm, hr, he⟩ := hc.entries h
    rw [hget, hq]
    exact ⟨_, rfl, hm.ages (hages ref q), (hages ref q).requestId.trans hr,
      (hentered ref q).trans he⟩
  case waiting => exact fun ha => absurd ha (by simp [Client.destroy])
  case tracked =>
    intro ref q hq he hp
    rw [hget] at hq
    obtain ⟨q', hq', rfl⟩ := Option.map_eq_some_iff.mp hq
    split at hp
    · next hown =>
      simp only [hown, if_true] at he ⊢
      exact hc.tracked hq' he hp
    · exact absurd q'.abandon_resolved hp

theorem Client.Coherent.sent (hc : c.Coherent) (buffer : Frame) :
    (c.sent buffer).Coherent :=
  hc.congr rfl rfl (by simp [Client.sent, Client.setSession]) rfl
    (by simp [Client.sent, Client.setSession]) rfl

/-- An answer settles the promise of an entry; for SUBSCRIBED and UNSUBSCRIBED
the entry goes. -/
theorem Client.Coherent.settled (hc : c.Coherent) {k : RequestKind}
    {r : UInt64} {ref : Nat} {entry : Entry}
    (h : c.session.entryAt k r = some (ref, entry)) {o : Except Exn Reply}
    (hreq : d.requests = (c.settled ref o).requests)
    (htasks : d.tasks = c.tasks) (halive : d.alive = c.alive)
    (hid : d.session.requestId = c.session.requestId)
    (hissued : d.issued = c.issued)
    (hentry : ∀ k' r', d.session.entryAt k' r' =
      if (k = .subscribe ∨ k = .unsubscribe) ∧ k' = k ∧ r' = r then none
      else c.session.entryAt k' r') : d.Coherent := by
  have hsame : ∀ {k' r' entry'},
      c.session.entryAt k' r' = some (ref, entry') → k' = k ∧ r' = r := by
    intro k' r' entry' h'
    obtain ⟨q, hq, hm, hr, -⟩ := hc.entries h
    obtain ⟨q', hq', hm', hr', -⟩ := hc.entries h'
    rw [hq] at hq'
    obtain rfl := Option.some.inj hq'
    rw [← WampSession.entryAt_kind h, ← WampSession.entryAt_kind h', ← hm.kind,
      ← hm'.kind, ← hr, ← hr']
    exact ⟨rfl, rfl⟩
  refine hc.retire
    (f := fun q => { q with promise := { q.promise with outcome := some o } })
    (fun q => ⟨rfl, rfl, rfl, rfl⟩) (fun _ => rfl)
    (fun q => by simp [Promise.resolved]) hreq htasks halive hid hissued
    ?_ ?_ (hc.not_owned h)
  · intro k' r'
    rw [hentry]
    split
    · next hcond =>
      obtain ⟨-, rfl, rfl⟩ := hcond
      exact .inr ⟨rfl, entry, h⟩
    · exact .inl rfl
  · intro k' r' entry' h' hk
    rw [hentry] at h'
    split at h'
    · exact absurd h' (by simp)
    · next hcond =>
      obtain ⟨rfl, rfl⟩ := hsame h'
      exact hcond ⟨hk, rfl, rfl⟩

theorem Client.Coherent.act (hc : c.Coherent) (h : Act c d) : d.Coherent := by
  cases h with
  | takeId => exact hc.takeId
  | submit h => exact hc.submit h
  | publish h => exact hc.takeId.enqueue rfl
  | stop => exact hc.enqueue rfl
  | join => exact hc.enqueue rfl
  | leave => exact hc.enqueue rfl
  | retrieveStop h => exact hc.congr rfl rfl (fun k _ => by cases k <;> rfl) rfl rfl rfl
  | retrieveJoin h => exact hc.congr rfl rfl (fun k _ => by cases k <;> rfl) rfl rfl rfl
  | retrieveLeave h => exact hc.congr rfl rfl (fun k _ => by cases k <;> rfl) rfl rfl rfl
  | @answer h v attempt buffer hv hs hb =>
      have h' : (c.modifyInvocation h fun v =>
          { v with replies := v.replies ++ [buffer], sendable := false }).Coherent :=
        hc.congr rfl rfl (fun _ _ => rfl) rfl rfl rfl
      unfold Client.answer
      split
      · exact h'.enqueue rfl
      · exact h'
  | skip h ht => exact hc.dequeue _
  | @abandon n ref r entry buffer h hs =>
      have hnone : ∀ {k r' entry'},
          c.session.entryAt k r' ≠ some (ref, entry') :=
        fun he => hc.not_owned he _ (List.mem_of_getElem? h) rfl
      exact (hc.dequeue n).retire Request.abandon_ages (fun _ => rfl)
        Request.abandon_resolved rfl rfl rfl rfl rfl (fun _ _ => .inl rfl)
        (fun he => absurd he hnone) (hc.not_owned_dequeue h rfl)
  | @stopped n h ha hs hj =>
      exact (hc.dequeue n).congr rfl rfl (fun k _ => by cases k <;> rfl) rfl rfl
        rfl
  | settleStop h hs =>
      exact hc.congr rfl rfl (fun k _ => by cases k <;> rfl) rfl rfl rfl
  | joined h ha hj => exact (hc.dequeue _).sent _
  | @left n buffer h ha hj hg =>
      refine Client.Coherent.sent ?_ _
      exact (hc.dequeue n).congr rfl rfl (fun k _ => by cases k <;> rfl) rfl rfl
        rfl
  | published h ha hj => exact (hc.dequeue _).sent _
  | entered h ha hj => exact (hc.enter h).sent _
  | @handed n h buffer ht ha =>
      refine Client.Coherent.sent ?_ _
      exact (hc.dequeue n).congr rfl rfl (fun _ _ => rfl) rfl rfl rfl

theorem Client.Coherent.quiet (hc : c.Coherent) (h : Quiet c d) :
    d.Coherent := by
  cases h with
  | act h => exact hc.act h
  | welcome id => exact hc.congr rfl rfl (fun k _ => by cases k <;> rfl) rfl rfl rfl
  | settleJoin h => exact hc.congr rfl rfl (fun k _ => by cases k <;> rfl) rfl rfl rfl
  | goodbye =>
      refine hc.congr rfl rfl (fun k r => ?_) rfl ?_ rfl
      · cases k <;> simp only [Client.left, Client.setSession] <;> split <;>
          simp [WampSession.entryAt]
      · simp only [Client.left, Client.setSession]
        split <;> simp
  | settleLeave h => exact hc.congr rfl rfl (fun k _ => by cases k <;> rfl) rfl rfl rfl
  | settleHandshake h => exact hc.congr rfl rfl (fun k _ => by cases k <;> rfl) rfl rfl rfl
  | event hh => exact hc.congr rfl rfl (fun _ _ => rfl) rfl rfl rfl
  | invocation hp => exact hc.congr rfl rfl (fun _ _ => rfl) rfl rfl rfl
  | rxError e => exact hc.congr rfl rfl (fun _ _ => rfl) rfl rfl rfl

theorem Client.Coherent.answer {i : Incoming} (hc : c.Coherent)
    (h : Answer i c d) : d.Coherent := by
  cases h with
  | failed he hq =>
      exact hc.settled (WampSession.entryAt_call he) rfl rfl rfl rfl rfl
        fun k' r' => by simp [Client.settled, Client.modifyRequest]
  | resulted he hq =>
      exact hc.settled (WampSession.entryAt_call he) rfl rfl rfl rfl rfl
        fun k' r' => by simp [Client.settled, Client.modifyRequest]
  | subscribed he hq =>
      refine hc.settled (WampSession.entryAt_subscribe he) rfl rfl rfl rfl rfl
        fun k' r' => ?_
      rw [Client.eraseSubscribe_entryAt]
      simp only [true_or, true_and]
      split
      · rfl
      · cases k' <;> rfl
  | subscribedTwice he hq =>
      exact hc.congr rfl rfl (fun k _ => by cases k <;> rfl) rfl rfl rfl
  | unsubscribed he hq =>
      refine hc.settled (WampSession.entryAt_unsubscribe he) rfl rfl rfl rfl rfl
        fun k' r' => ?_
      rw [Client.eraseUnsubscribe_entryAt]
      simp only [or_true, true_and]
      split
      · rfl
      · cases k' <;> rfl
  | registered he hq =>
      refine hc.settled (WampSession.entryAt_register he) rfl rfl rfl rfl rfl
        fun k' r' => ?_
      simp only [reduceCtorEq, or_self, false_and, if_false]
      cases k' <;> rfl
  | registeredTwice he hq =>
      exact hc.congr rfl rfl (fun k _ => by cases k <;> rfl) rfl rfl rfl

theorem Client.Coherent.move (hc : c.Coherent) : Move c d → d.Coherent
  | .quiet h => hc.quiet h
  | .answer h => hc.answer h
  | .destroy _ => hc.destroy

end Keep

theorem Client.coherent_new (plan : Nat → WriteResult) :
    (Client.new plan).Coherent where
  counter := rfl
  made := by simp [Client.new]
  owners := by simp [Client.new]
  queued := by simp [Client.new]
  entries := by
    intro k r ref entry h
    cases k <;> simp [Client.new, WampSession.entryAt] at h
  waiting := by
    intro _ k r ref entry h
    cases k <;> simp [Client.new, WampSession.entryAt] at h
  tracked := by simp [Client.new]

/-- **Every reachable state is coherent.** -/
theorem Client.Reachable.coherent {c : Client} (h : c.Reachable) : c.Coherent :=
  h.invariant Client.coherent_new fun _ _ hm hc => hc.move hm

end Autobahn
