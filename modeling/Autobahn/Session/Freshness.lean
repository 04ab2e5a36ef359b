import Autobahn.Session.Coherence

/-!
# Request ids are fresh

As long as fewer than 2^64 ids have been taken, an id identifies one request:
`Fresh` says so for the request objects, the written frames and the frames
still queued, and counts no `emplace` that met an existing key. Together with
`Coherent` it decides whose promise a reply can reach.
-/

namespace Autobahn

open Foundation MsgPack Relation

/-! ## The ids that frames carry -/

theorem requestIdOf_hello (realm : Octets) :
    requestIdOf (helloFrame realm) = none := by
  rw [helloFrame_eq_pack]
  simp [requestIdOf]

theorem requestIdOf_goodbye (reason : Octets) :
    requestIdOf (goodbyeFrame reason) = none := by
  rw [goodbyeFrame_eq_pack]
  simp [requestIdOf]

theorem requestIdOf_reply {attempt : ReplyAttempt} {r : UInt64}
    {buffer : Frame} (h : attempt.frame r = .ok buffer) :
    requestIdOf buffer = none := by
  cases attempt with
  | result payload =>
      rw [ReplyAttempt.frame, yieldFrame_eq_pack] at h
      obtain ⟨os, -, rfl⟩ := exists_of_map_eq_ok h
      simp [requestIdOf, MessageType.isRequest]
  | error uri payload =>
      rw [ReplyAttempt.frame, errorFrame_eq_pack] at h
      obtain ⟨os, -, rfl⟩ := exists_of_map_eq_ok h
      simp [requestIdOf, MessageType.isRequest]

theorem requestIdOf_publish {topic : Octets} {payload : Payload} {r : UInt64}
    {buffer : Frame} (h : publishFrame r topic payload = .ok buffer) :
    requestIdOf buffer = some r := by
  rw [publishFrame_eq_pack] at h
  obtain ⟨os, -, rfl⟩ := exists_of_map_eq_ok h
  simp [requestIdOf, MessageType.isRequest]

/-- An operation's own frame carries the id it took. -/
theorem Operation.Submits.requestIdOf {op : Operation} {r : UInt64}
    {entry : Entry} {buffer : Frame} (h : op.Submits r entry buffer) :
    requestIdOf buffer = some r := by
  cases h with
  | subscribe =>
      rw [subscribeFrame_eq_pack, requestIdOf_pack]
      rfl
  | unsubscribe =>
      rw [unsubscribeFrame_eq_pack, requestIdOf_pack]
      rfl
  | provide =>
      rw [registerFrame_eq_pack, requestIdOf_pack]
      rfl
  | call _ procedure payload _ h =>
      rw [callFrame_eq_pack] at h
      obtain ⟨os, -, rfl⟩ := exists_of_map_eq_ok h
      simp [Autobahn.requestIdOf, MessageType.isRequest]

/-! ## The invariant -/

def Task.frame? : Task → Option Frame
  | .stop => none
  | .join buffer | .leave buffer | .publish buffer => some buffer
  | .request _ _ _ buffer | .sendResult _ buffer => some buffer

/-- The request id a queued task will write. -/
def Task.carriedId (t : Task) : Option UInt64 := t.frame?.bind requestIdOf

/-- The request ids in the frames written so far. -/
def Client.writtenIds (c : Client) : List UInt64 :=
  c.session.out.writes.filterMap fun w => requestIdOf w.1

def Client.usedIds (c : Client) : List UInt64 :=
  c.writtenIds ++ c.tasks.filterMap Task.carriedId

structure Client.Fresh (c : Client) : Prop where
  increasing : (c.requests.map fun q => q.requestId.toNat).Pairwise (· < ·)
  bounded : ∀ q ∈ c.requests, q.requestId.toNat ≤ c.issued
  distinct : c.usedIds.Nodup
  used : ∀ r ∈ c.usedIds, r.toNat ≤ c.issued
  collisions : c.collisions = 0

section Keep

variable {c d : Client}

/-- Ids may disappear, as long as none is taken. -/
theorem Client.Fresh.shrink (hc : c.Fresh)
    (hreq : d.requests.map Request.requestId = c.requests.map Request.requestId)
    (hused : ∃ gone, (d.usedIds ++ gone).Perm c.usedIds)
    (hissued : d.issued = c.issued) (hcol : d.collisions = c.collisions) :
    d.Fresh := by
  obtain ⟨gone, hperm⟩ := hused
  have hmem : ∀ r ∈ d.usedIds, r ∈ c.usedIds := fun r hr =>
    hperm.subset (List.mem_append_left gone hr)
  have hids : d.requests.map (fun q => q.requestId.toNat) =
      c.requests.map fun q => q.requestId.toNat := by
    have := congrArg (List.map UInt64.toNat) hreq
    simpa [List.map_map, Function.comp_def] using this
  constructor
  case increasing => rw [hids]; exact hc.increasing
  case bounded =>
    intro q hq
    have hr : q.requestId ∈ c.requests.map Request.requestId := by
      rw [← hreq]
      exact List.mem_map_of_mem hq
    obtain ⟨q', hq', heq⟩ := List.mem_map.mp hr
    rw [← heq, hissued]
    exact hc.bounded q' hq'
  case distinct =>
    exact (hperm.nodup_iff.mpr hc.distinct).sublist (List.sublist_append_left _ _)
  case used =>
    intro r hr
    rw [hissued]
    exact hc.used r (hmem r hr)
  case collisions => rw [hcol, hc.collisions]

theorem Client.Fresh.congr (hc : c.Fresh)
    (hreq : d.requests.map Request.requestId = c.requests.map Request.requestId)
    (hused : d.usedIds = c.usedIds) (hissued : d.issued = c.issued)
    (hcol : d.collisions = c.collisions) : d.Fresh :=
  hc.shrink hreq ⟨[], by rw [List.append_nil, hused]⟩ hissued hcol

theorem map_requestId_modify (l : List Request) (ref : Nat)
    {f : Request → Request} (hf : ∀ q, (f q).requestId = q.requestId) :
    (l.modify ref f).map Request.requestId = l.map Request.requestId := by
  refine List.ext_getElem? fun i => ?_
  simp only [List.getElem?_map, List.getElem?_modify]
  rcases eq_or_ne ref i with rfl | hne
  · cases l[ref]? <;> simp [hf]
  · simp [hne]

/-- A frame goes out: its id is among the written ones, unless the session
is stopped and skips it. -/
theorem Client.writtenIds_sent (c : Client) (buffer : Frame) :
    (c.sent buffer).writtenIds = c.writtenIds ++
      if c.session.stopped then [] else (requestIdOf buffer).toList := by
  unfold Client.sent WampSession.send
  by_cases hs : c.session.stopped
  · simp [hs, writtenIds, Client.setSession]
  · simp only [hs, writtenIds, Client.setSession, OStream.write, if_false,
      Bool.false_eq_true, List.filterMap_append]
    cases h : requestIdOf buffer <;> simp [h]

/-- Sending a frame without a request id uses no id. -/
theorem Client.usedIds_sent (c : Client) {buffer : Frame}
    (h : requestIdOf buffer = none) : (c.sent buffer).usedIds = c.usedIds := by
  unfold usedIds
  rw [writtenIds_sent, h]
  simp [Client.sent, Client.setSession]

/-- A task that runs takes its id from the queue to the stream. -/
theorem Client.usedIds_run {n : Nat} {t : Task} {buffer : Frame}
    (ht : c.tasks[n]? = some t) (hb : t.frame? = some buffer)
    (hwrites : d.session.out.writes = c.session.out.writes)
    (htasks : d.tasks = (c.dequeue n).tasks) :
    ∃ gone, ((d.sent buffer).usedIds ++ gone).Perm c.usedIds := by
  have hcarried : t.carriedId = requestIdOf buffer := by
    rw [Task.carriedId, hb]
    rfl
  have hperm := (Client.tasks_perm ht).filterMap Task.carriedId
  have hsplit : (t :: (c.dequeue n).tasks).filterMap Task.carriedId =
      (requestIdOf buffer).toList ++
        (c.dequeue n).tasks.filterMap Task.carriedId := by
    rw [List.filterMap_cons, hcarried]
    cases requestIdOf buffer <;> rfl
  rw [hsplit] at hperm
  have hwritten : d.writtenIds = c.writtenIds := by
    unfold writtenIds
    rw [hwrites]
  have htasks' : (d.sent buffer).tasks = (c.dequeue n).tasks := htasks
  unfold usedIds
  rw [writtenIds_sent, hwritten, htasks']
  by_cases hs : d.session.stopped
  · refine ⟨(requestIdOf buffer).toList, ?_⟩
    simp only [hs, if_true, List.append_nil, List.append_assoc]
    exact (List.perm_append_comm.trans hperm).append_left _
  · refine ⟨[], ?_⟩
    simp only [hs, if_false, List.append_nil, List.append_assoc,
      Bool.false_eq_true]
    exact hperm.append_left _

/-- A task that is dropped takes its id with it. -/
theorem Client.usedIds_dequeue (c : Client) (n : Nat) :
    ∃ gone, ((c.dequeue n).usedIds ++ gone).Perm c.usedIds := by
  cases ht : c.tasks[n]? with
  | none =>
      have hlen := List.getElem?_eq_none_iff.mp ht
      refine ⟨[], ?_⟩
      simp [usedIds, writtenIds, dequeue, List.eraseIdx_of_length_le hlen]
  | some t =>
      have hperm := (Client.tasks_perm ht).filterMap Task.carriedId
      rw [List.filterMap_cons] at hperm
      refine ⟨t.carriedId.toList, ?_⟩
      unfold usedIds
      rw [List.append_assoc]
      refine List.Perm.append_left _ (List.perm_append_comm.trans ?_)
      cases h : t.carriedId <;> rw [h] at hperm <;> exact hperm

theorem Client.usedIds_enqueue (c : Client) {t : Task}
    (h : t.carriedId = none) : (c.enqueue t).usedIds = c.usedIds := by
  simp [usedIds, writtenIds, enqueue, List.filterMap_append, h]

theorem Client.takeId_toNat (hc : c.Coherent) (hlt : c.issued + 1 < UInt64.size) :
    (c.session.requestId + 1).toNat = c.issued + 1 := by
  have := hc.takeId.counter
  simp only [Client.takeId] at this
  rw [this, UInt64.toNat_ofNat']
  exact Nat.mod_eq_of_lt hlt

theorem Client.Fresh.takeId (hf : c.Fresh) : c.takeId.Fresh where
  increasing := hf.increasing
  bounded := fun q hq => Nat.le_succ_of_le (hf.bounded q hq)
  distinct := hf.distinct
  used := fun r hr => Nat.le_succ_of_le (hf.used r hr)
  collisions := hf.collisions

/-- A new id joins the used ones. -/
theorem Client.Fresh.take (hc : c.Coherent) (hf : c.Fresh)
    (hlt : c.issued + 1 < UInt64.size)
    (hused : d.usedIds = c.usedIds ++ [c.session.requestId + 1])
    (hissued : d.issued = c.issued + 1) :
    d.usedIds.Nodup ∧ ∀ r ∈ d.usedIds, r.toNat ≤ d.issued := by
  have hid := Client.takeId_toNat hc hlt
  rw [hused, hissued]
  constructor
  · refine List.nodup_append.mpr ⟨hf.distinct, List.nodup_singleton _, ?_⟩
    rintro r hr r' hr' rfl
    rw [List.mem_singleton.mp hr'] at hr
    have := hf.used _ hr
    omega
  · intro r hr
    rcases List.mem_append.mp hr with hr | hr
    · exact Nat.le_succ_of_le (hf.used r hr)
    · rw [List.mem_singleton.mp hr, hid]

theorem Client.Fresh.submit (hc : c.Coherent) (hf : c.Fresh)
    (hlt : c.issued + 1 < UInt64.size) {op : Operation} {entry : Entry}
    {buffer : Frame}
    (h : op.Submits (c.session.requestId + 1) entry buffer) :
    (c.submit op entry buffer).Fresh := by
  have hid := Client.takeId_toNat hc hlt
  obtain ⟨hdistinct, hused⟩ := Client.Fresh.take (d := c.submit op entry buffer)
    hc hf hlt (by
      simp [Client.usedIds, Client.writtenIds, Client.submit, Client.takeId,
        List.filterMap_append, Task.carriedId, Task.frame?, h.requestIdOf]) rfl
  constructor
  case distinct => exact hdistinct
  case used => exact hused
  case collisions => exact hf.collisions
  case increasing =>
    simp only [Client.submit, List.map_append, List.map_cons, List.map_nil]
    refine List.pairwise_append.mpr
      ⟨hf.increasing, List.pairwise_singleton _ _, ?_⟩
    intro a ha b hb
    obtain ⟨q, hq, rfl⟩ := List.mem_map.mp ha
    have hle := hf.bounded q hq
    rw [List.mem_singleton.mp hb]
    simp only [newRequestOf, hid]
    omega
  case bounded =>
    intro q hq
    rcases List.mem_append.mp hq with hq | hq
    · exact Nat.le_succ_of_le (hf.bounded q hq)
    · rw [List.mem_singleton.mp hq]
      simp only [newRequestOf, hid]
      exact Nat.le_refl _

theorem Client.Fresh.publish (hc : c.Coherent) (hf : c.Fresh)
    (hlt : c.issued + 1 < UInt64.size) {topic : Octets} {payload : Payload}
    {buffer : Frame}
    (h : publishFrame (c.session.requestId + 1) topic payload = .ok buffer) :
    (c.takeId.enqueue (.publish buffer)).Fresh := by
  obtain ⟨hdistinct, hused⟩ := Client.Fresh.take
    (d := c.takeId.enqueue (.publish buffer)) hc hf hlt (by
      simp [Client.usedIds, Client.writtenIds, Client.takeId, Client.enqueue,
        List.filterMap_append, Task.carriedId, Task.frame?,
        requestIdOf_publish h]) rfl
  exact ⟨hf.increasing, hf.takeId.bounded, hdistinct, hused, hf.collisions⟩

/-- Two requests never share an id. -/
theorem Client.Fresh.inj (hf : c.Fresh) {i j : Nat} {q q' : Request}
    (hi : c.requests[i]? = some q) (hj : c.requests[j]? = some q')
    (heq : q.requestId = q'.requestId) : i = j := by
  have hmono : ∀ {i j : Nat} {q q' : Request}, c.requests[i]? = some q →
      c.requests[j]? = some q' → i < j → q.requestId.toNat < q'.requestId.toNat := by
    intro i j q q' hi hj hlt
    obtain ⟨hi', rfl⟩ := List.getElem?_eq_some_iff.mp hi
    obtain ⟨hj', rfl⟩ := List.getElem?_eq_some_iff.mp hj
    have := List.pairwise_iff_getElem.mp hf.increasing i j
      (by simpa using hi') (by simpa using hj') hlt
    simpa using this
  rcases Nat.lt_trichotomy i j with hlt | rfl | hlt
  · have := hmono hi hj hlt
    rw [heq] at this
    omega
  · rfl
  · have := hmono hj hi hlt
    rw [heq] at this
    omega

/-- The task of a request finds its key free. -/
theorem Client.Fresh.free (hc : c.Coherent) (hf : c.Fresh) {ref : Nat}
    {r : UInt64} {entry : Entry} {buffer : Frame}
    (ht : .request ref r entry buffer ∈ c.tasks) :
    c.session.entryAt entry.kind r = none := by
  by_contra hne
  obtain ⟨⟨ref', entry'⟩, h⟩ := Option.ne_none_iff_exists'.mp hne
  obtain ⟨q, hq, -, hr, -⟩ := hc.queued ht
  obtain ⟨q', hq', -, hr', -⟩ := hc.entries h
  obtain rfl := hf.inj hq hq' (hr.trans hr'.symm)
  exact hc.not_owned h _ ht rfl

theorem Client.Fresh.enter (hc : c.Coherent) (hf : c.Fresh) {n ref : Nat}
    {r : UInt64} {entry : Entry} {buffer : Frame}
    (ht : c.tasks[n]? = some (.request ref r entry buffer)) :
    (((c.dequeue n).enter ref r entry).sent buffer).Fresh := by
  have hfree := Client.Fresh.free hc hf (List.mem_of_getElem? ht)
  refine hf.shrink ?_ (Client.usedIds_run ht rfl ?_ rfl) rfl ?_
  · exact map_requestId_modify _ ref fun _ => rfl
  · simp [Client.enter, Client.dequeue]
  · have hpending : c.session.pending entry.kind r = none := by
      rw [WampSession.pending_eq, hfree]
      rfl
    simp [Client.sent, Client.setSession, Client.enter, Client.dequeue, hpending]

theorem Client.Fresh.act (hc : c.Coherent) (hf : c.Fresh)
    (hlt : d.issued < UInt64.size) (h : Act c d) : d.Fresh := by
  cases h with
  | takeId => exact hf.takeId
  | submit h => exact hf.submit hc hlt h
  | publish h => exact hf.publish hc hlt h
  | stop => exact hf.congr rfl (c.usedIds_enqueue rfl) rfl rfl
  | join realm =>
      exact hf.congr rfl (c.usedIds_enqueue (requestIdOf_hello realm)) rfl rfl
  | leave reason =>
      exact hf.congr rfl (c.usedIds_enqueue (requestIdOf_goodbye reason)) rfl rfl
  | retrieveStop => exact hf.congr rfl rfl rfl rfl
  | retrieveJoin => exact hf.congr rfl rfl rfl rfl
  | retrieveLeave => exact hf.congr rfl rfl rfl rfl
  | @answer h v attempt buffer hv hs hb =>
      unfold Client.answer
      split
      · exact hf.congr rfl (Client.usedIds_enqueue _ (requestIdOf_reply hb)) rfl rfl
      · exact hf.congr rfl rfl rfl rfl
  | skip => exact hf.shrink rfl (c.usedIds_dequeue _) rfl rfl
  | abandon =>
      exact hf.shrink (map_requestId_modify _ _ fun _ => rfl)
        (c.usedIds_dequeue _) rfl rfl
  | stopped => exact hf.shrink rfl (c.usedIds_dequeue _) rfl rfl
  | settleStop => exact hf.congr rfl rfl rfl rfl
  | joined h => exact hf.shrink rfl (Client.usedIds_run h rfl rfl rfl) rfl rfl
  | left h => exact hf.shrink rfl (Client.usedIds_run h rfl rfl rfl) rfl rfl
  | published h => exact hf.shrink rfl (Client.usedIds_run h rfl rfl rfl) rfl rfl
  | entered h => exact hf.enter hc h
  | handed h => exact hf.shrink rfl (Client.usedIds_run h rfl rfl rfl) rfl rfl

theorem Client.Fresh.quiet (hc : c.Coherent) (hf : c.Fresh)
    (hlt : d.issued < UInt64.size) (h : Quiet c d) : d.Fresh := by
  cases h with
  | act h => exact hf.act hc hlt h
  | welcome => exact hf.congr rfl rfl rfl rfl
  | settleJoin => exact hf.congr rfl rfl rfl rfl
  | goodbye =>
      unfold Client.left
      dsimp only
      split
      · exact hf.congr rfl rfl rfl rfl
      · exact hf.congr rfl (Client.usedIds_sent (c.setSession
          { c.session with sessionId := 0 }) (requestIdOf_goodbye _)) rfl rfl
  | settleLeave => exact hf.congr rfl rfl rfl rfl
  | settleHandshake => exact hf.congr rfl rfl rfl rfl
  | event => exact hf.congr rfl rfl rfl rfl
  | invocation => exact hf.congr rfl rfl rfl rfl
  | rxError => exact hf.congr rfl rfl rfl rfl

theorem Client.Fresh.destroy (hf : c.Fresh) : c.destroy.Fresh := by
  refine hf.congr ?_ rfl rfl rfl
  refine List.ext_getElem? fun i => ?_
  rw [List.getElem?_map, List.getElem?_map, Client.getElem?_destroy]
  cases c.requests[i]? with
  | none => rfl
  | some q =>
      simp only [Option.map_some]
      split <;> rfl

theorem Client.Fresh.answer {i : Incoming} (hf : c.Fresh) (h : Answer i c d) :
    d.Fresh := by
  have hreq : ∀ ref o, (c.settled ref o).requests.map Request.requestId =
      c.requests.map Request.requestId :=
    fun ref o => map_requestId_modify _ ref fun _ => rfl
  cases h with
  | failed => exact hf.congr (hreq _ _) rfl rfl rfl
  | resulted => exact hf.congr (hreq _ _) rfl rfl rfl
  | subscribed => exact hf.congr (hreq _ _) rfl rfl rfl
  | subscribedTwice => exact hf.congr rfl rfl rfl rfl
  | unsubscribed => exact hf.congr (hreq _ _) rfl rfl rfl
  | registered => exact hf.congr (hreq _ _) rfl rfl rfl
  | registeredTwice => exact hf.congr rfl rfl rfl rfl

theorem Client.Fresh.move (hc : c.Coherent) (hf : c.Fresh)
    (hlt : d.issued < UInt64.size) : Move c d → d.Fresh
  | .quiet h => hf.quiet hc hlt h
  | .answer h => hf.answer h
  | .destroy _ => hf.destroy

/-- The count of ids never goes down. -/
theorem Act.issued_le (h : Act c d) : c.issued ≤ d.issued := by
  cases h
  case takeId => exact Nat.le_succ _
  case submit => exact Nat.le_succ _
  case publish => exact Nat.le_succ _
  case answer =>
    unfold Client.answer
    split <;> exact Nat.le_refl _
  all_goals exact Nat.le_refl _

theorem Move.issued_le (h : Move c d) : c.issued ≤ d.issued := by
  cases h with
  | quiet h =>
      cases h
      case act h => exact h.issued_le
      all_goals exact Nat.le_refl _
  | answer h => cases h <;> exact Nat.le_refl _
  | destroy => exact Nat.le_refl _

theorem Moves.issued_le (h : Moves c d) : c.issued ≤ d.issued := by
  induction h with
  | refl => exact Nat.le_refl _
  | tail _ hm ih => exact Nat.le_trans ih hm.issued_le

end Keep

/-- The number of ids never goes down along a run. -/
theorem Client.issued_le_runs (c : Client) (is : List Input) :
    c.issued ≤ (c.runs is).issued := by
  induction is using List.reverseRecOn with
  | nil => exact Nat.le_refl _
  | append_singleton is i ih =>
      rw [Client.runs, Machine.run_snoc]
      exact Nat.le_trans ih (Client.step_moves _ i).issued_le

theorem Client.issued_le_of_isPrefix (c : Client) {pre is : List Input}
    (h : pre <+: is) : (c.runs pre).issued ≤ (c.runs is).issued := by
  obtain ⟨post, rfl⟩ := h
  rw [Client.runs, Client.runs, Machine.run_append]
  exact Client.issued_le_runs _ post

theorem Client.fresh_new (plan : Nat → WriteResult) : (Client.new plan).Fresh := by
  constructor <;> simp [Client.new, Client.usedIds, Client.writtenIds]

/-- **While ids last, they are fresh.** -/
theorem Client.Reachable.fresh {c : Client} (h : c.Reachable)
    (hlt : c.issued < UInt64.size) : c.Fresh := by
  have hinv := h.invariant (I := fun c => c.Coherent ∧ (c.issued < UInt64.size → c.Fresh))
    (fun plan => ⟨Client.coherent_new plan, fun _ => Client.fresh_new plan⟩)
    fun c d hm ⟨hc, hf⟩ => ⟨hc.move hm, fun hlt =>
      (hf (Nat.lt_of_le_of_lt hm.issued_le hlt)).move hc hlt hm⟩
  exact hinv.2 hlt

end Autobahn
