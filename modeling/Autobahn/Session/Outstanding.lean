import Autobahn.Session.Correlation

/-!
# The tables of outstanding requests

`Exact` says that a table holds exactly the requests that still wait. The
handlers of SUBSCRIBED and UNSUBSCRIBED erase what they answer; those of
RESULT, of ERROR and of REGISTERED do not, and `everywhere_exact_iff` says
that these three are the only way to lose exactness.
-/

namespace Autobahn

open Foundation MsgPack Relation

/-- For every request whose task ran while joined, its id is in its table if
and only if its promise is unresolved. -/
def Client.Exact (c : Client) : Prop :=
  c.alive = true → ∀ (ref : Nat) (q : Request), c.requests[ref]? = some q → q.entered = true →
    ((c.session.pending q.kind q.requestId).isSome ↔ ¬ q.promise.resolved)

/-- A reply is accepted that leaves its request in the table: a RESULT, a CALL
ERROR or a REGISTERED for an id that is there. -/
def Client.LeavesAnswered (c : Client) : Input → Prop
  | .message obj _ => c.alive = true ∧
      match Incoming.read obj with
      | .callError r _ | .result r _ => c.session.calls.find r ≠ none
      | .registered r _ => c.session.registerRequests.find r ≠ none
      | _ => False
  | _ => False

section

variable {c d : Client}

/-- In a coherent state only answered requests can spoil exactness. -/
theorem Client.Coherent.exact_iff (hc : c.Coherent) :
    c.Exact ↔ (c.alive = true → ∀ (ref : Nat) (q : Request), c.requests[ref]? = some q →
      q.entered = true → q.promise.resolved →
      c.session.entryAt q.kind q.requestId = none) := by
  unfold Client.Exact
  constructor
  · intro h ha ref q hq he hp
    have hnone := mt (h ha ref q hq he).mp (not_not.mpr hp)
    rw [WampSession.pending_eq, Option.isSome_map] at hnone
    simpa using hnone
  · intro h ha ref q hq he
    rw [WampSession.pending_eq, Option.isSome_map]
    constructor
    · intro hsome hp
      rw [h ha ref q hq he hp] at hsome
      exact absurd hsome (by simp)
    · intro hp
      obtain ⟨entry, hentry⟩ := hc.tracked hq he hp
      rw [hentry]
      rfl

/-- Exactness only looks at requests, tables and whether the session lives. -/
theorem Client.Exact.congr (h : c.Exact) (hreq : d.requests = c.requests)
    (hpending : ∀ k r, d.session.pending k r = c.session.pending k r)
    (halive : d.alive = c.alive) : d.Exact := by
  intro ha ref q hq he
  rw [halive] at ha
  rw [hreq] at hq
  rw [hpending]
  exact h ha ref q hq he

/-- An entry of an exact table can be answered. -/
theorem Client.Exact.unsettled (h : c.Exact) (hc : c.Coherent)
    (ha : c.alive = true) {k : RequestKind} {r : UInt64} {ref : Nat}
    {entry : Entry} (he : c.session.entryAt k r = some (ref, entry)) :
    c.Unsettled ref := by
  obtain ⟨q, hq, hm, hr, hentered⟩ := hc.entries he
  refine ⟨q, hq, fun hp => ?_⟩
  have hnone := hc.exact_iff.mp h ha ref q hq hentered hp
  rw [hm.kind, WampSession.entryAt_kind he, hr, he] at hnone
  exact absurd hnone (by simp)

theorem Client.Exact.enter (h : c.Exact) (hc : c.Coherent) (hf : c.Fresh)
    {n ref : Nat} {r : UInt64} {entry : Entry} {buffer : Frame}
    (ht : c.tasks[n]? = some (.request ref r entry buffer)) :
    (((c.dequeue n).enter ref r entry).sent buffer).Exact := by
  have hmem := List.mem_of_getElem? ht
  have hfree := Client.Fresh.free hc hf hmem
  obtain ⟨q, hq, hm, hr, -, -, hp⟩ := hc.queued hmem
  have hd := (hc.enter ht).sent buffer
  apply hd.exact_iff.mpr
  intro ha ref' q' hq' he' hp'
  have hentry : ∀ k r', (((c.dequeue n).enter ref r entry).sent
      buffer).session.entryAt k r' =
      if k = entry.kind ∧ r' = r ∧ c.session.entryAt k r = none
      then some (ref, entry) else c.session.entryAt k r' :=
    fun k r' => (WampSession.entryAt_send buffer k r').trans
      ((c.dequeue n).entryAt_enter ref r r' entry k)
  have hgot : ((c.dequeue n).enter ref r entry).requests[ref']? = some q' := hq'
  rw [Client.getElem?_enter] at hgot
  split at hgot
  · next heq =>
    -- the request itself is still unresolved
    subst heq
    have hpending : (c.dequeue n).session.pending entry.kind r = none := by
      rw [WampSession.pending_eq]
      show (c.session.entryAt entry.kind r).map Prod.fst = none
      rw [hfree]
      rfl
    have hq0 : (c.dequeue n).requests[ref]? = some q := hq
    rw [hq0, hpending, Option.map_some] at hgot
    obtain rfl := Option.some.inj hgot
    exact absurd hp' hp
  · next hne =>
    have hold := hc.exact_iff.mp h ha ref' q' hgot he' hp'
    rw [hentry, if_neg, hold]
    rintro ⟨-, hr', -⟩
    exact hne (hf.inj hq hgot (hr.trans hr'.symm))

theorem Client.Exact.act (h : c.Exact) (hc : c.Coherent) (hf : c.Fresh)
    (hm : Act c d) : d.Exact := by
  cases hm with
  | @submit op entry buffer hsub =>
      intro ha ref q hq he
      by_cases hlt : ref < c.requests.length
      · have hq' : c.requests[ref]? = some q := by
          simpa [Client.submit, List.getElem?_append_left hlt] using hq
        exact h ha ref q hq' he
      · have hnew : q = newRequestOf op entry (c.session.requestId + 1) buffer := by
          simp only [Client.submit,
            List.getElem?_append_right (Nat.le_of_not_lt hlt)] at hq
          exact List.mem_singleton.mp (List.mem_of_getElem? hq)
        rw [hnew] at he
        exact absurd he (by simp [newRequestOf])
  | @abandon n ref r entry buffer ht hs =>
      obtain ⟨q, hq, -, -, -, hentered, -⟩ := hc.queued (List.mem_of_getElem? ht)
      intro ha ref' q' hq' he'
      have hgot : ((c.dequeue n).modifyRequest ref Request.abandon).requests[ref']? =
          some q' := hq'
      rw [Client.getElem?_modifyRequest] at hgot
      split at hgot
      · next heq =>
        subst heq
        have hq0 : (c.dequeue n).requests[ref]? = some q := hq
        rw [hq0, Option.map_some] at hgot
        obtain rfl := Option.some.inj hgot
        rw [Request.abandon, hentered] at he'
        exact absurd he' (by simp)
      · exact h ha ref' q' hgot he'
  | entered ht => exact h.enter hc hf ht
  | @answer n v attempt buffer =>
      unfold Client.answer
      split <;> exact h.congr rfl (fun _ _ => rfl) rfl
  | takeId => exact h.congr rfl (fun k _ => by cases k <;> rfl) rfl
  | publish => exact h.congr rfl (fun k _ => by cases k <;> rfl) rfl
  | retrieveStop => exact h.congr rfl (fun k _ => by cases k <;> rfl) rfl
  | retrieveJoin => exact h.congr rfl (fun k _ => by cases k <;> rfl) rfl
  | retrieveLeave => exact h.congr rfl (fun k _ => by cases k <;> rfl) rfl
  | settleStop => exact h.congr rfl (fun k _ => by cases k <;> rfl) rfl
  | stopped => exact h.congr rfl (fun k _ => by cases k <;> rfl) rfl
  | left =>
      refine h.congr rfl (fun k r => ?_) rfl
      apply (WampSession.send_pending _ _ k r).trans
      cases k <;> rfl
  | joined => exact h.congr rfl (fun k r => WampSession.send_pending _ _ k r) rfl
  | published =>
      exact h.congr rfl (fun k r => WampSession.send_pending _ _ k r) rfl
  | handed => exact h.congr rfl (fun k r => WampSession.send_pending _ _ k r) rfl
  | _ => exact h.congr rfl (fun _ _ => rfl) rfl

theorem Client.Exact.quiet (h : c.Exact) (hc : c.Coherent) (hf : c.Fresh)
    (hm : Quiet c d) : d.Exact := by
  cases hm with
  | act hm => exact h.act hc hf hm
  | goodbye =>
      refine h.congr rfl (fun k r => ?_) rfl
      unfold Client.left
      dsimp only
      split
      · cases k <;> rfl
      · exact (WampSession.send_pending _ _ k r).trans (by cases k <;> rfl)
  | event => exact h.congr rfl (fun _ _ => rfl) rfl
  | invocation => exact h.congr rfl (fun _ _ => rfl) rfl
  | rxError => exact h.congr rfl (fun _ _ => rfl) rfl
  | _ => exact h.congr rfl (fun k _ => by cases k <;> rfl) rfl

/-- An answer that erases its entry keeps the tables exact. -/
theorem Client.Exact.erase (h : c.Exact) (hc : c.Coherent) {k : RequestKind}
    {r : UInt64} {ref : Nat} {entry : Entry} {o : Except Exn Reply}
    (he : c.session.entryAt k r = some (ref, entry))
    (hreq : d.requests = (c.settled ref o).requests)
    (hpending : ∀ k' r', d.session.pending k' r' =
      if k' = k ∧ r' = r then none else c.session.pending k' r')
    (halive : d.alive = c.alive) : d.Exact := by
  obtain ⟨q, hq, hm, hr, -⟩ := hc.entries he
  intro ha ref' q' hq' he'
  rw [halive] at ha
  rw [hreq, Client.settled, Client.getElem?_modifyRequest] at hq'
  split at hq'
  · next heq =>
    subst heq
    rw [hq, Option.map_some] at hq'
    obtain rfl := Option.some.inj hq'
    rw [hpending, if_pos ⟨hm.kind.trans (WampSession.entryAt_kind he), hr⟩]
    simp [Promise.resolved]
  · next hne =>
    have hold := h ha ref' q' hq' he'
    rw [hpending, ← hold]
    split
    · next hkey =>
      -- the key of another request that waits would be this entry
      simp only [Option.isSome_none, Bool.false_eq_true, false_iff]
      rw [hold, not_not]
      by_contra hp
      obtain ⟨entry', hentry⟩ := hc.tracked hq' he' hp
      rw [hkey.1, hkey.2, he] at hentry
      exact hne (congrArg Prod.fst (Option.some.inj hentry))
    · exact Iff.rfl

/-- An answer that leaves its entry in the table spoils exactness. -/
theorem Client.Coherent.not_exact (hc : c.Coherent) (ha : c.alive = true)
    {k : RequestKind} {r : UInt64} {ref : Nat} {entry : Entry}
    {o : Except Exn Reply} (he : c.session.entryAt k r = some (ref, entry))
    (hreq : d.requests = (c.settled ref o).requests)
    (hentry : d.session.entryAt k r = c.session.entryAt k r)
    (halive : d.alive = c.alive) : ¬ d.Exact := by
  intro h
  obtain ⟨q, hq, hm, hr, hentered⟩ := hc.entries he
  have hq' : d.requests[ref]? =
      some { q with promise := { q.promise with outcome := some o } } := by
    rw [hreq, Client.settled, Client.getElem?_modifyRequest, if_pos rfl, hq]
    rfl
  have hiff := h (halive.trans ha) ref _ hq' hentered
  have hkey : d.session.entryAt q.kind q.requestId = some (ref, entry) := by
    rw [hm.kind, WampSession.entryAt_kind he, hr, hentry, he]
  simp only [WampSession.pending_eq, hkey] at hiff
  simp [Promise.resolved] at hiff

theorem Client.Exact.answer_iff (h : c.Exact) (hc : c.Coherent)
    (ha : c.alive = true) {obj : Object} {user : UserCode}
    (hm : Answer (Incoming.read obj) c d) :
    d.Exact ↔ ¬ c.LeavesAnswered (.message obj user) := by
  generalize hi : Incoming.read obj = i at hm
  simp only [Client.LeavesAnswered, hi]
  cases hm with
  | failed he =>
      exact iff_of_false (hc.not_exact ha (WampSession.entryAt_call he) rfl rfl
        rfl) (not_not.mpr ⟨ha, by simp [he]⟩)
  | resulted he =>
      exact iff_of_false (hc.not_exact ha (WampSession.entryAt_call he) rfl rfl
        rfl) (not_not.mpr ⟨ha, by simp [he]⟩)
  | subscribed he =>
      refine iff_of_true (h.erase hc (WampSession.entryAt_subscribe he) rfl
        (fun k' r' => ?_) rfl) fun hl => hl.2
      rw [WampSession.pending_eq, Client.eraseSubscribe_entryAt]
      split
      · rfl
      · cases k' <;> exact (WampSession.pending_eq _ _).symm
  | subscribedTwice he hq =>
      exact absurd (h.unsettled hc ha (WampSession.entryAt_subscribe he)) hq
  | unsubscribed he =>
      refine iff_of_true (h.erase hc (WampSession.entryAt_unsubscribe he) rfl
        (fun k' r' => ?_) rfl) fun hl => hl.2
      rw [WampSession.pending_eq, Client.eraseUnsubscribe_entryAt]
      split
      · rfl
      · cases k' <;> exact (WampSession.pending_eq _ _).symm
  | registered he =>
      exact iff_of_false (hc.not_exact ha (WampSession.entryAt_register he) rfl
        rfl rfl) (not_not.mpr ⟨ha, by simp [he]⟩)
  | registeredTwice he hq =>
      exact absurd (h.unsettled hc ha (WampSession.entryAt_register he)) hq

theorem Client.Exact.quiets (h : c.Exact) (hr : c.Reachable)
    (hm : Quiets c d) (hlt : d.issued < UInt64.size) : d.Exact := by
  have hinv : d.Coherent ∧ (d.issued < UInt64.size → d.Fresh ∧ d.Exact) := by
    clear hlt
    induction hm with
    | refl => exact ⟨hr.coherent, fun hlt => ⟨hr.fresh hlt, h⟩⟩
    | tail _ hq ih =>
        refine ⟨ih.1.quiet hq, fun hlt => ?_⟩
        have hle := (Move.quiet hq).issued_le
        obtain ⟨hf, he⟩ := ih.2 (Nat.lt_of_le_of_lt hle hlt)
        exact ⟨hf.quiet ih.1 hlt hq, he.quiet ih.1 hf hq⟩
  exact (hinv.2 hlt).2

/-- A quiet step accepts no reply that leaves its request behind. -/
theorem Client.Exact.answered (h : c.Exact) (hc : c.Coherent) {i : Input}
    (hl : c.LeavesAnswered i) :
    ∃ obj user, i = .message obj user ∧ c.alive = true ∧
      Answer (Incoming.read obj) c (c.step i) := by
  cases i <;> try exact hl.elim
  case message obj user =>
    obtain ⟨ha, hread⟩ := hl
    refine ⟨obj, user, rfl, ha, ?_⟩
    rw [Client.step_message, if_pos ha]
    generalize Incoming.read obj = i at hread
    cases i <;> try exact hread.elim
    case callError r text =>
      obtain ⟨e, he⟩ := Option.ne_none_iff_exists'.mp hread
      have hq := h.unsettled hc ha (WampSession.entryAt_call he)
      rcases hc.run_settleRequest (WampSession.entryAt_call he)
        (.error (.runtimeError text)) with ⟨-, hrun⟩ | ⟨hs, -⟩
      · rw [run_callError user he, hrun]
        exact .failed he hq
      · exact absurd hq hs
    case result r value =>
      obtain ⟨e, he⟩ := Option.ne_none_iff_exists'.mp hread
      have hq := h.unsettled hc ha (WampSession.entryAt_call he)
      rcases hc.run_settleRequest (WampSession.entryAt_call he)
        (.ok (.result value)) with ⟨-, hrun⟩ | ⟨hs, -⟩
      · rw [run_result user he, hrun]
        exact .resulted he hq
      · exact absurd hq hs
    case registered r g =>
      obtain ⟨e, he⟩ := Option.ne_none_iff_exists'.mp hread
      have hq := h.unsettled hc ha (WampSession.entryAt_register he)
      rcases hc.run_registered_cases user g he with ⟨-, hrun⟩ | ⟨hs, -⟩
      · rw [hrun]
        exact .registered he hq
      · exact absurd hq hs

theorem Client.Exact.step_iff (h : c.Exact) (hr : c.Reachable) {i : Input}
    (hlt : (c.step i).issued < UInt64.size) :
    (c.step i).Exact ↔ ¬ c.LeavesAnswered i := by
  have hc := hr.coherent
  by_cases hl : c.LeavesAnswered i
  · obtain ⟨obj, user, rfl, ha, hm⟩ := h.answered hc hl
    exact h.answer_iff hc ha hm
  · simp only [hl, not_false_eq_true, iff_true]
    rcases c.step_cases i with hm | ⟨obj, user, rfl, ha, hm⟩ | ⟨-, -, hd⟩
    · exact h.quiets hr hm hlt
    · exact (h.answer_iff hc ha hm).mpr hl
    · rw [hd]
      exact fun ha => absurd ha (by simp [Client.destroy])

end

theorem Client.exact_new (plan : Nat → WriteResult) : (Client.new plan).Exact := by
  intro _ ref q hq
  simp [Client.new] at hq

/-- **When the tables are exact.** In a run that takes fewer than 2^64 ids,
they are exact in every state reached if and only if no step accepts a RESULT,
a CALL ERROR or a REGISTERED. -/
theorem Client.everywhere_exact_iff (plan : Nat → WriteResult)
    (is : List Input) (hlt : ((Client.new plan).runs is).issued < UInt64.size) :
    Machine.Everywhere Client.step Client.Exact (Client.new plan) is ↔
      Machine.EachStep Client.step (fun c i => ¬ c.LeavesAnswered i)
        (Client.new plan) is := by
  apply Machine.everywhere_iff_eachStep (Client.exact_new plan)
  intro pre i hpre h
  have hle := (Client.new plan).issued_le_of_isPrefix hpre
  rw [Client.runs, Machine.run_snoc] at hle
  rw [Machine.run_snoc]
  exact h.step_iff (Client.reachable_runs plan pre) (Nat.lt_of_le_of_lt hle hlt)

/-- In a run with one call, the tables are exact until its RESULT comes. -/
theorem exact_until_result :
    Machine.Everywhere Client.step Client.Exact (Client.new fun _ => .complete)
      [.message (MessageType.WELCOME.object [.positiveInteger 7]) fun _ => {},
        .operate (.call (octets "com.f") .none), .task 0] := by
  apply (Client.everywhere_exact_iff _ _ (by decide)).mpr
  intro pre i hi
  have hmem := hi.subset (List.mem_append_right pre (List.mem_singleton_self i))
  simp only [List.mem_cons, List.not_mem_nil, or_false] at hmem
  rcases hmem with rfl | rfl | rfl
  · exact fun hl => hl.2
  · exact fun hl => hl
  · exact fun hl => hl

/-- A call that got its RESULT stays in its table. -/
theorem not_exact_after_result :
    ¬ ((Client.new fun _ => .complete).runs
      [.message (MessageType.WELCOME.object [.positiveInteger 7]) fun _ => {},
        .operate (.call (octets "com.f") .none), .task 0,
        .message (MessageType.RESULT.object [.positiveInteger 1, .map []])
          fun _ => {}]).Exact :=
  fun h => (h rfl 0 _ rfl rfl).mp (by decide) (by decide)

/-! ## Late replies -/

/-- Where the tables are exact, a second answer is refused as bogus and
changes nothing. -/
theorem Client.Exact.late_reply {c : Client} (h : c.Exact)
    (ha : c.alive = true) {ref : Nat} {q : Request}
    (hq : c.requests[ref]? = some q) (he : q.entered = true)
    (hp : q.promise.resolved) (user : UserCode) {obj : Object}
    (hreply : replyTo obj = some (q.kind, q.requestId)) :
    observe (gotMessage user obj) c = (.protocolError, c) := by
  have hnone : c.session.pending q.kind q.requestId = none := by
    simpa using mt (h ha ref q hq he).mp (not_not.mpr hp)
  rw [gotMessage_observe]
  rcases read_repliesTo hreply with hi | ⟨text, hk, hi⟩ | ⟨value, hk, hi⟩ |
    ⟨s, hk, hi, -⟩ | ⟨hk, hi⟩ | ⟨g, hk, hi, -⟩ <;> rw [hi]
  · rfl
  all_goals
    simp only [hk, WampSession.pending, Option.map_eq_none_iff] at hnone
  · simp [observe, outcomeOf, run_callError_none user hnone]
  · simp [observe, outcomeOf, run_result_none user hnone]
  · simp [observe, outcomeOf, run_subscribed_none user hnone]
  · simp [observe, outcomeOf, run_unsubscribed_none user hnone]
  · simp [observe, outcomeOf, run_registered_none user hnone]

end Autobahn
