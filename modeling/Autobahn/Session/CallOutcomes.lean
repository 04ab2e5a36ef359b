import Autobahn.Session.CallErrors
import Autobahn.Session.Subscribing

/-!
# No reply is lost

`CallErrors` says where the outcome of a call comes from. Here is the other way:
a reply that the router delivers settles the call that it answers, a call has
one answer, and what has been settled stays so. While ids last, the calls that
wait are those that the router has not answered
(`CallErrors.Reachable.no_reply_lost`).
-/

namespace Autobahn

open Foundation MsgPack Relation

/-! ## A session and its calls -/

/-- From `c` to `d` what has been settled stays so. -/
def Client.Lasts (c d : Client) : Prop :=
  ∀ (ref : Nat) (q : Request) (o : Except Exn Reply), c.requests[ref]? = some q →
    q.promise.outcome = some o →
    ∃ q', d.requests[ref]? = some q' ∧ q.Ages q' ∧ q'.promise.outcome = some o

section Lasts

variable {c d : Client}

theorem Client.Lasts.same (hreq : d.requests = c.requests) : c.Lasts d :=
  fun _ q _ hq ho => ⟨q, hreq ▸ hq, .refl q, ho⟩

theorem Client.Lasts.trans {e : Client} (h : c.Lasts d) (h' : d.Lasts e) :
    c.Lasts e := by
  intro ref q o hq ho
  obtain ⟨q', hq', hages, ho'⟩ := h ref q o hq ho
  obtain ⟨q'', hq'', hages', ho''⟩ := h' ref q' o hq' ho'
  exact ⟨q'', hq'', hages.trans hages', ho''⟩

theorem Client.Lasts.modify (ref : Nat) {f : Request → Request}
    (hages : ∀ q : Request, q.Ages (f q))
    (hf : ∀ (q : Request) (o : Except Exn Reply), c.requests[ref]? = some q →
      q.promise.outcome = some o → (f q).promise.outcome = some o)
    (hreq : d.requests = (c.modifyRequest ref f).requests) : c.Lasts d := by
  intro i q o hq ho
  rw [hreq, Client.getElem?_modifyRequest]
  split
  · next heq =>
    subst heq
    exact ⟨f q, by rw [hq, Option.map_some], hages q, hf q o hq ho⟩
  · exact ⟨q, hq, .refl q, ho⟩

theorem Request.abandon_outcome (q : Request) {o : Except Exn Reply}
    (ho : q.promise.outcome = some o) : q.abandon.promise.outcome = some o := by
  rw [Request.abandon, Promise.abandon_of_resolved (Promise.resolved_of_outcome ho)]
  exact ho

theorem Act.lasts (h : Act c d) : c.Lasts d := by
  cases h with
  | submit h =>
      exact fun i q o hq ho => ⟨q, getElem?_snoc_of_some hq, .refl q, ho⟩
  | abandon h hs =>
      exact .modify _ Request.abandon_ages (fun q o _ => q.abandon_outcome) rfl
  | @entered n ref r entry buffer h ha hj =>
      refine .modify (c := c) ref (f := fun q =>
        { q with
          entered := true
          promise := if ((c.dequeue n).session.pending entry.kind r).isSome
            then q.promise.abandon .brokenPromise else q.promise })
        (fun q => ⟨rfl, rfl, rfl, rfl⟩) (fun q o _ ho => ?_) rfl
      dsimp only
      split
      · exact q.abandon_outcome ho
      · exact ho
  | answer hv hs hb =>
      unfold Client.answer
      split <;> exact .same rfl
  | _ => exact .same rfl

theorem Client.settled_lasts {ref : Nat} (hq : c.Unsettled ref)
    (r : Except Exn Reply) (hreq : d.requests = (c.settled ref r).requests) :
    c.Lasts d := by
  refine .modify ref (f := fun q =>
    { q with promise := { q.promise with outcome := some r } })
    (fun q => ⟨rfl, rfl, rfl, rfl⟩) (fun q o href ho => ?_) hreq
  obtain ⟨q', hq', hp⟩ := hq
  obtain rfl := Option.some.inj (hq'.symm.trans href)
  exact absurd (Promise.resolved_of_outcome ho) hp

theorem Client.destroy_lasts (c : Client) : c.Lasts c.destroy := by
  intro i q o hq ho
  refine ⟨if c.tasks.any (Task.owns i) then q else q.abandon, ?_, ?_, ?_⟩
  · rw [Client.getElem?_destroy, hq, Option.map_some]
  · split
    · exact .refl q
    · exact q.abandon_ages
  · split
    · exact ho
    · exact q.abandon_outcome ho

theorem Move.lasts (h : Move c d) : c.Lasts d := by
  cases h with
  | quiet h =>
      cases h with
      | act h => exact h.lasts
      | _ => exact .same rfl
  | answer h =>
      cases h with
      | subscribedTwice he hq => exact .same rfl
      | registeredTwice he hq => exact .same rfl
      | failed he hq => exact Client.settled_lasts hq _ rfl
      | resulted he hq => exact Client.settled_lasts hq _ rfl
      | subscribed he hq => exact Client.settled_lasts hq _ rfl
      | unsubscribed he hq => exact Client.settled_lasts hq _ rfl
      | registered he hq => exact Client.settled_lasts hq _ rfl
  | destroy => exact c.destroy_lasts

/-- **A settled promise is settled for good.** -/
theorem Client.step_lasts (c : Client) (i : Input) : c.Lasts (c.step i) := by
  have h := c.step_moves i
  generalize c.step i = d at h
  induction h with
  | refl => exact .same rfl
  | tail _ h ih => exact ih.trans h.lasts

/-- How an ERROR or a RESULT settles the call whose id it carries. -/
def Incoming.settlesCall : Incoming → Option (UInt64 × Except Exn Reply)
  | .callError r text => some (r, .error (.runtimeError text))
  | .result r value => some (r, .ok (.result value))
  | _ => none

theorem run_settlesCall (user : UserCode) {i : Incoming} {r : UInt64}
    {o : Except Exn Reply} (hi : i.settlesCall = some (r, o)) {e : WampCall}
    (he : c.session.calls.find r = some e) :
    (i.handle user).run c = (settleRequest e.result o).run c := by
  cases i with
  | callError r' text =>
      obtain ⟨rfl, rfl⟩ := Prod.mk.inj (Option.some.inj hi)
      exact run_callError user he
  | result r' value =>
      obtain ⟨rfl, rfl⟩ := Prod.mk.inj (Option.some.inj hi)
      exact run_result user he
  | _ => cases hi

/-- **A call that waits is settled by what answers it.** -/
theorem Client.step_settlesCall (hc : c.Coherent) (ha : c.alive = true)
    {obj : Object} {ref : Nat} {q : Request} {o : Except Exn Reply}
    (hread : (Incoming.read obj).settlesCall = some (q.requestId, o))
    (hq : c.requests[ref]? = some q) (hk : q.kind = .call)
    (he : q.entered = true) (ho : q.promise.outcome = none) (user : UserCode) :
    ∃ q', (c.step (.message obj user)).requests[ref]? = some q' ∧ q.Ages q' ∧
      q'.promise.outcome = some o := by
  obtain ⟨entry, hentry⟩ := hc.tracked hq he (Promise.not_resolved_iff.mpr ho)
  rw [hk] at hentry
  obtain ⟨e, hfind, heq⟩ := Option.map_eq_some_iff.mp hentry
  obtain ⟨rfl, -⟩ := Prod.mk.inj heq
  rw [Client.step_message, if_pos ha, run_settlesCall user hread hfind]
  rcases settleRequest_cases e.result o c with ⟨-, hrun⟩ | ⟨hnot, -⟩ | ⟨hnot, -⟩
  · refine ⟨{ q with promise := { q.promise with outcome := some o } }, ?_,
      ⟨rfl, rfl, rfl, rfl⟩, rfl⟩
    rw [hrun, Client.settled, Client.getElem?_modifyRequest, if_pos rfl, hq]
    rfl
  · exact absurd ⟨q, hq, Promise.not_resolved_iff.mpr ho⟩ hnot
  · exact absurd ⟨q, hq, Promise.not_resolved_iff.mpr ho⟩ hnot

theorem Client.Wrote.requestIdOf (hc : c.Coherent) {n : Nat} {q : Request}
    (h : c.Wrote n q) : requestIdOf q.buffer = some q.requestId := by
  obtain ⟨entry, hm⟩ := hc.made q h.1
  exact hm.submits.requestIdOf

/-- No request is written twice. -/
theorem Client.Wrote.unique (hc : c.Coherent) (hf : c.Fresh) {n m : Nat}
    {q : Request} (h : c.Wrote n q) (h' : c.Wrote m q) : n = m := by
  have hid := h.requestIdOf hc
  exact getElem?_inj_of_nodup_filterMap (List.nodup_append.mp hf.distinct).1 h.2
    h'.2 hid hid

theorem Operation.Submits.not_plainFrame {op : Operation} {r : UInt64}
    {entry : Entry} {buffer : Frame} (h : op.Submits r entry buffer) :
    ¬ PlainFrame buffer := by
  cases h with
  | subscribe =>
      rw [subscribeFrame_eq_pack, PlainFrame, messageTypeOf_pack]
      simp
  | unsubscribe =>
      rw [unsubscribeFrame_eq_pack, PlainFrame, messageTypeOf_pack]
      simp
  | provide =>
      rw [registerFrame_eq_pack, PlainFrame, messageTypeOf_pack]
      simp
  | call _ procedure payload _ h =>
      rw [callFrame_eq_pack] at h
      obtain ⟨os, -, rfl⟩ := exists_of_map_eq_ok h
      rw [PlainFrame, List.cons_append, messageTypeOf_pack]
      simp

/-- The task of a request that is written has run. -/
theorem Client.Wrote.entered (hr : c.Reachable) (hf : c.Fresh) {n : Nat}
    {q : Request} (h : c.Wrote n q) : q.entered = true := by
  have hid := h.requestIdOf hr.coherent
  obtain ⟨ref, hq⟩ := List.mem_iff_getElem?.mp h.1
  cases hr.source _ (List.mem_of_getElem? h.2) with
  | plain hplain =>
      obtain ⟨entry, hm⟩ := hr.coherent.made q h.1
      exact absurd hplain hm.submits.not_plainFrame
  | @request ref' q' hq' he hb =>
      obtain ⟨entry, hm⟩ := hr.coherent.made q' (List.mem_of_getElem? hq')
      have hid' := hm.submits.requestIdOf
      rw [show q'.buffer = q.buffer from hb, hid] at hid'
      obtain rfl := hf.inj hq hq' (Option.some.inj hid')
      obtain rfl := Option.some.inj (hq.symm.trans hq')
      exact he
  | reply hv hb =>
      obtain ⟨attempt, hattempt⟩ :=
        hr.answered _ _ hv _ ((hr.replying.handed_le hv).2 hb)
      rw [requestIdOf_reply hattempt] at hid
      cases hid

/-- **A CALL belongs to a call**, whose task has run. -/
theorem Client.Reachable.call_of_reads (h : c.Reachable) {n : Nat} {r : UInt64}
    {message : List Object}
    (hr : c.reads n = some (MessageType.CALL.object (.positiveInteger r :: message))) :
    ∃ q, c.Wrote n q ∧ q.requestId = r ∧ q.kind = .call ∧ q.entered = true := by
  obtain ⟨buffer, hw, hd⟩ := Client.reads_eq_some.mp hr
  obtain ⟨ref, q, entry, hq, he, hm, rfl⟩ := h.made_of_write hw hd (.inl rfl)
  have hwrote : c.Wrote n q := ⟨List.mem_of_getElem? hq, hw⟩
  refine ⟨q, hwrote, hwrote.requestId_eq h.coherent rfl hr, hm.kind.trans ?_, he⟩
  have htype := messageTypeOf_of_decode hd
  have hsubmits := hm.submits
  generalize q.buffer = buffer, q.operation = op at hsubmits htype
  cases hsubmits with
  | subscribe =>
      rw [subscribeFrame_eq_pack, messageTypeOf_pack] at htype
      cases htype
  | unsubscribe =>
      rw [unsubscribeFrame_eq_pack, messageTypeOf_pack] at htype
      cases htype
  | provide =>
      rw [registerFrame_eq_pack, messageTypeOf_pack] at htype
      cases htype
  | call => rfl

theorem Client.Wrote.lasts {n : Nat} {q : Request} {o : Except Exn Reply}
    (h : c.Wrote n q) (ho : q.promise.outcome = some o) (hlasts : c.Lasts d)
    (hgrows : c.Grows d) : ∃ q', d.Wrote n q' ∧ q'.promise.outcome = some o := by
  obtain ⟨ref, hq⟩ := List.mem_iff_getElem?.mp h.1
  obtain ⟨q', hq', hages, ho'⟩ := hlasts ref q o hq ho
  refine ⟨q', ⟨List.mem_of_getElem? hq', ?_⟩, ho'⟩
  rw [hages.buffer]
  exact getElem?_of_isPrefix hgrows.writes h.2

end Lasts

theorem Net.Step.lasts {N M : Net} (h : N.Step M) (j : Nat) :
    (N.clients j).Lasts (M.clients j) := by
  have hact : ∀ (k : Nat) (i : Input),
      (N.clients j).Lasts ((N.act k i).clients j) := fun k i =>
    Machine.stepAt_rel rfl (Client.step_lasts _ i) (fun _ => .same rfl) j
  cases h <;> exact hact _ _

/-! ## The router's ledger -/

namespace CallErrors

/-- The calls that the router has answered: who made them, and with which write. -/
def answers (S : CallErrors) : List (Nat × Nat) :=
  (S.net.returns ++ S.failures).map (fun x => (x.1.caller, x.1.call)) ++
    S.refusals.map fun x => (x.caller, x.call)

/-- What the router has relayed and answered fits together. -/
structure Ledger (S : CallErrors) : Prop where
  relayed : ∀ x ∈ S.net.returns ++ S.failures, x.1 ∈ S.net.relays
  once : ∀ ρ ∈ S.net.relays, ∀ ρ' ∈ S.net.relays, ρ.caller = ρ'.caller →
    ρ.call = ρ'.call → ρ = ρ'
  refused : ∀ ρ ∈ S.net.relays, ∀ x ∈ S.refusals,
    ¬ (x.caller = ρ.caller ∧ x.call = ρ.call)
  nodup : S.answers.Nodup

section Ledger

variable {S T : CallErrors}

theorem Ledger.unanswered (hS : S.Ledger) {ρ : Relay} (hρ : ρ ∈ S.net.relays)
    (honce : ∀ w, (ρ, w) ∉ S.net.returns ∧ (ρ, w) ∉ S.failures) :
    (ρ.caller, ρ.call) ∉ S.answers := by
  intro hmem
  rcases List.mem_append.mp hmem with h | h
  · obtain ⟨⟨ρ', w⟩, hx, heq⟩ := List.mem_map.mp h
    obtain ⟨hcaller, hcall⟩ := Prod.mk.inj heq
    obtain rfl := hS.once ρ' (hS.relayed _ hx) ρ hρ hcaller hcall
    exact (List.mem_append.mp hx).elim (honce w).1 (honce w).2
  · obtain ⟨x, hx, heq⟩ := List.mem_map.mp h
    exact hS.refused ρ hρ x hx (Prod.mk.inj heq)

theorem Ledger.not_answered (hS : S.Ledger) {k n : Nat}
    (hunrelayed : ∀ ρ ∈ S.net.relays, ¬ (ρ.caller = k ∧ ρ.call = n))
    (honce : ∀ x ∈ S.refusals, ¬ (x.caller = k ∧ x.call = n)) :
    (k, n) ∉ S.answers := by
  intro hmem
  rcases List.mem_append.mp hmem with h | h
  · obtain ⟨x, hx, heq⟩ := List.mem_map.mp h
    exact hunrelayed x.1 (hS.relayed x hx) (Prod.mk.inj heq)
  · obtain ⟨x, hx, heq⟩ := List.mem_map.mp h
    exact honce x hx (Prod.mk.inj heq)

theorem Ledger.route (hS : S.Ledger) {N : Net} (h : S.net.Step N)
    (hreturned : ∀ x ∈ N.returns, ∀ w, (x.1, w) ∉ S.failures)
    (hrelayed : ∀ ρ ∈ N.relays, ∀ x ∈ S.refusals,
      ¬ (x.caller = ρ.caller ∧ x.call = ρ.call)) :
    ({ S with net := N } : CallErrors).Ledger := by
  cases h with
  | act k hi => exact ⟨hS.relayed, hS.once, hS.refused, hS.nodup⟩
  | register g user halive hread =>
      exact ⟨hS.relayed, hS.once, hS.refused, hS.nodup⟩
  | @invoke k n r r' options options' name rest x i details user halive hread
      honce hroute hname hfresh =>
      refine ⟨fun y hy => List.mem_append_left _ (hS.relayed y hy), ?_, hrelayed,
        hS.nodup⟩
      intro ρ hρ ρ' hρ' hcaller hcall
      rcases List.mem_append.mp hρ with hold | hnew <;>
        rcases List.mem_append.mp hρ' with hold' | hnew'
      · exact hS.once ρ hold ρ' hold' hcaller hcall
      · obtain rfl := List.mem_singleton.mp hnew'
        exact absurd ⟨hcaller, hcall⟩ (honce ρ hold)
      · obtain rfl := List.mem_singleton.mp hnew
        exact absurd ⟨hcaller.symm, hcall.symm⟩ (honce ρ' hold')
      · rw [List.mem_singleton.mp hnew, List.mem_singleton.mp hnew']
  | @result ρ w r options message rest details user halive hmem honce hread hcall =>
      refine ⟨fun y hy => ?_, hS.once, hS.refused, ?_⟩
      · rcases List.mem_cons.mp hy with rfl | hy
        · exact hmem
        · exact hS.relayed y hy
      · exact List.nodup_cons.mpr ⟨hS.unanswered hmem fun w' =>
          ⟨honce w', hreturned (ρ, w) List.mem_cons_self w'⟩, hS.nodup⟩

theorem Ledger.step (hS : S.Ledger) (h : Step S T) : T.Ledger := by
  cases h with
  | act k hi herror => exact ⟨hS.relayed, hS.once, hS.refused, hS.nodup⟩
  | route h hmemory hreturned hrelayed => exact hS.route h hreturned hrelayed
  | @fail ρ w r options message rest details user halive hmem honce hread hcall =>
      refine ⟨fun y hy => ?_, hS.once, hS.refused, ?_⟩
      · rcases List.mem_append.mp hy with hy | hy
        · exact hS.relayed y (List.mem_append_left _ hy)
        · rcases List.mem_cons.mp hy with rfl | hy
          · exact hmem
          · exact hS.relayed y (List.mem_append_right _ hy)
      · have hmiddle : (S.net.returns ++ (ρ, w) :: S.failures).Perm
            ((ρ, w) :: (S.net.returns ++ S.failures)) := List.perm_middle
        have hperm := hmiddle.map fun x => (x.1.caller, x.1.call)
        exact (hperm.append_right _).nodup_iff.mpr
          (List.nodup_cons.mpr ⟨hS.unanswered hmem honce, hS.nodup⟩)
  | @refuse k n r options name rest details uri tail user halive hread
      hunrelayed honce =>
      refine ⟨hS.relayed, hS.once, fun ρ hρ x hx => ?_, ?_⟩
      · rcases List.mem_cons.mp hx with rfl | hx
        · exact fun heq => hunrelayed ρ hρ ⟨heq.1.symm, heq.2.symm⟩
        · exact hS.refused ρ hρ x hx
      · exact List.perm_middle.nodup_iff.mpr
          (List.nodup_cons.mpr ⟨hS.not_answered hunrelayed honce, hS.nodup⟩)

end Ledger

/-! ## Answers settle calls -/

/-- The call that the session wrote so has this outcome. -/
def Outcome (S : CallErrors) (k n : Nat) (o : Except Exn Reply) : Prop :=
  ∃ q, (S.net.clients k).Wrote n q ∧ q.promise.outcome = some o

/-- Every answer has settled its call. -/
structure Kept (S : CallErrors) : Prop where
  returned : ∀ x ∈ S.net.returns, ∃ value,
    S.Outcome x.1.caller x.1.call (.ok (.result value))
  failed : ∀ x ∈ S.failures, ∃ text,
    S.Outcome x.1.caller x.1.call (.error (.runtimeError text))
  refused : ∀ x ∈ S.refusals, ∃ text,
    S.Outcome x.caller x.call (.error (.runtimeError text))

section Kept

variable {S T : CallErrors} {k n : Nat}

theorem Outcome.mono {o : Except Exn Reply} (h : S.Outcome k n o)
    (hstep : S.net.Step T.net) : T.Outcome k n o := by
  obtain ⟨q, hwrote, ho⟩ := h
  exact hwrote.lasts ho (hstep.lasts k) (hstep.grows.client k)

/-- A call that the router has not answered waits. -/
theorem Truthful.waiting (hS : S.Truthful) (hr : (S.net.clients k).Reachable)
    (hlt : (S.net.clients k).issued < UInt64.size)
    (halive : (S.net.clients k).alive = true) {q : Request}
    (hwrote : (S.net.clients k).Wrote n q) (hk : q.kind = .call)
    (hnot : (k, n) ∉ S.answers) : q.promise.outcome = none := by
  have hf := hr.fresh hlt
  cases ho : q.promise.outcome with
  | none => rfl
  | some o =>
      exfalso
      obtain ⟨ref, href⟩ := List.mem_iff_getElem?.mp hwrote.1
      have hanswers := hr.settles hlt halive ref q o href (hwrote.entered hr hf) ho
      rw [hk] at hanswers
      -- whatever settled it is on the ledger
      cases hanswers with
      | result value =>
          obtain ⟨ρ, w, run, hmem, rfl, hwrote', -⟩ :=
            hS.calls.resolved k q value hwrote.1 ho
          obtain rfl := hwrote.unique hr.coherent hf hwrote'
          exact hnot (List.mem_append_left _ (List.mem_map.mpr
            ⟨(ρ, w), List.mem_append_left _ hmem, rfl⟩))
      | error text =>
          rcases hS.errors k q text hwrote.1 ho with
            ⟨ρ, w, run, hmem, rfl, hwrote', -⟩ | ⟨x, hmem, rfl, hwrote', -⟩
          · obtain rfl := hwrote.unique hr.coherent hf hwrote'
            exact hnot (List.mem_append_left _ (List.mem_map.mpr
              ⟨(ρ, w), List.mem_append_right _ hmem, rfl⟩))
          · obtain rfl := hwrote.unique hr.coherent hf hwrote'
            exact hnot (List.mem_append_right _ (List.mem_map.mpr ⟨x, hmem, rfl⟩))

/-- An answer to a call that waits is its outcome. -/
theorem Truthful.outcome (hS : S.Truthful) (hr : (S.net.clients k).Reachable)
    (hlt : (S.net.clients k).issued < UInt64.size)
    (halive : (S.net.clients k).alive = true) {r : UInt64} {message : List Object}
    (hread : (S.net.clients k).reads n =
      some (MessageType.CALL.object (.positiveInteger r :: message)))
    (hnot : (k, n) ∉ S.answers) {obj : Object} {user : UserCode}
    {o : Except Exn Reply} (hobj : (Incoming.read obj).settlesCall = some (r, o))
    (hstep : S.net.Step T.net)
    (hclients : T.net.clients =
      Machine.stepAt Client.step S.net.clients k (.message obj user)) :
    T.Outcome k n o := by
  obtain ⟨q, hwrote, rfl, hk, he⟩ := hr.call_of_reads hread
  have ho := hS.waiting hr hlt halive hwrote hk hnot
  obtain ⟨ref, href⟩ := List.mem_iff_getElem?.mp hwrote.1
  obtain ⟨q', hq', hages, ho'⟩ :=
    Client.step_settlesCall hr.coherent halive hobj href hk he ho user
  refine ⟨q', ⟨?_, ?_⟩, ho'⟩
  · rw [hclients, Machine.stepAt_self]
    exact List.mem_of_getElem? hq'
  · rw [hages.buffer]
    exact getElem?_of_isPrefix (hstep.grows.client k).writes hwrote.2

theorem Kept.mono (hS : S.Kept) (hstep : S.net.Step T.net)
    (hreturned : ∀ x ∈ T.net.returns, x ∈ S.net.returns ∨
      ∃ value, T.Outcome x.1.caller x.1.call (.ok (.result value)))
    (hfailed : ∀ x ∈ T.failures, x ∈ S.failures ∨
      ∃ text, T.Outcome x.1.caller x.1.call (.error (.runtimeError text)))
    (hrefused : ∀ x ∈ T.refusals, x ∈ S.refusals ∨
      ∃ text, T.Outcome x.caller x.call (.error (.runtimeError text))) :
    T.Kept where
  returned x hx := (hreturned x hx).elim
    (fun h => (hS.returned x h).imp fun _ h => h.mono hstep) id
  failed x hx := (hfailed x hx).elim
    (fun h => (hS.failed x h).imp fun _ h => h.mono hstep) id
  refused x hx := (hrefused x hx).elim
    (fun h => (hS.refused x h).imp fun _ h => h.mono hstep) id

/-- The RESULT of a YIELD is always well formed. -/
theorem settlesCall_result {c : Client} (hc : c.Reachable) {w : Nat}
    {i r : UInt64} {options : Object} {rest : List Object}
    (hread : c.reads w = some (MessageType.YIELD.object
      (.positiveInteger i :: options :: rest))) (details : List (Object × Object)) :
    ∃ value, (Incoming.read (MessageType.RESULT.object (.positiveInteger r ::
      .map details :: rest))).settlesCall = some (r, .ok (.result value)) := by
  obtain ⟨arguments, kwArguments, hrest⟩ := hc.yield_payload hread
  refine ⟨{ arguments, kwArguments }, ?_⟩
  rw [read_object, readFields, readResult, hrest]
  rfl

theorem settlesCall_refusal (r : UInt64) (details : List (Object × Object))
    (uri : Octets) (tail : Tail) :
    (Incoming.read (refusal .call r details uri tail)).settlesCall =
      some (r, .error (.runtimeError (errorText uri tail.kwArguments))) := by
  rw [read_refusal, if_pos rfl]
  rfl

theorem Kept.route (hS : S.Kept) (htruthful : S.Truthful) (hsound : S.net.Sound)
    (hledger : S.Ledger) {N : Net} (h : S.net.Step N)
    (hreturned : ∀ x ∈ N.returns, ∀ w, (x.1, w) ∉ S.failures)
    (hids : ∀ k, (S.net.clients k).issued < UInt64.size) :
    ({ S with net := N } : CallErrors).Kept := by
  have hstep : S.net.Step N := h
  refine hS.mono (T := { S with net := N }) hstep ?_ (fun x hx => .inl hx)
    fun x hx => .inl hx
  intro x hx
  cases h with
  | act k hi => exact .inl hx
  | register g user halive hread => exact .inl hx
  | invoke i details user halive hread honce hroute hname hfresh => exact .inl hx
  | @result ρ w r options message rest details user halive hmem honce hread hcall =>
      rcases List.mem_cons.mp hx with rfl | hx
      · have hnot := hledger.unanswered hmem fun w' =>
          ⟨honce w', hreturned (ρ, w) List.mem_cons_self w'⟩
        obtain ⟨value, hobj⟩ :=
          settlesCall_result (hsound.reachable ρ.callee) hread details
        exact .inr ⟨value, htruthful.outcome (hsound.reachable _) (hids _) halive
          hcall hnot hobj hstep rfl⟩
      · exact .inl hx

theorem Kept.step (hS : S.Kept) (htruthful : S.Truthful) (hsound : S.net.Sound)
    (hledger : S.Ledger) (h : Step S T)
    (hids : ∀ k, (S.net.clients k).issued < UInt64.size) : T.Kept := by
  have hstep := h.net
  cases h with
  | act k hi herror =>
      exact hS.mono hstep (fun x hx => .inl hx) (fun x hx => .inl hx)
        fun x hx => .inl hx
  | route h hmemory hreturned hrelayed =>
      exact hS.route htruthful hsound hledger h hreturned hids
  | @fail ρ w r options message rest details user halive hmem honce hread hcall =>
      refine hS.mono hstep (fun x hx => .inl hx) (fun x hx => ?_)
        fun x hx => .inl hx
      rcases List.mem_cons.mp hx with rfl | hx
      · obtain ⟨-, -, uri, tail, -, -, rfl, -⟩ :=
          (hsound.reachable ρ.callee).wrote_error hread
        exact .inr ⟨_, htruthful.outcome (hsound.reachable _) (hids _) halive hcall
          (hledger.unanswered hmem honce) (settlesCall_refusal r details uri tail)
          hstep rfl⟩
      · exact .inl hx
  | @refuse k n r options name rest details uri tail user halive hread
      hunrelayed honce =>
      refine hS.mono hstep (fun x hx => .inl hx) (fun x hx => .inl hx)
        fun x hx => ?_
      rcases List.mem_cons.mp hx with rfl | hx
      · exact .inr ⟨_, htruthful.outcome (hsound.reachable _) (hids _) halive hread
          (hledger.not_answered hunrelayed honce)
          (settlesCall_refusal r details uri tail) hstep rfl⟩
      · exact .inl hx

theorem ledger_new (plans : Nat → Nat → WriteResult) : (new plans).Ledger where
  relayed x hx := by cases hx
  once ρ hρ := by cases hρ
  refused ρ hρ := by cases hρ
  nodup := .nil

theorem kept_new (plans : Nat → Nat → WriteResult) : (new plans).Kept where
  returned x hx := by cases hx
  failed x hx := by cases hx
  refused x hx := by cases hx

/-- The router's ledger and the outcomes of the calls, in every state. -/
theorem Reachable.kept (h : S.Reachable)
    (hids : ∀ k, (S.net.clients k).issued < UInt64.size) : S.Ledger ∧ S.Kept := by
  obtain ⟨plans, hsteps⟩ := h
  induction hsteps with
  | refl => exact ⟨ledger_new plans, kept_new plans⟩
  | tail hsteps hstep ih =>
      have hids' := fun k => Nat.lt_of_le_of_lt (hstep.net.issued_le k) (hids k)
      have hreach : Reachable _ := ⟨plans, hsteps⟩
      obtain ⟨hledger, hkept⟩ := ih hids'
      exact ⟨hledger.step hstep, hkept.step (hreach.truthful hids')
        (hreach.net.sound hids') hledger hstep hids'⟩

/-! ## Calls and answers, one for one -/

/-- The calls that are settled are those that were answered, each once, and each
has what its answer brought. -/
structure Settled (S : CallErrors) : Prop where
  once : S.answers.Nodup
  /-- a RESULT: what the callee has yielded for the call's own INVOCATION -/
  returned : ∀ ρ w, (ρ, w) ∈ S.net.returns → ∃ q value run,
    (S.net.clients ρ.caller).Wrote ρ.call q ∧
    q.promise.outcome = some (.ok (.result value)) ∧
    run ∈ (S.net.clients ρ.callee).ran ∧ S.net.Runs ρ run ∧
    (S.net.clients ρ.callee).Yielded w run.2 value
  /-- an ERROR that was relayed: the callee's reply to that INVOCATION -/
  failed : ∀ ρ w, (ρ, w) ∈ S.failures → ∃ q text run,
    (S.net.clients ρ.caller).Wrote ρ.call q ∧ q.FailedWith text ∧
    run ∈ (S.net.clients ρ.callee).ran ∧ S.net.Runs ρ run ∧
    (S.net.clients ρ.callee).RepliedError w run.2 text
  refused : ∀ x ∈ S.refusals, ∃ q text, (S.net.clients x.caller).Wrote x.call q ∧
    q.FailedWith text ∧ DescribesError x.uri x.tail.kwEntries text
  waiting : ∀ (k n : Nat) (q : Request), (S.net.clients k).alive = true →
    (S.net.clients k).Wrote n q → q.kind = .call → (k, n) ∉ S.answers →
    q.promise.outcome = none

theorem Ledger.answer_unique (hS : S.Ledger) {x y : Relay × Nat}
    (hx : x ∈ S.net.returns ++ S.failures) (hy : y ∈ S.net.returns ++ S.failures)
    (hcaller : x.1.caller = y.1.caller) (hcall : x.1.call = y.1.call) : x = y :=
  List.inj_on_of_nodup_map (List.nodup_append.mp hS.nodup).1 hx hy
    (Prod.ext hcaller hcall)

theorem Ledger.refusal_unique (hS : S.Ledger) {x y : RefusedCall}
    (hx : x ∈ S.refusals) (hy : y ∈ S.refusals) (hcaller : x.caller = y.caller)
    (hcall : x.call = y.call) : x = y :=
  List.inj_on_of_nodup_map (List.nodup_append.mp hS.nodup).2.1 hx hy
    (Prod.ext hcaller hcall)

theorem Ledger.refusal_ne (hS : S.Ledger) {x : Relay × Nat} {y : RefusedCall}
    (hx : x ∈ S.net.returns ++ S.failures) (hy : y ∈ S.refusals)
    (hcaller : y.caller = x.1.caller) : y.call ≠ x.1.call :=
  fun hcall => hS.refused x.1 (hS.relayed x hx) y hy ⟨hcaller, hcall⟩

/-- The reply behind a RESULT. -/
theorem Reachable.settled_returned (h : S.Reachable)
    (hids : ∀ k, (S.net.clients k).issued < UInt64.size) {ρ : Relay} {w : Nat}
    (hmem : (ρ, w) ∈ S.net.returns) : ∃ q value run,
    (S.net.clients ρ.caller).Wrote ρ.call q ∧
    q.promise.outcome = some (.ok (.result value)) ∧
    run ∈ (S.net.clients ρ.callee).ran ∧ S.net.Runs ρ run ∧
    (S.net.clients ρ.callee).Yielded w run.2 value := by
  obtain ⟨hledger, hkept⟩ := h.kept hids
  have hr := (h.net.sound hids).reachable ρ.caller
  obtain ⟨value, q, hwrote, ho⟩ := hkept.returned _ hmem
  obtain ⟨ρ', w', run, hmem', hcaller, hwrote', hran, hruns, hyielded⟩ :=
    (h.truthful hids).calls.resolved ρ.caller q value hwrote.1 ho
  have hcall := hwrote.unique hr.coherent (hr.fresh (hids _)) hwrote'
  obtain ⟨rfl, rfl⟩ := Prod.mk.inj (hledger.answer_unique
    (List.mem_append_left _ hmem) (List.mem_append_left _ hmem') hcaller.symm hcall)
  exact ⟨q, value, run, hwrote, ho, hran, hruns, hyielded⟩

/-- The reply behind an ERROR. -/
theorem Reachable.settled_failed (h : S.Reachable)
    (hids : ∀ k, (S.net.clients k).issued < UInt64.size) {ρ : Relay} {w : Nat}
    (hmem : (ρ, w) ∈ S.failures) : ∃ q text run,
    (S.net.clients ρ.caller).Wrote ρ.call q ∧ q.FailedWith text ∧
    run ∈ (S.net.clients ρ.callee).ran ∧ S.net.Runs ρ run ∧
    (S.net.clients ρ.callee).RepliedError w run.2 text := by
  obtain ⟨hledger, hkept⟩ := h.kept hids
  have hr := (h.net.sound hids).reachable ρ.caller
  obtain ⟨text, q, hwrote, ho⟩ := hkept.failed _ hmem
  rcases (h.truthful hids).errors ρ.caller q text hwrote.1 ho with
    ⟨ρ', w', run, hmem', hcaller, hwrote', hran, hruns, hreplied⟩ |
    ⟨x, hx, hcaller, hwrote', -⟩
  · have hcall := hwrote.unique hr.coherent (hr.fresh (hids _)) hwrote'
    obtain ⟨rfl, rfl⟩ := Prod.mk.inj (hledger.answer_unique
      (List.mem_append_right _ hmem) (List.mem_append_right _ hmem')
      hcaller.symm hcall)
    exact ⟨q, text, run, hwrote, ho, hran, hruns, hreplied⟩
  · have hcall := hwrote'.unique hr.coherent (hr.fresh (hids _)) hwrote
    exact absurd hcall (hledger.refusal_ne (List.mem_append_right _ hmem) hx hcaller)

/-- The refusal behind an ERROR. -/
theorem Reachable.settled_refused (h : S.Reachable)
    (hids : ∀ k, (S.net.clients k).issued < UInt64.size) {x : RefusedCall}
    (hx : x ∈ S.refusals) : ∃ q text, (S.net.clients x.caller).Wrote x.call q ∧
    q.FailedWith text ∧ DescribesError x.uri x.tail.kwEntries text := by
  obtain ⟨hledger, hkept⟩ := h.kept hids
  have hr := (h.net.sound hids).reachable x.caller
  obtain ⟨text, q, hwrote, ho⟩ := hkept.refused x hx
  rcases (h.truthful hids).errors x.caller q text hwrote.1 ho with
    ⟨ρ, w, run, hmem, hcaller, hwrote', -⟩ | ⟨y, hy, hcaller, hwrote', hdescribes⟩
  · have hcall := hwrote.unique hr.coherent (hr.fresh (hids _)) hwrote'
    exact absurd hcall
      (hledger.refusal_ne (List.mem_append_right _ hmem) hx hcaller.symm)
  · have hcall := hwrote.unique hr.coherent (hr.fresh (hids _)) hwrote'
    obtain rfl := hledger.refusal_unique hx hy hcaller.symm hcall
    exact ⟨q, text, hwrote, ho, hdescribes⟩

/-- **No reply is lost.** In whatever order sessions and router take their steps,
each RESULT and each ERROR that the router delivers settles the call it answers,
with what it brought and for good; a call is answered once, and one that is not
answered waits. -/
theorem Reachable.no_reply_lost (h : S.Reachable)
    (hids : ∀ k, (S.net.clients k).issued < UInt64.size) : S.Settled where
  once := (h.kept hids).1.nodup
  returned _ _ := h.settled_returned hids
  failed _ _ := h.settled_failed hids
  refused _ := h.settled_refused hids
  waiting k _ _ halive hwrote :=
    (h.truthful hids).waiting ((h.net.sound hids).reachable k) (hids k) halive hwrote

end Kept

/-- A call that throws and one that is refused: two answers, two errors. -/
theorem no_reply_lost_two_calls : ∃ S : CallErrors, S.Reachable ∧ S.Settled ∧
    S.answers = [(1, 0), (1, 1)] ∧
    (S.net.clients 1).requests.map (fun q => q.promise.outcome) = twoErrors := by
  obtain ⟨S, h, hids, houtcomes, hreturns, hfailures, hrefusals⟩ :=
    exists_two_errors
  refine ⟨S, h, Reachable.no_reply_lost h hids, ?_, houtcomes⟩
  rw [answers, hreturns, hfailures, hrefusals]
  rfl

end CallErrors

end Autobahn
