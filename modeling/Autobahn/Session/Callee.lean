import Autobahn.Session.Tasks

/-!
# What makes a procedure run

Only a REGISTERED installs a procedure and only an INVOCATION runs one, once
for each invocation object (`Client.step_unheard`, `Client.step_invocation`).
A provide whose task has run keeps its entry for the REGISTERED to come
(`Client.Registers`).
-/

namespace Autobahn

open Foundation MsgPack Relation

/-! ## What an INVOCATION changes -/

/-- What a procedure can read of its invocation, with the request id. -/
def WampInvocation.heard (v : WampInvocation) : UInt64 × Object × Object :=
  (v.requestId, v.arguments, v.kwArguments)

def Callback.ran? : Callback → Option (WampProcedure × Nat)
  | .event .. => none
  | .invocation p h => some (p, h)

/-- The invocations accepted so far, in order. -/
def Client.heard (c : Client) : List (UInt64 × Object × Object) :=
  c.invocations.map WampInvocation.heard

/-- The procedures run so far, in order, with the invocation each was given. -/
def Client.ran (c : Client) : List (WampProcedure × Nat) :=
  c.callbacks.filterMap Callback.ran?

/-- No procedure is installed or run, and no invocation accepted. -/
structure Client.Unheard (c d : Client) : Prop where
  heard : d.heard = c.heard
  ran : d.ran = c.ran
  procedures : d.session.procedures = c.session.procedures

theorem Client.Unheard.refl (c : Client) : c.Unheard c := ⟨rfl, rfl, rfl⟩

instance : Std.Refl Client.Unheard := ⟨Client.Unheard.refl⟩

instance : IsTrans Client Client.Unheard :=
  ⟨fun _ _ _ h h' => ⟨h'.heard.trans h.heard, h'.ran.trans h.ran,
    h'.procedures.trans h.procedures⟩⟩

section Unheard

variable {c d : Client}

attribute [local simp] Exec.run_bind

theorem Client.heard_modifyInvocation (c : Client) (h : Nat)
    {f : WampInvocation → WampInvocation} (hf : ∀ v, (f v).heard = v.heard) :
    (c.modifyInvocation h f).heard = c.heard := by
  refine List.ext_getElem? fun i => ?_
  rw [Client.heard, List.getElem?_map, Client.getElem?_modifyInvocation,
    Client.heard, List.getElem?_map]
  split
  · cases c.invocations[i]? <;> simp [hf]
  · rfl

theorem Act.heard (h : Act c d) : d.heard = c.heard := by
  cases h with
  | answer hv hs hb =>
      rw [Client.heard, Client.answer_invocations]
      exact c.heard_modifyInvocation _ fun _ => rfl
  | handed ht ha =>
      exact Client.heard_modifyInvocation (c.dequeue _) _ fun _ => rfl
  | _ => rfl

theorem Act.unheard (h : Act c d) : c.Unheard d := by
  obtain ⟨-, hprocedures, hcallbacks, -⟩ := h.routing
  exact ⟨h.heard, by rw [Client.ran, hcallbacks, Client.ran], hprocedures⟩

theorem Acts.unheard (h : Acts c d) : c.Unheard d := by
  induction h with
  | refl => exact .refl c
  | tail _ h ih => exact trans_of Client.Unheard ih h.unheard

theorem Client.unheard_event (c : Client) (h : WampEventHandler) (e : WampEvent) :
    c.Unheard (c.callBack (.event h e)) := by
  refine ⟨rfl, ?_, rfl⟩
  simp [Client.ran, Client.callBack, Callback.ran?]

theorem Client.unheard_left (c : Client) : c.Unheard c.left := by
  refine ⟨rfl, rfl, ?_⟩
  simp only [Client.left, Client.setSession]
  split
  · rfl
  · exact WampSession.send_procedures _ _

theorem settle_unheard {α : Type} (p : Promise Exn α) (r : Except Exn α)
    {store : Promise Exn α → WampSession → WampSession}
    (hstore : ∀ q s, (store q s).procedures = s.procedures) :
    Exec.Moves Client.Unheard (settle p r store) :=
  settle_moves fun _ _ => ⟨rfl, rfl, hstore _ _⟩

theorem settleHandshake_unheard (accepted : Bool) (c : Client) :
    c.Unheard
      ((settle c.session.handshake (.ok accepted) storeHandshake).run c).2 := by
  have hstore : ∀ q s, (storeHandshake q s).procedures = s.procedures :=
    fun _ _ => rfl
  exact settle_unheard _ _ hstore c

theorem readOk_unheard {α : Type} (x : Except Misread α) :
    Exec.Moves Client.Unheard (readOk x) := by
  cases x with
  | ok a => exact .pure a
  | error m => exact .throw _

/-- Is this neither an INVOCATION nor a REGISTERED? -/
def Incoming.unheard : Incoming → Bool
  | .invocation .. | .registered .. => false
  | _ => true

theorem Answer.unheard {i : Incoming} (hi : i.unheard = true) (h : Answer i c d) :
    c.Unheard d := by
  cases h <;> first | exact ⟨rfl, rfl, rfl⟩ | cases hi

theorem handle_unheard (user : UserCode) {i : Incoming} (hi : i.unheard = true)
    (c : Client) : c.Unheard ((i.handle user).run c).2 := by
  cases hr : i.isReply with
  | true =>
      rcases handle_reply user hr c with h | h
      · rw [h]
        exact Client.Unheard.refl c
      · exact h.unheard hi
  | false =>
  cases i with
  | welcome sessionId =>
      have h : Exec.Moves Client.Unheard
          ((Incoming.welcome sessionId).handle user) :=
        .bind (readOk_unheard sessionId) fun _ =>
          .bind (.modify fun _ => ⟨rfl, rfl, rfl⟩) fun _ =>
            .bind .get fun _ => settle_unheard _ _ fun _ _ => rfl
      exact h c
  | goodbye reason =>
      have h : Exec.Moves Client.Unheard ((Incoming.goodbye reason).handle user) :=
        .bind (.modify fun c => c.unheard_left) fun _ =>
          .bind (readOk_unheard reason) fun _ =>
            .bind .get fun _ => settle_unheard _ _ fun _ _ => rfl
      exact h c
  | event s content =>
      cases hv : c.session.subscriptionHandlers.values s with
      | nil => simpa [Incoming.handle, hv] using Client.Unheard.refl c
      | cons h hs =>
          cases content with
          | none => simpa [Incoming.handle, hv] using Client.Unheard.refl c
          | some e =>
              have hmoves := callHandlers_moves (R := Client.Unheard)
                Acts.unheard (fun e _ => Client.unheard_event _ _ e) user e s
                (h :: hs) 0 c (by rw [hv]; exact fun _ hh => hh)
              simpa [Incoming.handle, hv, swallow_state] using hmoves
  | invocation g i details arguments kwArguments => cases hi
  | _ => cases hr

/-- **Only an INVOCATION makes a procedure run**, and only a REGISTERED
installs one. -/
theorem Client.step_unheard (c : Client) {i : Input}
    (hi : ∀ obj user, i = .message obj user →
      (Incoming.read obj).unheard = true) : c.Unheard (c.step i) := by
  by_cases hd : i = .destroy
  · subst hd
    unfold Client.step
    split
    · exact .refl c
    · exact ⟨rfl, rfl, rfl⟩
  cases hm : i.isMessage with
  | false =>
      unfold Client.step
      split
      · exact .refl c
      · exact program_moves (R := Client.Unheard) Acts.unheard
          (fun _ => ⟨rfl, rfl, rfl⟩) (fun _ _ => ⟨rfl, rfl, rfl⟩)
          (fun _ _ => settleHandshake_unheard _ _) hm hd c
  | true =>
      cases i <;> simp only [Input.isMessage, Bool.false_eq_true] at hm
      case message obj user =>
        rw [Client.step_message]
        split
        · exact handle_unheard user (hi obj user rfl) c
        · exact .refl c

/-- **An INVOCATION runs the procedure installed for it**, on the arguments it
brings, and nothing else. -/
theorem Client.step_invocation {c : Client} (ha : c.alive = true) {obj : Object}
    {g i : UInt64} {details arguments kwArguments : Object}
    (hread : Incoming.read obj = .invocation g i details arguments kwArguments)
    {p : WampProcedure} (hp : c.session.procedures.find g = some p)
    (user : UserCode) :
    (c.step (.message obj user)).heard = c.heard ++ [(i, arguments, kwArguments)] ∧
    (c.step (.message obj user)).ran = c.ran ++ [(p, c.heard.length)] ∧
    (c.step (.message obj user)).session.procedures = c.session.procedures := by
  let v : WampInvocation :=
    { requestId := i, details, arguments, kwArguments, sendable := true }
  have hacts := (callProcedure_acts p c.invocations.length (user 0)
    { c with invocations := c.invocations ++ [v] }).unheard
  rw [Client.step_message, if_pos ha, hread, run_invocation user hp]
  refine ⟨?_, ?_, ?_⟩
  · rw [hacts.heard]
    simp [Client.heard, Client.callBack, v, WampInvocation.heard]
  · rw [hacts.ran]
    simp [Client.ran, Client.callBack, Callback.ran?, Client.heard]
  · rw [hacts.procedures]
    rfl

/-- A REGISTERED for an entry of the table installs its procedure. -/
theorem Client.step_registered {c : Client} (ha : c.alive = true) {obj : Object}
    {r g : UInt64} (hread : Incoming.read obj = .registered r g)
    {e : WampRegisterRequest} (he : c.session.registerRequests.find r = some e)
    (user : UserCode) :
    (c.installProcedure g e.procedure).Unheard (c.step (.message obj user)) := by
  rw [Client.step_message, if_pos ha, hread, run_registered user he]
  rcases settleRequest_cases e.response (.ok (.registration g))
    (c.installProcedure g e.procedure) with ⟨-, hrun⟩ | ⟨-, -, hrun⟩ | ⟨-, -, hrun⟩
  · rw [hrun]
    exact ⟨rfl, rfl, rfl⟩
  · rw [hrun]
    exact .refl _
  · rw [hrun]
    exact .refl _

/-- Each invocation is given to one procedure, once, in their order. -/
def Client.Numbered (c : Client) : Prop :=
  c.ran.map Prod.snd = List.range c.heard.length

theorem Client.Numbered.exists_ran (hc : c.Numbered) {h : Nat}
    {v : UInt64 × Object × Object} (hv : c.heard[h]? = some v) :
    ∃ p, (p, h) ∈ c.ran := by
  have hmem : h ∈ c.ran.map Prod.snd := by
    rw [hc, List.mem_range]
    exact (List.getElem?_eq_some_iff.mp hv).1
  obtain ⟨⟨p, h'⟩, hran, rfl⟩ := List.mem_map.mp hmem
  exact ⟨p, hran⟩

theorem Client.Numbered.congr (hc : c.Numbered) (hheard : d.heard = c.heard)
    (hran : d.ran = c.ran) : d.Numbered := by
  rw [Client.Numbered, hran, hheard]
  exact hc

theorem Client.Reachable.numbered (h : c.Reachable) : c.Numbered := by
  apply h.invariant (fun plan => rfl)
  intro c d hmove hc
  cases hmove with
  | quiet h =>
      cases h with
      | act h => exact hc.congr h.unheard.heard h.unheard.ran
      | event hh => exact hc.congr rfl (c.unheard_event _ _).ran
      | invocation hp =>
          have hlen : c.invocations.length = c.heard.length := by
            simp [Client.heard]
          simp only [Client.Numbered, Client.ran, Client.heard, Client.invoke,
            List.filterMap_append, List.map_append, List.length_append]
          rw [show (c.callbacks.filterMap Callback.ran?).map Prod.snd =
            List.range (c.invocations.map WampInvocation.heard).length from hc]
          simp [Callback.ran?, List.range_succ]
      | _ => exact hc.congr rfl rfl
  | answer h => cases h <;> exact hc.congr rfl rfl
  | destroy => exact hc

end Unheard

/-! ## REGISTER leaves its entry behind -/

/-- A provide whose task has run is in the table for good. -/
def Client.Registers (c : Client) : Prop :=
  ∀ (ref : Nat) (q : Request), c.requests[ref]? = some q → q.entered = true →
    q.kind = .register →
    ∃ entry, c.session.entryAt .register q.requestId = some (ref, entry)

section Registers

variable {c d : Client}

theorem Client.Registers.congr (hc : c.Registers)
    (hreq : ∀ {ref : Nat} {q' : Request}, d.requests[ref]? = some q' →
      q'.entered = true → ∃ q, c.requests[ref]? = some q ∧ q.Ages q' ∧
        q.entered = true)
    (hentry : ∀ r, d.session.entryAt .register r = c.session.entryAt .register r) :
    d.Registers := by
  intro ref q' hq' he' hk
  obtain ⟨q, hq, hages, he⟩ := hreq hq' he'
  rw [hages.kind] at hk
  rw [hentry, hages.requestId]
  exact hc ref q hq he hk

theorem Client.Registers.same (hc : c.Registers) (hreq : d.requests = c.requests)
    (hentry : ∀ r, d.session.entryAt .register r = c.session.entryAt .register r) :
    d.Registers :=
  hc.congr (fun hq he => ⟨_, hreq ▸ hq, .refl _, he⟩) hentry

theorem Client.Registers.modify (hc : c.Registers) {ref : Nat}
    {f : Request → Request}
    (hf : ∀ q : Request, q.Ages (f q) ∧ (f q).entered = q.entered)
    (hreq : d.requests = (c.modifyRequest ref f).requests)
    (hentry : ∀ r, d.session.entryAt .register r = c.session.entryAt .register r) :
    d.Registers := by
  refine hc.congr (fun {i q'} hq' he' => ?_) hentry
  rw [hreq, Client.getElem?_modifyRequest] at hq'
  split at hq'
  · obtain ⟨q, hq, rfl⟩ := Option.map_eq_some_iff.mp hq'
    exact ⟨q, hq, (hf q).1, (hf q).2 ▸ he'⟩
  · exact ⟨q', hq', .refl q', he'⟩

theorem Client.Registers.settled (hr : c.Registers) (ref : Nat)
    (r : Except Exn Reply) : (c.settled ref r).Registers :=
  hr.modify (f := fun q =>
      { q with promise := { q.promise with outcome := some r } })
    (fun _ => ⟨⟨rfl, rfl, rfl, rfl⟩, rfl⟩) rfl fun _ => rfl

/-- The task of a provide runs: while ids are fresh its key is free. -/
theorem Client.Registers.enter (hr : c.Registers) (hc : c.Coherent) (hf : c.Fresh)
    {n ref : Nat} {r : UInt64} {entry : Entry} {buffer : Frame}
    (ht : c.tasks[n]? = some (.request ref r entry buffer)) :
    (((c.dequeue n).enter ref r entry).sent buffer).Registers := by
  have hmem := List.mem_of_getElem? ht
  have hfree := Client.Fresh.free hc hf hmem
  obtain ⟨q, hq, hm, hid, -, -, -⟩ := hc.queued hmem
  have hentry : ∀ r', (((c.dequeue n).enter ref r entry).sent
      buffer).session.entryAt .register r' =
      if .register = entry.kind ∧ r' = r ∧ c.session.entryAt .register r = none
      then some (ref, entry) else c.session.entryAt .register r' :=
    fun r' => (WampSession.entryAt_send buffer .register r').trans
      ((c.dequeue n).entryAt_enter ref r r' entry .register)
  intro i q' hq' he' hk
  rw [hentry]
  have hgot : ((c.dequeue n).enter ref r entry).requests[i]? = some q' := hq'
  rw [Client.getElem?_enter] at hgot
  split at hgot
  · next heq =>
    subst heq
    have hq0 : (c.dequeue n).requests[ref]? = some q := hq
    rw [hq0, Option.map_some] at hgot
    obtain rfl := Option.some.inj hgot
    have hkind : entry.kind = .register := hm.kind.symm.trans hk
    rw [hkind] at hfree
    exact ⟨entry, if_pos ⟨hkind.symm, hid, hfree⟩⟩
  · obtain ⟨entry', hold⟩ := hr i q' hgot he' hk
    refine ⟨entry', ?_⟩
    rw [if_neg, hold]
    rintro ⟨-, heq, hnone⟩
    rw [← heq, hold] at hnone
    cases hnone

theorem Client.Registers.act (hr : c.Registers) (hc : c.Coherent) (hf : c.Fresh)
    (h : Act c d) : d.Registers := by
  cases h with
  | @submit op entry buffer h =>
      refine hr.congr (fun {i q'} hq' he' => ?_) fun _ => rfl
      rw [show (c.submit op entry buffer).requests = c.requests ++
        [newRequestOf op entry (c.session.requestId + 1) buffer] from rfl,
        List.getElem?_append] at hq'
      split at hq'
      · exact ⟨q', hq', .refl q', he'⟩
      · obtain rfl := List.mem_singleton.mp (List.mem_of_getElem? hq')
        cases he'
  | abandon h hs =>
      exact hr.modify (fun q => ⟨q.abandon_ages, rfl⟩) rfl fun _ => rfl
  | entered h ha hj => exact hr.enter hc hf h
  | answer hv hs hb =>
      unfold Client.answer
      split <;> exact hr.same rfl fun _ => rfl
  | joined h ha hj => exact hr.same rfl fun r => WampSession.entryAt_send _ _ r
  | left h ha hj hg => exact hr.same rfl fun r => WampSession.entryAt_send _ _ r
  | published h ha hj => exact hr.same rfl fun r => WampSession.entryAt_send _ _ r
  | handed ht ha => exact hr.same rfl fun r => WampSession.entryAt_send _ _ r
  | _ => exact hr.same rfl fun _ => rfl

theorem Client.Registers.move (hr : c.Registers) (hc : c.Coherent) (hf : c.Fresh)
    (h : Move c d) : d.Registers := by
  cases h with
  | quiet h =>
      cases h with
      | act h => exact hr.act hc hf h
      | goodbye =>
          refine hr.same rfl fun r => ?_
          simp only [Client.left, Client.setSession]
          split
          · rfl
          · exact WampSession.entryAt_send _ _ r
      | _ => exact hr.same rfl fun _ => rfl
  | answer h =>
      cases h
      case subscribedTwice => exact hr.same rfl fun _ => rfl
      case registeredTwice => exact hr.same rfl fun _ => rfl
      all_goals exact (hr.settled _ _).same rfl fun _ => rfl
  | destroy =>
      refine hr.congr (fun {i q'} hq' he' => ?_) fun _ => rfl
      rw [Client.getElem?_destroy] at hq'
      obtain ⟨q, hq, rfl⟩ := Option.map_eq_some_iff.mp hq'
      refine ⟨q, hq, ?_, ?_⟩
      · split
        · exact .refl q
        · exact q.abandon_ages
      · split at he' <;> exact he'

theorem Client.Reachable.registers (h : c.Reachable)
    (hlt : c.issued < UInt64.size) : c.Registers := by
  have hinv := h.invariant (I := fun c => c.Coherent ∧
    (c.issued < UInt64.size → c.Fresh ∧ c.Registers)) ?_ ?_
  · exact (hinv.2 hlt).2
  · intro plan
    exact ⟨Client.coherent_new plan, fun _ => ⟨Client.fresh_new plan,
      fun ref q hq => by simp [Client.new] at hq⟩⟩
  · rintro c d hmove ⟨hc, hinv⟩
    refine ⟨hc.move hmove, fun hlt => ?_⟩
    obtain ⟨hf, hr⟩ := hinv (Nat.lt_of_le_of_lt hmove.issued_le hlt)
    exact ⟨hf.move hc hlt hmove, hr.move hc hf hmove⟩

end Registers

end Autobahn
