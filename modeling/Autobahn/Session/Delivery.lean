import Autobahn.Session.Coherence
import Autobahn.Session.Tasks

/-!
# Requests and the frames that carry them

A request is entered in its table first and sent afterwards, in two writes
whose failure `send` swallows. `Honoured` is what one run of its task owes the
caller: the whole frame is written, or the request is out of the table and its
future has failed. `Whole` is what the peer is owed: no write follows one that
was cut short.

`nothingHidden_iff` says which runs give both.
-/

namespace Autobahn

open Foundation MsgPack Relation

/-! ## A stream of whole frames -/

/-- Every write went through. -/
def Intact (ws : List (Frame × WriteResult)) : Prop :=
  ∀ w ∈ ws, w.2 = .complete

instance (ws : List (Frame × WriteResult)) : Decidable (Intact ws) := by
  unfold Intact
  infer_instance

/-- At most the last write was cut short. -/
def Whole (ws : List (Frame × WriteResult)) : Prop :=
  EachEntry (fun pre _ => Intact pre) ws

theorem whole_sending {s : WampSession} {buffer : Frame} :
    Whole (s.out.writes ++ s.sending buffer) ↔
      Whole s.out.writes ∧ (s.stopped = false → Intact s.out.writes) := by
  unfold WampSession.sending
  by_cases hs : s.stopped = true
  · simp [hs]
  · simp [hs, Whole, eachEntry_snoc]

/-! ## What a request's task owes -/

/-- The promise was resolved with an exception. -/
def Request.Failed (q : Request) : Prop :=
  ∃ e, q.promise.outcome = some (.error e)

/-- The task of a request has written the whole frame, or the request is not in
its table and its future has failed. -/
def Task.Honoured (c : Client) (t : Task) : Prop :=
  match t with
  | .request ref r entry buffer =>
      let d := (t.body.run c).2
      d.session.out.writes = c.session.out.writes ++ [(buffer, .complete)] ∨
      (d.session.pending entry.kind r ≠ some ref ∧
        ∃ q, d.requests[ref]? = some q ∧ q.Failed)
  | _ => True

/-- The next `send` would write a whole frame. -/
def WampSession.Writable (s : WampSession) : Prop :=
  s.stopped = false ∧ s.out.plan s.out.writes.length = .complete

/-- The request's frame goes out, unless no session is joined or the id is
taken: these two the code reports. -/
def Task.Carried (c : Client) : Task → Prop
  | .request _ r entry _ =>
      c.session.sessionId = 0 ∨ c.session.pending entry.kind r ≠ none ∨
        c.session.Writable
  | _ => True

/-- What the task sends, if it sends, follows whole frames only. -/
def Task.Follows (c : Client) (t : Task) : Prop :=
  t.sends c.session ≠ none → c.session.stopped = false →
    Intact c.session.out.writes

/-- So does the answer to a GOODBYE. -/
def Client.Answerable (c : Client) : Prop :=
  c.session.goodbyeSent = false → c.session.stopped = false →
    Intact c.session.out.writes

section

variable {c d : Client}

theorem Task.whole_body (t : Task) (c : Client) :
    Whole (t.body.run c).2.session.out.writes ↔
      Whole c.session.out.writes ∧ t.Follows c := by
  rw [t.writes_body, Follows]
  cases t.sends c.session with
  | none => simp
  | some buffer => simp [whole_sending]

theorem whole_left :
    Whole c.left.session.out.writes ↔
      Whole c.session.out.writes ∧ c.Answerable := by
  rw [Client.left_writes, Client.Answerable]
  cases c.session.goodbyeSent <;> simp [whole_sending]

theorem whole_rule :
    TaskRule Client.Coherent (fun c => Whole c.session.out.writes)
      Task.Follows Client.Answerable where
  keep h hc := hc.quiet h
  around h _ := by rw [h.out]
  task _ _ _ := Task.whole_body _ _
  goodbye _ := whole_left
  answer h _ := by rw [h.out]
  destroy _ := Iff.rfl

/-- A request out of a queue is neither in its table nor resolved. -/
theorem Client.Coherent.not_pending (hc : c.Coherent) {ref : Nat} {r : UInt64}
    {entry : Entry} {buffer : Frame}
    (ht : .request ref r entry buffer ∈ c.tasks) (k : RequestKind) (r' : UInt64) :
    c.session.pending k r' ≠ some ref := by
  intro h
  rw [WampSession.pending_eq, Option.map_eq_some_iff] at h
  obtain ⟨⟨ref', entry'⟩, hat, rfl⟩ := h
  obtain ⟨q, hq, -, -, -, hentered, -⟩ := hc.queued ht
  obtain ⟨q', hq', -, -, hentered'⟩ := hc.entries hat
  rw [hq] at hq'
  obtain rfl := Option.some.inj hq'
  exact absurd hentered' (by simp [hentered])

theorem Request.failed_abandon {q : Request} (hq : ¬ q.promise.resolved) :
    q.abandon.Failed := by
  refine ⟨.brokenPromise, ?_⟩
  rw [abandon, Promise.abandon_of_not_resolved hq]

theorem Client.pending_enter (c : Client) (ref : Nat) (r : UInt64)
    (entry : Entry) :
    (c.enter ref r entry).session.pending entry.kind r =
      some ((c.session.pending entry.kind r).getD ref) := by
  rw [WampSession.pending_eq, WampSession.pending_eq, Client.entryAt_enter]
  cases c.session.entryAt entry.kind r <;> simp

/-! ## A task keeps its promise exactly when its frame is carried -/

/-- **One request, one outcome**: its task honours it exactly if the frame
goes out, or there is no session, or the id is taken. -/
theorem Task.honoured_iff (hc : c.Coherent) {n : Nat} {t : Task}
    (ht : c.tasks[n]? = some t) :
    t.Honoured (c.dequeue n) ↔ t.Carried (c.dequeue n) := by
  cases t with
  | request ref r entry buffer =>
      have hmem := List.mem_of_getElem? ht
      obtain ⟨q, hq, -, -, -, -, hp⟩ := hc.queued hmem
      have hout := hc.not_pending hmem entry.kind r
      by_cases hj : c.session.sessionId = 0
      · have hrun : (((Task.request ref r entry buffer).body).run
            (c.dequeue n)).2 =
            (c.dequeue n).modifyRequest ref Request.abandon := by
          simp [Task.body, Exec.run_bind, Client.dequeue, hj, abandonRequest]
        refine iff_of_true (.inr ?_) (.inl hj)
        rw [hrun]
        refine ⟨hout, q.abandon, ?_, Request.failed_abandon hp⟩
        simp [Client.getElem?_modifyRequest, Client.dequeue, hq]
      have hrun : (((Task.request ref r entry buffer).body).run
          (c.dequeue n)).2 =
          ((c.dequeue n).enter ref r entry).sent buffer := by
        simp [Task.body, Exec.run_bind, Client.dequeue, hj, send, Client.sent]
      have hwrites : (((c.dequeue n).enter ref r entry).sent
          buffer).session.out.writes =
          c.session.out.writes ++ c.session.sending buffer := by
        rw [Client.sent, Client.setSession, WampSession.writes_send]
        simp [Client.enter, WampSession.sending, Client.dequeue]
      have hpending : (((c.dequeue n).enter ref r entry).sent
          buffer).session.pending entry.kind r =
          some ((c.session.pending entry.kind r).getD ref) := by
        simp [Client.sent, Client.setSession, Client.pending_enter,
          Client.dequeue]
      simp only [Honoured, Carried, hrun, hwrites, hpending]
      cases htaken : c.session.pending entry.kind r with
      | some ref' =>
          -- the id is taken: the new request is dropped, and its future fails
          refine iff_of_true (.inr ⟨?_, ?_⟩) (.inr (.inl ?_))
          · rw [htaken] at hout
            exact hout
          · refine ⟨{ q with
              entered := true
              promise := q.promise.abandon .brokenPromise }, ?_,
              Request.failed_abandon hp⟩
            simp [Client.sent, Client.setSession, Client.getElem?_enter,
              Client.dequeue, hq, htaken]
          · simp [Client.dequeue, htaken]
      | none =>
          have hsending : c.session.sending buffer = [(buffer, .complete)] ↔
              c.session.Writable := by
            unfold WampSession.sending WampSession.Writable
            cases c.session.stopped <;> simp
          simp [Client.dequeue, hj, htaken, hsending]
  | _ => exact iff_of_true trivial trivial

/-- The tasks of an input leave a queue, in states reached on the way. -/
theorem Course.start {l : List Start} (h : Course c l d) :
    ∀ s ∈ l, ∃ e n, Quiets c e ∧ e.tasks[n]? = some s.2 ∧ s.1 = e.dequeue n := by
  induction h with
  | refl => simp
  | around _ _ ih => exact ih
  | task h ht _ ih =>
      intro s hs
      rcases List.mem_append.mp hs with hs | hs
      · exact ih s hs
      · obtain rfl := List.mem_singleton.mp hs
        exact ⟨_, _, h.quiets, ht, rfl⟩

theorem Client.Coherent.quiets (hc : c.Coherent) (h : Quiets c d) :
    d.Coherent := by
  induction h with
  | refl => exact hc
  | tail _ h ih => exact ih.quiet h

/-- Every task of the input honours its request. -/
def Client.Honours (c : Client) (i : Input) : Prop :=
  ∀ s ∈ i.ran c, s.2.Honoured s.1

theorem Client.Coherent.honours_iff (hc : c.Coherent) (i : Input) :
    c.Honours i ↔ ∀ s ∈ i.ran c, s.2.Carried s.1 := by
  have hstart : ∀ s ∈ i.ran c, s.2.Honoured s.1 ↔ s.2.Carried s.1 := by
    rcases c.step_course i with ⟨h, -⟩ | ⟨-, -, hran, -⟩ | ⟨-, hran, -⟩ | ⟨rfl, -⟩
    · intro s hs
      obtain ⟨e, n, hq, ht, he⟩ := h.start s hs
      rw [he]
      exact Task.honoured_iff (hc.quiets hq) ht
    · simp [hran]
    · simp [hran]
    · simp [Input.ran]
  exact forall₂_congr hstart

/-- A task that is carried and follows whole frames only. -/
def Task.Delivers (c : Client) (t : Task) : Prop :=
  t.Follows c ∧ t.Carried c

/-- A run in which no failed send is hidden, neither from a caller nor from the
peer. -/
def Client.NothingHidden (c : Client) (is : List Input) : Prop :=
  Machine.EachStep Client.step Client.Honours c is ∧
    Machine.Everywhere Client.step (fun c => Whole c.session.out.writes) c is

/-- **A failed send is not hidden**, on the runs in which no request's frame is
skipped or cut short and nothing is sent after a frame that was, and on no
others. -/
theorem Client.nothingHidden_iff (plan : Nat → WriteResult) (is : List Input) :
    (Client.new plan).NothingHidden is ↔
      Machine.EachStep Client.step (Input.Meets Task.Delivers Client.Answerable)
        (Client.new plan) is := by
  refine Machine.eachStep_and_everywhere_iff eachEntry_nil
    fun pre i _ hpre => ?_
  have hI := (Client.reachable_runs plan pre).coherent
  rw [Machine.run_snoc, whole_rule.step hI i, hI.honours_iff i]
  constructor
  · rintro ⟨hcarried, -, hfollows, hgoodbye⟩
    exact ⟨fun s hs => ⟨hfollows s hs, hcarried s hs⟩, hgoodbye⟩
  · rintro ⟨h, hgoodbye⟩
    exact ⟨fun s hs => (h s hs).2, hpre, fun s hs => (h s hs).1, hgoodbye⟩

end

/-- The CALL is cut short after one octet of its body. It stays in its table,
its caller waits, and the next CALL is written behind it. -/
theorem not_nothingHidden :
    ¬ (Client.new fun n => if n = 1 then .bodyCut 1 else .complete).NothingHidden
      [.operate (.join (octets "realm1")), .task 0,
        .message (MessageType.WELCOME.object [.positiveInteger 7]) fun _ => {},
        .operate (.call (octets "com.add") .none), .task 0,
        .operate (.call (octets "com.add") .none), .task 0] := by
  rintro ⟨-, h⟩
  have hcut : Intact [(helloFrame (octets "realm1"), .complete),
      ([.arrayHeader 4, MessageType.CALL.token, idToken 1, .mapHeader 0,
        .str (octets "com.add")], .bodyCut 1)] :=
    h _ (List.prefix_refl _) _
      ([.arrayHeader 4, MessageType.CALL.token, idToken 2, .mapHeader 0,
        .str (octets "com.add")], .complete) ⟨[], rfl⟩
  have := hcut _ (List.mem_cons_of_mem _ List.mem_cons_self)
  cases this

end Autobahn
