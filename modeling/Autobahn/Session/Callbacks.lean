import Autobahn.Session.Halves
import Autobahn.Session.ReceiveLoop

/-!
# Callbacks cannot disturb the tables

While a handler runs its read is taken and no other one is outstanding (`Busy`),
so a callback that polls the `io_service` completes no read, and does what its
script does (`Code.run_noRead`). Tasks and operations do not touch the tables,
so each callback returns to the tables it was called with
(`IoService.callbacks_undisturbed`).

With nested reads struck out a step of the `io_service` thread is a run of
`Connection` (`IoService.Idle.step_reachable`).
-/

namespace Autobahn

open Foundation MsgPack Conversion

section

variable {σ : Type} {u : Unpacker σ}

/-! ## Programs of the session on the io_service thread -/

@[simp] theorem run_onSession {α : Type} (p : ClientM α) (s : IoService σ) :
    (onSession p).run s = ((p.run s.client).1.mapError .session,
      s.setConn (s.conn.setClient (p.run s.client).2)) := rfl

theorem onClient_bind {α β : Type} (p : ClientM α) (f : α → ClientM β) :
    (onClient (p >>= f) : ConnectionM σ β) =
      onClient p >>= fun a => onClient (f a) := by
  funext conn
  show Exec.run (onClient (p >>= f)) conn =
    Exec.run (onClient p >>= fun a => onClient (f a)) conn
  rw [run_onClient, Exec.run_bind, Exec.run_bind, run_onClient]
  rcases hp : p.run conn.client with ⟨e | a, c⟩ <;>
    simp [Except.mapError, Connection.setClient]

namespace IoService

/-! ## The invariants -/

/-- Every callback so far is on record, and none of them was disturbed. -/
structure Sound (s : IoService σ) : Prop where
  recorded : s.calls.map CallbackRun.callback = s.client.callbacks
  undisturbed : ∀ r ∈ s.calls, r.Undisturbed

/-- A handler is running: its read is taken and no other one is outstanding. -/
structure Busy (s : IoService σ) : Prop extends Sound s where
  noRead : s.conn.reads = []
  started : s.started = true
  alive : s.client.alive = true

/-- No handler is running. -/
structure Idle (s : IoService σ) : Prop extends Sound s where
  atMostOne : s.conn.reads.length ≤ 1
  unstarted : s.started = false → s.conn.reads = []
  owned : s.conn.reads ≠ [] → s.client.alive = true

/-- A handler of a session that exists has ended. -/
structure Done (s : IoService σ) : Prop extends Idle s where
  alive : s.client.alive = true

variable {s : IoService σ}

theorem Sound.withConn (h : s.Sound) {conn : Connection σ}
    (hc : conn.client.callbacks = s.client.callbacks) : (s.setConn conn).Sound :=
  ⟨h.recorded.trans hc.symm, h.undisturbed⟩

/-- The handler goes on without user code. -/
theorem Busy.withConn (h : s.Busy) {conn : Connection σ}
    (hc : s.client.Uncalled conn.client) (hr : conn.reads = []) :
    (s.setConn conn).Busy where
  toSound := h.toSound.withConn hc.callbacks
  noRead := hr
  started := h.started
  alive := hc.alive.trans h.alive

/-- It ends, with the next read posted or none. -/
theorem Busy.ends (h : s.Busy) {conn : Connection σ}
    (hc : s.client.Uncalled conn.client) (hr : conn.reads.length ≤ 1) :
    (s.setConn conn).Done where
  toSound := h.toSound.withConn hc.callbacks
  atMostOne := hr
  unstarted := fun hs => absurd (h.started.symm.trans hs) (by simp)
  owned := fun _ => hc.alive.trans h.alive
  alive := hc.alive.trans h.alive

theorem Busy.setClient (h : s.Busy) {d : Client} (hd : s.client.Uncalled d) :
    (s.setConn (s.conn.setClient d)).Busy :=
  h.withConn hd h.noRead

theorem Busy.done (h : s.Busy) : s.Done :=
  h.ends (.refl s.client) (by simp [h.noRead])

/-- Between two handlers. -/
theorem Idle.setClient (h : s.Idle) {d : Client} (hd : s.client.Uncalled d) :
    (s.setConn (s.conn.setClient d)).Idle where
  toSound := h.toSound.withConn hd.callbacks
  atMostOne := h.atMostOne
  unstarted := h.unstarted
  owned := fun hr => hd.alive.trans (h.owned hr)

/-- The one read that is outstanding is taken. -/
theorem Idle.take (h : s.Idle) {n : Nat} {r : Read} (hr : s.conn.reads[n]? = some r) :
    (s.setConn { s.conn with reads := s.conn.reads.eraseIdx n }).Busy where
  recorded := h.recorded
  undisturbed := h.undisturbed
  noRead := by
    have hlen := h.atMostOne
    obtain ⟨hn, -⟩ := List.getElem?_eq_some_iff.mp hr
    have herase := List.length_eraseIdx_of_lt hn
    exact List.eq_nil_of_length_eq_zero (herase.trans (by omega))
  started := by
    cases hs : s.started with
    | true => exact hs
    | false => simp [h.unstarted hs] at hr
  alive := h.owned fun hnil => by simp [hnil] at hr

/-! ## User code inside a callback -/

/-- A poll for a read that is not there does nothing. -/
theorem run_complete_none {n : Nat} (h : s.conn.reads[n]? = none)
    (result : ReadResult) (users : Nat → Nat → IoM σ Unit) :
    (complete u n result users).run s = (.ok (), s) := by
  simp [complete, Exec.run_bind, h]

end IoService

theorem Script.run_act (a : Action) (s : Script) :
    ({ s with actions := a :: s.actions } : Script).run =
      (do tryCatch (a.run true) (fun _ => pure ()); s.run) := by
  simp only [Script.run, runActions, bind_assoc]

/-- **While no read is outstanding, user code does what its script does.** -/
theorem Code.run_noRead (c : Code) {s : IoService σ} (h : s.conn.reads = []) :
    (c.run u).run s = (onSession c.script.run).run s := by
  induction c generalizing s with
  | ends ending => simp [Code.run, Code.script, Script.run, runActions]
  | act a rest ih =>
      rw [Code.run, Code.script, Script.run_act, run_onSession,
        Exec.run_attempt_bind, Exec.run_attempt_bind]
      exact ih (s := s.setConn (s.conn.setClient ((a.run true).run s.client).2)) h
  | read n result users rest _ ih =>
      have hnone : s.conn.reads[n]? = none := by simp [h]
      rw [Code.run, Exec.run_attempt_bind, IoService.run_complete_none hnone]
      exact ih h

namespace IoService

variable {s : IoService σ}

theorem tables_setClient {d : Client} (h : Acts s.client d) :
    (s.setConn (s.conn.setClient d)).tables = s.tables := by
  obtain ⟨hhandlers, hprocedures, -⟩ := h.routing
  exact congrArg₂ (Tables.mk s.entered) hhandlers hprocedures

/-- A callback does what its script does, and returns to the tables it was called
with. -/
theorem callUser_run (h : s.conn.reads = []) (cb : Callback) (itr : Iterator)
    (c : Code) :
    (callUser cb itr (c.run u)).run s =
      ((c.script.run.run (s.client.callBack cb)).1.mapError .session,
        (s.setConn (s.conn.setClient
          (c.script.run.run (s.client.callBack cb)).2)).record
          { callback := cb, itr, called := s.tables, returned := s.tables }) := by
  have hrun := Code.run_noRead (u := u) c (s := s.callBack cb) h
  rw [run_onSession] at hrun
  have htables := tables_setClient (s := s.callBack cb)
    (script_acts c.script (s.callBack cb).client)
  show (((c.run u).run (s.callBack cb)).1, IoService.record _ _) = _
  rw [hrun]
  exact congrArg (fun t => (_, IoService.record _ ⟨cb, itr, s.tables, t⟩)) htables

/-- It goes on record as undisturbed. -/
theorem Busy.record (hs : s.Busy) {cb : Callback} {itr : Iterator} {key : UInt64}
    (he : s.tables.entry itr = some (key, cb.function)) {d : Client}
    (hd : Acts (s.client.callBack cb) d) :
    ((s.setConn (s.conn.setClient d)).record
      { callback := cb, itr, called := s.tables, returned := s.tables }).Busy where
  recorded := by
    show (s.calls ++ [_]).map CallbackRun.callback = d.callbacks
    rw [List.map_append, hs.recorded, hd.routing.2.2.1]
    rfl
  undisturbed := by
    intro r hr
    rcases List.mem_append.mp hr with hr | hr
    · exact hs.undisturbed r hr
    · obtain rfl := List.mem_singleton.mp hr
      exact ⟨rfl, rfl, rfl, key, he, he⟩
  noRead := hs.noRead
  started := hs.started
  alive := hd.routing.2.2.2.trans hs.alive

/-! ## Events -/

/-- A handler is running, and `m` is the table it walks. -/
def Walks (m : Multimap UInt64 WampEventHandler) (s : IoService σ) : Prop :=
  s.Busy ∧ s.client.session.subscriptionHandlers = m

theorem callHandler_refines (c : Code) {handler : WampEventHandler}
    (event : WampEvent) {m : Multimap UInt64 WampEventHandler} {itr : Nat}
    {key : UInt64} (he : m.entries[itr]? = some (key, handler)) :
    Exec.Refines IoService.conn (Walks (σ := σ) m) (Walks m)
      (callUser (.event handler event) (.subscriptionHandlers itr) (c.run u))
      (onClient (callHandler handler event c.script)) := by
  rintro s ⟨hs, hm⟩
  have hentry : s.tables.entry (.subscriptionHandlers itr) =
      some (key, .inl handler) := by
    simp [Tables.entry, tables, hm, he]
  have hacts := script_acts c.script (s.client.callBack (.event handler event))
  rw [callUser_run hs.noRead]
  exact ⟨rfl, hs.record hentry hacts, hacts.routing.1.trans hm⟩

/-- The loop calls what the table held when it was entered. -/
theorem callHandlers_refines (users : Nat → Code) (event : WampEvent)
    (m : Multimap UInt64 WampEventHandler) (n : Nat) :
    ∀ k itr, itr + n ≤ m.finish →
      Exec.Refines IoService.conn (Walks (σ := σ) m) (Walks m)
        (callHandlers (fun k => (users k).run u) event k itr n)
        (onClient (Autobahn.callHandlers (fun k => (users k).script) event k
          (m.between itr (itr + n)))) := by
  induction n with
  | zero =>
      intro k itr _
      rw [Nat.add_zero, m.between_self itr]
      exact .pure ()
  | succ n ih =>
      intro k itr hle s hs
      have hlt : itr < m.entries.length := by
        unfold Multimap.finish at hle
        omega
      obtain ⟨⟨key, handler⟩, he⟩ : ∃ e, m.entries[itr]? = some e :=
        ⟨_, List.getElem?_eq_getElem hlt⟩
      have hcons : m.between itr (itr + (n + 1)) =
          handler :: m.between (itr + 1) (itr + 1 + n) := by
        rw [show itr + 1 + n = itr + (n + 1) by omega]
        exact m.between_cons he (by omega)
      rw [callHandlers, Exec.run_bind_ok (Exec.run_get s), hs.2, he, hcons,
        Autobahn.callHandlers, onClient_bind]
      exact (callHandler_refines (users k) event he).bind
        (fun _ => ih (k + 1) (itr + 1) (by omega)) (fun _ h => h) s hs

theorem swallow_refines {pre post : IoService σ → Prop} {p : IoM σ Unit}
    {q : ClientM Unit} (h : Exec.Refines IoService.conn pre post p (onClient q)) :
    Exec.Refines IoService.conn pre post (swallow p)
      (onClient (Autobahn.swallow q)) := by
  intro s hs
  obtain ⟨hq, hpost⟩ := h s hs
  rcases hp : p.run s with ⟨r, t⟩
  rw [hp] at hq hpost
  obtain ⟨rfl, hconn⟩ := Prod.mk.inj hq
  rw [run_onClient, swallow, Autobahn.swallow, Exec.run_tryCatch,
    Exec.run_tryCatch, hp]
  -- what `q` throws is what `p` throws, so both sides swallow the same
  rcases hr : q.run s.conn.client with ⟨(e | _) | v, d⟩ <;> rw [hr] at hconn
  · exact ⟨Prod.ext rfl hconn, hpost⟩
  · exact ⟨Prod.ext rfl hconn, hpost⟩
  · exact ⟨Prod.ext rfl hconn, hpost⟩

/-- A handler whose first part is `p`, and its rest. -/
theorem refines_of_begins {α : Type}
    {K : α → Client → (UserCode → Except Abort Unit × Client) → Prop}
    {p : ClientM α} {q : UserCode → ClientM Unit} {post : IoService σ → Prop}
    (hb : Exec.Begins K p q s.client) (hfail : post s) (user : UserCode)
    {rest : α → IoM σ Unit}
    (hrest : ∀ a d, K a d (fun user => (q user).run s.client) →
      ∃ q' : ClientM Unit, (q user).run s.client = q'.run d ∧
        Exec.Refines IoService.conn (· = s.setConn (s.conn.setClient d)) post
          (rest a) (onClient q')) :
    Exec.Refines IoService.conn (· = s) post (onSession p >>= rest)
      (onClient (q user)) := by
  intro t ht
  rw [ht]
  have hq : (onClient (q user)).run s.conn =
      (((q user).run s.client).1.mapError .session,
        s.conn.setClient ((q user).run s.client).2) := rfl
  rw [Exec.run_bind, run_onSession, hq]
  rcases hb with ⟨e, hp, hstop⟩ | ⟨a, d, hp, hK⟩
  · rw [hp, hstop user]
    exact ⟨rfl, hfail⟩
  · obtain ⟨q', hq', h⟩ := hrest a d hK
    rw [hp, hq']
    exact h _ rfl

theorem processEvent_refines (users : Nat → Code) (message : WampMessage) :
    Exec.Refines IoService.conn (Busy (σ := σ)) Busy
      (processEvent (fun k => (users k).run u) message)
      (onClient (Autobahn.processEvent (fun k => (users k).script) message)) := by
  intro s hs
  refine refines_of_begins (eventOf_begins message s.client) hs _ ?_ s rfl
  rintro (_ | ⟨event, itr, n⟩) d ⟨rfl, hgo⟩
  · exact ⟨pure (), hgo _, Exec.Refines.pure () |>.pre_of fun _ h => h ▸ hs⟩
  · obtain ⟨hle, hgo⟩ := hgo
    have hwalk := callHandlers_refines (u := u) users event
      s.client.session.subscriptionHandlers n 0 itr hle
    refine ⟨_, hgo _, (swallow_refines hwalk).pre_of ?_ |>.post_of fun _ h => h.1⟩
    rintro _ rfl
    exact ⟨hs, rfl⟩

/-! ## Invocations -/

theorem replyError_refines (h : Nat) (attempt : ReplyAttempt) :
    Exec.Refines IoService.conn (Busy (σ := σ)) Busy
      (onSession (replyError h attempt)) (onClient (replyError h attempt)) :=
  fun _ hs => ⟨rfl, hs.setClient (replyError_acts h attempt _).uncalled⟩

theorem callProcedure_refines (hs : s.Busy) (c : Code) {procedure : WampProcedure}
    {registrationId : UInt64} (h : Nat)
    (hp : s.client.session.procedures.find registrationId = some procedure) :
    Exec.Refines IoService.conn (· = s) Busy
      (callProcedure procedure registrationId h (c.run u))
      (onClient (Autobahn.callProcedure procedure h c.script)) := by
  intro t ht
  rw [ht]
  have hentry : s.tables.entry (.procedures registrationId) =
      some (registrationId, (Callback.invocation procedure h).function) := by
    simp [Tables.entry, tables, hp, Callback.function]
  have hacts := c.script.after_acts (s.client.callBack (.invocation procedure h))
  have hbusy := hs.record hentry hacts
  have hq : (onClient (Autobahn.callProcedure procedure h c.script)).run s.conn =
      (((Autobahn.callProcedure procedure h c.script).run s.client).1.mapError
        .session, s.conn.setClient
        ((Autobahn.callProcedure procedure h c.script).run s.client).2) := rfl
  rw [hq, run_callProcedure, callProcedure, Exec.run_tryCatch,
    callUser_run hs.noRead, run_script]
  cases c.script.ending with
  | returns => exact ⟨rfl, hbusy⟩
  | throwsStd what => exact replyError_refines h (whatError what) _ hbusy
  | throwsOther => exact replyError_refines h bareError _ hbusy

theorem processInvocation_refines (users : Nat → Code) (message : WampMessage) :
    Exec.Refines IoService.conn (Busy (σ := σ)) Busy
      (processInvocation (fun k => (users k).run u) message)
      (onClient (Autobahn.processInvocation (fun k => (users k).script)
        message)) := by
  intro s hs
  refine refines_of_begins (invocationOf_begins message s.client) hs _ ?_ s rfl
  rintro ⟨registrationId, h⟩ d ⟨hcalled, procedure, hp, hgo⟩
  refine ⟨_, hgo _, ?_⟩
  rintro t rfl
  have hp' : (s.setConn (s.conn.setClient d)).client.session.procedures.find
    registrationId = some procedure := hp
  dsimp only
  rw [Exec.run_bind_ok (Exec.run_get _), hp']
  exact callProcedure_refines (hs.setClient hcalled) (users 0) h hp' _ rfl

/-! ## Messages -/

theorem Busy.enter (h : s.Busy) : Busy { s with entered := s.entered + 1 } :=
  ⟨⟨h.recorded, h.undisturbed⟩, h.noRead, h.started, h.alive⟩

theorem gotMessage_refines (users : Nat → Code) (obj : Object) :
    Exec.Refines IoService.conn (Busy (σ := σ)) Busy
      (gotMessage (fun k => (users k).run u) obj)
      (onClient (Autobahn.gotMessage (fun k => (users k).script) obj)) := by
  refine .modify_bind (fun _ => rfl) (fun _ hs => hs.enter) ?_
  intro s hs
  refine refines_of_begins (codeOf_begins obj s.client) hs _ ?_ s rfl
  rintro ⟨code, message⟩ d ⟨rfl, hgo⟩
  have hother : (∀ user, (Autobahn.gotMessage user obj).run s.client =
      (Autobahn.gotMessage (fun _ => {}) obj).run s.client) ∧
      s.client.Uncalled
        ((Autobahn.gotMessage (fun _ => {}) obj).run s.client).2 →
      ∃ q' : ClientM Unit, (Autobahn.gotMessage (fun k => (users k).script)
        obj).run s.client = q'.run s.client ∧
        Exec.Refines IoService.conn (· = s) Busy
          (onSession (Autobahn.gotMessage (fun _ => {}) obj)) (onClient q') := by
    rintro ⟨hsame, hcalled⟩
    refine ⟨_, hsame _, fun t ht => ?_⟩
    rw [ht]
    exact ⟨rfl, hs.setClient hcalled⟩
  cases code with
  | none => exact hother hgo
  | some t =>
  cases t
  case EVENT =>
    exact ⟨_, hgo _, (processEvent_refines users message).pre_of fun t ht => ht ▸ hs⟩
  case INVOCATION =>
    exact ⟨_, hgo _,
      (processInvocation_refines users message).pre_of fun t ht => ht ▸ hs⟩
  all_goals exact hother hgo

/-! ## Handlers -/

theorem code_refines (c : Code) :
    Exec.Refines IoService.conn (Busy (σ := σ)) Busy (c.run u)
      (onClient c.script.run) := by
  intro s hs
  rw [Code.run_noRead c hs.noRead]
  exact ⟨rfl, hs.setClient (script_acts c.script _).uncalled⟩

theorem handleRxError_eq (user : UserCode) (error : ReadError) :
    Autobahn.handleRxError user error = (do
      Autobahn.handleRxError (fun _ => {}) error
      if error ≠ .operationAborted then (user 0).run) := by
  by_cases he : error = .operationAborted
  · simp [Autobahn.handleRxError, he]
  · simp [Autobahn.handleRxError, he, Script.run, runActions, Ending.run]

theorem handleRxError_uncalled (user : UserCode) (error : ReadError) :
    Exec.Moves Client.Uncalled (Autobahn.handleRxError user error) :=
  handleRxError_moves Acts.uncalled (fun _ => ⟨rfl, rfl⟩) (fun _ _ => ⟨rfl, rfl⟩)
    user error

theorem handleRxError_refines (users : Nat → Code) (error : ReadError) :
    Exec.Refines IoService.conn (Busy (σ := σ)) Busy
      (handleRxError ((users 0).run u) error)
      (onClient (Autobahn.handleRxError (fun k => (users k).script) error)) := by
  rw [handleRxError_eq, onClient_bind]
  refine .bind (fun s hs => ⟨rfl, hs.setClient (handleRxError_uncalled _ error _)⟩)
    (fun _ => ?_) fun _ h => h
  by_cases he : error = .operationAborted
  · simp only [he, ne_eq, not_true, if_false]
    exact fun _ hs => ⟨rfl, hs⟩
  · simp only [he, ne_eq, not_false_eq_true, if_true]
    exact code_refines (users 0)

theorem setUnpacker_refines (x : σ) :
    Exec.Refines IoService.conn (Busy (σ := σ)) Busy
      (onConnection (modify fun conn => conn.setUnpacker x))
      (modify fun conn => conn.setUnpacker x) :=
  fun s hs => ⟨rfl, hs.withConn (.refl s.client) hs.noRead⟩

theorem receiveMessage_refines :
    Exec.Refines IoService.conn (Busy (σ := σ)) Done (onConnection receiveMessage)
      receiveMessage :=
  fun s hs => ⟨rfl, hs.ends (.refl s.client) (by
    simp [receiveMessage, asyncRead, Connection.post, hs.noRead])⟩

theorem gotMessages_refines (users : Nat → Nat → Code) (k : Nat) (x : σ) :
    Exec.Refines IoService.conn (Busy (σ := σ)) Busy
      (gotMessages u (fun k j => (users k j).run u) k x)
      (Connection.gotMessages u (fun k j => (users k j).script) k x) := by
  induction hn : u.left x using Nat.strong_induction_on generalizing k x with
  | _ n ih =>
  cases h : u.next x with
  | throws =>
      rw [gotMessages_throws h, Connection.gotMessages_throws h]
      exact .throw _
  | noMore y =>
      rw [gotMessages_noMore h, Connection.gotMessages_noMore h]
      exact setUnpacker_refines y
  | object obj y =>
      rw [gotMessages_object h, Connection.gotMessages_object h]
      have hrest := ih (u.left y) (hn ▸ u.left_lt h) (k + 1) y rfl
      exact .bind (setUnpacker_refines y) (fun _ =>
        .bind (gotMessage_refines (users k) obj) (fun _ => hrest) fun _ h => h)
        fun _ h => h

theorem gotMessageBody_refines (users : Nat → Nat → Code) (result : ReadResult) :
    Exec.Refines IoService.conn (Busy (σ := σ)) Done
      (gotMessageBody u (fun k j => (users k j).run u) result)
      (Connection.gotMessageBody u (fun k j => (users k j).script) result) := by
  cases result with
  | error error =>
      exact (handleRxError_refines (users 0) error).post_of fun _ h => h.done
  | ok data =>
      refine .get_bind fun s _ => .bind (setUnpacker_refines _) (fun _ =>
        .bind (gotMessages_refines users 0 _) (fun _ => ?_) fun _ h => h.done)
        fun _ h => h.done
      exact .get_bind fun t _ => .ite (fun _ => receiveMessage_refines) fun _ =>
        (Exec.Refines.pure ()).post_of fun _ h => h.done

theorem gotMessageHeader_refines (users : Nat → Code) (result : ReadResult) :
    Exec.Refines IoService.conn (Busy (σ := σ)) Done
      (gotMessageHeader u ((users 0).run u) result)
      (Connection.gotMessageHeader u (fun k => (users k).script) result) := by
  cases result with
  | error error =>
      exact (handleRxError_refines users error).post_of fun _ h => h.done
  | ok data =>
      refine fun s hs => ⟨rfl, ?_⟩
      cases hreserve : u.reserveBuffer s.conn.unpacker (Connection.ntohl data) with
      | none =>
          refine hs.ends ?_ ?_ <;>
            simp [Connection.gotMessageHeader, Exec.run_bind, hreserve, hs.noRead,
              client, Client.Uncalled.refl]
      | some x =>
          refine hs.ends ?_ ?_ <;>
            simp [Connection.gotMessageHeader, Exec.run_bind, hreserve, asyncRead,
              Connection.setUnpacker, Connection.post, hs.noRead, client,
              Client.Uncalled.refl]

theorem gotHandshakeReply_refines (result : ReadResult) :
    Exec.Refines IoService.conn (Busy (σ := σ)) Done
      (onConnection (Connection.gotHandshakeReply result))
      (Connection.gotHandshakeReply result) := by
  intro s hs
  have hcalled : s.client.Uncalled ((Autobahn.gotHandshakeReply
      (result.map fun data => (data 0, data 1, data 2, data 3))).run
        s.conn.client).2 :=
    gotHandshakeReply_moves (fun _ c => settle_uncalled _ _ _ c) _ _
  rcases hr : (Autobahn.gotHandshakeReply
    (result.map fun data => (data 0, data 1, data 2, data 3))).run s.conn.client
    with ⟨e | started, d⟩
  · rw [hr] at hcalled
    refine ⟨rfl, hs.ends ?_ ?_⟩ <;>
      simp [Connection.gotHandshakeReply, Exec.run_bind, hr, Except.mapError,
        Connection.setClient, hs.noRead, hcalled]
  · rw [hr] at hcalled
    cases started <;> refine ⟨rfl, hs.ends ?_ ?_⟩ <;>
      simp [Connection.gotHandshakeReply, Exec.run_bind, hr, Except.mapError,
        Connection.setClient, receiveMessage, asyncRead, Connection.post,
        hs.noRead, hcalled]

theorem handler_refines (users : Nat → Nat → Code) (result : ReadResult) (r : Read) :
    Exec.Refines IoService.conn (Busy (σ := σ)) Done
      (handler u result (fun k j => (users k j).run u) r)
      (Connection.handler u result (fun k j => (users k j).script) r) := by
  cases r with
  | gotHandshakeReply => exact gotHandshakeReply_refines result
  | gotMessageHeader => exact gotMessageHeader_refines (users 0) result
  | gotMessageBody => exact gotMessageBody_refines users result

/-! ## Between the handlers -/

/-- **A completed read** leaves no callback disturbed, and the connection as if
user code had only run tasks. -/
theorem complete_step (hs : s.Idle) (n : Nat) (result : ReadResult)
    (users : Nat → Nat → Code) :
    let t := ((complete u n result fun k j => (users k j).run u).run s).2
    t.conn = s.conn.step u (.complete n result fun k j => (users k j).script) ∧
    t.Idle ∧ (s.client.alive = true → t.Done) := by
  cases hread : s.conn.reads[n]? with
  | none =>
      rw [run_complete_none hread, Connection.step_complete_none hread]
      exact ⟨rfl, hs, fun ha => ⟨hs, ha⟩⟩
  | some r =>
      have hrun : (complete u n result fun k j => (users k j).run u).run s =
          (handler u result (fun k j => (users k j).run u) r).run
            (s.setConn { s.conn with reads := s.conn.reads.eraseIdx n }) := by
        rw [complete, Exec.run_bind_ok (Exec.run_get s), hread]
        rfl
      obtain ⟨hconn, hdone⟩ := handler_refines (u := u) users result r _
        (hs.take hread)
      rw [hrun, Connection.step_complete_some hread]
      exact ⟨(congrArg Prod.snd hconn).symm, hdone.toIdle, fun _ => hdone⟩

/-- An action of user code is an input of the connection. -/
theorem act_step (ha : s.client.alive = true) (a : Action) :
    s.conn.step u (.client (.userCode { actions := [a] })) =
      s.conn.setClient ((a.run true).run s.client).2 := by
  have hrun : (Script.run { actions := [a] }).run s.client =
      (.ok (), ((a.run true).run s.client).2) := by
    rw [Script.run_act a {}, Exec.run_attempt_bind]
    rfl
  have hstep : s.client.step (.userCode { actions := [a] }) =
      ((a.run true).run s.client).2 := by
    rw [Client.step, if_neg (by simp [ha]), Input.program, hrun]
  exact congrArg s.conn.setClient hstep

/-- User code outside of any callback, by induction on what it does. -/
theorem code_done (c : Code) (hs : s.Done) :
    ((c.run u).run s).2.Done ∧
    Machine.Reachable (Connection.step u) s.conn ((c.run u).run s).2.conn := by
  induction c generalizing s with
  | ends ending =>
      have hrun : ((Code.run u (.ends ending)).run s).2 = s := by
        cases ending <;> rfl
      rw [hrun]
      exact ⟨hs, .refl s.conn⟩
  | act a rest ih =>
      have hcalled := (action_acts true a s.client).uncalled
      have hdone : (s.setConn
          (s.conn.setClient ((a.run true).run s.client).2)).Done :=
        ⟨hs.toIdle.setClient hcalled, hcalled.alive.trans hs.alive⟩
      rw [Code.run, Exec.run_attempt_bind, run_onSession]
      have hfirst : Machine.Reachable (Connection.step u) s.conn
          (s.conn.step u (.client (.userCode { actions := [a] }))) :=
        .single s.conn _
      rw [act_step hs.alive] at hfirst
      exact ⟨(ih hdone).1, hfirst.trans (ih hdone).2⟩
  | read n result users rest _ ih =>
      obtain ⟨hconn, -, hdone⟩ := complete_step (u := u) hs.toIdle n result users
      have hfirst : Machine.Reachable (Connection.step u) s.conn
          (s.conn.step u (.complete n result fun k j => (users k j).script)) :=
        .single s.conn _
      rw [← hconn] at hfirst
      rw [Code.run, Exec.run_attempt_bind]
      exact ⟨(ih (hdone hs.alive)).1, hfirst.trans (ih (hdone hs.alive)).2⟩

/-! ## Runs -/

theorem idle_new (u : Unpacker σ) (plan : Nat → WriteResult) : (new u plan).Idle where
  recorded := rfl
  undisturbed := by simp [new]
  atMostOne := Nat.zero_le 1
  unstarted := fun _ => rfl
  owned := fun h => absurd rfl h

/-- What runs between two completions calls no handler and no procedure. -/
theorem Idle.client (hs : s.Idle) {i : Input} (hi : s.conn.allows i = true) :
    (s.setConn (s.conn.setClient (s.client.step i))).Idle := by
  by_cases hd : i = .destroy
  · subst hd
    have hnil : s.conn.reads = [] := List.isEmpty_iff.mp hi
    refine ⟨hs.toSound.withConn ?_, hs.atMostOne, hs.unstarted,
      fun hr => absurd hnil hr⟩
    show (s.client.step .destroy).callbacks = s.client.callbacks
    rw [Client.step_destroy]
    split <;> rfl
  · exact hs.setClient (Connection.acts_of_allows hi hd).uncalled

theorem Idle.step (hs : s.Idle) (i : IoInput) : (s.step u i).Idle := by
  cases i with
  | start written =>
      rw [IoService.step]
      split
      · next h =>
        have hnil := hs.unstarted (by simpa using h.2)
        refine ⟨⟨?_, hs.undisturbed⟩, ?_, ?_, fun _ => ?_⟩
        · cases written <;> exact hs.recorded
        · cases written <;> simp [Connection.post, hnil]
        · exact fun h => absurd h (by simp)
        · cases written <;> exact h.1
      · exact hs
  | client i =>
      rw [IoService.step, Connection.step]
      split
      · next hi => exact hs.client hi
      · exact hs
  | code c =>
      rw [IoService.step]
      split
      · next ha => exact (code_done c ⟨hs, ha⟩).1.toIdle
      · exact hs
  | complete n result users => exact (complete_step hs n result users).2.1

theorem idle_runs (u : Unpacker σ) (plan : Nat → WriteResult) (is : List IoInput) :
    ((new u plan).runs u is).Idle :=
  Machine.Reachable.invariant ⟨is, rfl⟩ (idle_new u plan) fun _ i h => h.step i

/-- **User callbacks cannot disturb the tables.** In every run with one
`io_service` thread and one `start`, every callback is on record once it has
returned; `got_message` was not re-entered before that, both tables are what
they were when it was called, and the iterator it was called through denotes the
same entry. -/
theorem callbacks_undisturbed (u : Unpacker σ) (plan : Nat → WriteResult)
    (is : List IoInput) :
    let s := (new u plan).runs u is
    s.calls.map CallbackRun.callback = s.client.callbacks ∧
    ∀ r ∈ s.calls, r.Undisturbed :=
  ⟨(idle_runs u plan is).recorded, (idle_runs u plan is).undisturbed⟩

/-- A handler that subscribes, polls for a read and throws: it is called for the
third message and returns before a fourth. -/
example :
    let data (l : Octets) : ReadResult := .ok (Connection.octetsAt l)
    let returns : Nat → Nat → Code := fun _ _ => .ends .returns
    ((new octetUnpacker fun _ => .complete).runs octetUnpacker
      [.start true, .complete 0 (data [0x7F, 0xF2, 0, 0]) returns,
        -- [WELCOME, 7, {}]
        .complete 0 (data [0, 0, 0, 4]) returns,
        .complete 0 (data [0x93, 0x02, 0x07, 0x80]) returns,
        .code (.act (.invoke (.subscribe [] ⟨0⟩)) (.ends .returns)),
        -- [SUBSCRIBED, 1, 5] and [EVENT, 5, 8, {}]
        .complete 0 (data [0, 0, 0, 9]) returns,
        .complete 0
          (data [0x93, 0x21, 0x01, 0x05, 0x94, 0x24, 0x05, 0x08, 0x80])
          fun _ _ => .act (.invoke (.subscribe [] ⟨1⟩))
            (.read 0 (data [0x91, 0x03]) returns (.ends .throwsOther))]).calls.map
      (fun r => (r.called.entered, r.returned.entered)) = [(3, 3)] := by
  decide +kernel

/-- Were a read outstanding, a poll would re-enter `got_message`. -/
example :
    let s : IoService Octets :=
      { conn :=
          { client := Client.new fun _ => .complete
            unpacker := octetUnpacker.init
            messageLength := 2
            reads := [.gotMessageBody] } }
    let code : Code := .read 0 (.ok (Connection.octetsAt [0x91, 0x03]))
      (fun _ _ => .ends .returns) (.ends .returns)
    ((callUser (.event ⟨0⟩ {}) (.subscriptionHandlers 0)
      (code.run octetUnpacker)).run s).2.calls.map
        (fun r => (r.called.entered, r.returned.entered)) = [(0, 1)] := by
  decide +kernel

/-- **Nested reads can be struck out.** After `start` a step is a run of `Connection`,
whose user code does not complete reads. -/
theorem Idle.step_reachable (hs : s.Idle) {i : IoInput}
    (hi : ∀ written, i ≠ .start written) :
    Machine.Reachable (Connection.step u) s.conn (s.step u i).conn := by
  cases i with
  | start written => exact absurd rfl (hi written)
  | client i => exact .single s.conn (ConnectionInput.client i)
  | code c =>
      rw [IoService.step]
      split
      · next ha => exact (code_done c ⟨hs, ha⟩).2
      · exact .refl s.conn
  | complete n result users =>
      rw [IoService.step, (complete_step hs n result users).1]
      exact .single s.conn _

end IoService

end

end Autobahn
