import Autobahn.Session.Stages

/-!
# A client that connects, starts and joins

`wamp_tcp_client::launch` connects a socket and hangs three stages one behind
the other: the connect handler starts the session, a continuation of the start
future joins it, and a continuation of the join future reports the client
connected. `WampTcpClient.step` runs one of them, or anything that the session
itself can do in between, and `WampTcpClient.Sound` is what holds in every run.

Neither continuation looks at the future it gets, so behind the connect handler a
launch fails no more (`WampTcpClient.not_canFail`).
-/

namespace Autobahn

open Foundation MsgPack Relation

/-! ## The client -/

/-- What `launch` waits for: the socket, the start future, the join future, or
nothing any more. -/
inductive LaunchStage : Type where
  | connect
  | start
  | join
  | done
deriving DecidableEq

/-- How `async_connect` ends: with an error, or connected, and then the write of
the handshake in `start` goes through or throws. -/
abbrev ConnectResult : Type := Except Nat Bool

/-- `wamp_tcp_client`, launched. `session` is `m_pSession` with the reads on
`m_pSocket`; `connectResult`, `joinResult` and `onConnects` are history: how the
connect and the call of `join` ended, and how often `m_onConnect` was emitted.
`m_onDisconnect` was emitted for each of `session.client.rxErrors`. -/
structure WampTcpClient (σ : Type) where
  realm : Octets
  session : Connection σ
  isConnected : Bool
  connected : Promise Exn Bool := {}
  stage : LaunchStage := .connect
  connectResult : Option ConnectResult := none
  joinResult : Option (Except Abort Unit) := none
  onConnects : Nat := 0

/-- The two constructors. The second leaves `m_isConnected` as the memory
happens to be. -/
inductive TcpConstructor : Type where
  | endpoint
  | address (memory : Bool)

def TcpConstructor.isConnected : TcpConstructor → Bool
  | .endpoint => false
  | .address memory => memory

namespace WampTcpClient

variable {σ : Type}

abbrev TcpM (σ : Type) : Type → Type := Exec (WampTcpClient σ) Exn

/-- A new session on the socket, not yet started. -/
def init (u : Unpacker σ) (plan : Nat → WriteResult) : Connection σ :=
  { Connection.start u plan with reads := [] }

def new (u : Unpacker σ) (plan : Nat → WriteResult) (constructor : TcpConstructor)
    (realm : Octets) : WampTcpClient σ where
  realm := realm
  session := init u plan
  isConnected := constructor.isConnected

/-- `m_connected.set_value(value)` -/
def setConnected (value : Bool) : TcpM σ Unit := do
  match (← get).connected.settle (.ok value) with
  | none => throw .promiseAlreadySatisfied
  | some p => modify fun c => { c with connected := p }

/-! ### The handlers of `launch` -/

def connectHandler (result : ConnectResult) : TcpM σ Unit := do
  modify fun c => { c with stage := .done, connectResult := some result }
  match result with
  | .ok written =>
      -- `start` writes the handshake, and reads the reply only after that
      if written then
        modify fun c => { c with
          session := c.session.post .gotHandshakeReply, stage := .start }
  | .error _ =>
      modify fun c => { c with isConnected := true }
      setConnected false

/-- The continuation of the start future. `io` says on which thread it runs; what
it throws stays in `m_startFuture`. -/
def startHandler (io : Bool) : TcpM σ Unit := do
  modify fun c => { c with stage := .done }
  let c ← get
  let (result, client) := (Autobahn.join io c.realm).run c.session.client
  set { c with session := c.session.setClient client, joinResult := some result }
  match result with
  | .ok _ => modify fun c => { c with stage := .join }
  | .error _ => pure ()

/-- The continuation of the join future. -/
def joinHandler : TcpM σ Unit := do
  modify fun c => { c with stage := .done }
  modify fun c => { c with isConnected := true }
  setConnected true
  modify fun c => { c with onConnects := c.onConnects + 1 }

/-! ### Runs -/

/-- `started` and `joined` run a continuation, on whatever thread and however
long after its future was resolved. -/
inductive LaunchInput : Type where
  | connected (result : ConnectResult)
  | started (io : Bool)
  | joined
  | session (e : ConnectionInput)

/-- Until it has joined, the client itself needs the session. -/
def holds (c : WampTcpClient σ) : ConnectionInput → Bool
  | .client .destroy => c.stage = .connect ∨ c.stage = .start
  | _ => false

def step (u : Unpacker σ) (c : WampTcpClient σ) : LaunchInput → WampTcpClient σ
  | .connected result =>
      if c.stage = .connect then ((connectHandler result).run c).2 else c
  | .started io =>
      if c.stage = .start ∧ c.session.client.session.handshake.resolved then
        ((startHandler io).run c).2 else c
  | .joined =>
      if c.stage = .join ∧ c.session.client.session.sessionJoin.resolved then
        (joinHandler.run c).2 else c
  | .session e =>
      if c.holds e then c else { c with session := c.session.step u e }

end WampTcpClient

namespace WampTcpClient

variable {σ : Type} {u : Unpacker σ} {c : WampTcpClient σ}

/-! ## Running the handlers -/

theorem not_holds {e : ConnectionInput} (hd : e ≠ .client .destroy) :
    ¬ c.holds e = true := by
  cases e with
  | client i =>
      cases i with
      | destroy => exact absurd rfl hd
      | _ => simp [holds]
  | complete => simp [holds]

section Handlers

attribute [local simp] Exec.run_bind

theorem state_connectHandler_ok (c : WampTcpClient σ) :
    ((connectHandler (.ok true)).run c).2 =
      { c with
        session := c.session.post .gotHandshakeReply
        stage := .start
        connectResult := some (.ok true) } := by
  simp [connectHandler]

theorem state_connectHandler_throws (c : WampTcpClient σ) :
    ((connectHandler (.ok false)).run c).2 =
      { c with stage := .done, connectResult := some (.ok false) } := by
  simp [connectHandler]

theorem state_connectHandler_error (h : ¬ c.connected.resolved) (e : Nat) :
    ((connectHandler (.error e)).run c).2 =
      { c with
        stage := .done
        connectResult := some (.error e)
        isConnected := true
        connected := { c.connected with outcome := some (.ok false) } } := by
  have hsettle : c.connected.settle (.ok false) =
      some { c.connected with outcome := some (.ok false) } :=
    Promise.settle_eq_some.mpr ⟨h, rfl⟩
  simp [connectHandler, setConnected, hsettle]

theorem state_startHandler (io : Bool) (c : WampTcpClient σ) :
    ∃ stage, (stage = .join ∨ stage = .done) ∧
      ((startHandler io).run c).2 =
        { c with
          stage
          session := c.session.setClient
            ((Autobahn.join io c.realm).run c.session.client).2
          joinResult := some ((Autobahn.join io c.realm).run c.session.client).1 } := by
  rcases hr : (Autobahn.join io c.realm).run c.session.client with ⟨a | _, d⟩
  · exact ⟨.done, .inr rfl, by simp [startHandler, hr]⟩
  · exact ⟨.join, .inl rfl, by simp [startHandler, hr]⟩

theorem state_joinHandler (h : ¬ c.connected.resolved) :
    (joinHandler.run c).2 =
      { c with
        stage := .done
        isConnected := true
        connected := { c.connected with outcome := some (.ok true) }
        onConnects := c.onConnects + 1 } := by
  have hsettle : c.connected.settle (.ok true) =
      some { c.connected with outcome := some (.ok true) } :=
    Promise.settle_eq_some.mpr ⟨h, rfl⟩
  simp [joinHandler, setConnected, hsettle]

end Handlers

/-! ## What holds in every run -/

def handshake (c : WampTcpClient σ) : Promise Exn Bool :=
  c.session.client.session.handshake

def sessionJoin (c : WampTcpClient σ) : Promise Exn UInt64 :=
  c.session.client.session.sessionJoin

/-- The session's join future has resolved with a session id. -/
def Joined (c : WampTcpClient σ) : Prop :=
  ∃ id, c.sessionJoin.outcome = some (.ok id)

/-- The session before its start: no stage can have come out of it. -/
structure Idle (conn : Connection σ) : Prop where
  reachable : conn.client.Reachable
  reads : conn.reads = []
  notJoined : ∀ id, conn.client.session.sessionJoin.outcome ≠ some (.ok id)
  unanswered : ∀ b, conn.client.session.handshake.outcome ≠ some (.ok b)

/-- The session before the connect handler has run. -/
structure Fresh (conn : Connection σ) : Prop where
  alive : conn.client.alive = true
  handshake : ¬ conn.client.session.handshake.resolved
  join : ¬ conn.client.session.sessionJoin.resolved
  rxErrors : conn.client.rxErrors = []

/-- What holds in every state of a run. -/
structure Sound (c : WampTcpClient σ) : Prop where
  fresh : c.stage = .connect → Fresh c.session ∧ c.connectResult = none ∧
    c.onConnects = 0
  alive : c.stage = .start → c.session.client.alive = true
  ended : c.stage ≠ .connect → c.connectResult ≠ none
  pending : c.stage ≠ .done → ¬ c.connected.resolved
  wired : c.connectResult = some (.ok true) → c.session.Wired
  idle : c.connectResult ≠ some (.ok true) → Idle c.session
  running : c.stage = .start ∨ c.stage = .join →
    c.connectResult = some (.ok true)
  uncalled : c.stage = .connect ∨ c.stage = .start → c.joinResult = none
  started : c.stage = .join ∨ c.stage = .done →
    c.connectResult = some (.ok true) → c.handshake.resolved
  refused : c.connected.outcome = some (.ok false) →
    c.isConnected = true ∧ c.connectResult ≠ some (.ok true)

theorem sound_new (u : Unpacker σ) (plan : Nat → WriteResult)
    (constructor : TcpConstructor) (realm : Octets) :
    (new u plan constructor realm).Sound where
  fresh _ :=
    ⟨⟨rfl, Promise.not_resolved_new, Promise.not_resolved_new, rfl⟩, rfl, rfl⟩
  alive h := nomatch h
  ended h := absurd rfl h
  pending _ := Promise.not_resolved_new
  wired h := nomatch h
  idle _ := ⟨Client.reachable_runs plan [], rfl, nofun, nofun⟩
  running h := by rcases h with h | h <;> cases h
  uncalled _ := rfl
  started h := by rcases h with h | h <;> cases h
  refused h := nomatch h

/-! ### One step -/

section Steps

variable {conn : Connection σ}

/-- No value comes into either promise: programs settle none of them, and the end of
the session only breaks them. -/
theorem Idle.setClient (h : Idle conn) {i : Input} (hi : conn.allows i = true) :
    Idle (conn.setClient (conn.client.step i)) where
  reachable := h.reachable.step i
  reads := h.reads
  notJoined := by
    intro id hid
    by_cases hd : i = .destroy
    · subst hd
      have hid : (conn.client.step .destroy).session.sessionJoin.outcome =
          some (.ok id) := hid
      rw [Client.step_destroy] at hid
      split at hid
      · exact h.notJoined id (Promise.outcome_abandon hid)
      · exact h.notJoined id hid
    · have hjoin := (Connection.acts_of_allows hi hd).calms.continues.join
      exact h.notJoined id (hjoin.symm.trans hid)
  unanswered := by
    intro b hb
    by_cases hd : i = .destroy
    · subst hd
      have hb : (conn.client.step .destroy).session.handshake.outcome =
          some (.ok b) := hb
      rw [Client.step_destroy] at hb
      split at hb
      · exact h.unanswered b (Promise.outcome_abandon hb)
      · exact h.unanswered b hb
    · have hsame := (Connection.acts_of_allows hi hd).handshake
      exact h.unanswered b ((congrArg Promise.outcome hsame).symm.trans hb)

theorem Idle.step (h : Idle conn) (e : ConnectionInput) : Idle (conn.step u e) := by
  cases e with
  | client i =>
      rw [Connection.step]
      split
      · next hi => exact h.setClient hi
      · exact h
  | complete n result users =>
      rw [Connection.step_complete_none (by simp [h.reads])]
      exact h

theorem Fresh.step (hi : Idle conn) (h : Fresh conn) {e : ConnectionInput}
    (hd : e ≠ .client .destroy) : Fresh (conn.step u e) := by
  cases e with
  | client i =>
      rw [Connection.step]
      split
      · next hallows =>
        have hacts := Connection.acts_of_allows hallows fun h => hd (by rw [h])
        exact
          { alive := hacts.untroubled.alive.trans h.alive
            handshake := by
              show ¬ (conn.client.step i).session.handshake.resolved
              rw [hacts.handshake]
              exact h.handshake
            join := by
              show ¬ (conn.client.step i).session.sessionJoin.resolved
              rw [Promise.resolved_congr hacts.calms.continues.join]
              exact h.join
            rxErrors := hacts.rxErrors.trans h.rxErrors }
      · exact h
  | complete n result users =>
      rw [Connection.step_complete_none (by simp [hi.reads])]
      exact h

/-- Joining in a continuation is something a user could do. -/
theorem exists_join_step (ha : conn.client.alive = true) (io : Bool)
    (realm : Octets) : ∃ i, conn.allows i = true ∧ i ≠ .destroy ∧
      ((Autobahn.join io realm).run conn.client).2 = conn.client.step i := by
  cases io with
  | false =>
      refine ⟨.operate (.join realm), rfl, by simp, ?_⟩
      simp [Client.step, Input.needsSession, ha, Input.program, operate]
  | true =>
      refine ⟨.userCode { actions := [.invoke (.join realm)] }, rfl, by simp, ?_⟩
      rcases hr : (Autobahn.join true realm).run conn.client with ⟨a | _, d⟩ <;>
        simp [Client.step, Input.needsSession, ha, Input.program, Script.run,
          runActions, Action.run, operate, Ending.run, Exec.run_tryCatch, hr]

end Steps

/-- A session step of the client that is not the end of the session. -/
theorem Sound.session (h : c.Sound) (u : Unpacker σ) {e : ConnectionInput}
    (hd : e = .client .destroy → c.stage = .join ∨ c.stage = .done) :
    ({ c with session := c.session.step u e } : WampTcpClient σ).Sound where
  fresh hs := by
    obtain ⟨hf, hresult, hcount⟩ := h.fresh hs
    refine ⟨hf.step (h.idle (by simp [hresult])) ?_, hresult, hcount⟩
    intro he
    rcases hd he with hs' | hs' <;> rw [hs] at hs' <;> cases hs'
  alive hs := by
    have he : e ≠ .client .destroy := by
      intro he
      rcases hd he with hs' | hs' <;> rw [hs] at hs' <;> cases hs'
    exact ((h.wired (h.running (.inl hs))).step_alive u he).trans (h.alive hs)
  ended := h.ended
  pending := h.pending
  wired hr := ((h.wired hr).step u e).1
  idle hr := (h.idle hr).step e
  running := h.running
  uncalled := h.uncalled
  started hs hr := (h.wired hr).step_resolved u e (h.started hs hr)
  refused := h.refused

/-- The connect handler leaves a session that has been started, and waits for its
handshake, or one that never will be. -/
theorem Sound.connected (h : c.Sound) (hs : c.stage = .connect)
    (result : ConnectResult) : ((connectHandler result).run c).2.Sound := by
  obtain ⟨hf, hresult, -⟩ := h.fresh hs
  have hidle := h.idle (by simp [hresult])
  have hp := h.pending (by simp [hs])
  have hrefused : c.connected.outcome ≠ some (.ok false) := fun ho =>
    hp (Promise.resolved_of_outcome ho)
  rcases result with e | written
  · rw [state_connectHandler_error hp]
    exact
      { fresh := by simp
        alive := by simp
        ended := by simp
        pending := fun h => absurd rfl h
        wired := by simp
        idle := fun _ => hidle
        running := by simp
        uncalled := by simp
        started := by simp
        refused := by simp }
  cases written with
  | false =>
      rw [state_connectHandler_throws]
      exact
        { fresh := by simp
          alive := by simp
          ended := by simp
          pending := fun h => absurd rfl h
          wired := by simp
          idle := fun _ => hidle
          running := by simp
          uncalled := by simp
          started := by simp
          refused := fun ho => absurd ho hrefused }
  | true =>
      -- the handshake read is the one read of a session that was idle
      have hwired : (c.session.post .gotHandshakeReply).Wired :=
        { reachable := hidle.reachable
          atMostOne := by simp [Connection.post, hidle.reads]
          alive := fun _ => hf.alive
          handshake := by simp [Connection.post, hidle.reads, hf.handshake]
          accepted := by simp [Connection.post, hidle.reads] }
      rw [state_connectHandler_ok]
      exact
        { fresh := by simp
          alive := fun _ => hf.alive
          ended := by simp
          pending := fun _ => hp
          wired := fun _ => hwired
          idle := fun hr => absurd rfl hr
          running := fun _ => rfl
          uncalled := fun _ => h.uncalled (.inl hs)
          started := by simp
          refused := fun ho => absurd ho hrefused }

/-- Joining keeps the session as any other operation does. -/
theorem Sound.startJoin (h : c.Sound) (u : Unpacker σ) (hs : c.stage = .start)
    (hr : c.handshake.resolved) (io : Bool) :
    ((startHandler io).run c).2.Sound := by
  obtain ⟨stage, hstage, hstate⟩ := state_startHandler io c
  obtain ⟨i, hallows, hd, hjoin⟩ := exists_join_step (h.alive hs) io c.realm
  have hsession : c.session.setClient
      ((Autobahn.join io c.realm).run c.session.client).2 =
      c.session.step u (.client i) := by
    rw [Connection.step, if_pos hallows, hjoin]
  have hnext := h.session u (e := .client i) fun he =>
    absurd (ConnectionInput.client.inj he) hd
  have hresult := h.running (.inl hs)
  rw [hstate, hsession]
  exact
    { fresh := by rcases hstage with rfl | rfl <;> simp
      alive := by rcases hstage with rfl | rfl <;> simp
      ended := fun _ => h.ended (by simp [hs])
      pending := fun _ => h.pending (by simp [hs])
      wired := hnext.wired
      idle := hnext.idle
      running := fun _ => hresult
      uncalled := by rcases hstage with rfl | rfl <;> simp
      started := fun _ _ => (h.wired hresult).step_resolved u _ hr
      refused := hnext.refused }

theorem Sound.reported (h : c.Sound) (hs : c.stage = .join) :
    (joinHandler.run c).2.Sound := by
  rw [state_joinHandler (h.pending (by simp [hs]))]
  exact
    { fresh := by simp
      alive := by simp
      ended := fun _ => h.ended (by simp [hs])
      pending := fun h => absurd rfl h
      wired := h.wired
      idle := h.idle
      running := by simp
      uncalled := by simp
      started := fun _ => h.started (.inl hs)
      refused := by simp }

theorem Sound.step (h : c.Sound) (u : Unpacker σ) (i : LaunchInput) :
    (c.step u i).Sound := by
  cases i with
  | connected result =>
      rw [WampTcpClient.step]
      split
      · next hs => exact h.connected hs result
      · exact h
  | started io =>
      rw [WampTcpClient.step]
      split
      · next hs => exact h.startJoin u hs.1 hs.2 io
      · exact h
  | joined =>
      rw [WampTcpClient.step]
      split
      · next hs => exact h.reported hs.1
      · exact h
  | session e =>
      rw [WampTcpClient.step]
      split
      · exact h
      · next hholds =>
        -- the client gives the session up only behind its start
        apply h.session u
        rintro rfl
        cases hs : c.stage <;> simp [holds, hs] at hholds ⊢

theorem sound_run (u : Unpacker σ) (plan : Nat → WriteResult)
    (constructor : TcpConstructor) (realm : Octets) (is : List LaunchInput) :
    (Machine.run (step u) (new u plan constructor realm) is).Sound :=
  Machine.Reachable.invariant ⟨is, rfl⟩ (sound_new u plan constructor realm)
    fun _ i h => h.step u i

/-! ## Whether a launch can still fail -/

/-- In some continuation of the run the future of `launch` gets `false`. -/
def CanFail (u : Unpacker σ) (c : WampTcpClient σ) : Prop :=
  ∃ is, (Machine.run (step u) c is).connected.outcome = some (.ok false)

/-- Only the connect handler resolves the future to `false`. -/
theorem step_outcome (h : c.Sound) (hs : c.stage ≠ .connect)
    (ho : c.connected.outcome ≠ some (.ok false)) (i : LaunchInput) :
    (c.step u i).stage ≠ .connect ∧
      (c.step u i).connected.outcome ≠ some (.ok false) := by
  cases i with
  | connected result => simpa [step, hs] using ho
  | started io =>
      rw [step]
      split
      · obtain ⟨stage, hstage, hstate⟩ := state_startHandler io c
        rw [hstate]
        exact ⟨by rcases hstage with rfl | rfl <;> simp, ho⟩
      · exact ⟨hs, ho⟩
  | joined =>
      rw [step]
      split
      · next hj =>
        rw [state_joinHandler (h.pending (by simp [hj.1]))]
        exact ⟨by simp, by simp⟩
      · exact ⟨hs, ho⟩
  | session e =>
      rw [step]
      split
      · exact ⟨hs, ho⟩
      · exact ⟨hs, ho⟩

/-- **Behind the connect handler a launch fails no more**, whatever becomes of
its stages. -/
theorem not_canFail (h : c.Sound) (hs : c.stage ≠ .connect)
    (ho : c.connected.outcome ≠ some (.ok false)) : ¬ CanFail u c := by
  rintro ⟨is, hfail⟩
  have hinv : (Machine.run (step u) c is).Sound ∧
      (Machine.run (step u) c is).stage ≠ .connect ∧
      (Machine.run (step u) c is).connected.outcome ≠ some (.ok false) :=
    Machine.Reachable.invariant
      (I := fun c : WampTcpClient σ => c.Sound ∧ c.stage ≠ .connect ∧
        c.connected.outcome ≠ some (.ok false)) ⟨is, rfl⟩ ⟨h, hs, ho⟩
      fun _ i hi => ⟨hi.1.step u i, step_outcome hi.1 hi.2.1 hi.2.2 i⟩
  exact hinv.2.2 hfail

end WampTcpClient

end Autobahn
