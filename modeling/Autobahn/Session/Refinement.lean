import Autobahn.Session.Callbacks
import Autobahn.Session.TcpClient

/-!
# Three levels of a session

`Client` is the session, one message after the other; `Connection` adds the reads
and the octets; `IoService` adds user code that completes reads inside a callback,
and `WampTcpClient` the stages of a launch. The upper levels add no behaviour:
every run of one of them is a run of the level below. So what holds in every
state a session can reach holds under octets, nested reads and a launch as well
(`IoService.refines_session`, `WampTcpClient.launch_refines_session`).
-/

namespace Autobahn

open Foundation MsgPack

/-! ## From octets to messages -/

namespace Connection

variable {σ : Type} {u : Unpacker σ} {conn conn' : Connection σ}

/-- An outstanding read owns the session. -/
def Owned (conn : Connection σ) : Prop :=
  conn.reads ≠ [] → conn.client.alive = true

/-- What happens to a session that exists is a run of its own, and it still
exists. -/
def Follows (conn conn' : Connection σ) : Prop :=
  conn.client.alive = true →
    Machine.Reachable Client.step conn.client conn'.client ∧
      conn'.client.alive = true

instance : Std.Refl (Follows (σ := σ)) := ⟨fun conn ha => ⟨.refl conn.client, ha⟩⟩

instance : IsTrans (Connection σ) Follows where
  trans _ _ _ h h' ha := ⟨(h ha).1.trans (h' (h ha).2).1, (h' (h ha).2).2⟩

/-- A part of a handler that does to the client what an input does. -/
theorem follows_input {α : Type} {p : ClientM α} {i : Input} (hi : i ≠ .destroy)
    (hp : ∀ c, ((i.program).run c).2 = (p.run c).2) :
    Exec.Moves Follows (onClient (σ := σ) p) := by
  intro conn ha
  show Machine.Reachable Client.step conn.client (p.run conn.client).2 ∧
    (p.run conn.client).2.alive = true
  have hstep : conn.client.step i = (p.run conn.client).2 := by
    rw [Client.step, if_neg (by simp [ha]), hp]
  rw [← hstep]
  exact ⟨.single conn.client i, (conn.client.step_alive hi).trans ha⟩

theorem follows_modify {f : Connection σ → Connection σ}
    (hf : ∀ conn, (f conn).client = conn.client) :
    Exec.Moves Follows (modify f : ConnectionM σ PUnit) := by
  refine .modify fun conn ha => ?_
  rw [hf]
  exact ⟨.refl conn.client, ha⟩

theorem gotMessages_follows (users : Nat → UserCode) (k : Nat) (s : σ) :
    Exec.Moves Follows (gotMessages u users k s) := by
  induction hn : u.left s using Nat.strong_induction_on generalizing k s with
  | _ n ih =>
  cases hnext : u.next s with
  | throws =>
      rw [gotMessages_throws hnext]
      exact .throw _
  | noMore t =>
      rw [gotMessages_noMore hnext]
      exact follows_modify fun _ => rfl
  | object obj t =>
      rw [gotMessages_object hnext]
      have hgot : Exec.Moves Follows (onClient (σ := σ) (gotMessage (users k) obj)) :=
        follows_input (i := .message obj (users k)) (by simp) fun _ => rfl
      have hrest := ih (u.left t) (hn ▸ u.left_lt hnext) (k + 1) t rfl
      exact .bind (follows_modify fun _ => rfl) fun _ => .bind hgot fun _ => hrest

theorem rxError_follows (user : UserCode) (error : ReadError) :
    Exec.Moves Follows (onClient (σ := σ) (handleRxError user error)) :=
  follows_input (i := .rxError error user) (by simp) fun _ => rfl

theorem asyncRead_follows (r : Read) : Exec.Moves Follows (asyncRead (σ := σ) r) :=
  follows_modify fun _ => rfl

theorem handler_follows (result : ReadResult) (users : Nat → UserCode) (r : Read) :
    Exec.Moves Follows (handler u result users r) := by
  cases r with
  | gotHandshakeReply =>
      refine .bind (follows_input (i := .handshake (result.map fun data =>
        (data 0, data 1, data 2, data 3))) (by simp) fun c => ?_) fun started => ?_
      · rw [Input.program, Exec.run_bind]
        split
        · next h => rw [h]; rfl
        · next h => rw [h]
      · exact .ite (fun _ => asyncRead_follows _) fun _ => .pure ()
  | gotMessageHeader =>
      cases result with
      | error error => exact rxError_follows (users 0) error
      | ok data =>
          refine .bind (follows_modify fun _ => rfl) fun _ => .bind .get fun conn => ?_
          split
          · exact .throw _
          · exact .bind (follows_modify fun _ => rfl) fun _ => asyncRead_follows _
  | gotMessageBody =>
      cases result with
      | error error => exact rxError_follows (users 0) error
      | ok data =>
          refine .bind .get fun conn => .bind (follows_modify fun _ => rfl) fun _ =>
            .bind (gotMessages_follows users 0 _) fun _ => .bind .get fun conn => ?_
          exact .ite (fun _ => asyncRead_follows _) fun _ => .pure ()

theorem Owned.step_follows (h : conn.Owned) (e : ConnectionInput) :
    (conn.step u e).Owned ∧
      Machine.Reachable Client.step conn.client (conn.step u e).client := by
  cases e with
  | client i =>
      rw [step]
      split
      · next hi =>
        refine ⟨fun hr => ?_, .single conn.client i⟩
        have hd : i ≠ .destroy := by
          rintro rfl
          exact hr (List.isEmpty_iff.mp hi)
        exact (conn.client.step_alive hd).trans (h hr)
      · exact ⟨h, .refl conn.client⟩
  | complete n result users =>
      cases hread : conn.reads[n]? with
      | none =>
          rw [step_complete_none hread]
          exact ⟨h, .refl conn.client⟩
      | some r =>
          have ha : conn.client.alive = true := by
            refine h fun hnil => ?_
            rw [hnil] at hread
            cases hread
          rw [step_complete_some hread]
          obtain ⟨hruns, halive⟩ := handler_follows (u := u) result users r
            { conn with reads := conn.reads.eraseIdx n } ha
          exact ⟨fun _ => halive, hruns⟩

/-- **Reads and octets add nothing to the session.** -/
theorem Owned.client (h : conn.Owned) (hr : Machine.Reachable (step u) conn conn') :
    Machine.Reachable Client.step conn.client conn'.client :=
  hr.simulated h (fun _ e ho => (ho.step_follows e).1)
    fun _ e ho => (ho.step_follows e).2

/-! ### Before the first read -/

/-- What is done before a read is posted could have been done after. -/
theorem posted_step (hreads : conn.reads = []) (e : ConnectionInput) (r : Read) :
    (conn.step u e).reads = [] ∧ ((conn.step u e).client.alive = true →
      conn.client.alive = true ∧
        Machine.Reachable (step u) (conn.post r) ((conn.step u e).post r)) := by
  cases e with
  | client i =>
      rw [step]
      split
      · next hi =>
        refine ⟨hreads, fun ha => ?_⟩
        have hd : i ≠ .destroy := by
          rintro rfl
          have ha : (conn.client.step .destroy).alive = true := ha
          rw [Client.step_destroy] at ha
          split at ha
          · cases ha
          · next hdead => exact hdead ha
        have hallows : (conn.post r).allows i = true := by
          cases i with
          | destroy => exact absurd rfl hd
          | _ => exact hi
        have hstep : (conn.post r).step u (.client i) =
            (conn.setClient (conn.client.step i)).post r := by
          rw [step, if_pos hallows]
          rfl
        rw [← hstep]
        exact ⟨(conn.client.step_alive hd).symm.trans ha, .single _ _⟩
      · exact ⟨hreads, fun ha => ⟨ha, .refl _⟩⟩
  | complete n result users =>
      rw [step_complete_none (by simp [hreads])]
      exact ⟨hreads, fun ha => ⟨ha, .refl _⟩⟩

theorem posted_reachable (hreads : conn.reads = [])
    (hr : Machine.Reachable (step u) conn conn') (r : Read) :
    conn'.reads = [] ∧ (conn'.client.alive = true →
      Machine.Reachable (step u) (conn.post r) (conn'.post r)) := by
  refine hr.invariant (I := fun conn' => conn'.reads = [] ∧
    (conn'.client.alive = true →
      Machine.Reachable (step u) (conn.post r) (conn'.post r)))
    ⟨hreads, fun _ => .refl _⟩ ?_
  rintro conn' e ⟨hnil, hposted⟩
  obtain ⟨hnil', hstep⟩ := posted_step (u := u) hnil e r
  refine ⟨hnil', fun ha => ?_⟩
  obtain ⟨ha', hruns⟩ := hstep ha
  exact (hposted ha').trans hruns

end Connection

/-! ## User code that completes reads -/

namespace IoService

variable {σ : Type} {u : Unpacker σ} {plan : Nat → WriteResult} {s : IoService σ}

/-- What a run has made of the connection: before `start`, and after one whose
handshake was written. -/
structure Stands (u : Unpacker σ) (plan : Nat → WriteResult) (s : IoService σ) :
    Prop where
  idle : s.Idle
  unstarted : s.started = false →
    Machine.Reachable (Connection.step u) (new u plan).conn s.conn
  started : s.started = true →
    Machine.Reachable (Connection.step u) (Connection.start u plan) s.conn

/-- Only `start` starts the session. -/
def Keeps (s t : IoService σ) : Prop := t.started = s.started

instance : Std.Refl (Keeps (σ := σ)) := ⟨fun _ => rfl⟩

instance : IsTrans (IoService σ) Keeps where
  trans _ _ _ h h' := Eq.trans h' h

section

variable {users : Nat → IoM σ Unit}

theorem onConnection_keeps {α : Type} (p : ConnectionM σ α) :
    Exec.Moves Keeps (onConnection p) :=
  fun _ => rfl

theorem callUser_keeps (callback : Callback) (itr : Iterator) {code : IoM σ Unit}
    (h : Exec.Moves Keeps code) : Exec.Moves Keeps (callUser callback itr code) :=
  fun s => h (s.callBack callback)

theorem callHandlers_keeps (h : ∀ k, Exec.Moves Keeps (users k))
    (event : WampEvent) (n : Nat) :
    ∀ k itr, Exec.Moves Keeps (callHandlers users event k itr n) := by
  induction n with
  | zero => exact fun _ _ => .pure ()
  | succ n ih =>
      intro k itr
      refine .bind .get fun s => ?_
      split
      · exact .throw _
      · exact .bind (callUser_keeps _ _ (h k)) fun _ => ih (k + 1) (itr + 1)

theorem processEvent_keeps (h : ∀ k, Exec.Moves Keeps (users k))
    (message : WampMessage) : Exec.Moves Keeps (processEvent users message) := by
  refine .bind (onConnection_keeps _) fun found => ?_
  rcases found with _ | ⟨event, itr, n⟩
  · exact .pure ()
  · refine .tryCatch (callHandlers_keeps h event n 0 itr) fun e => ?_
    split
    · exact .throw _
    · exact .pure ()

theorem processInvocation_keeps (h : ∀ k, Exec.Moves Keeps (users k))
    (message : WampMessage) :
    Exec.Moves Keeps (processInvocation users message) := by
  refine .bind (onConnection_keeps _) fun found => .bind .get fun s => ?_
  split
  · exact .throw _
  · refine .tryCatch (callUser_keeps _ _ (h 0)) fun e => ?_
    split
    · exact onConnection_keeps _
    · exact onConnection_keeps _
    · exact .throw _

theorem gotMessage_keeps (h : ∀ k, Exec.Moves Keeps (users k)) (obj : Object) :
    Exec.Moves Keeps (gotMessage users obj) := by
  refine .bind (.modify fun _ => rfl) fun _ => .bind (onConnection_keeps _) fun found => ?_
  split
  · exact processEvent_keeps h _
  · exact processInvocation_keeps h _
  · exact onConnection_keeps _

theorem handleRxError_keeps {slot : IoM σ Unit} (h : Exec.Moves Keeps slot)
    (error : ReadError) : Exec.Moves Keeps (handleRxError slot error) :=
  .bind (onConnection_keeps _) fun _ => .ite (fun _ => h) fun _ => .pure ()

variable {calls : Nat → Nat → IoM σ Unit}

theorem gotMessages_keeps (h : ∀ k j, Exec.Moves Keeps (calls k j)) (k : Nat)
    (x : σ) : Exec.Moves Keeps (gotMessages u calls k x) := by
  induction hn : u.left x using Nat.strong_induction_on generalizing k x with
  | _ n ih =>
  cases hnext : u.next x with
  | throws =>
      rw [gotMessages_throws hnext]
      exact .throw _
  | noMore y =>
      rw [gotMessages_noMore hnext]
      exact onConnection_keeps _
  | object obj y =>
      rw [gotMessages_object hnext]
      have hrest := ih (u.left y) (hn ▸ u.left_lt hnext) (k + 1) y rfl
      exact .bind (onConnection_keeps _) fun _ =>
        .bind (gotMessage_keeps (h k) obj) fun _ => hrest

theorem handler_keeps (h : ∀ k j, Exec.Moves Keeps (calls k j))
    (result : ReadResult) (r : Read) :
    Exec.Moves Keeps (handler u result calls r) := by
  cases r with
  | gotHandshakeReply => exact onConnection_keeps _
  | gotMessageHeader =>
      cases result with
      | ok data => exact onConnection_keeps _
      | error error => exact handleRxError_keeps (h 0 0) error
  | gotMessageBody =>
      cases result with
      | ok data =>
          exact .bind .get fun s => .bind (onConnection_keeps _) fun _ =>
            .bind (gotMessages_keeps h 0 _) fun _ => .bind .get fun t =>
              .ite (fun _ => onConnection_keeps _) fun _ => .pure ()
      | error error => exact handleRxError_keeps (h 0 0) error

theorem complete_keeps (h : ∀ k j, Exec.Moves Keeps (calls k j)) (n : Nat)
    (result : ReadResult) : Exec.Moves Keeps (complete u n result calls) := by
  refine .bind .get fun s => ?_
  split
  · exact .pure ()
  · exact .bind (.modify fun _ => rfl) fun _ => handler_keeps h result _

end

/-- User code, by induction on what it does. -/
theorem code_keeps (c : Code) : Exec.Moves Keeps (c.run u) := by
  induction c with
  | ends ending => exact onConnection_keeps _
  | act a rest ih =>
      exact .bind (.tryCatch (onConnection_keeps _) fun _ => .pure ()) fun _ => ih
  | read n result users rest ihusers ih =>
      exact .bind (.tryCatch (complete_keeps ihusers n result) fun _ => .pure ())
        fun _ => ih

theorem step_keeps (s : IoService σ) {i : IoInput}
    (hi : ∀ written, i ≠ .start written) : s.Keeps (s.step u i) := by
  cases i with
  | start written => exact absurd rfl (hi written)
  | client i => rfl
  | code c =>
      rw [step]
      split
      · exact code_keeps c s
      · rfl
  | complete n result users =>
      exact complete_keeps (fun k j => code_keeps (users k j)) n result s

theorem stands_new (u : Unpacker σ) (plan : Nat → WriteResult) :
    (new u plan).Stands u plan where
  idle := idle_new u plan
  unstarted _ := .refl _
  started h := by cases h

theorem Stands.start (h : s.Stands u plan) :
    (s.step u (.start true)).Stands u plan := by
  have hidle := h.idle.step (u := u) (.start true)
  rw [IoService.step] at hidle ⊢
  split
  · next hs =>
    rw [if_pos hs] at hidle
    refine ⟨hidle, fun hno => Bool.noConfusion hno, fun _ => ?_⟩
    have hbefore := h.unstarted (by simpa using hs.2)
    exact (Connection.posted_reachable rfl hbefore .gotHandshakeReply).2 hs.1
  · exact h

theorem Stands.step (h : s.Stands u plan) {i : IoInput} (hi : i ≠ .start false) :
    (s.step u i).Stands u plan := by
  by_cases hstart : i = .start true
  · subst hstart
    exact h.start
  · have hother : ∀ written, i ≠ .start written := by
      intro written
      cases written
      · exact hi
      · exact hstart
    have hkeeps : (s.step u i).started = s.started := step_keeps s hother
    have hruns := h.idle.step_reachable (u := u) hother
    exact ⟨h.idle.step i, fun hs => (h.unstarted (hkeeps.symm.trans hs)).trans hruns,
      fun hs => (h.started (hkeeps.symm.trans hs)).trans hruns⟩

theorem Stands.runs {is : List IoInput} (his : ∀ i ∈ is, i ≠ .start false) :
    ((new u plan).runs u is).Stands u plan := by
  induction is using List.reverseRecOn with
  | nil => exact stands_new u plan
  | append_singleton is i ih =>
      rw [IoService.runs, Machine.run_snoc]
      exact (ih fun j hj => his j (List.mem_append_left [i] hj)).step
        (his i (List.mem_append_right is (List.mem_singleton_self i)))

/-- **Nested reads add nothing to the connection**: what user code completes
inside of its callbacks could have been completed between two handlers. -/
theorem refines_connection {is : List IoInput}
    (his : ∀ i ∈ is, i ≠ .start false)
    (hs : ((new u plan).runs u is).started = true) :
    Machine.Reachable (Connection.step u) (Connection.start u plan)
      ((new u plan).runs u is).conn :=
  (Stands.runs his).started hs

/-- User code that polls for the handshake reply, and then for a header. -/
theorem refines_two_polls :
    let returns : Nat → Nat → Code := fun _ _ => .ends .returns
    let s := (new octetUnpacker fun _ => .complete).runs octetUnpacker
      [.start true, .code (.read 0 (.ok (Connection.octetsAt [0x7F, 0xF2, 0, 0])) returns
        (.read 0 (.ok (Connection.octetsAt [0, 0, 0, 4])) returns (.ends .returns)))]
    Machine.Reachable (Connection.step octetUnpacker)
        (Connection.start octetUnpacker fun _ => .complete) s.conn ∧
      s.conn.reads = [.gotMessageBody] := by
  intro returns s
  exact ⟨refines_connection (by simp) (by decide +kernel), by decide +kernel⟩

/-- **Nor does anything of it add to the session.** -/
theorem refines_session (u : Unpacker σ) (plan : Nat → WriteResult)
    (is : List IoInput) :
    Machine.Reachable Client.step (Client.new plan)
      ((new u plan).runs u is).client := by
  have hruns : Machine.Reachable (IoService.step u) (new u plan)
    ((new u plan).runs u is) := ⟨is, rfl⟩
  refine hruns.simulated (f := IoService.client) (I := Idle) (idle_new u plan)
    (fun _ i h => h.step i) fun s i h => ?_
  cases i with
  | start written =>
      rw [IoService.step]
      split
      · cases written <;> exact .refl s.client
      · exact .refl s.client
  | _ =>
      exact Connection.Owned.client (u := u) h.owned
        (h.step_reachable fun written heq => by cases heq)

end IoService

/-! ## A client that connects, starts and joins -/

namespace WampTcpClient

variable {σ : Type} {u : Unpacker σ} {plan : Nat → WriteResult} {c : WampTcpClient σ}

/-- What a run has made of the session: before the socket is connected, and
after. -/
structure Stands (u : Unpacker σ) (plan : Nat → WriteResult) (c : WampTcpClient σ) :
    Prop where
  sound : c.Sound
  unconnected : c.connectResult ≠ some (.ok true) →
    Machine.Reachable (Connection.step u) (init u plan) c.session
  connected : c.connectResult = some (.ok true) →
    Machine.Reachable (Connection.step u) (Connection.start u plan) c.session

theorem stands_new (u : Unpacker σ) (plan : Nat → WriteResult)
    (constructor : TcpConstructor) (realm : Octets) :
    (new u plan constructor realm).Stands u plan where
  sound := sound_new u plan constructor realm
  unconnected _ := .refl _
  connected h := by cases h

/-- Joining and reporting are things a user could do. -/
theorem Sound.step_runs (h : c.Sound) {i : LaunchInput}
    (hi : ∀ result, i ≠ .connected result) :
    (c.step u i).connectResult = c.connectResult ∧
      Machine.Reachable (Connection.step u) c.session (c.step u i).session := by
  cases i with
  | connected result => exact absurd rfl (hi result)
  | started io =>
      rw [WampTcpClient.step]
      split
      · next hs =>
        obtain ⟨stage, -, hstate⟩ := state_startHandler io c
        obtain ⟨i, hallows, -, hjoin⟩ := exists_join_step (h.alive hs.1) io c.realm
        have hsession : c.session.step u (.client i) = c.session.setClient
            ((Autobahn.join io c.realm).run c.session.client).2 := by
          rw [Connection.step, if_pos hallows, hjoin]
        rw [hstate, ← hsession]
        exact ⟨rfl, .single c.session (ConnectionInput.client i)⟩
      · exact ⟨rfl, .refl c.session⟩
  | joined =>
      rw [WampTcpClient.step]
      split
      · next hs =>
        rw [state_joinHandler (h.pending (by simp [hs.1]))]
        exact ⟨rfl, .refl c.session⟩
      · exact ⟨rfl, .refl c.session⟩
  | session e =>
      rw [WampTcpClient.step]
      split
      · exact ⟨rfl, .refl c.session⟩
      · exact ⟨rfl, .single c.session e⟩

theorem Stands.connect (h : c.Stands u plan) (result : ConnectResult) :
    (c.step u (.connected result)).Stands u plan := by
  have hsound := h.sound.step u (.connected result)
  rw [WampTcpClient.step] at hsound ⊢
  split
  · next hs =>
    rw [if_pos hs] at hsound
    obtain ⟨hfresh, hresult, -⟩ := h.sound.fresh hs
    have hbefore := h.unconnected (by simp [hresult])
    rcases result with e | written
    · rw [state_connectHandler_error (h.sound.pending (by simp [hs]))] at hsound ⊢
      exact ⟨hsound, fun _ => hbefore, fun heq => by cases heq⟩
    cases written with
    | false =>
        rw [state_connectHandler_throws] at hsound ⊢
        exact ⟨hsound, fun _ => hbefore, fun heq => by cases heq⟩
    | true =>
        have hposted := (Connection.posted_reachable rfl hbefore
          .gotHandshakeReply).2 hfresh.alive
        rw [state_connectHandler_ok] at hsound ⊢
        exact ⟨hsound, fun hne => absurd rfl hne, fun _ => hposted⟩
  · exact h

theorem Stands.step (h : c.Stands u plan) (i : LaunchInput) :
    (c.step u i).Stands u plan := by
  by_cases hi : ∃ result, i = .connected result
  · obtain ⟨result, rfl⟩ := hi
    exact h.connect result
  · obtain ⟨hresult, hruns⟩ := h.sound.step_runs (u := u)
      fun result heq => hi ⟨result, heq⟩
    refine ⟨h.sound.step u i, ?_, ?_⟩
    · rw [hresult]
      exact fun hc => (h.unconnected hc).trans hruns
    · rw [hresult]
      exact fun hc => (h.connected hc).trans hruns

theorem stands_run (u : Unpacker σ) (plan : Nat → WriteResult)
    (constructor : TcpConstructor) (realm : Octets) (is : List LaunchInput) :
    (Machine.run (step u) (new u plan constructor realm) is).Stands u plan :=
  Machine.Reachable.invariant ⟨is, rfl⟩ (stands_new u plan constructor realm)
    fun _ i h => h.step i

/-- **A launch adds nothing to the session.** -/
theorem launch_refines_session (u : Unpacker σ) (plan : Nat → WriteResult)
    (constructor : TcpConstructor) (realm : Octets) (is : List LaunchInput) :
    Machine.Reachable Client.step (Client.new plan)
      (Machine.run (step u) (new u plan constructor realm) is).session.client := by
  have h := stands_run u plan constructor realm is
  by_cases hc : (Machine.run (step u) (new u plan constructor realm)
      is).connectResult = some (.ok true)
  · have howned : (Connection.start u plan).Owned := fun _ => rfl
    exact howned.client (h.connected hc)
  · have howned : (init u plan).Owned := fun _ => rfl
    exact howned.client (h.unconnected hc)

end WampTcpClient

end Autobahn
