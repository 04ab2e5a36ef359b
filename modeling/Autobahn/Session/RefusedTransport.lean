import Autobahn.Session.TcpClient

/-!
# A refused transport

`join` does not ask whether the handshake was accepted, and the continuation that
calls it does not look at the verdict it is given. So `launch` writes a HELLO after
a refused reply as after any other, and WAMP traffic stays off a refused transport
exactly when no reply is refused (`WampTcpClient.noTraffic_iff`).

The invariant is `Client.Mute`: until the handshake is answered, whatever a program
asks of the session but a join leaves nothing written.
-/

namespace Autobahn

open Foundation MsgPack

/-! ## What a session does before its first join -/

/-- Written by no session that has not joined -/
def Task.mute : Task → Bool
  | .join _ | .sendResult .. => false
  | _ => true

/-- No HELLO has been asked for and no message has come. -/
structure Client.Mute (c : Client) : Prop where
  sessionId : c.session.sessionId = 0
  invocations : c.invocations = []
  writes : c.session.out.writes = []
  tasks : ∀ t ∈ c.tasks, t.mute = true

def Client.StaysMute (c d : Client) : Prop := c.Mute → d.Mute

instance : Std.Refl Client.StaysMute := ⟨fun _ => id⟩

instance : IsTrans Client Client.StaysMute := ⟨fun _ _ _ h h' => h' ∘ h⟩

def Operation.joins : Operation → Bool
  | .join _ => true
  | _ => false

def Action.joins : Action → Bool
  | .invoke op => op.joins
  | _ => false

/-- The program itself asks for a join. -/
def Input.joins : Input → Bool
  | .operate op => op.joins
  | .userCode script => script.actions.any Action.joins
  | _ => false

section Mute

variable {c : Client}

attribute [local simp] Exec.run_bind

theorem Client.Mute.dequeue (h : c.Mute) (n : Nat) : (c.dequeue n).Mute :=
  { h with tasks := fun t ht => h.tasks t (List.mem_of_mem_eraseIdx ht) }

theorem Client.Mute.enqueue (h : c.Mute) {t : Task} (ht : t.mute = true) :
    (c.enqueue t).Mute :=
  { h with
    tasks := by
      intro t' ht'
      rcases List.mem_append.mp ht' with ht' | ht'
      · exact h.tasks t' ht'
      · obtain rfl := List.mem_singleton.mp ht'
        exact ht }

theorem Client.Mute.store (h : c.Mute) {s : WampSession}
    (hs : s.sessionId = c.session.sessionId ∧ s.out = c.session.out) :
    (c.setSession s).Mute :=
  ⟨hs.1.trans h.sessionId, h.invocations,
    (congrArg _ hs.2).trans h.writes, h.tasks⟩

theorem settle_mute {α : Type} (p : Promise Exn α) (r : Except Exn α)
    {store : Promise Exn α → WampSession → WampSession}
    (hstore : ∀ p s, (store p s).sessionId = s.sessionId ∧
      (store p s).out = s.out) :
    Exec.Moves Client.StaysMute (settle p r store) :=
  settle_moves fun _ _ h => h.store (hstore _ _)

theorem getFuture_mute {α : Type} (p : Promise Exn α)
    {store : Promise Exn α → WampSession → WampSession}
    (hstore : ∀ p s, (store p s).sessionId = s.sessionId ∧
      (store p s).out = s.out) :
    Exec.Moves Client.StaysMute (getFuture p store) :=
  getFuture_moves fun _ _ h => h.store (hstore _ _)

/-- Without a session id only a join or a reply is written. -/
theorem Client.Mute.body (h : c.Mute) {t : Task} (ht : t.mute = true) :
    (t.body.run c).2.Mute := by
  have hid := h.sessionId
  cases t with
  | stop =>
      by_cases hs : c.session.stopped = true
      · simpa [Task.body, hs] using h
      have hclosed : c.close.Mute := ⟨h.sessionId, h.invocations, h.writes, h.tasks⟩
      have hrest := settle_mute c.session.sessionStop (.ok ())
        (fun p s => (⟨rfl, rfl⟩ : (storeStop p s).sessionId = s.sessionId ∧
          (storeStop p s).out = s.out)) c.close hclosed
      simpa [Task.body, hs, hid, Client.close] using hrest
  | leave => simpa [Task.body, hid] using h
  | publish => simpa [Task.body, hid] using h
  | request ref =>
      have hgone : (c.modifyRequest ref Request.abandon).Mute :=
        ⟨h.sessionId, h.invocations, h.writes, h.tasks⟩
      simpa [Task.body, hid, abandonRequest] using hgone
  | join => cases ht
  | sendResult => cases ht

theorem runTask_mute (n : Nat) : Exec.Moves Client.StaysMute (runTask n) := by
  intro c h
  cases ht : c.tasks[n]? with
  | none => simpa [runTask, ht] using h
  | some t =>
  have hmute := h.tasks t (List.mem_of_getElem? ht)
  have hd := h.dequeue n
  by_cases ha : c.alive
  · have hrun : ((runTask n).run c).2 = (t.body.run (c.dequeue n)).2 := by
      simp [runTask, ht, Task.run, Client.dequeue, ha]
    rw [hrun]
    exact hd.body hmute
  · have hrun : ((runTask n).run c).2 = (t.drop.run (c.dequeue n)).2 := by
      simp [runTask, ht, Task.run, Client.dequeue, ha]
    rw [hrun]
    cases t with
    | request ref => exact ⟨hd.sessionId, hd.invocations, hd.writes, hd.tasks⟩
    | _ => exact hd

theorem dispatch_mute (io : Bool) {t : Task} (ht : t.mute = true) :
    Exec.Moves Client.StaysMute (dispatch io t) :=
  .bind .get fun _ => .bind (.modify fun _ h => h.enqueue ht) fun _ =>
    .ite (fun _ => runTask_mute _) fun _ => .pure _

theorem nextRequestId_mute : Exec.Moves Client.StaysMute nextRequestId :=
  .bind (.modify fun _ h => ⟨h.sessionId, h.invocations, h.writes, h.tasks⟩)
    fun _ => .bind .get fun _ => .pure _

theorem packed_mute {α : Type} (x : Except Exn α) :
    Exec.Moves Client.StaysMute (packed x) := by
  cases x with
  | ok a => exact .pure a
  | error e => exact .throw _

theorem request_mute (io : Bool) (op : Operation) (entry : Entry)
    (frame : UInt64 → Except Exn Frame) :
    Exec.Moves Client.StaysMute (request io op entry frame) := by
  have hnew : ∀ q : Request, Exec.Moves Client.StaysMute (newRequest q) :=
    fun q c h => ⟨h.sessionId, h.invocations, h.writes, h.tasks⟩
  exact .bind nextRequestId_mute fun _ => .bind (packed_mute _) fun _ =>
    .bind (hnew _) fun _ => dispatch_mute io rfl

/-- **No operation but a join makes a mute session write.** -/
theorem operate_mute (io : Bool) {op : Operation} (hj : op.joins = false) :
    Exec.Moves Client.StaysMute (operate io op) := by
  cases op with
  | stop =>
      exact .bind (dispatch_mute io rfl) fun _ => .bind .get fun _ =>
        getFuture_mute _ fun _ _ => ⟨rfl, rfl⟩
  | join => cases hj
  | leave =>
      exact .bind (dispatch_mute io rfl) fun _ => .bind .get fun _ =>
        getFuture_mute _ fun _ _ => ⟨rfl, rfl⟩
  | publish topic payload =>
      exact .bind nextRequestId_mute fun _ => .bind (packed_mute _)
        fun _ => dispatch_mute io rfl
  | _ => exact request_mute io _ _ _

theorem reply_mute (io : Bool) (handle : Nat) (attempt : ReplyAttempt) :
    Exec.Moves Client.StaysMute (reply io handle attempt) := by
  intro c h
  simpa [reply, h.invocations] using h

theorem runActions_mute (io : Bool) : ∀ as : List Action,
    as.any Action.joins = false → Exec.Moves Client.StaysMute (runActions io as)
  | [], _ => .pure ()
  | a :: as, hj => by
      obtain ⟨ha, has⟩ := Bool.or_eq_false_iff.mp hj
      have hfirst : Exec.Moves Client.StaysMute (a.run io) := by
        cases a with
        | invoke op => exact operate_mute io ha
        | respond handle attempt => exact reply_mute io handle attempt
        | poll n => exact runTask_mute n
      exact .bind (.tryCatch hfirst fun _ => .pure ()) fun _ =>
        runActions_mute io as has

theorem Client.Mute.step (h : c.Mute) {σ : Type} {conn : Connection σ} {i : Input}
    (hi : conn.allows i = true) (hj : i.joins = false) : (c.step i).Mute := by
  unfold Client.step
  split
  · exact h
  cases i with
  | operate op => exact operate_mute false hj c h
  | task n => exact runTask_mute n c h
  | respond io handle attempt => exact reply_mute io handle attempt c h
  | userCode script =>
      refine Exec.Moves.bind (runActions_mute true _ hj) (fun _ => ?_) c h
      cases script.ending with
      | returns => exact .pure ()
      | _ => exact .throw _
  | destroy => exact ⟨h.sessionId, h.invocations, h.writes, h.tasks⟩
  | _ => cases hi

end Mute

namespace WampTcpClient

variable {σ : Type} {u : Unpacker σ} {c : WampTcpClient σ}

/-! ## What the handshake becomes -/

def writes (c : WampTcpClient σ) : List (Frame × WriteResult) :=
  c.session.client.session.out.writes

/-- Every read that ends leaves the handshake answered: by its reply if it is the
handshake read, and before otherwise. -/
theorem Sound.answered (h : c.Sound) {n : Nat} {r : Read} {result : ReadResult}
    {users : Nat → UserCode} (hread : c.session.reads[n]? = some r) :
    (c.session.step u (.complete n result users)).client.session.handshake.outcome =
      some (.ok (r ≠ .gotHandshakeReply ∨
        Connection.acceptsReply (Connection.replyOf result) = true)) := by
  have hmem := List.mem_of_getElem? hread
  -- a session that was never started reads nothing
  have hwired : c.session.Wired := by
    apply h.wired
    by_contra hr
    rw [(h.idle hr).reads] at hmem
    cases hmem
  rcases hwired.stages u (e := .complete n result users) (by simp) with
    ⟨hplain, -, hsame⟩ | ⟨n', result', users', he, hread', -, hclient⟩ |
    ⟨n', r', error, users', he, hread', hr, ha, hclient⟩
  · have hr : r ≠ .gotHandshakeReply := by
      rintro rfl
      simp [Connection.Plain, hread] at hplain
    rw [hsame, hwired.accepted r hmem hr]
    simp [hr]
  · obtain ⟨rfl, rfl, rfl⟩ := ConnectionInput.complete.inj he
    obtain rfl := Option.some.inj (hread.symm.trans hread')
    simp only [ne_eq, not_true_eq_false, false_or, Bool.decide_eq_true]
    rw [hclient]
    rfl
  · obtain ⟨rfl, rfl, rfl⟩ := ConnectionInput.complete.inj he
    obtain rfl := Option.some.inj (hread.symm.trans hread')
    have hbefore := hwired.accepted r hmem hr
    have honward := Client.Onward.step c.session.client
      (i := .rxError error (users 0)) (by simp)
    rw [hclient, honward.handshake (Promise.resolved_of_outcome hbefore), hbefore]
    simp [hr]

/-- A program answers no handshake. -/
theorem Sound.unanswered (h : c.Sound) (i : Input) :
    (c.session.step u (.client i)).client.session.handshake.outcome =
        c.handshake.outcome ∨
    c.connectResult ≠ some (.ok true) ∧ c.handshake.outcome = none ∧
      (c.session.step u (.client i)).client.session.handshake.outcome =
        some (.error .brokenPromise) := by
  by_cases hd : i = .destroy
  case neg =>
    rw [Connection.step]
    split
    · next hallows =>
      exact .inl (congrArg Promise.outcome
        (Connection.acts_of_allows hallows hd).handshake)
    · exact .inl rfl
  subst hd
  rw [Connection.step_destroy]
  split
  case isFalse => exact .inl rfl
  case isTrue hends =>
  by_cases hr : c.session.client.session.handshake.resolved
  · exact .inl (congrArg Promise.outcome (Promise.abandon_of_resolved hr))
  · refine .inr ⟨fun hresult => ?_, Promise.not_resolved_iff.mp hr,
      congrArg Promise.outcome (Promise.abandon_of_not_resolved hr)⟩
    -- the handshake read is still out, so the session does not go away
    have hread := (h.wired hresult).handshake.mpr hr
    rw [hends.1] at hread
    cases hread

/-- Neither does `launch`. -/
theorem Sound.step_handshake (h : c.Sound) {i : LaunchInput}
    (hi : ∀ e, i ≠ .session e) : (c.step u i).handshake = c.handshake := by
  cases i with
  | connected result =>
      rw [WampTcpClient.step]
      split
      case isFalse => rfl
      case isTrue hs =>
      rcases result with e | written
      · rw [state_connectHandler_error (h.pending (by simp [hs]))]
        rfl
      cases written with
      | false =>
          rw [state_connectHandler_throws]
          rfl
      | true =>
          rw [state_connectHandler_ok]
          rfl
  | started io =>
      rw [WampTcpClient.step]
      split
      case isFalse => rfl
      case isTrue hs =>
      obtain ⟨stage, -, hstate⟩ := state_startHandler io c
      obtain ⟨i, hallows, hne, hjoin⟩ := exists_join_step (h.alive hs.1) io c.realm
      rw [hstate, hjoin]
      exact (Connection.acts_of_allows hallows hne).handshake
  | joined =>
      rw [WampTcpClient.step]
      split
      case isFalse => rfl
      case isTrue hs =>
      rw [state_joinHandler (h.pending (by simp [hs.1]))]
      rfl
  | session e => exact absurd rfl (hi e)

/-! ## Runs that `launch` drives -/

/-- Until the handshake is accepted only `launch` asks for a join. -/
def Driven (c : WampTcpClient σ) : LaunchInput → Prop
  | .session (.client i) =>
      c.handshake.outcome = some (.ok true) ∨ i.joins = false
  | _ => True

/-- Until the handshake is answered nothing is written; and only a session that
was never started dies with its handshake unanswered. -/
structure Hushed (c : WampTcpClient σ) : Prop where
  mute : (∀ b, c.handshake.outcome ≠ some (.ok b)) → c.session.client.Mute
  broken : ∀ e, c.handshake.outcome = some (.error e) →
    c.connectResult ≠ some (.ok true)

theorem hushed_of_answered {b : Bool} (h : c.handshake.outcome = some (.ok b)) :
    c.Hushed where
  mute hne := absurd h (hne b)
  broken e he := by
    rw [h] at he
    cases he

theorem Hushed.session (h : c.Hushed) (hs : c.Sound) {e : ConnectionInput}
    (hd : c.Driven (.session e)) :
    ({ c with session := c.session.step u e } : WampTcpClient σ).Hushed := by
  cases e with
  | complete n result users =>
      cases hread : c.session.reads[n]? with
      | none =>
          rw [Connection.step_complete_none hread]
          exact h
      | some r => exact hushed_of_answered (hs.answered hread)
  | client i =>
  have hunanswered := hs.unanswered (u := u) i
  constructor
  · intro hne
    have hbefore : ∀ b, c.handshake.outcome ≠ some (.ok b) := by
      intro b hb
      rcases hunanswered with heq | ⟨-, hnone, -⟩
      · exact hne b (heq.trans hb)
      · rw [hb] at hnone
        cases hnone
    -- not accepted, so the program asks for no join
    have hmute := h.mute hbefore
    rw [Connection.step]
    split
    · next hallows => exact hmute.step hallows (hd.resolve_left (hbefore true))
    · exact hmute
  · intro e he
    rcases hunanswered with heq | ⟨hresult, -, -⟩
    · exact h.broken e (heq.symm.trans he)
    · exact hresult

theorem Hushed.step (h : c.Hushed) (hs : c.Sound) {i : LaunchInput}
    (hd : c.Driven i) : (c.step u i).Hushed := by
  cases i with
  | connected result =>
      rw [WampTcpClient.step]
      split
      case isFalse => exact h
      case isTrue hstage =>
      -- the connect handler leaves the client of the session as it is
      obtain ⟨hf, -, -⟩ := hs.fresh hstage
      have hnone : c.handshake.outcome = none :=
        Promise.not_resolved_iff.mp hf.handshake
      have hmute : c.session.client.Mute := h.mute (by simp [hnone])
      have hkeeps : ∀ d : WampTcpClient σ, d.session.client = c.session.client →
          d.Hushed := by
        intro d hclient
        refine ⟨fun _ => hclient ▸ hmute, fun e he => ?_⟩
        rw [handshake, hclient, ← handshake, hnone] at he
        cases he
      rcases result with e | written
      · have hp := hs.pending (by simp [hstage])
        exact hkeeps _ (by rw [state_connectHandler_error hp])
      cases written with
      | false => exact hkeeps _ (by rw [state_connectHandler_throws])
      | true => exact hkeeps _ (by rw [state_connectHandler_ok]; rfl)
  | started io =>
      by_cases hstage : c.stage = .start ∧ c.session.client.session.handshake.resolved
      case neg => simpa [WampTcpClient.step, hstage] using h
      -- the start future has resolved, and not because the session is gone
      have hanswered : ∃ b, c.handshake.outcome = some (.ok b) := by
        cases ho : c.handshake.outcome with
        | none => exact absurd ho hstage.2
        | some r =>
            cases r with
            | ok b => exact ⟨b, rfl⟩
            | error e => exact absurd (hs.running (.inl hstage.1)) (h.broken e ho)
      obtain ⟨b, hb⟩ := hanswered
      have hsame : (c.step u (.started io)).handshake = c.handshake :=
        hs.step_handshake (by simp)
      exact hushed_of_answered ((congrArg Promise.outcome hsame).trans hb)
  | joined =>
      rw [WampTcpClient.step]
      split
      case isFalse => exact h
      case isTrue hstage =>
      rw [state_joinHandler (hs.pending (by simp [hstage.1]))]
      exact ⟨h.mute, h.broken⟩
  | session e =>
      rw [WampTcpClient.step]
      split
      · exact h
      · exact h.session hs hd

theorem hushed_run (plan : Nat → WriteResult) (constructor : TcpConstructor)
    (realm : Octets) {is : List LaunchInput}
    (hd : Machine.EachStep (step u) Driven (new u plan constructor realm) is) :
    (Machine.run (step u) (new u plan constructor realm) is).Hushed := by
  induction is using List.reverseRecOn with
  | nil => exact ⟨fun _ => ⟨rfl, rfl, rfl, nofun⟩, nofun⟩
  | append_singleton is i ih =>
      rw [Machine.run_snoc]
      exact (ih (hd.of_isPrefix (List.prefix_append is [i]))).step
        (sound_run u plan constructor realm is) (hd is i (List.prefix_refl _))

/-! ## No traffic on a refused transport -/

/-- A frame is written only with the handshake accepted; where its reply was
refused or the read of it failed, nothing is, and the launch can end with
`false`. -/
structure NoTraffic (u : Unpacker σ) (c : WampTcpClient σ) : Prop where
  traffic : c.writes ≠ [] → c.handshake.outcome = some (.ok true)
  refused : c.handshake.outcome = some (.ok false) → c.writes = [] ∧ CanFail u c

/-- The condition on one step: when the handshake read ends, it has brought a reply
that is accepted. -/
def Accepting (c : WampTcpClient σ) : LaunchInput → Prop
  | .session (.complete n result _) =>
      c.session.reads[n]? = some .gotHandshakeReply →
        Connection.acceptsReply (Connection.replyOf result) = true
  | _ => True

/-- A refused handshake does not reach the future of `launch`. -/
theorem Sound.not_canFail_of_refused (h : c.Sound)
    (hr : c.handshake.outcome = some (.ok false)) : ¬ CanFail u c := by
  have hresult : c.connectResult = some (.ok true) := by
    by_contra hne
    exact (h.idle hne).unanswered false hr
  have hs : c.stage ≠ .connect := by
    intro hs
    rw [(h.fresh hs).2.1] at hresult
    cases hresult
  exact not_canFail h hs fun ho => (h.refused ho).2 hresult

theorem noTraffic_iff_not_refused (h : c.Sound) (hh : c.Hushed) :
    c.NoTraffic u ↔ c.handshake.outcome ≠ some (.ok false) := by
  constructor
  · intro ht hr
    exact h.not_canFail_of_refused hr (ht.refused hr).2
  · intro hr
    refine ⟨fun hw => ?_, fun h => absurd h hr⟩
    by_contra haccepted
    refine hw (hh.mute ?_).writes
    rintro (_ | _) hb
    · exact hr hb
    · exact haccepted hb

/-- Only a refused reply refuses the handshake. -/
theorem Sound.refused_step (h : c.Sound) (hb : c.handshake.outcome ≠ some (.ok false))
    (i : LaunchInput) :
    (c.step u i).handshake.outcome ≠ some (.ok false) ↔ c.Accepting i := by
  by_cases hi : ∀ e, i ≠ .session e
  · rw [h.step_handshake hi]
    apply iff_of_true hb
    cases i with
    | session e => exact absurd rfl (hi e)
    | _ => trivial
  obtain ⟨e, he⟩ := not_forall.mp hi
  obtain rfl := not_not.mp he
  rw [WampTcpClient.step]
  cases e with
  | client i =>
      refine iff_of_true ?_ trivial
      split
      · exact hb
      · rcases h.unanswered (u := u) i with heq | ⟨-, -, hbroken⟩
        · exact heq.symm ▸ hb
        · rw [handshake, hbroken]
          simp
  | complete n result users =>
      have hholds : ¬ c.holds (.complete n result users) = true := not_holds (by simp)
      rw [if_neg hholds, Accepting]
      cases hread : c.session.reads[n]? with
      | none =>
          rw [Connection.step_complete_none hread]
          exact iff_of_true hb (by simp)
      | some r =>
          rw [handshake, h.answered hread]
          cases r <;> simp

/-- **WAMP traffic on a refused transport.** In a run that `launch` drives no frame
is written without an accepted handshake, and a refused one fails the launch,
exactly when no reply is refused and no read of one fails. -/
theorem noTraffic_iff (u : Unpacker σ) (plan : Nat → WriteResult)
    (constructor : TcpConstructor) (realm : Octets) (is : List LaunchInput)
    (hd : Machine.EachStep (step u) Driven (new u plan constructor realm) is) :
    Machine.Everywhere (step u) (NoTraffic u) (new u plan constructor realm) is ↔
      Machine.EachStep (step u) Accepting (new u plan constructor realm) is := by
  have hiff : ∀ pre, pre <+: is →
      (NoTraffic u (Machine.run (step u) (new u plan constructor realm) pre) ↔
        (Machine.run (step u) (new u plan constructor realm) pre).handshake.outcome ≠
          some (.ok false)) := fun pre hpre =>
    noTraffic_iff_not_refused (sound_run u plan constructor realm pre)
      (hushed_run plan constructor realm (hd.of_isPrefix hpre))
  refine Machine.everywhere_iff_eachStep ((hiff [] List.nil_prefix).mpr nofun)
    fun pre i hi ht => ?_
  rw [hiff _ hi, Machine.run_snoc]
  exact (sound_run u plan constructor realm pre).refused_step
    ((hiff pre ((List.prefix_append pre [i]).trans hi)).mp ht) i

/-- A call made too early does not count, and the HELLO follows the accepted
reply. -/
theorem noTraffic_of_an_accepted_reply :
    let s := new octetUnpacker (fun _ => .complete) .endpoint (octets "realm1")
    let is : List LaunchInput :=
      [.connected (.ok true),
        .session (.client (.operate (.call (octets "com.add") .none))),
        .session (.complete 0 (.ok (Connection.octetsAt [0x7F, 0xF2, 0, 0]))
          fun _ _ => {}),
        .started true]
    Machine.Everywhere (step octetUnpacker) (NoTraffic octetUnpacker) s is := by
  refine (noTraffic_iff octetUnpacker (fun _ => .complete) .endpoint (octets "realm1") _
    ?_).mpr ?_ <;> simp only [Machine.eachStep_cons, Machine.eachStep_nil]
  · exact ⟨trivial, .inr rfl, trivial, trivial, trivial⟩
  · exact ⟨trivial, trivial, fun _ => rfl, trivial, trivial⟩

/-- The server refuses the connection, and gets a HELLO. -/
theorem not_noTraffic_refused :
    let s := new octetUnpacker (fun _ => .complete) .endpoint (octets "realm1")
    let is : List LaunchInput :=
      [.connected (.ok true),
        .session (.complete 0 (.ok (Connection.octetsAt [0x7F, 0x10, 0, 0]))
          fun _ _ => {}),
        .started true]
    Machine.EachStep (step octetUnpacker) Driven s is ∧
      (Machine.run (step octetUnpacker) s is).handshake.outcome = some (.ok false) ∧
      (Machine.run (step octetUnpacker) s is).writes ≠ [] ∧
      ¬ Machine.Everywhere (step octetUnpacker) (NoTraffic octetUnpacker) s is := by
  intro s is
  have hdriven : Machine.EachStep (step octetUnpacker) Driven s is := by
    simp only [s, is, Machine.eachStep_cons, Machine.eachStep_nil]
    exact ⟨trivial, trivial, trivial, trivial⟩
  have hrefused : (Machine.run (step octetUnpacker) s is).handshake.outcome =
      some (.ok false) := rfl
  have hwritten : (Machine.run (step octetUnpacker) s is).writes =
      [(helloFrame (octets "realm1"), .complete)] := rfl
  refine ⟨hdriven, hrefused, by simp [hwritten], fun h => ?_⟩
  have hnone := ((h is (List.prefix_refl is)).refused hrefused).1
  rw [hwritten] at hnone
  cases hnone

end WampTcpClient

end Autobahn
