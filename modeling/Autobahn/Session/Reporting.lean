import Autobahn.Session.TcpClient

/-!
# What a client reports of its connection

The connect handler sets the flag when it fails, one constructor leaves it unset,
the continuations of `launch` tell no failure, not even that of their own `join`, and
`handleRxError` never clears the flag. So the client reports its connection truthfully exactly on the runs in which
none of this comes up (`WampTcpClient.reports_truthfully_iff`).
-/

namespace Autobahn

open Foundation MsgPack

namespace WampTcpClient

variable {σ : Type} {u : Unpacker σ} {c : WampTcpClient σ}

/-! ## Telling the truth -/

/-- A stage of the launch has failed: the connect handler with an error or an
exception, the handshake with a refusal or an exception, the join with an
exception, which the call threw or its future holds. -/
def Failed (c : WampTcpClient σ) : Prop :=
  (∃ r, c.connectResult = some r ∧ r ≠ .ok true) ∨
  (∃ r, c.handshake.outcome = some r ∧ r ≠ .ok true) ∨
  (∃ a, c.joinResult = some (.error a)) ∨
  ∃ e, c.sessionJoin.outcome = some (.error e)

/-- What the client reports is so: its future holds `true`, `m_onConnect` has been
emitted and the flag is set only if the session has joined; and after an
`m_onDisconnect` the flag is off. -/
structure Honest (c : WampTcpClient σ) : Prop where
  future : c.connected.outcome = some (.ok true) → c.Joined
  emitted : c.onConnects ≠ 0 → c.Joined
  flag : c.isConnected = true → c.Joined
  disconnected : c.session.client.rxErrors ≠ [] → c.isConnected = false

/-- The client reports its connection truthfully: what it reports is so, and a
launch one of whose stages has failed can end with `false`. -/
structure Truthful (u : Unpacker σ) (c : WampTcpClient σ) : Prop
    extends Honest c where
  fails : c.Failed → CanFail u c

/-- The condition on one step: the connect goes through and the handshake is
written; the handshake reply is accepted; the call of `join` finds the join future
not yet taken and, made on the `io_service` thread, the session not yet joined; the
session does not end before it has joined; no read error is reported while the flag
is set, and the join continuation does not run after one has been. -/
def Smooth (c : WampTcpClient σ) : LaunchInput → Prop
  | .connected result => c.stage = .connect → result = .ok true
  | .started io => c.stage = .start → c.handshake.resolved →
      c.sessionJoin.retrieved = false ∧
        (io = true → c.session.client.session.sessionId = 0)
  | .joined => c.stage = .join → c.sessionJoin.resolved →
      c.session.client.rxErrors = []
  | .session (.client .destroy) => c.stage = .join ∨ c.stage = .done →
      c.session.reads = [] → c.session.client.alive = true → c.sessionJoin.resolved
  | .session (.client _) => True
  | .session (.complete n result _) =>
      match c.session.reads[n]?, result with
      | some .gotHandshakeReply, result =>
          Connection.acceptsReply (Connection.replyOf result) = true
      | some _, .error error =>
          c.isConnected = true → ¬ c.session.client.Reports error
      | _, _ => True

/-- A client that has told a failure has set its flag, too. -/
theorem Truthful.not_refused (ht : c.Truthful u) (h : c.Sound) :
    c.connected.outcome ≠ some (.ok false) := by
  intro ho
  obtain ⟨hflag, hresult⟩ := h.refused ho
  obtain ⟨id, hid⟩ := ht.flag hflag
  exact (h.idle hresult).notJoined id hid

theorem Fresh.not_joined (h : Fresh c.session) : ¬ c.Joined := by
  rintro ⟨id, hid⟩
  exact h.join (Promise.resolved_of_outcome hid)

/-- Before the connect only the flag can be wrong. -/
theorem truthful_fresh_iff (h : c.Sound) (hs : c.stage = .connect) :
    c.Truthful u ↔ c.isConnected = false := by
  obtain ⟨hf, hresult, hcount⟩ := h.fresh hs
  have hp := h.pending (by simp [hs])
  constructor
  · intro ht
    cases hc : c.isConnected with
    | false => rfl
    | true => exact absurd (ht.flag hc) hf.not_joined
  · intro hc
    exact
      { future := by simp [Promise.not_resolved_iff.mp hp]
        emitted := absurd hcount
        flag := by simp [hc]
        disconnected := fun _ => hc
        fails := by
          rintro (⟨r, hr, -⟩ | ⟨r, hr, -⟩ | ⟨a, ha⟩ | ⟨e, he⟩)
          · rw [hresult] at hr
            cases hr
          · rw [handshake, Promise.not_resolved_iff.mp hf.handshake] at hr
            cases hr
          · rw [h.uncalled (.inl hs)] at ha
            cases ha
          · rw [sessionJoin, Promise.not_resolved_iff.mp hf.join] at he
            cases he }

/-- Behind the connect handler no failure is told any more, so none must be. -/
theorem truthful_launched_iff (h : c.Sound) (hs : c.stage ≠ .connect)
    (ho : c.connected.outcome ≠ some (.ok false)) :
    c.Truthful u ↔ c.Honest ∧ ¬ c.Failed := by
  constructor
  · intro ht
    exact ⟨ht.toHonest, fun hf => not_canFail h hs ho (ht.fails hf)⟩
  · rintro ⟨hhonest, hf⟩
    exact { hhonest with fails := fun hfailed => absurd hfailed hf }

theorem Truthful.launched (ht : c.Truthful u) (h : c.Sound)
    (hs : c.stage ≠ .connect) : ¬ c.Failed :=
  ((truthful_launched_iff h hs (ht.not_refused h)).mp ht).2

theorem truthful_step_launched_iff (h : c.Sound) (ht : c.Truthful u)
    (hs : c.stage ≠ .connect) (i : LaunchInput) :
    (c.step u i).Truthful u ↔ (c.step u i).Honest ∧ ¬ (c.step u i).Failed := by
  obtain ⟨hs', ho⟩ := step_outcome (u := u) h hs (ht.not_refused h) i
  exact truthful_launched_iff (h.step u i) hs' ho

/-! ### What one step does to the truth -/

theorem truthful_connected_iff (h : c.Sound) (ht : c.Truthful u)
    (result : ConnectResult) :
    (c.step u (.connected result)).Truthful u ↔
      result = .ok true ∨ c.stage ≠ .connect := by
  by_cases hs : c.stage = .connect
  case neg => simp [step, hs, ht]
  obtain ⟨hf, hresult, hcount⟩ := h.fresh hs
  have hp := h.pending (by simp [hs])
  have hsound := h.step u (.connected result)
  rw [step, if_pos hs] at hsound ⊢
  rcases result with e | written
  · -- the flag is set, and no session can have joined yet
    rw [state_connectHandler_error hp]
    refine iff_of_false (fun ht => ?_) (by simp [hs])
    exact hf.not_joined (ht.flag rfl)
  cases written with
  | false =>
      -- the exception leaves the handler, and no one settles the future
      rw [state_connectHandler_throws] at hsound ⊢
      refine iff_of_false (fun ht => ?_) (by simp [hs])
      exact ht.launched hsound (by simp) (.inl ⟨_, rfl, by simp⟩)
  | true =>
      rw [state_connectHandler_ok] at hsound ⊢
      refine iff_of_true ?_ (.inl rfl)
      refine (truthful_launched_iff hsound (by simp) (ht.not_refused h)).mpr ⟨?_, ?_⟩
      · exact
          { future := ht.future
            emitted := ht.emitted
            flag := ht.flag
            disconnected := ht.disconnected }
      · rintro (⟨r, hr, hne⟩ | ⟨r, hr, -⟩ | ⟨a, ha⟩ | ⟨e, he⟩)
        · exact hne (Option.some.inj hr).symm
        · exact hf.handshake (Promise.resolved_of_outcome hr)
        · have huncalled : c.joinResult = none := h.uncalled (.inl hs)
          rw [huncalled] at ha
          cases ha
        · exact hf.join (Promise.resolved_of_outcome he)

/-- A step of the session in which no join future fails is told truthfully if it
leaves an accepted handshake and reports no read error under the flag, and `join` has
not thrown. -/
theorem honest_session_iff (hh : c.Honest) (hf : ¬ c.Failed) {conn : Connection σ}
    (hj : c.session.client.JoinAdvances conn.client) (stage : LaunchStage)
    (joinResult : Option (Except Abort Unit)) :
    ({ c with session := conn, stage, joinResult } : WampTcpClient σ).Honest ∧
        ¬ ({ c with session := conn, stage, joinResult } : WampTcpClient σ).Failed ↔
      (conn.client.rxErrors ≠ [] → c.isConnected = false) ∧
        (∀ r, conn.client.session.handshake.outcome = some r → r = .ok true) ∧
        ∀ a, joinResult ≠ some (.error a) := by
  constructor
  · rintro ⟨hhonest, hfailed⟩
    refine ⟨hhonest.disconnected, fun r hr => ?_, fun a ha => ?_⟩
    · by_contra hne
      exact hfailed (.inr (.inl ⟨r, hr, hne⟩))
    · exact hfailed (.inr (.inr (.inl ⟨a, ha⟩)))
  · rintro ⟨hrx, haccepted, hcalled⟩
    have hjoined : c.Joined →
        ({ c with session := conn, stage, joinResult } : WampTcpClient σ).Joined :=
      fun ⟨id, hid⟩ => ⟨id, hj.keeps hid⟩
    refine ⟨⟨fun ho => hjoined (hh.future ho), fun hn => hjoined (hh.emitted hn),
      fun hc => hjoined (hh.flag hc), hrx⟩, ?_⟩
    rintro (hr | ⟨r, hr, hne⟩ | ⟨a, ha⟩ | ⟨e, he⟩)
    · exact hf (.inl hr)
    · exact hne (haccepted r hr)
    · exact hcalled a ha
    · exact hf (.inr (.inr (.inr ⟨e, hj.error_of he⟩)))

/-- So far every handshake is accepted. -/
theorem accepted_of_not_failed (hf : ¬ c.Failed) {r : Except Exn Bool}
    (hr : c.handshake.outcome = some r) : r = .ok true := by
  by_contra hne
  exact hf (.inr (.inl ⟨r, hr, hne⟩))

theorem wired_of_not_failed (h : c.Sound) (hs : c.stage ≠ .connect)
    (hf : ¬ c.Failed) : c.session.Wired := by
  refine h.wired ?_
  cases hr : c.connectResult with
  | none => exact absurd hr (h.ended hs)
  | some r =>
      by_contra hne
      exact hf (.inl ⟨r, hr, fun h => hne (by rw [h])⟩)

/-- `join` throws if its future has been taken before, and on the `io_service` thread
if the session has joined. -/
theorem join_throws_iff {client : Client} (ha : client.alive = true) (io : Bool)
    (realm : Octets) :
    (∀ a, ((Autobahn.join io realm).run client).1 ≠ .error a) ↔
      client.session.sessionJoin.retrieved = false ∧
        (io = true → client.session.sessionId = 0) := by
  have hbody : (Autobahn.join io realm).run client =
      (dispatch io (.join (helloFrame realm)) >>= fun _ => get >>= fun c =>
        getFuture c.session.sessionJoin storeJoin).run client := rfl
  rw [hbody]
  cases io with
  | false =>
      cases hr : client.session.sessionJoin.retrieved <;>
        simp [dispatch, Exec.run_bind, Client.enqueue, getFuture, Promise.getFuture, hr]
  | true =>
      rw [Exec.run_bind, run_dispatch_io ha]
      by_cases hj : client.session.sessionId = 0
      · cases hr : client.session.sessionJoin.retrieved <;>
          simp [Task.body, Exec.run_bind, hj, send, Client.setSession, getFuture,
            Promise.getFuture, hr]
      · simp [Task.body, Exec.run_bind, hj]

theorem truthful_started_iff (h : c.Sound) (ht : c.Truthful u) (io : Bool) :
    (c.step u (.started io)).Truthful u ↔ c.Smooth (.started io) := by
  by_cases hs : c.stage = .start ∧ c.session.client.session.handshake.resolved
  case neg =>
    rw [step, if_neg hs, Smooth]
    exact iff_of_true ht fun hstage hr => absurd ⟨hstage, hr⟩ hs
  have hlaunched : c.stage ≠ .connect := by simp [hs.1]
  have hf := ht.launched h hlaunched
  obtain ⟨stage, -, hstate⟩ := state_startHandler io c
  obtain ⟨i, hallows, hd, hjoin⟩ := exists_join_step (h.alive hs.1) io c.realm
  -- joining settles no future of the session, whatever the verdict was
  have hacts := Connection.acts_of_allows hallows hd
  have hrx : (c.session.client.step i).rxErrors ≠ [] → c.isConnected = false :=
    fun hrx => ht.disconnected (hacts.rxErrors ▸ hrx)
  have haccepted : ∀ r, (c.session.client.step i).session.handshake.outcome = some r →
      r = .ok true := fun r hr =>
    accepted_of_not_failed hf ((congrArg Promise.outcome hacts.handshake).symm.trans hr)
  have hthrows := join_throws_iff (h.alive hs.1) io c.realm
  rw [truthful_step_launched_iff h ht hlaunched, step, if_pos hs, hstate, hjoin]
  apply (honest_session_iff ht.toHonest hf hacts.untroubled.join stage _).trans
  constructor
  · rintro ⟨-, -, hcalled⟩ - -
    exact hthrows.mp fun a ha => hcalled a (congrArg some ha)
  · intro hsmooth
    exact ⟨hrx, haccepted, fun a ha =>
      hthrows.mpr (hsmooth hs.1 hs.2) a (Option.some.inj ha)⟩

theorem truthful_joined_iff (h : c.Sound) (ht : c.Truthful u) :
    (c.step u .joined).Truthful u ↔ c.Smooth .joined := by
  by_cases hs : c.stage = .join ∧ c.session.client.session.sessionJoin.resolved
  case neg =>
    rw [step, if_neg hs, Smooth]
    exact iff_of_true ht fun hj hr => absurd ⟨hj, hr⟩ hs
  have hlaunched : c.stage ≠ .connect := by simp [hs.1]
  have hf := ht.launched h hlaunched
  -- a join that has not failed and is resolved has an id
  have hjoined : c.Joined := by
    cases ho : c.sessionJoin.outcome with
    | none => exact absurd ho hs.2
    | some r =>
        cases r with
        | ok id => exact ⟨id, ho⟩
        | error e => exact absurd (.inr (.inr (.inr ⟨e, ho⟩))) hf
  rw [truthful_step_launched_iff h ht hlaunched, step, if_pos hs,
    state_joinHandler (h.pending (by simp [hs.1]))]
  constructor
  · rintro ⟨hh, -⟩ - -
    by_contra hrx
    cases hh.disconnected hrx
  · intro hsmooth
    have hrx : c.session.client.rxErrors = [] := hsmooth hs.1 hs.2
    exact ⟨⟨fun _ => hjoined, fun _ => hjoined, fun _ => hjoined, absurd hrx⟩, hf⟩

theorem truthful_session_iff (h : c.Sound) (ht : c.Truthful u)
    (hs : c.stage ≠ .connect) {e : ConnectionInput} (hholds : ¬ c.holds e = true)
    (hj : c.session.client.JoinAdvances (c.session.step u e).client) :
    (c.step u (.session e)).Truthful u ↔
      ((c.session.step u e).client.rxErrors ≠ [] → c.isConnected = false) ∧
        ∀ r, (c.session.step u e).client.session.handshake.outcome = some r →
          r = .ok true := by
  have hf := ht.launched h hs
  rw [truthful_step_launched_iff h ht hs, step, if_neg hholds]
  apply (honest_session_iff ht.toHonest hf hj c.stage c.joinResult).trans
  rw [and_iff_left fun a ha => hf (.inr (.inr (.inl ⟨a, ha⟩)))]

theorem smooth_of_plain {e : ConnectionInput} (hd : e ≠ .client .destroy)
    (h : c.session.Plain e) : c.Smooth (.session e) := by
  cases e with
  | client i =>
      cases i with
      | destroy => exact absurd rfl hd
      | _ => trivial
  | complete n result users =>
      simp only [Connection.Plain] at h
      simp only [Smooth]
      split at h <;> simp_all

/-- The session ends: a join that waits gets an exception. -/
theorem truthful_destroyed_iff (h : c.Sound) (ht : c.Truthful u) :
    (c.step u (.session (.client .destroy))).Truthful u ↔
      c.Smooth (.session (.client .destroy)) := by
  by_cases hs : c.stage = .join ∨ c.stage = .done
  case neg =>
    have hholds : c.holds (.client .destroy) = true := by
      cases hstage : c.stage <;> simp [holds, hstage] at hs ⊢
    rw [step, if_pos hholds, Smooth]
    exact iff_of_true ht fun hstage => absurd hstage hs
  have hlaunched : c.stage ≠ .connect := by rcases hs with hs | hs <;> simp [hs]
  have hf := ht.launched h hlaunched
  have hholds : ¬ c.holds (.client .destroy) = true := by
    rcases hs with hs | hs <;> simp [holds, hs]
  by_cases hends : c.session.reads = [] ∧ c.session.client.alive = true
  case neg =>
    rw [step, if_neg hholds, Connection.step_destroy, if_neg hends, Smooth]
    exact iff_of_true ht fun _ hreads ha => absurd ⟨hreads, ha⟩ hends
  have hnext : (c.session.step u (.client .destroy)).client =
      c.session.client.destroy := by
    rw [Connection.step_destroy, if_pos hends]
    rfl
  obtain ⟨hreads, ha⟩ := hends
  constructor
  · intro ht' _ _ _
    by_contra hwaits
    have hfailed : (c.step u (.session (.client .destroy))).Failed := by
      refine .inr (.inr (.inr ⟨.brokenPromise, ?_⟩))
      rw [step, if_neg hholds, sessionJoin, hnext]
      exact congrArg Promise.outcome (Promise.abandon_of_not_resolved hwaits)
    exact ((truthful_step_launched_iff h ht hlaunched _).mp ht').2 hfailed
  · intro hsmooth
    have hjoin : (c.session.step u (.client .destroy)).client.session.sessionJoin =
        c.session.client.session.sessionJoin := by
      rw [hnext]
      exact Promise.abandon_of_resolved (hsmooth hs hreads ha)
    -- with no read out the handshake has been answered, so it stays as it is
    have hhandshake : c.session.client.session.handshake.resolved := by
      by_contra hwaits
      have hread := (wired_of_not_failed h hlaunched hf).handshake.mpr hwaits
      rw [hreads] at hread
      cases hread
    refine (truthful_session_iff h ht hlaunched hholds
      (.inl (congrArg Promise.outcome hjoin))).mpr ⟨?_, fun r hr => ?_⟩
    · rw [hnext]
      exact ht.disconnected
    · rw [hnext] at hr
      exact accepted_of_not_failed hf ((congrArg Promise.outcome
        (Promise.abandon_of_resolved hhandshake)).symm.trans hr)

/-- A read error: what counts is whether the session reports it. -/
theorem truthful_rxError_iff (h : c.Sound) (ht : c.Truthful u)
    (hs : c.stage ≠ .connect) {n : Nat} {r : Read} {error : ReadError}
    {users : Nat → UserCode} (hread : c.session.reads[n]? = some r)
    (hr : r ≠ .gotHandshakeReply)
    (hclient : (c.session.step u (.complete n (.error error) users)).client =
      c.session.client.step (.rxError error (users 0))) :
    (c.step u (.session (.complete n (.error error) users))).Truthful u ↔
      (c.isConnected = true → ¬ c.session.client.Reports error) := by
  have hf := ht.launched h hs
  have hwired := wired_of_not_failed h hs hf
  have hmem := List.mem_of_getElem? hread
  have ha := hwired.alive (List.ne_nil_of_mem hmem)
  have hsame : (c.session.client.step
      (.rxError error (users 0))).session.handshake.outcome =
      c.handshake.outcome := by
    have honward := Client.Onward.step c.session.client
      (i := .rxError error (users 0)) (by simp)
    rw [honward.handshake (Promise.resolved_of_outcome (hwired.accepted r hmem hr))]
    rfl
  have hrun : c.session.client.step (.rxError error (users 0)) =
      ((handleRxError (users 0) error).run c.session.client).2 := by
    simp [Client.step, Input.needsSession, Input.program, ha]
  have hjoin : c.session.client.JoinAdvances
      (c.session.step u (.complete n (.error error) users)).client := by
    rw [hclient, hrun]
    exact .inl (handleRxError_join _ _ _)
  have hholds : ¬ c.holds (.complete n (.error error) users) = true :=
    not_holds (by simp)
  rw [truthful_session_iff h ht hs hholds hjoin, hclient, hsame,
    and_iff_left fun r hr => accepted_of_not_failed hf hr, hrun]
  by_cases hreports : c.session.client.Reports error
  · rw [hwired.reachable.rxErrors_of_reports ha (users 0) hreports]
    simp [hreports]
  · rw [hwired.reachable.rxErrors_of_not_reports ha (users 0) hreports]
    exact iff_of_true ht.disconnected fun _ => hreports

/-- A step of the session that does not end it. -/
theorem truthful_onward_iff (h : c.Sound) (ht : c.Truthful u)
    (hs : c.stage ≠ .connect) {e : ConnectionInput} (hd : e ≠ .client .destroy) :
    (c.step u (.session e)).Truthful u ↔ c.Smooth (.session e) := by
  have hf := ht.launched h hs
  rcases (wired_of_not_failed h hs hf).stages u hd with ⟨hplain, hu, hsame⟩ |
    ⟨n, result, users, rfl, hread, -, hclient⟩ |
    ⟨n, r, error, users, rfl, hread, hr, -, hclient⟩
  · refine iff_of_true ?_ (smooth_of_plain hd hplain)
    refine (truthful_session_iff h ht hs (not_holds hd) hu.join).mpr
      ⟨hu.rxErrors ▸ ht.disconnected, fun r hr => accepted_of_not_failed hf ?_⟩
    exact (congrArg Promise.outcome hsame).symm.trans hr
  · have houtcome : (c.session.step u
        (.complete n result users)).client.session.handshake.outcome =
        some (.ok (Connection.acceptsReply (Connection.replyOf result))) := by
      rw [hclient]
      rfl
    have hjoin : c.session.client.JoinAdvances
        (c.session.step u (.complete n result users)).client :=
      .inl (by rw [hclient]; rfl)
    have hrx : (c.session.step u (.complete n result users)).client.rxErrors =
        c.session.client.rxErrors := by
      rw [hclient]
      rfl
    rw [truthful_session_iff h ht hs (not_holds hd) hjoin, houtcome, hrx,
      and_iff_right ht.disconnected]
    simp [Smooth, hread]
  · rw [truthful_rxError_iff h ht hs hread hr hclient]
    cases r <;> simp_all [Smooth]

theorem truthful_step_iff (h : c.Sound) (ht : c.Truthful u) (i : LaunchInput) :
    (c.step u i).Truthful u ↔ c.Smooth i := by
  cases i with
  | connected result =>
      rw [truthful_connected_iff h ht, Smooth]
      by_cases hs : c.stage = .connect <;> simp [hs]
  | started io => exact truthful_started_iff h ht io
  | joined => exact truthful_joined_iff h ht
  | session e =>
      by_cases hd : e = .client .destroy
      · subst hd
        exact truthful_destroyed_iff h ht
      by_cases hs : c.stage = .connect
      case neg => exact truthful_onward_iff h ht hs hd
      refine iff_of_true ?_ ?_
      · have hstage : (c.step u (.session e)).stage = .connect := by
          rw [step, if_neg (not_holds hd)]
          exact hs
        have hflag : (c.step u (.session e)).isConnected = c.isConnected := by
          rw [step, if_neg (not_holds hd)]
        rw [truthful_fresh_iff (h.step u _) hstage, hflag]
        exact (truthful_fresh_iff h hs).mp ht
      · apply smooth_of_plain hd
        cases e with
        | client => trivial
        | complete n =>
            have hreads := (h.idle (by simp [(h.fresh hs).2.1])).reads
            simp [Connection.Plain, hreads]

/-- **When the client tells the truth.** Along a run everything that a client
reports of its connection is so exactly when the flag starts unset, the connect
and the handshake go through, `join` is not kept from going on, the session joins
before it ends, and no read error is reported with the flag set or before the join
is. -/
theorem reports_truthfully_iff (u : Unpacker σ) (plan : Nat → WriteResult)
    (constructor : TcpConstructor) (realm : Octets) (is : List LaunchInput) :
    Machine.Everywhere (step u) (Truthful u) (new u plan constructor realm) is ↔
      constructor.isConnected = false ∧
        Machine.EachStep (step u) Smooth (new u plan constructor realm) is := by
  have hinit := truthful_fresh_iff (u := u)
    (sound_new u plan constructor realm) rfl
  by_cases hflag : constructor.isConnected = false
  · rw [and_iff_right hflag]
    apply Machine.everywhere_iff_eachStep (hinit.mpr hflag)
    intro pre i _ ht
    rw [Machine.run_snoc]
    exact truthful_step_iff (sound_run u plan constructor realm pre) ht i
  · refine iff_of_false (fun h => hflag ?_) fun h => hflag h.1
    exact hinit.mp (h [] List.nil_prefix)

/-- The server cannot be reached: the future is `false`, and the client says that
it is connected. -/
theorem not_truthful_unreachable :
    ¬ Machine.Everywhere (step octetUnpacker) (Truthful octetUnpacker)
      (new octetUnpacker (fun _ => .complete) .endpoint (octets "realm1"))
      [.connected (.error 111)] := by
  intro h
  obtain ⟨id, hid⟩ := (h _ (List.prefix_refl _)).flag rfl
  cases hid

end WampTcpClient

end Autobahn
