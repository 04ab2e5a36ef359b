import Autobahn.Session.Acceptance

/-!
# Joining, leaving and stopping

Three flags say where a session is in its life: `sessionId`, `goodbyeSent` and
`stopped`. Only a WELCOME sets the session id, and it does so in any state.
Everything else keeps a joined session as it is or ends it
(`Client.Continues`).

`Leavable` says that a joined session can be left and stopped. It holds all
along a run exactly when no WELCOME comes in after the goodbye or the stop.
-/

namespace Autobahn

open Foundation MsgPack Relation

/-! ## WELCOME, and everything else -/

/-- The id in the WELCOME that an input brings. -/
def Input.welcome? : Input → Option UInt64
  | .message obj _ =>
      match Incoming.read obj with
      | .welcome (.ok id) => some id
      | _ => none
  | _ => none

/-- The state after a WELCOME. -/
def Client.welcomed (c : Client) (id : UInt64) : Client :=
  c.setSession { c.session with
    sessionId := id
    sessionJoin := if c.session.sessionJoin.resolved then c.session.sessionJoin
      else { c.session.sessionJoin with outcome := some (.ok id) } }

section

variable {c d : Client}

theorem Input.welcome?_eq_some {i : Input} {id : UInt64} :
    i.welcome? = some id ↔
      ∃ obj user, i = .message obj user ∧
        Incoming.read obj = .welcome (.ok id) := by
  cases i with
  | message obj user =>
      simp only [Input.welcome?]
      split <;> simp_all
  | _ => simp [Input.welcome?]

theorem Client.step_welcome {i : Input} {id : UInt64} (ha : c.alive = true)
    (hi : i.welcome? = some id) : c.step i = c.welcomed id := by
  obtain ⟨obj, user, rfl, hread⟩ := Input.welcome?_eq_some.mp hi
  rw [Client.step_message, if_pos ha, hread, run_welcome, Client.welcomed]
  split <;> rfl

/-- Does this input bring a GOODBYE? -/
def Input.isGoodbye : Input → Bool
  | .message obj _ =>
      match Incoming.read obj with
      | .goodbye _ => true
      | _ => false
  | _ => false

/-- **The kinds of steps.** An input that brings no WELCOME, or comes too
late, is calm, or a GOODBYE, or the answer to a request, or the end of the
session. -/
theorem Client.step_kinds {i : Input}
    (hi : c.alive = true → i.welcome? = none) :
    Calms c (c.step i) ∨
    (i.isGoodbye = true ∧ c.alive = true ∧ Calms c.left (c.step i)) ∨
    (∃ obj, Answer (Incoming.read obj) c (c.step i)) ∨
    (i = .destroy ∧ c.step i = c.destroy) := by
  cases i with
  | message obj user =>
      rw [Client.step_message]
      by_cases ha : c.alive = true
      case neg => simp [ha, ReflTransGen.refl]
      rw [if_pos ha]
      have hread := hi ha
      simp only [Input.welcome?] at hread
      simp only [Input.isGoodbye]
      by_cases hw : ∃ m, Incoming.read obj = .welcome m
      · obtain ⟨m, hw⟩ := hw
        rw [hw] at hread ⊢
        cases m with
        | error m => exact .inl .refl
        | ok id => cases hread
      by_cases hg : ∃ m, Incoming.read obj = .goodbye m
      · obtain ⟨m, hg⟩ := hg
        rw [hg]
        exact .inr (.inl ⟨rfl, ha, goodbye_calms user m c⟩)
      rcases handle_calms user (not_exists.mp hw) (not_exists.mp hg) c with h | h
      · exact .inl h
      · exact .inr (.inr (.inl ⟨obj, h⟩))
  | destroy =>
      rw [Client.step_destroy]
      split
      · exact .inr (.inr (.inr ⟨rfl, rfl⟩))
      · exact .inl .refl
  | _ => exact .inl (c.step_calms rfl (by simp))

/-! ## A session goes on or leaves -/

/-- The join promise is as it was, and so are the session id and the goodbye,
unless `leave` has taken effect; a session that stays joined is not stopped. -/
structure Client.Continues (c d : Client) : Prop where
  flags :
    d.session.sessionId = c.session.sessionId ∧
      d.session.goodbyeSent = c.session.goodbyeSent ∧
      (c.session.sessionId ≠ 0 → d.session.stopped = c.session.stopped) ∨
    c.session.sessionId ≠ 0 ∧ d.session.sessionId = 0 ∧
      d.session.goodbyeSent = true
  join : d.session.sessionJoin.outcome = c.session.sessionJoin.outcome

theorem Client.Continues.same
    (h1 : d.session.sessionId = c.session.sessionId)
    (h2 : d.session.goodbyeSent = c.session.goodbyeSent)
    (h3 : d.session.stopped = c.session.stopped)
    (h4 : d.session.sessionJoin = c.session.sessionJoin) : c.Continues d :=
  ⟨.inl ⟨h1, h2, fun _ => h3⟩, congrArg Promise.outcome h4⟩

theorem Client.Continues.refl (c : Client) : c.Continues c :=
  .same rfl rfl rfl rfl

theorem Client.Continues.trans {e : Client} (h : c.Continues d)
    (h' : d.Continues e) : c.Continues e := by
  refine ⟨?_, h'.join.trans h.join⟩
  rcases h.flags with ⟨h1, h2, h3⟩ | ⟨h1, h2, h3⟩
  · rcases h'.flags with ⟨h1', h2', h3'⟩ | ⟨h1', h2', h3'⟩
    · exact .inl ⟨h1'.trans h1, h2'.trans h2, fun hj =>
        (h3' (h1 ▸ hj)).trans (h3 hj)⟩
    · exact .inr ⟨h1 ▸ h1', h2', h3'⟩
  · rcases h'.flags with ⟨h1', h2', -⟩ | ⟨h1', -, -⟩
    · exact .inr ⟨h1, h1'.trans h2, h2'.trans h3⟩
    · exact absurd h2 h1'

theorem Act.continues (h : Act c d) : c.Continues d := by
  cases h
  case answer =>
    unfold Client.answer
    split <;> exact .same rfl rfl rfl rfl
  case retrieveJoin p h =>
    obtain ⟨-, rfl⟩ := Promise.getFuture_eq_some.mp h
    exact ⟨.inl ⟨rfl, rfl, fun _ => rfl⟩, rfl⟩
  case stopped hj => exact ⟨.inl ⟨rfl, rfl, fun hne => absurd hj hne⟩, rfl⟩
  case left n buffer h ha hj hg =>
    refine ⟨.inr ⟨hj, ?_, ?_⟩, ?_⟩
    · exact WampSession.send_sessionId _ _
    · exact WampSession.send_goodbyeSent _ _
    · exact congrArg Promise.outcome (WampSession.send_sessionJoin _ _)
  all_goals
    apply Client.Continues.same <;>
      simp [Client.takeId, Client.submit, Client.enqueue, Client.dequeue,
        Client.setSession, Client.sent, Client.enter, Client.hand,
        Client.modifyInvocation, Client.modifyRequest, storeStop, storeLeave]

theorem Calm.continues (h : Calm c d) : c.Continues d := by
  cases h with
  | act h => exact h.continues
  | _ => exact .same rfl rfl rfl rfl

theorem Calms.continues (h : Calms c d) : c.Continues d := by
  induction h with
  | refl => exact .refl c
  | tail _ h ih => exact ih.trans h.continues

theorem Answer.continues {i : Incoming} (h : Answer i c d) : c.Continues d := by
  cases h <;> exact .same rfl rfl rfl rfl

theorem Client.left_flags (c : Client) :
    c.left.session.sessionId = 0 ∧
    c.left.session.goodbyeSent = c.session.goodbyeSent ∧
    c.left.session.sessionJoin = c.session.sessionJoin := by
  simp only [Client.left, Client.setSession]
  split <;> simp

/-- **Only a WELCOME makes a session joined**: any other input lets it go on,
or is a GOODBYE, or the end of the session. -/
theorem Client.step_continues {i : Input}
    (hi : c.alive = true → i.welcome? = none) :
    c.Continues (c.step i) ∨
    (i.isGoodbye = true ∧ c.alive = true ∧
      (c.step i).session.sessionId = 0 ∧
      (c.step i).session.goodbyeSent = c.session.goodbyeSent ∧
      (c.step i).session.sessionJoin.outcome =
        c.session.sessionJoin.outcome) ∨
    (i = .destroy ∧ c.step i = c.destroy) := by
  rcases Client.step_kinds hi with h | ⟨hg, ha, h⟩ | ⟨obj, h⟩ | h
  · exact .inl h.continues
  · obtain ⟨h1, h2, h3⟩ := c.left_flags
    have hc := h.continues
    rcases hc.flags with ⟨h1', h2', -⟩ | ⟨hne, -, -⟩
    · exact .inr (.inl ⟨hg, ha, h1'.trans h1, h2'.trans h2,
        hc.join.trans (congrArg Promise.outcome h3)⟩)
    · exact absurd h1 hne
  · exact .inl h.continues
  · exact .inr (.inr h)

end

/-! ## A joined session can be left -/

/-- A joined session has not said goodbye and is not stopped; so never do the
tasks of `leave` and `stop` refuse in one state, the one because the goodbye
was sent and the other because the session is joined. -/
structure Client.Leavable (c : Client) : Prop where
  joined : c.session.sessionId ≠ 0 →
    c.session.goodbyeSent = false ∧ c.session.stopped = false
  wayOut : ∀ buffer, ¬ (
    ((Task.leave buffer).body.run c).1 =
      .error (.throws (.protocolError "goodbye already sent")) ∧
    (Task.stop.body.run c).1 =
      .error (.throws (.protocolError "session still joined")))
  stopped : c.session.stopped = true → c.session.sessionId = 0

section

variable {c : Client}

/-- What `leave` refuses with when the goodbye was sent before. -/
theorem leave_goodbyeSent {buffer : Frame}
    (h : ((Task.leave buffer).body.run c).1 =
      .error (.throws (.protocolError "goodbye already sent"))) :
    c.session.sessionId ≠ 0 ∧ c.session.goodbyeSent = true := by
  by_cases hj : c.session.sessionId = 0
  · simp [Task.body, Exec.run_bind, hj] at h
  · by_cases hg : c.session.goodbyeSent
    · exact ⟨hj, hg⟩
    · simp [Task.body, Exec.run_bind, hj, hg, send] at h

theorem Client.leavable_iff : c.Leavable ↔ (c.session.sessionId ≠ 0 →
    c.session.goodbyeSent = false ∧ c.session.stopped = false) := by
  constructor
  · exact Client.Leavable.joined
  · intro h
    refine ⟨h, ?_, ?_⟩
    · rintro buffer ⟨hleave, -⟩
      obtain ⟨hj, hg⟩ := leave_goodbyeSent hleave
      rw [(h hj).1] at hg
      cases hg
    · intro hs
      by_contra hj
      rw [(h hj).2] at hs
      cases hs

/-- A WELCOME with an id finds no goodbye sent and the session not stopped. -/
def Client.OpenFor (c : Client) (i : Input) : Prop :=
  c.alive = true → ∀ id, i.welcome? = some id → id ≠ 0 →
    c.session.goodbyeSent = false ∧ c.session.stopped = false

/-- One step keeps a session leavable exactly when its condition holds. -/
theorem Client.Leavable.step_iff (h : c.Leavable) (i : Input) :
    (c.step i).Leavable ↔ c.OpenFor i := by
  rw [Client.leavable_iff]
  by_cases hw : c.alive = true → i.welcome? = none
  · refine iff_of_true ?_ fun ha id hid => ?_
    · intro hj
      rcases Client.step_continues hw with hc | ⟨-, -, h1, -⟩ | ⟨-, hd⟩
      · rcases hc.flags with ⟨h1, h2, h3⟩ | ⟨-, h1, -⟩
        · rw [h1] at hj
          rw [h2, h3 hj]
          exact h.joined hj
        · exact absurd h1 hj
      · exact absurd h1 hj
      · rw [hd] at hj ⊢
        exact h.joined hj
    · rw [hw ha] at hid
      cases hid
  · obtain ⟨ha, hne⟩ := Classical.not_imp.mp hw
    obtain ⟨id, hid⟩ := Option.ne_none_iff_exists'.mp hne
    rw [Client.step_welcome ha hid]
    constructor
    · intro hj _ id' hid' hne'
      rw [hid] at hid'
      obtain rfl := Option.some.inj hid'
      exact hj hne'
    · exact fun hopen hj => hopen ha id hid hj

/-- **When a joined session can always be left**: in every run, up to a
WELCOME that comes in after the goodbye or the stop. -/
theorem Client.everywhere_leavable_iff (plan : Nat → WriteResult)
    (is : List Input) :
    Machine.Everywhere Client.step Client.Leavable (Client.new plan) is ↔
      Machine.EachStep Client.step Client.OpenFor (Client.new plan) is := by
  refine Machine.everywhere_iff_eachStep ?_ ?_
  · exact Client.leavable_iff.mpr fun hj => absurd rfl hj
  · intro pre i _ h
    rw [Machine.run_snoc]
    exact h.step_iff i

end

/-- A session that has left joins again: now it can neither leave nor stop. -/
theorem not_everywhere_leavable :
    ¬ Machine.Everywhere Client.step Client.Leavable
      (Client.new fun _ => .complete)
      [.operate (.join (octets "realm1")), .task 0,
        .message (MessageType.WELCOME.object [.positiveInteger 7]) fun _ => {},
        .operate (.leave (octets "bye")), .task 0,
        .message (MessageType.GOODBYE.object
          [.map [], .str (octets "bye")]) fun _ => {},
        .operate (.join (octets "realm1")), .task 0,
        .message (MessageType.WELCOME.object [.positiveInteger 9])
          fun _ => {}] := by
  intro h
  have hlast := (h _ (List.prefix_refl _)).joined (by decide)
  exact absurd hlast.1 (by decide)

end Autobahn
