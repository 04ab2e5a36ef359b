import Autobahn.Session.Tasks

/-!
# Nothing after GOODBYE

Once a GOODBYE is written the session should be silent until the next HELLO.
`hushed` reads off the writes made so far whether it should be, and `Silent`
says that it was. No sender looks at what was written: each has a guard of its
own, on the session id or on `goodbyeSent`, and the reply to an invocation has
none. `everywhere_silent_iff` says on which runs the guards are enough.
-/

namespace Autobahn

open Foundation MsgPack Relation

/-! ## Silence -/

/-- What one write does to the duty of silence: a GOODBYE that was written
begins it, and a HELLO ends it. -/
def hushedBy (hush : Bool) (w : Frame × WriteResult) : Bool :=
  if w.2 = .complete then
    match messageTypeOf w.1 with
    | some .GOODBYE => true
    | some .HELLO => false
    | _ => hush
  else hush

/-- Has a GOODBYE been written, and no HELLO since? -/
def hushed (ws : List (Frame × WriteResult)) : Bool :=
  ws.foldl hushedBy false

/-- Between a GOODBYE and the next HELLO nothing is written. -/
def Silent (ws : List (Frame × WriteResult)) : Prop :=
  EachEntry (fun pre w => hushed pre = true → messageTypeOf w.1 = some .HELLO) ws

/-- What `send` adds keeps the silence if there is none to keep, or the
session is stopped, or the frame is a HELLO. -/
theorem silent_sending {s : WampSession} {buffer : Frame} :
    Silent (s.out.writes ++ s.sending buffer) ↔
      Silent s.out.writes ∧ (hushed s.out.writes = true →
        s.stopped = true ∨ messageTypeOf buffer = some .HELLO) := by
  unfold WampSession.sending
  by_cases hs : s.stopped = true
  · simp [hs]
  · simp [hs, Silent, eachEntry_snoc]

/-! ## The guards that are needed -/

/-- A task that a silent session may run: one that does not write, or writes a
HELLO. -/
def Task.Quiet (s : WampSession) : Task → Prop
  | .stop | .join _ => True
  | .leave _ => s.sessionId = 0 ∨ s.goodbyeSent = true
  | .publish _ | .request .. => s.sessionId = 0
  | .sendResult .. => False

/-- The start of a task is no breach: silence is not due, or kept. -/
def Task.Discreet (c : Client) (t : Task) : Prop :=
  hushed c.session.out.writes = true → c.session.stopped = true ∨
    t.Quiet c.session

/-- A GOODBYE that needs no answer. -/
def Client.Parted (c : Client) : Prop :=
  hushed c.session.out.writes = true → c.session.stopped = true ∨
    c.session.goodbyeSent = true

/-! ## Only a join carries a HELLO -/

def Task.Greeting : Task → Prop
  | .stop => True
  | .join buffer => messageTypeOf buffer = some .HELLO
  | .leave buffer | .publish buffer | .request _ _ _ buffer
  | .sendResult _ buffer => messageTypeOf buffer ≠ some .HELLO

def Client.Greeting (c : Client) : Prop := ∀ t ∈ c.tasks, t.Greeting

theorem Operation.Submits.not_hello {op : Operation} {r : UInt64} {entry : Entry}
    {buffer : Frame} (h : op.Submits r entry buffer) :
    messageTypeOf buffer ≠ some .HELLO := by
  cases h with
  | subscribe r topic handler =>
      rw [subscribeFrame_eq_pack, messageTypeOf_pack]
      decide
  | unsubscribe r subscription =>
      rw [unsubscribeFrame_eq_pack, messageTypeOf_pack]
      decide
  | provide r name procedure options =>
      rw [registerFrame_eq_pack, messageTypeOf_pack]
      decide
  | call r procedure payload buffer h =>
      rw [callFrame_eq_pack] at h
      obtain ⟨os, -, rfl⟩ := exists_of_map_eq_ok h
      rw [List.cons_append, messageTypeOf_pack]
      decide

theorem ReplyAttempt.not_hello {attempt : ReplyAttempt} {r : UInt64}
    {buffer : Frame} (h : attempt.frame r = .ok buffer) :
    messageTypeOf buffer ≠ some .HELLO := by
  cases attempt with
  | result payload =>
      rw [frame, yieldFrame_eq_pack] at h
      obtain ⟨os, -, rfl⟩ := exists_of_map_eq_ok h
      rw [List.cons_append, messageTypeOf_pack]
      decide
  | error uri payload =>
      rw [frame, errorFrame_eq_pack] at h
      obtain ⟨os, -, rfl⟩ := exists_of_map_eq_ok h
      rw [List.cons_append, messageTypeOf_pack]
      decide

theorem posted_greeting : Posted Task.Greeting where
  stop := trivial
  join realm := messageTypeOf_helloFrame realm
  leave reason := by
    show messageTypeOf _ ≠ some .HELLO
    rw [messageTypeOf_goodbyeFrame]
    decide
  publish h := by
    show messageTypeOf _ ≠ some .HELLO
    rw [messageTypeOf_publishFrame h]
    decide
  request h _ := h.not_hello
  reply h _ := ReplyAttempt.not_hello h

/-! ## Silence is kept exactly by discreet tasks -/

section Silence

variable {c d : Client}

/-- A task with the right frame keeps the silence exactly if it is discreet. -/
theorem Task.silent_body {t : Task} (ht : t.Greeting) :
    Silent (t.body.run c).2.session.out.writes ↔
      Silent c.session.out.writes ∧ t.Discreet c := by
  rw [t.writes_body]
  cases t with
  | stop => simp [sends, Discreet, Quiet]
  | join buffer =>
      have hhello : messageTypeOf buffer = some .HELLO := ht
      by_cases hj : c.session.sessionId = 0
      · simp [sends, hj, Discreet, Quiet, silent_sending, hhello]
      · simp [sends, hj, Discreet, Quiet]
  | leave buffer =>
      have hhello : messageTypeOf buffer ≠ some .HELLO := ht
      by_cases hj : c.session.sessionId = 0 <;>
        cases hg : c.session.goodbyeSent <;>
        simp [sends, hj, hg, Discreet, Quiet, silent_sending, hhello]
  | publish buffer =>
      have hhello : messageTypeOf buffer ≠ some .HELLO := ht
      by_cases hj : c.session.sessionId = 0 <;>
        simp [sends, hj, Discreet, Quiet, silent_sending, hhello]
  | request ref r entry buffer =>
      have hhello : messageTypeOf buffer ≠ some .HELLO := ht
      by_cases hj : c.session.sessionId = 0 <;>
        simp [sends, hj, Discreet, Quiet, silent_sending, hhello]
  | sendResult h buffer =>
      have hhello : messageTypeOf buffer ≠ some .HELLO := ht
      simp [sends, Discreet, Quiet, silent_sending, hhello]

theorem silent_left :
    Silent c.left.session.out.writes ↔
      Silent c.session.out.writes ∧ c.Parted := by
  rw [Client.left_writes]
  cases hg : c.session.goodbyeSent <;>
    simp [Client.Parted, hg, silent_sending, messageTypeOf_goodbyeFrame]

/-- Silence as the rule for tasks sees it. -/
theorem silent_rule :
    TaskRule Client.Greeting (fun c => Silent c.session.out.writes)
      Task.Discreet Client.Parted where
  keep h hc := posted_greeting.quiet hc h
  around h _ := by rw [h.out]
  task ht _ hc := by
    rw [Task.silent_body (hc _ (List.mem_of_getElem? ht))]
    rfl
  goodbye _ := silent_left
  answer h _ := by rw [h.out]
  destroy _ := Iff.rfl

/-- **Nothing is written after GOODBYE**, on the runs in which every task that
meets a silent session is discreet and every GOODBYE that does needs no
answer, and on no others. -/
theorem Client.everywhere_silent_iff (plan : Nat → WriteResult)
    (is : List Input) :
    Machine.Everywhere Client.step (fun c => Silent c.session.out.writes)
        (Client.new plan) is ↔
      Machine.EachStep Client.step (Input.Meets Task.Discreet Client.Parted)
        (Client.new plan) is := by
  refine Machine.everywhere_iff_eachStep eachEntry_nil fun pre i _ hpre => ?_
  rw [Machine.run_snoc]
  have hI : Client.Greeting ((Client.new plan).runs pre) :=
    posted_greeting.reachable (Client.reachable_runs plan pre)
  exact (silent_rule.step hI i).trans (and_iff_right hpre)

end Silence

/-- The peer says GOODBYE twice, and is answered twice. -/
theorem not_everywhere_silent :
    ¬ Machine.Everywhere Client.step (fun c => Silent c.session.out.writes)
      (Client.new fun _ => .complete)
      [.operate (.join (octets "realm1")), .task 0,
        .message (MessageType.WELCOME.object [.positiveInteger 7]) fun _ => {},
        .message (MessageType.GOODBYE.object
          [.map [], .str (octets "bye")]) fun _ => {},
        .message (MessageType.GOODBYE.object
          [.map [], .str (octets "bye")]) fun _ => {}] := by
  intro h
  have hanswer : messageTypeOf
      (goodbyeFrame (octets "wamp.error.goodbye_and_out")) = some .HELLO :=
    h _ (List.prefix_refl _)
      [(helloFrame (octets "realm1"), .complete),
        (goodbyeFrame (octets "wamp.error.goodbye_and_out"), .complete)]
      (goodbyeFrame (octets "wamp.error.goodbye_and_out"), .complete)
      ⟨[], rfl⟩ rfl
  rw [messageTypeOf_goodbyeFrame] at hanswer
  cases hanswer

end Autobahn
