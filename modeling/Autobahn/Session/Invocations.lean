import Autobahn.Session.Replies

/-!
# One invocation, at most one reply

What a reply call does (`run_reply`), what a procedure's script hands over for
its own invocation (`Script.reply`), and `ReplyContract`, which puts these
together with the invariants of `Replies` for every run.
-/

namespace Autobahn

open Foundation MsgPack Relation

/-! ## Only replies touch a handle -/

/-- Handles are as spendable as before. -/
def Client.Steady (c d : Client) : Prop :=
  d.invocations.map (fun v => (v.requestId, v.sendable, v.replies)) =
    c.invocations.map fun v => (v.requestId, v.sendable, v.replies)

instance : Std.Refl Client.Steady := ⟨fun _ => rfl⟩

instance : IsTrans Client Client.Steady := ⟨fun _ _ _ h h' => h'.trans h⟩

theorem Client.Steady.same {c d : Client} (h : d.invocations = c.invocations) :
    c.Steady d := by
  rw [Client.Steady, h]

theorem Client.Steady.hand (c : Client) (h : Nat) (buffer : Frame) :
    c.Steady (c.hand h buffer) := by
  refine List.ext_getElem? fun i => ?_
  rw [List.getElem?_map, Client.hand, Client.getElem?_modifyInvocation,
    List.getElem?_map]
  split
  · cases c.invocations[i]? <;> rfl
  · rfl

theorem Client.Steady.get {c d : Client} (h : c.Steady d) {n : Nat}
    {v : WampInvocation} (hv : c.invocations[n]? = some v) :
    ∃ w, d.invocations[n]? = some w ∧ w.requestId = v.requestId ∧
      w.sendable = v.sendable ∧ w.replies = v.replies := by
  have hn := congrArg (fun l => l[n]?) h
  simp only [List.getElem?_map, hv, Option.map_some] at hn
  obtain ⟨w, hw, heq⟩ := Option.map_eq_some_iff.mp hn
  simp only [Prod.mk.injEq] at heq
  exact ⟨w, hw, heq⟩

section Steady

theorem send_steady (buffer : Frame) :
    Exec.Moves Client.Steady (send buffer) :=
  .modify fun _ => .same rfl

theorem abandonRequest_steady (ref : Nat) :
    Exec.Moves Client.Steady (abandonRequest ref) :=
  .modify fun _ => .same rfl

theorem settle_steady {α : Type} (p : Promise Exn α) (r : Except Exn α)
    (store : Promise Exn α → WampSession → WampSession) :
    Exec.Moves Client.Steady (settle p r store) :=
  settle_moves fun _ _ => .same rfl

theorem getFuture_steady {α : Type} (p : Promise Exn α)
    (store : Promise Exn α → WampSession → WampSession) :
    Exec.Moves Client.Steady (getFuture p store) :=
  getFuture_moves fun _ _ => .same rfl

theorem body_steady (t : Task) : Exec.Moves Client.Steady t.body := by
  cases t with
  | stop =>
      exact .bind .get fun c => .check (.throw _) fun _ => .check (.throw _)
        fun _ => .bind (.modify fun _ => .same rfl) fun _ => settle_steady _ _ _
  | join buffer =>
      exact .bind .get fun c => .check (.throw _) fun _ => send_steady _
  | leave buffer =>
      exact .bind .get fun c => .check (.throw _) fun _ => .check (.throw _)
        fun _ => .bind (.modify fun _ => .same rfl) fun _ => send_steady _
  | publish buffer =>
      exact .bind .get fun c => .check (.throw _) fun _ => send_steady _
  | request response requestId entry buffer =>
      have hrest : ∀ u : Unit, Exec.Moves Client.Steady (do
          modify fun c => c.enter response requestId entry
          send buffer : ClientM Unit) :=
        fun _ => .bind (.modify fun _ => .same rfl) fun _ => send_steady _
      exact .bind .get fun c => .ite (fun _ => .bind (abandonRequest_steady _)
        fun _ => .bind (.throw _) hrest) fun _ => hrest ()
  | sendResult h buffer =>
      exact .bind (.modify fun c => .hand c h buffer) fun _ => send_steady _

theorem runTask_steady (n : Nat) : Exec.Moves Client.Steady (runTask n) := by
  refine .bind .get fun c => ?_
  split
  · exact .pure _
  · next t _ =>
    refine .bind (.modify fun _ => .same rfl) fun _ => .bind .get fun d => ?_
    refine .ite (fun _ => body_steady t) fun _ => ?_
    cases t with
    | request => exact abandonRequest_steady _
    | _ => exact .pure _

theorem dispatch_steady (io : Bool) (t : Task) :
    Exec.Moves Client.Steady (dispatch io t) :=
  .bind .get fun _ => .bind (.modify fun _ => .same rfl) fun _ =>
    .ite (fun _ => runTask_steady _) fun _ => .pure _

theorem packed_steady {α : Type} (x : Except Exn α) :
    Exec.Moves Client.Steady (packed x) := by
  cases x with
  | ok a => exact .pure a
  | error e => exact .throw _

theorem nextRequestId_steady : Exec.Moves Client.Steady nextRequestId :=
  .bind (.modify fun _ => .same rfl) fun _ => .bind .get fun _ => .pure _

theorem newRequest_steady (q : Request) :
    Exec.Moves Client.Steady (newRequest q) := fun _ => .same rfl

theorem request_steady (io : Bool) (op : Operation) (entry : Entry)
    (frame : UInt64 → Except Exn Frame) :
    Exec.Moves Client.Steady (request io op entry frame) :=
  .bind nextRequestId_steady fun _ => .bind (packed_steady _) fun _ =>
    .bind (newRequest_steady _) fun _ => dispatch_steady io _

theorem operate_steady (io : Bool) (op : Operation) :
    Exec.Moves Client.Steady (operate io op) := by
  cases op with
  | stop =>
      exact .bind (dispatch_steady io _) fun _ => .bind .get fun _ =>
        getFuture_steady _ _
  | join realm =>
      exact .bind (dispatch_steady io _) fun _ => .bind .get fun _ =>
        getFuture_steady _ _
  | leave reason =>
      exact .bind (dispatch_steady io _) fun _ => .bind .get fun _ =>
        getFuture_steady _ _
  | publish topic payload =>
      exact .bind nextRequestId_steady fun _ => .bind (packed_steady _)
        fun _ => dispatch_steady io _
  | _ => exact request_steady io _ _ _

end Steady

/-! ## The reply of one invocation -/

/-- The frame of the first attempt on the handle `h` whose packing works. -/
def firstReply (i : UInt64) (h : Nat) : List Action → Option Frame
  | [] => none
  | .respond h' attempt :: as =>
      if h' = h then
        match attempt.frame i with
        | .ok buffer => some buffer
        | .error _ => firstReply i h as
      else firstReply i h as
  | _ :: as => firstReply i h as

/-- What an unanswered invocation is answered with when the script ends. -/
def Ending.reply (i : UInt64) : Ending → Option Frame
  | .returns => none
  | .throwsStd what => ((whatError what).frame i).toOption
  | .throwsOther => (bareError.frame i).toOption

/-- The reply of a procedure that runs this script for the invocation `i`
with handle `h`: its own first one, or the automatic ERROR. -/
def Script.reply (s : Script) (i : UInt64) (h : Nat) : Option Frame :=
  (firstReply i h s.actions).or (s.ending.reply i)

/-- The invocation with handle `h` has the id `i` and has been answered with
this frame, or not yet. -/
def Client.RepliedWith (c : Client) (h : Nat) (i : UInt64)
    (reply : Option Frame) : Prop :=
  ∃ v, c.invocations[h]? = some v ∧ v.requestId = i ∧
    v.sendable = reply.isNone ∧ v.handed = reply.toList

section Reply

variable {c d : Client} {h : Nat} {i : UInt64}

/-- An answered invocation keeps its one frame. -/
theorem Client.RepliedWith.keep {buffer : Frame} (hd : d.Replying)
    (hk : c.Keeps d) (hr : c.RepliedWith h i (some buffer)) :
    d.RepliedWith h i (some buffer) := by
  obtain ⟨v, hv, hid, hs, hhanded⟩ := hr
  obtain ⟨w, hw, hid', hpre, hspent⟩ := hk h v hv
  obtain ⟨hs', -⟩ := hspent hs
  refine ⟨w, hw, hid'.trans hid, hs', ?_⟩
  have hle := (hd.handed_le hw).1
  rw [hd.spent hw, hs'] at hle
  rw [hhanded] at hpre
  exact (hpre.eq_of_length_le hle).symm

/-- A step without a reply leaves an unanswered invocation unanswered. -/
theorem Client.RepliedWith.steady (hd : d.Replying) (hk : c.Steady d)
    (hr : c.RepliedWith h i none) : d.RepliedWith h i none := by
  obtain ⟨v, hv, hid, hs, -⟩ := hr
  obtain ⟨w, hw, hid', hs', -⟩ := hk.get hv
  have hsend : w.sendable = true := hs'.trans hs
  exact ⟨w, hw, hid'.trans hid, hsend, hd.handed_eq_nil hw hsend⟩

/-- The invocation after a reply on the `io_service` thread. -/
theorem Client.replied_invocations (ha : c.alive = true) (h n : Nat)
    (buffer : Frame) :
    (c.replied true h buffer).invocations[n]? =
      if h = n then (c.invocations[n]?).map fun v => { v with
        replies := v.replies ++ [buffer]
        sendable := false
        handed := v.handed ++ [buffer] }
      else c.invocations[n]? := by
  have heq : (c.replied true h buffer).invocations =
      ((c.answer h buffer).hand h buffer).invocations := by
    rw [Client.replied, if_pos ⟨ha, rfl⟩]
    rfl
  rw [heq, Client.hand, Client.getElem?_modifyInvocation,
    Client.answer_invocations, Client.getElem?_modifyInvocation]
  split
  · rw [Option.map_map]
    rfl
  · rfl

/-- A reply to an unanswered invocation, from its own procedure. -/
theorem Client.RepliedWith.reply (ha : c.alive = true)
    (hr : c.RepliedWith h i none) (attempt : ReplyAttempt) :
    ((reply true h attempt).run c).2.RepliedWith h i
      (attempt.frame i).toOption := by
  obtain ⟨v, hv, rfl, hs, hhanded⟩ := hr
  have hsend : v.sendable = true := hs
  simp only [run_reply, hv, hsend, if_true]
  cases hb : attempt.frame v.requestId with
  | error e => exact ⟨v, hv, rfl, hs, hhanded⟩
  | ok buffer =>
      refine ⟨{ v with
        replies := v.replies ++ [buffer]
        sendable := false
        handed := v.handed ++ [buffer] }, ?_, rfl, rfl, ?_⟩
      · rw [Client.replied_invocations ha, if_pos rfl, hv, Option.map_some]
      · show v.handed ++ [buffer] = [buffer]
        rw [hhanded]
        rfl

/-- A reply to another invocation is none to this one. -/
theorem Client.RepliedWith.reply_of_ne (ha : c.alive = true)
    (hr : c.RepliedWith h i none) {h' : Nat} (hne : h' ≠ h)
    (attempt : ReplyAttempt) :
    ((Autobahn.reply true h' attempt).run c).2.RepliedWith h i none := by
  obtain ⟨v, hv, hr⟩ := hr
  refine ⟨v, ?_, hr⟩
  rw [run_reply]
  cases hv' : c.invocations[h']? with
  | none => exact hv
  | some v' =>
  dsimp only
  split
  · cases attempt.frame v'.requestId with
    | error e => exact hv
    | ok buffer =>
        dsimp only
        rw [Client.replied_invocations ha, if_neg hne, hv]
  · exact hv

/-- What a procedure's actions hand over for its invocation: the first reply
that packs. -/
theorem Client.RepliedWith.runActions (as : List Action) :
    ∀ {c : Client}, c.Replying → c.alive = true → c.RepliedWith h i none →
      ((runActions true as).run c).2.RepliedWith h i (firstReply i h as) := by
  induction as with
  | nil => exact fun _ _ hr => hr
  | cons a as ih =>
      intro c hc ha hr
      rw [run_runActions_cons]
      have hacts := action_acts true a c
      have hd : ((a.run true).run c).2.Replying := hc.acts hacts
      have had : ((a.run true).run c).2.alive = true :=
        hacts.routing.2.2.2.trans ha
      have hrest := runActions_acts true as ((a.run true).run c).2
      cases a with
      | invoke op => exact ih hd had (hr.steady hd (operate_steady true op c))
      | poll n => exact ih hd had (hr.steady hd (runTask_steady n c))
      | respond h' attempt =>
          by_cases hh : h' = h
          · subst hh
            have hrep := hr.reply ha attempt
            simp only [firstReply, if_true]
            cases hb : attempt.frame i with
            | error e =>
                rw [hb] at hrep
                exact ih hd had hrep
            | ok buffer =>
                rw [hb] at hrep
                exact hrep.keep (hd.acts hrest) (.acts hrest)
          · simp only [firstReply, if_neg hh]
            exact ih hd had (hr.reply_of_ne ha hh attempt)

/-- The automatic ERROR goes out when the invocation is still unanswered. -/
theorem Client.RepliedWith.replyError (hc : c.Replying) (ha : c.alive = true)
    {reply : Option Frame} (hr : c.RepliedWith h i reply)
    (attempt : ReplyAttempt) :
    ((Autobahn.replyError h attempt).run c).2.RepliedWith h i
      (reply.or (attempt.frame i).toOption) := by
  obtain ⟨v, hv, -, hs, -⟩ := id hr
  cases reply with
  | some buffer =>
      have hacts := replyError_acts h attempt c
      exact hr.keep (hc.acts hacts) (.acts hacts)
  | none =>
      have hrun : (Autobahn.replyError h attempt).run c =
          (Autobahn.reply true h attempt).run c := by
        simp [Autobahn.replyError, Exec.run_bind, hv, hs]
      rw [hrun]
      exact hr.reply ha attempt

/-- A procedure answers its invocation with the reply of its script. -/
theorem Client.RepliedWith.callProcedure (hc : c.Replying)
    (ha : c.alive = true) (hr : c.RepliedWith h i none) (p : WampProcedure)
    (s : Script) :
    ((Autobahn.callProcedure p h s).run c).2.RepliedWith h i (s.reply i h) := by
  have hc' : (c.callBack (.invocation p h)).Replying := hc.same rfl id rfl
  have hacts := s.after_acts (c.callBack (.invocation p h))
  have hafter : (s.after (c.callBack (.invocation p h))).RepliedWith h i
      (firstReply i h s.actions) :=
    Client.RepliedWith.runActions s.actions hc' ha hr
  have halive := hacts.routing.2.2.2.trans ha
  rw [run_callProcedure, Script.reply]
  cases s.ending with
  | returns =>
      rw [Ending.reply, Option.or_none]
      exact hafter
  | throwsStd what => exact hafter.replyError (hc'.acts hacts) halive _
  | throwsOther => exact hafter.replyError (hc'.acts hacts) halive _

end Reply

/-! ## The contract -/

/-- What a session promises about the replies to its invocations. -/
structure Client.ReplyContract (c : Client) : Prop where
  /-- at most one frame is handed to `send`, and it carries the request id -/
  atMostOne : ∀ {h : Nat} {v : WampInvocation}, c.invocations[h]? = some v →
    v.handed.length ≤ 1 ∧ ∀ buffer ∈ v.handed,
      replyIdOf buffer = some v.requestId
  /-- an INVOCATION of a registered procedure is answered before its handler
  returns with the first reply that packs, else with an ERROR if the procedure
  throws, else not yet -/
  invoked : ∀ {obj g i details arguments kwArguments p} (user : UserCode),
    Incoming.read obj = .invocation g i details arguments kwArguments →
    c.alive = true → c.session.procedures.find g = some p →
    (c.step (.message obj user)).RepliedWith c.invocations.length i
      ((user 0).reply i c.invocations.length)
  /-- an attempt that fails to pack throws and changes nothing -/
  unpacked : ∀ (io : Bool) {h : Nat} {v : WampInvocation} {attempt e},
    c.invocations[h]? = some v → v.sendable = true →
    attempt.frame v.requestId = .error e →
    (reply io h attempt).run c = (.error (.throws e), c)
  /-- one that packs spends the handle; its frame is handed over at once on
  the `io_service` thread, is queued on another thread, and is lost when the
  session is gone -/
  replied : ∀ (io : Bool) {h : Nat} {v : WampInvocation} {attempt buffer},
    c.invocations[h]? = some v → v.sendable = true →
    attempt.frame v.requestId = .ok buffer →
    ∃ d w, (reply io h attempt).run c = (.ok (), d) ∧
      d.invocations[h]? = some w ∧ w.sendable = false ∧
      w.handed = (if c.alive ∧ io then [buffer] else []) ∧
      (c.alive = true → io = false →
        d.tasks = c.tasks ++ [.sendResult h buffer])
  /-- a queued reply is handed over when its task runs -/
  delivered : ∀ {n h buffer}, c.tasks[n]? = some (.sendResult h buffer) →
    c.alive = true → ∃ w, (c.step (.task n)).invocations[h]? = some w ∧
      w.handed = [buffer]
  /-- on a spent handle every attempt throws and changes nothing, -/
  refused : ∀ (io : Bool) {h : Nat} {v : WampInvocation} (attempt),
    c.invocations[h]? = some v → v.sendable = false →
    (reply io h attempt).run c =
      (.error (.throws (.runtimeError notSendable)), c)
  /-- and it is spent for good -/
  spent : ∀ {h : Nat} {v : WampInvocation}, c.invocations[h]? = some v →
    v.sendable = false → ∀ is, ∃ w, (c.runs is).invocations[h]? = some w ∧
      w.sendable = false ∧ w.replies = v.replies ∧ v.handed <+: w.handed

theorem Client.runTask_sendResult {c : Client} {n h : Nat} {buffer : Frame}
    (ht : c.tasks[n]? = some (.sendResult h buffer)) (ha : c.alive = true) :
    c.step (.task n) = ((c.dequeue n).hand h buffer).sent buffer := by
  simp [Client.step, Input.needsSession, Input.program, runTask, ht, Task.run,
    Task.body, Exec.run_bind, Client.dequeue, ha, send, Client.hand,
    Client.sent]

/-- When the handler of an INVOCATION returns, the invocation has been answered
with the reply of the procedure's script. -/
theorem Client.Reachable.repliedWith {c : Client} (h : c.Reachable)
    (ha : c.alive = true) {obj : Object} {g i : UInt64}
    {details arguments kwArguments : Object} {p : WampProcedure} (user : UserCode)
    (hread : Incoming.read obj = .invocation g i details arguments kwArguments)
    (hp : c.session.procedures.find g = some p) :
    (c.step (.message obj user)).RepliedWith c.invocations.length i
      ((user 0).reply i c.invocations.length) := by
  rw [Client.step_message, if_pos ha, hread, run_invocation user hp]
  let v : WampInvocation :=
    { requestId := i, details, arguments, kwArguments, sendable := true }
  have hnew : ({ c with invocations := c.invocations ++ [v] } : Client).Replying :=
    (h.replying.invoke p (v := v) rfl rfl rfl).same rfl id rfl
  have hfresh : ({ c with invocations := c.invocations ++ [v] } :
      Client).RepliedWith c.invocations.length i none :=
    ⟨v, by simp, rfl, rfl, rfl⟩
  exact hfresh.callProcedure hnew ha p (user 0)

/-- **Every reachable state keeps the reply contract.** -/
theorem Client.reply_contract (plan : Nat → WriteResult) (is : List Input) :
    ((Client.new plan).runs is).ReplyContract := by
  have hr := Client.reachable_runs plan is
  have hc := hr.replying
  generalize (Client.new plan).runs is = c at hr hc
  constructor
  case atMostOne =>
    intro h v hv
    obtain ⟨hlen, hsub⟩ := hc.handed_le hv
    refine ⟨hlen.trans ?_, fun b hb => hc.tagged hv b (hsub hb)⟩
    rw [hc.spent hv]
    split <;> simp
  case invoked =>
    intro obj g i details arguments kwArguments p user hread ha hp
    exact hr.repliedWith ha user hread hp
  case unpacked =>
    intro io h v attempt e hv hs hb
    simp [run_reply, hv, hs, hb]
  case replied =>
    intro io h v attempt buffer hv hs hb
    have hnil := hc.handed_eq_nil hv hs
    have hrun : (reply io h attempt).run c = (.ok (), c.replied io h buffer) := by
      simp [run_reply, hv, hs, hb]
    by_cases hio : c.alive = true ∧ io = true
    · obtain ⟨ha, rfl⟩ := hio
      have hw := Client.replied_invocations ha h h buffer
      rw [if_pos rfl, hv, Option.map_some] at hw
      exact ⟨_, _, hrun, hw, rfl, by simp [hnil, ha], by simp⟩
    · have hans : c.replied io h buffer = c.answer h buffer := if_neg hio
      have hw : (c.answer h buffer).invocations[h]? = some { v with
          replies := v.replies ++ [buffer], sendable := false } := by
        rw [Client.answer_invocations, Client.getElem?_modifyInvocation,
          if_pos rfl, hv, Option.map_some]
      rw [hans] at hrun
      refine ⟨_, _, hrun, hw, rfl, by simp [hnil, hio], fun ha _ => ?_⟩
      rw [Client.answer_tasks, if_pos ha]
  case delivered =>
    intro n h buffer ht ha
    obtain ⟨v, hv⟩ : ∃ v, c.invocations[h]? = some v :=
      ⟨_, List.getElem?_eq_getElem (hc.bound (List.mem_of_getElem? ht))⟩
    have hw : (c.step (.task n)).invocations[h]? =
        some { v with handed := v.handed ++ [buffer] } := by
      rw [Client.runTask_sendResult ht ha]
      show ((c.dequeue n).hand h buffer).invocations[h]? = _
      rw [Client.hand, Client.getElem?_modifyInvocation, if_pos rfl,
        show (c.dequeue n).invocations[h]? = _ from hv, Option.map_some]
    refine ⟨_, hw, ?_⟩
    have hle := ((hr.step (.task n)).replying.handed_le hw).1
    rw [(hr.step (.task n)).replying.spent hw] at hle
    simp only [List.length_append, List.length_singleton] at hle
    have hnil : v.handed = [] := by
      apply List.eq_nil_of_length_eq_zero
      split at hle <;> omega
    simp only [hnil, List.nil_append]
  case refused =>
    intro io h v attempt hv hs
    simp [run_reply, hv, hs]
  case spent =>
    intro h v hv hs is
    obtain ⟨w, hw, -, hpre, hspent⟩ := Client.Keeps.runs c is h v hv
    obtain ⟨hs', hrep⟩ := hspent hs
    exact ⟨w, hw, hs', hrep, hpre⟩

/-- The stronger promise: the frame is handed over in the same call that packs
it. -/
def Client.RepliesAtOnce (c : Client) : Prop :=
  ∀ (io : Bool) (h : Nat) (v : WampInvocation) attempt buffer,
    c.invocations[h]? = some v → v.sendable = true →
    attempt.frame v.requestId = .ok buffer →
    ∃ w, ((reply io h attempt).run c).2.invocations[h]? = some w ∧
      w.handed.length = 1

/-- A procedure keeps its handle and the session goes away: the late result
packs, and is handed to nobody. -/
theorem not_repliesAtOnce :
    let is : List Input :=
      [.message (MessageType.WELCOME.object [.positiveInteger 7]) fun _ => {},
        .operate (.provide (octets "com.p") ⟨0⟩ []), .task 0,
        .message (MessageType.REGISTERED.object
          [.positiveInteger 1, .positiveInteger 5]) fun _ => {},
        .message (MessageType.INVOCATION.object
          [.positiveInteger 3, .positiveInteger 5, .map []]) fun _ => {},
        .destroy]
    ¬ ((Client.new fun _ => .complete).runs is).RepliesAtOnce := by
  intro is h
  obtain ⟨w, hw, hlen⟩ := h true 0 _ (.result .none) _ rfl rfl rfl
  obtain rfl := Option.some.inj hw
  exact absurd hlen (by decide)

end Autobahn
