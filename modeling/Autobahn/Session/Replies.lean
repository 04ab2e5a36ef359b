import Autobahn.Session.Events

/-!
# Replies to an invocation

`Replying` follows the buffer of a reply from `m_send_result_fn` through the
queue to `send`. From it: an invocation hands at most one frame to `send`, the
frame carries its request id, and once a reply has gone through every later
attempt throws.

A reply made on another thread waits in the queue, and is lost when the
session goes away first.
-/

namespace Autobahn

open Foundation MsgPack Relation

/-- The request id in a YIELD or in the ERROR of an invocation. -/
def replyIdOf (frame : Frame) : Option UInt64 :=
  match decode frame with
  | some (.positiveInteger code :: .positiveInteger i :: rest) =>
      if code = MessageType.YIELD.code then some i
      else if code = MessageType.ERROR.code ∧
          i = MessageType.INVOCATION.code then
        match rest with
        | .positiveInteger i' :: _ => some i'
        | _ => none
      else none
  | _ => none

/-- A reply carries the request id of its invocation. -/
theorem ReplyAttempt.replyIdOf {attempt : ReplyAttempt} {i : UInt64}
    {buffer : Frame} (h : attempt.frame i = .ok buffer) :
    replyIdOf buffer = some i := by
  cases attempt with
  | result payload =>
      rw [ReplyAttempt.frame, yieldFrame_eq_pack] at h
      obtain ⟨os, -, rfl⟩ := exists_of_map_eq_ok h
      simp [Autobahn.replyIdOf]
  | error uri payload =>
      rw [ReplyAttempt.frame, errorFrame_eq_pack] at h
      obtain ⟨os, -, rfl⟩ := exists_of_map_eq_ok h
      simp [Autobahn.replyIdOf, MessageType.code]

/-- The buffer a queued task will hand over for the invocation `n`. -/
def Task.replyFor (n : Nat) : Task → Option Frame
  | .sendResult h buffer => if h = n then some buffer else none
  | _ => none

def Client.queuedReplies (c : Client) (n : Nat) : List Frame :=
  c.tasks.filterMap (Task.replyFor n)

structure Client.Replying (c : Client) : Prop where
  bound : ∀ {h buffer}, .sendResult h buffer ∈ c.tasks →
    h < c.invocations.length
  spent : ∀ {n : Nat} {v : WampInvocation}, c.invocations[n]? = some v →
    v.replies.length = if v.sendable then 0 else 1
  tagged : ∀ {n : Nat} {v : WampInvocation}, c.invocations[n]? = some v →
    ∀ buffer ∈ v.replies,
    replyIdOf buffer = some v.requestId
  /-- Every reply has been handed over, is queued, or went with the session. -/
  account : ∀ {n : Nat} {v : WampInvocation}, c.invocations[n]? = some v → ∃ lost,
    (v.handed ++ c.queuedReplies n ++ lost).Perm v.replies ∧
      (c.alive = true → lost = [])

section Keep

variable {c d : Client}

/-- The queue keeps its replies. -/
theorem Client.Replying.congr (hc : c.Replying)
    (hinv : d.invocations = c.invocations)
    (halive : d.alive = true → c.alive = true)
    (hqueued : ∀ n, (d.queuedReplies n).Perm (c.queuedReplies n))
    (hmem : ∀ {h buffer}, .sendResult h buffer ∈ d.tasks →
      .sendResult h buffer ∈ c.tasks) : d.Replying where
  bound := fun h => by
    rw [hinv]
    exact hc.bound (hmem h)
  spent := by
    rw [hinv]
    exact hc.spent
  tagged := by
    rw [hinv]
    exact hc.tagged
  account := by
    intro n v hv
    rw [hinv] at hv
    obtain ⟨lost, hperm, hlost⟩ := hc.account hv
    exact ⟨lost, (((hqueued n).append_left v.handed).append_right lost).trans
      hperm, fun ha => hlost (halive ha)⟩

theorem Client.Replying.same (hc : c.Replying)
    (hinv : d.invocations = c.invocations)
    (halive : d.alive = true → c.alive = true) (htasks : d.tasks = c.tasks) :
    d.Replying := by
  refine hc.congr hinv halive (fun n => ?_) fun h => htasks ▸ h
  rw [Client.queuedReplies, htasks]
  exact List.Perm.refl _

theorem Client.Replying.enqueue (hc : c.Replying) {t : Task}
    (ht : ∀ n, t.replyFor n = none) : (c.enqueue t).Replying := by
  refine hc.congr rfl id (fun n => ?_) fun {h buffer} hmem => ?_
  · simp [Client.queuedReplies, Client.enqueue, List.filterMap_append, ht n]
  · rcases List.mem_append.mp hmem with hmem | hmem
    · exact hmem
    · have := ht h
      rw [← List.mem_singleton.mp hmem] at this
      simp [Task.replyFor] at this

theorem Client.queuedReplies_perm {n m : Nat} {t : Task}
    (ht : c.tasks[n]? = some t) :
    ((t.replyFor m).toList ++ (c.dequeue n).queuedReplies m).Perm
      (c.queuedReplies m) := by
  have hperm := (Client.tasks_perm ht).filterMap (Task.replyFor m)
  rw [List.filterMap_cons] at hperm
  cases h : t.replyFor m <;> rw [h] at hperm <;> exact hperm

theorem Client.Replying.dequeue (hc : c.Replying) {n : Nat} {t : Task}
    (ht : c.tasks[n]? = some t) (hr : ∀ m, t.replyFor m = none) :
    (c.dequeue n).Replying := by
  refine hc.congr rfl id (fun m => ?_) fun hmem => List.mem_of_mem_eraseIdx hmem
  have hperm := Client.queuedReplies_perm (m := m) ht
  rw [hr m] at hperm
  exact hperm

theorem Client.getElem?_modifyInvocation (c : Client) (h i : Nat)
    (f : WampInvocation → WampInvocation) :
    (c.modifyInvocation h f).invocations[i]? =
      if h = i then (c.invocations[i]?).map f else c.invocations[i]? := by
  simp only [Client.modifyInvocation, List.getElem?_modify]
  split <;> simp

/-- A dead session loses the replies in the queue. -/
theorem Client.Replying.drop (hc : c.Replying) (ha : c.alive = false) {n : Nat}
    {t : Task} (ht : c.tasks[n]? = some t) : (c.dequeue n).Replying where
  bound := fun h => hc.bound (List.mem_of_mem_eraseIdx h)
  spent := hc.spent
  tagged := hc.tagged
  account := by
    intro m v hv
    obtain ⟨lost, hperm, -⟩ := hc.account hv
    refine ⟨(t.replyFor m).toList ++ lost, ?_,
      fun h => absurd (ha.symm.trans h) (by simp)⟩
    have hq := Client.queuedReplies_perm (m := m) ht
    refine List.Perm.trans ?_ hperm
    rw [List.append_assoc, List.append_assoc, ← List.append_assoc _ _ lost]
    exact ((List.perm_append_comm.trans hq).append_right lost).append_left _

/-- A reply leaves the queue and is handed to `send`. -/
theorem Client.Replying.hand (hc : c.Replying) {n h : Nat} {buffer : Frame}
    (ht : c.tasks[n]? = some (.sendResult h buffer)) :
    ((c.dequeue n).hand h buffer).Replying := by
  have hget := fun i => Client.getElem?_modifyInvocation (c.dequeue n) h i
    fun v => { v with handed := v.handed ++ [buffer] }
  constructor
  case bound =>
    intro h' buffer' hmem
    have hlen : ((c.dequeue n).hand h buffer).invocations.length =
        c.invocations.length := by
      simp [Client.hand, Client.modifyInvocation, Client.dequeue]
    rw [hlen]
    exact hc.bound (List.mem_of_mem_eraseIdx hmem)
  case spent =>
    intro i v hv
    rw [Client.hand, hget] at hv
    split at hv
    · obtain ⟨v', hv', rfl⟩ := Option.map_eq_some_iff.mp hv
      exact hc.spent (n := i) (v := v') hv'
    · exact hc.spent (n := i) hv
  case tagged =>
    intro i v hv
    rw [Client.hand, hget] at hv
    split at hv
    · obtain ⟨v', hv', rfl⟩ := Option.map_eq_some_iff.mp hv
      exact hc.tagged (n := i) (v := v') hv'
    · exact hc.tagged (n := i) hv
  case account =>
    intro i v hv
    have hq := Client.queuedReplies_perm (m := i) ht
    rw [Client.hand, hget] at hv
    split at hv
    · next heq =>
      subst heq
      obtain ⟨v', hv', rfl⟩ := Option.map_eq_some_iff.mp hv
      obtain ⟨lost, hperm, hlost⟩ := hc.account (n := h) hv'
      refine ⟨lost, List.Perm.trans ?_ hperm, hlost⟩
      simp only [Task.replyFor, if_true, Option.toList_some] at hq
      show (v'.handed ++ [buffer] ++ (c.dequeue n).queuedReplies h ++ lost).Perm _
      rw [List.append_assoc v'.handed]
      exact (hq.append_left v'.handed).append_right lost
    · next hne =>
      obtain ⟨lost, hperm, hlost⟩ := hc.account (n := i) hv
      refine ⟨lost, List.Perm.trans ?_ hperm, hlost⟩
      simp only [Task.replyFor, if_neg hne, Option.toList_none,
        List.nil_append] at hq
      exact (hq.append_left v.handed).append_right lost

theorem Client.answer_invocations (c : Client) (h : Nat) (buffer : Frame) :
    (c.answer h buffer).invocations = (c.modifyInvocation h fun v =>
      { v with replies := v.replies ++ [buffer], sendable := false }).invocations := by
  unfold Client.answer
  split <;> rfl

theorem Client.answer_tasks (c : Client) (h : Nat) (buffer : Frame) :
    (c.answer h buffer).tasks =
      c.tasks ++ if c.alive then [.sendResult h buffer] else [] := by
  unfold Client.answer
  split
  · rfl
  · exact (List.append_nil _).symm

@[simp] theorem Client.answer_alive (c : Client) (h : Nat) (buffer : Frame) :
    (c.answer h buffer).alive = c.alive := by
  unfold Client.answer
  split <;> rfl

/-- A reply is passed on: to the queue, or nowhere when the session is gone. -/
theorem Client.Replying.answer (hc : c.Replying) {h : Nat} {v : WampInvocation}
    {attempt : ReplyAttempt} {buffer : Frame}
    (hv : c.invocations[h]? = some v) (hs : v.sendable)
    (hb : attempt.frame v.requestId = .ok buffer) :
    (c.answer h buffer).Replying := by
  have hnil : v.replies = [] := by
    have := hc.spent hv
    rw [hs] at this
    exact List.eq_nil_of_length_eq_zero this
  have hlt : h < c.invocations.length := (List.getElem?_eq_some_iff.mp hv).1
  have hget : ∀ i, (c.answer h buffer).invocations[i]? = if h = i then
      some { v with replies := [buffer], sendable := false }
      else c.invocations[i]? := by
    intro i
    rw [Client.answer_invocations, Client.getElem?_modifyInvocation]
    split
    · next hi =>
      subst hi
      rw [hv, Option.map_some, hnil, List.nil_append]
    · rfl
  have hqueued : ∀ i, (c.answer h buffer).queuedReplies i =
      c.queuedReplies i ++ if c.alive ∧ h = i then [buffer] else [] := by
    intro i
    rw [Client.queuedReplies, Client.answer_tasks, List.filterMap_append]
    by_cases ha : c.alive <;> by_cases hi : h = i <;>
      simp [ha, hi, Task.replyFor, Client.queuedReplies]
  constructor
  case bound =>
    intro h' buffer' hmem
    rw [Client.answer_tasks] at hmem
    rw [Client.answer_invocations, Client.modifyInvocation, List.length_modify]
    rcases List.mem_append.mp hmem with hmem | hmem
    · exact hc.bound hmem
    · split at hmem
      · obtain ⟨rfl, -⟩ := Task.sendResult.inj (List.mem_singleton.mp hmem)
        exact hlt
      · exact absurd hmem List.not_mem_nil
  case spent =>
    intro i w hw
    rw [hget] at hw
    split at hw
    · obtain rfl := Option.some.inj hw
      rfl
    · exact hc.spent hw
  case tagged =>
    intro i w hw
    rw [hget] at hw
    split at hw
    · obtain rfl := Option.some.inj hw
      intro b hmem
      rw [List.mem_singleton.mp hmem]
      exact ReplyAttempt.replyIdOf hb
    · exact hc.tagged hw
  case account =>
    intro i w hw
    rw [hget] at hw
    rw [hqueued, Client.answer_alive]
    split at hw
    · next hi =>
      subst hi
      obtain rfl := Option.some.inj hw
      obtain ⟨lost, hperm, hlost⟩ := hc.account hv
      rw [hnil] at hperm
      obtain ⟨hhanded, hqueue, -⟩ :
          v.handed = [] ∧ c.queuedReplies h = [] ∧ lost = [] := by
        simpa using hperm.eq_nil
      refine ⟨if c.alive then [] else [buffer], ?_, fun ha => if_pos ha⟩
      by_cases ha : c.alive <;> simp [ha, hhanded, hqueue]
    · next hi =>
      obtain ⟨lost, hperm, hlost⟩ := hc.account hw
      refine ⟨lost, ?_, hlost⟩
      simpa [hi] using hperm

/-- A new invocation has not been replied to. -/
theorem Client.Replying.invoke (hc : c.Replying) (p : WampProcedure)
    {v : WampInvocation} (hs : v.sendable) (hr : v.replies = [])
    (hh : v.handed = []) : (c.invoke p v).Replying := by
  have hcases : ∀ {i : Nat} {w : WampInvocation},
      (c.invoke p v).invocations[i]? = some w →
      c.invocations[i]? = some w ∨ i = c.invocations.length ∧ w = v := by
    intro i w hw
    rw [Client.invoke, List.getElem?_append] at hw
    split at hw
    · exact .inl hw
    · next hi =>
      obtain ⟨hlen, rfl⟩ := List.getElem?_eq_some_iff.mp hw
      simp only [List.length_singleton] at hlen
      exact .inr ⟨by omega, by simp⟩
  constructor
  case bound =>
    intro h buffer hmem
    have := hc.bound hmem
    simp only [Client.invoke, List.length_append, List.length_singleton]
    omega
  case spent =>
    intro i w hw
    rcases hcases hw with hw | ⟨-, rfl⟩
    · exact hc.spent hw
    · simp [hs, hr]
  case tagged =>
    intro i w hw
    rcases hcases hw with hw | ⟨-, rfl⟩
    · exact hc.tagged hw
    · simp [hr]
  case account =>
    intro i w hw
    rcases hcases hw with hw | ⟨rfl, rfl⟩
    · exact hc.account hw
    · refine ⟨[], ?_, fun _ => rfl⟩
      have hnone : (c.invoke p w).queuedReplies c.invocations.length = [] := by
        apply filterMap_eq_nil
        intro k t ht
        cases t with
        | sendResult h buffer =>
            have := hc.bound (List.mem_of_getElem? ht)
            exact if_neg (by omega)
        | _ => rfl
      rw [hh, hnone, hr]
      rfl

/-! ## Every step keeps the replies in order -/

theorem Client.Replying.act (hc : c.Replying) (h : Act c d) : d.Replying := by
  cases h with
  | takeId => exact hc.same rfl id rfl
  | submit => exact (hc.enqueue fun _ => rfl).same rfl id rfl
  | publish => exact (hc.enqueue fun _ => rfl).same rfl id rfl
  | stop => exact hc.enqueue fun _ => rfl
  | join => exact hc.enqueue fun _ => rfl
  | leave => exact hc.enqueue fun _ => rfl
  | retrieveStop => exact hc.same rfl id rfl
  | retrieveJoin => exact hc.same rfl id rfl
  | retrieveLeave => exact hc.same rfl id rfl
  | answer hv hs hb => exact hc.answer hv hs hb
  | skip ht howns hs =>
      by_cases ha : c.alive = true
      · apply hc.dequeue ht
        intro m
        have := hs ha
        unfold Task.replyFor
        split
        · next h buffer => exact absurd rfl (this h buffer)
        · rfl
      · exact hc.drop (by simpa using ha) ht
  | abandon ht => exact (hc.dequeue ht fun _ => rfl).same rfl id rfl
  | stopped ht => exact (hc.dequeue ht fun _ => rfl).same rfl id rfl
  | settleStop => exact hc.same rfl id rfl
  | joined ht => exact (hc.dequeue ht fun _ => rfl).same rfl id rfl
  | left ht => exact (hc.dequeue ht fun _ => rfl).same rfl id rfl
  | published ht => exact (hc.dequeue ht fun _ => rfl).same rfl id rfl
  | entered ht => exact (hc.dequeue ht fun _ => rfl).same rfl id rfl
  | handed ht => exact (hc.hand ht).same rfl id rfl

theorem Client.Replying.quiet (hc : c.Replying) (h : Quiet c d) :
    d.Replying := by
  cases h with
  | act h => exact hc.act h
  | invocation hp => exact hc.invoke _ rfl rfl rfl
  | _ => exact hc.same rfl id rfl

theorem Client.Replying.move (hc : c.Replying) (h : Move c d) :
    d.Replying := by
  cases h with
  | quiet h => exact hc.quiet h
  | answer h => cases h <;> exact hc.same rfl id rfl
  | destroy =>
      exact hc.same rfl (fun h => absurd h (by simp [Client.destroy])) rfl

theorem Client.replying_new (plan : Nat → WriteResult) :
    (Client.new plan).Replying := by
  constructor <;> simp [Client.new]

theorem Client.Reachable.replying (h : c.Reachable) : c.Replying :=
  h.invariant Client.replying_new fun _ _ hmove hc => hc.move hmove

theorem Client.Replying.acts (hc : c.Replying) (h : Acts c d) :
    d.Replying := by
  induction h with
  | refl => exact hc
  | tail _ h ih => exact ih.act h

/-- Handed frames are among the replies, and there is at most one. -/
theorem Client.Replying.handed_le (hc : c.Replying) {n : Nat}
    {v : WampInvocation} (hv : c.invocations[n]? = some v) :
    v.handed.length ≤ v.replies.length ∧ v.handed ⊆ v.replies := by
  obtain ⟨lost, hperm, -⟩ := hc.account hv
  have hlen := hperm.length_eq
  simp only [List.length_append] at hlen
  refine ⟨by omega, fun b hb => hperm.subset ?_⟩
  exact List.mem_append_left _ (List.mem_append_left _ hb)

theorem Client.Replying.handed_eq_nil (hc : c.Replying) {n : Nat}
    {v : WampInvocation} (hv : c.invocations[n]? = some v)
    (hs : v.sendable = true) : v.handed = [] := by
  have hle := (hc.handed_le hv).1
  rw [hc.spent hv, hs] at hle
  exact List.eq_nil_of_length_eq_zero (Nat.le_zero.mp hle)

/-! ## Spent handles stay spent -/

/-- Invocations stay, a spent one stays spent, and what has been handed over
has been. -/
def Client.Keeps (c d : Client) : Prop :=
  ∀ (h : Nat) (v : WampInvocation), c.invocations[h]? = some v →
    ∃ w, d.invocations[h]? = some w ∧ w.requestId = v.requestId ∧
      v.handed <+: w.handed ∧
      (v.sendable = false → w.sendable = false ∧ w.replies = v.replies)

theorem Client.Keeps.refl (c : Client) : c.Keeps c :=
  fun _ v hv => ⟨v, hv, rfl, List.prefix_refl _, fun h => ⟨h, rfl⟩⟩

theorem Client.Keeps.same (h : d.invocations = c.invocations) : c.Keeps d :=
  fun n v hv => Client.Keeps.refl d n v (h ▸ hv)

theorem Client.Keeps.trans {e : Client} (h : c.Keeps d) (h' : d.Keeps e) :
    c.Keeps e := by
  intro n v hv
  obtain ⟨w, hw, hid, hpre, hspent⟩ := h n v hv
  obtain ⟨x, hx, hid', hpre', hspent'⟩ := h' n w hw
  refine ⟨x, hx, hid'.trans hid, hpre.trans hpre', fun hs => ?_⟩
  obtain ⟨hs', hr⟩ := hspent hs
  obtain ⟨hs'', hr'⟩ := hspent' hs'
  exact ⟨hs'', hr'.trans hr⟩

theorem Client.Keeps.act (h : Act c d) : c.Keeps d := by
  cases h with
  | answer hv hs hb =>
      rename_i n v attempt buffer
      intro i w hw
      refine ⟨if n = i then
        { w with replies := w.replies ++ [buffer], sendable := false } else w,
        ?_, ?_, ?_, fun hsw => ?_⟩
      · rw [Client.answer_invocations, Client.getElem?_modifyInvocation, hw]
        split <;> rfl
      · split <;> rfl
      · split <;> exact List.prefix_refl _
      · split
        · next hi =>
          subst hi
          rw [hv] at hw
          obtain rfl := Option.some.inj hw
          rw [hs] at hsw
          cases hsw
        · exact ⟨hsw, rfl⟩
  | handed ht ha =>
      rename_i m n buffer
      intro i w hw
      have hget := Client.getElem?_modifyInvocation (c.dequeue m) n i
        fun v => { v with handed := v.handed ++ [buffer] }
      refine ⟨if n = i then { w with handed := w.handed ++ [buffer] } else w,
        ?_, ?_, ?_, fun hsw => ?_⟩
      · show ((c.dequeue m).hand n buffer).invocations[i]? = _
        rw [Client.hand, hget, show (c.dequeue m).invocations[i]? = _ from hw]
        split <;> rfl
      · split <;> rfl
      · split
        · exact List.prefix_append _ _
        · exact List.prefix_refl _
      · split <;> exact ⟨hsw, rfl⟩
  | _ => exact .same rfl

theorem Client.Keeps.acts (h : Acts c d) : c.Keeps d := by
  induction h with
  | refl => exact .refl c
  | tail _ h ih => exact ih.trans (.act h)

theorem Client.Keeps.move (h : Move c d) : c.Keeps d := by
  cases h with
  | quiet h =>
      cases h with
      | act h => exact .act h
      | invocation hp =>
          intro i w hw
          refine ⟨w, ?_, rfl, List.prefix_refl _, fun hs => ⟨hs, rfl⟩⟩
          have hlt := (List.getElem?_eq_some_iff.mp hw).1
          rw [Client.invoke, List.getElem?_append_left hlt, hw]
      | _ => exact .same rfl
  | answer h => cases h <;> exact .same rfl
  | destroy => exact .same rfl

theorem Client.Keeps.step (c : Client) (i : Input) : c.Keeps (c.step i) := by
  have h := c.step_moves i
  generalize c.step i = d at h
  induction h with
  | refl => exact .refl c
  | tail _ h ih => exact ih.trans (.move h)

theorem Client.Keeps.runs (c : Client) (is : List Input) :
    c.Keeps (c.runs is) := by
  induction is using List.reverseRecOn with
  | nil => exact .refl c
  | append_singleton is i ih =>
      rw [Client.runs, Machine.run_snoc]
      exact ih.trans (.step _ i)

end Keep

end Autobahn
