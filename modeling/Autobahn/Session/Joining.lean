import Autobahn.Session.Lifecycle

/-!
# What the join future says

The session id is set by a WELCOME, whatever the session has asked for.
`Joining` watches a run of a session: how many HELLOs have been answered, and
whether a GOODBYE has come in since the join future was resolved. With it one
can say when a session becomes joined for a reason (`Joining.Earned`) and when
the join future tells the truth (`Joining.Stands`).
-/

namespace Autobahn

open Foundation MsgPack Relation

/-- The HELLO frames this session has written. -/
def Client.hellos (c : Client) : Nat :=
  c.session.out.frames.countP fun frame => messageTypeOf frame = some .HELLO

/-- A session under watch. `answered` counts the HELLOs that a WELCOME has
answered; `goodbye` says whether a GOODBYE has been processed since the join
future was resolved. -/
structure Joining where
  client : Client
  answered : Nat := 0
  goodbye : Bool := false

namespace Joining

/-- This input brings a WELCOME, and there is a HELLO for it to answer. -/
def Answers (j : Joining) (i : Input) : Prop :=
  i.welcome? ≠ none ∧ j.answered < j.client.hellos

instance (j : Joining) (i : Input) : Decidable (j.Answers i) :=
  inferInstanceAs (Decidable (_ ∧ _))

def step (j : Joining) (i : Input) : Joining where
  client := j.client.step i
  answered := j.answered + if j.client.alive ∧ j.Answers i then 1 else 0
  goodbye := j.goodbye ||
    (j.client.session.sessionJoin.resolved && j.client.alive && i.isGoodbye)

def new (plan : Nat → WriteResult) : Joining where
  client := Client.new plan

/-- The watch does not change what is watched. -/
theorem run_client (plan : Nat → WriteResult) (is : List Input) :
    (Machine.run step (new plan) is).client = (Client.new plan).runs is := by
  induction is using List.reverseRecOn with
  | nil => rfl
  | append_singleton is i ih =>
      rw [Machine.run_snoc, Client.runs, Machine.run_snoc, ← Client.runs, ← ih]
      rfl

/-- The session becomes joined only by a WELCOME that answers a HELLO. -/
def Earned (j : Joining) (i : Input) : Prop :=
  j.client.session.sessionId = 0 →
    (j.step i).client.session.sessionId ≠ 0 → j.Answers i

/-- What the join future reported is the session id, as long as neither
`leave` has taken effect nor a GOODBYE has been processed since. (`leave` takes
effect in a joined session only, so never before the join future is
resolved.) -/
def Stands (j : Joining) : Prop :=
  ∀ v, j.client.session.sessionJoin.outcome = some (.ok v) →
    j.client.session.goodbyeSent = false → j.goodbye = false →
    v ≠ 0 ∧ j.client.session.sessionId = v

/-- A WELCOME that is processed answers a HELLO if the session is not joined,
carries an id if it is the first, and repeats the id that was reported while
that stands. -/
def Honest (j : Joining) (i : Input) : Prop :=
  j.client.alive = true → ∀ id, i.welcome? = some id →
    (j.client.session.sessionId = 0 → id ≠ 0 →
      j.answered < j.client.hellos) ∧
    (¬ j.client.session.sessionJoin.resolved → id ≠ 0) ∧
    ∀ v, j.client.session.sessionJoin.outcome = some (.ok v) →
      j.client.session.goodbyeSent = false → j.goodbye = false → id = v

/-! ## The invariant -/

/-- Nothing is joined, left or said goodbye to before the join future is
resolved. -/
def Sound (j : Joining) : Prop :=
  j.client.session.sessionId ≠ 0 ∨ j.client.session.goodbyeSent = true ∨
    j.goodbye = true → j.client.session.sessionJoin.resolved

section

variable {j : Joining} {i : Input}

theorem goodbye_step (h : (j.step i).goodbye = false) :
    j.goodbye = false ∧ ¬ (j.client.session.sessionJoin.resolved ∧
      j.client.alive = true ∧ i.isGoodbye = true) := by
  simpa [step] using h

theorem welcomed_resolved (c : Client) (id : UInt64) :
    (c.welcomed id).session.sessionJoin.resolved := by
  simp only [Client.welcomed, Client.setSession]
  split
  · assumption
  · simp [Promise.resolved]

theorem Sound.step (h : j.Sound) (i : Input) : (j.step i).Sound := by
  have hgoodbye : (j.step i).goodbye = true →
      j.client.session.sessionJoin.resolved := by
    intro hg
    simp only [Joining.step, Bool.or_eq_true, Bool.and_eq_true,
      decide_eq_true_eq] at hg
    rcases hg with hg | hg
    · exact h (.inr (.inr hg))
    · exact hg.1.1
  by_cases hw : j.client.alive = true → i.welcome? = none
  case neg =>
    obtain ⟨ha, hne⟩ := Classical.not_imp.mp hw
    obtain ⟨id, hid⟩ := Option.ne_none_iff_exists'.mp hne
    intro _
    show (j.client.step i).session.sessionJoin.resolved
    rw [Client.step_welcome ha hid]
    exact welcomed_resolved _ id
  show (j.client.step i).session.sessionId ≠ 0 ∨
    (j.client.step i).session.goodbyeSent = true ∨
    (j.step i).goodbye = true → (j.client.step i).session.sessionJoin.resolved
  rcases Client.step_continues hw with hc | ⟨-, -, h1, h2, h3⟩ | ⟨-, hd⟩
  · rw [Promise.resolved_congr hc.join]
    rcases hc.flags with ⟨h1, h2, -⟩ | ⟨hj, -, -⟩
    · rw [h1, h2]
      rintro (hj | hg | hg)
      · exact h (.inl hj)
      · exact h (.inr (.inl hg))
      · exact hgoodbye hg
    · exact fun _ => h (.inl hj)
  · rw [Promise.resolved_congr h3, h1, h2]
    rintro (hj | hg | hg)
    · exact absurd rfl hj
    · exact h (.inr (.inl hg))
    · exact hgoodbye hg
  · rw [hd]
    exact fun _ => Promise.resolved_abandon _ _

theorem sound_run (plan : Nat → WriteResult) (is : List Input) :
    (Machine.run Joining.step (new plan) is).Sound :=
  Machine.Reachable.invariant ⟨is, rfl⟩
    (by rintro (h | h | h) <;> simp [new, Client.new] at h)
    fun _ i h => h.step i

/-! ## One step -/

/-- Without a WELCOME the session becomes joined by nothing, and what was
reported still stands. -/
theorem Stands.step_of_no_welcome (h : j.Stands)
    (hw : j.client.alive = true → i.welcome? = none) :
    j.Earned i ∧ (j.step i).Stands := by
  rcases Client.step_continues hw with hc | ⟨hg, ha, h1, h2, h3⟩ | ⟨-, hd⟩
  · rcases hc.flags with ⟨h1, h2, -⟩ | ⟨-, h1, h2⟩
    · refine ⟨fun hj hne => absurd (h1.trans hj) hne, ?_⟩
      intro v hv hgs hg
      obtain ⟨hv', hid⟩ := h v (hc.join.symm.trans hv) (h2.symm.trans hgs)
        (goodbye_step hg).1
      exact ⟨hv', h1.trans hid⟩
    · refine ⟨fun _ hne => absurd h1 hne, ?_⟩
      intro v _ hgs
      rw [show (j.step i).client.session.goodbyeSent = true from h2] at hgs
      cases hgs
  · refine ⟨fun _ hne => absurd h1 hne, ?_⟩
    intro v hv _ hg'
    refine absurd ⟨?_, ha, hg⟩ (goodbye_step hg').2
    rw [Promise.resolved, ← h3, show (j.client.step i).session.sessionJoin.outcome
      = some (.ok v) from hv]
    simp
  · have hstep : (j.step i).client = j.client.destroy := hd
    rw [Earned, hstep]
    refine ⟨fun hj hne => absurd hj hne, ?_⟩
    intro v hv hgs hg
    rw [hstep] at hv hgs ⊢
    refine h v ?_ hgs (goodbye_step hg).1
    by_cases hres : j.client.session.sessionJoin.resolved
    · have heq := Promise.abandon_of_resolved (e := Exn.brokenPromise) hres
      exact (congrArg Promise.outcome heq).symm.trans hv
    · have heq := Promise.abandon_of_not_resolved (e := Exn.brokenPromise) hres
      have hv' := (congrArg Promise.outcome heq).symm.trans hv
      simp at hv'

theorem isGoodbye_of_welcome {id : UInt64} (h : i.welcome? = some id) :
    i.isGoodbye = false := by
  obtain ⟨obj, user, rfl, hread⟩ := Input.welcome?_eq_some.mp h
  simp [Input.isGoodbye, hread]

/-- What a WELCOME does to a join future that is true so far. -/
theorem Stands.step_of_welcome (hs : j.Sound) (h : j.Stands) {id : UInt64}
    (ha : j.client.alive = true) (hid : i.welcome? = some id) :
    (j.step i).Stands ↔
      (¬ j.client.session.sessionJoin.resolved → id ≠ 0) ∧
      ∀ v, j.client.session.sessionJoin.outcome = some (.ok v) →
        j.client.session.goodbyeSent = false → j.goodbye = false → id = v := by
  have hclient : (j.step i).client = j.client.welcomed id :=
    Client.step_welcome ha hid
  have hgoodbye : (j.step i).goodbye = j.goodbye := by
    simp [Joining.step, isGoodbye_of_welcome hid]
  have hgs : (j.client.welcomed id).session.goodbyeSent =
      j.client.session.goodbyeSent := rfl
  have hsid : (j.client.welcomed id).session.sessionId = id := rfl
  rw [Stands, hclient, hgoodbye, hgs, hsid]
  by_cases hres : j.client.session.sessionJoin.resolved
  · have hjoin : (j.client.welcomed id).session.sessionJoin =
        j.client.session.sessionJoin := if_pos hres
    rw [hjoin]
    constructor
    · intro hst
      exact ⟨fun hn => absurd hres hn, fun v hv hg hb => (hst v hv hg hb).2⟩
    · intro hst v hv hg hb
      exact ⟨(h v hv hg hb).1, hst.2 v hv hg hb⟩
  · have hjoin : (j.client.welcomed id).session.sessionJoin =
        { j.client.session.sessionJoin with outcome := some (.ok id) } :=
      if_neg hres
    have hnone : j.client.session.sessionJoin.outcome = none := by
      exact Promise.not_resolved_iff.mp hres
    have hg : j.client.session.goodbyeSent = false := by
      by_contra hg
      exact hres (hs (.inr (.inl (by simpa using hg))))
    have hb : j.goodbye = false := by
      by_contra hb
      exact hres (hs (.inr (.inr (by simpa using hb))))
    rw [hjoin, hnone, hg, hb]
    simp [hres]

/-- **One step is earned and leaves the join future true exactly when its
condition holds.** -/
theorem Stands.step_iff (hs : j.Sound) (h : j.Stands) (i : Input) :
    j.Earned i ∧ (j.step i).Stands ↔ j.Honest i := by
  by_cases hw : j.client.alive = true → i.welcome? = none
  · apply iff_of_true (h.step_of_no_welcome hw)
    intro ha id hid
    rw [hw ha] at hid
    cases hid
  obtain ⟨ha, hne⟩ := Classical.not_imp.mp hw
  obtain ⟨id, hid⟩ := Option.ne_none_iff_exists'.mp hne
  have hearned : j.Earned i ↔ (j.client.session.sessionId = 0 → id ≠ 0 →
      j.answered < j.client.hellos) := by
    have hclient : (j.step i).client = j.client.welcomed id :=
      Client.step_welcome ha hid
    rw [Earned, hclient]
    exact forall_congr' fun _ => forall_congr' fun _ => and_iff_right hne
  rw [hearned, h.step_of_welcome hs ha hid, Honest]
  constructor
  · intro hstep _ id' hid'
    rw [hid] at hid'
    obtain rfl := Option.some.inj hid'
    exact hstep
  · exact fun hhonest => hhonest ha id hid

/-- **When the join future tells the truth.** All along a run the session
becomes joined only by a WELCOME that answers a HELLO, and what the join future
reported is the session id while it stands, exactly when every WELCOME that is
processed meets its condition. -/
theorem truthful_iff (plan : Nat → WriteResult) (is : List Input) :
    Machine.EachStep Joining.step Earned (new plan) is ∧
      Machine.Everywhere Joining.step Stands (new plan) is ↔
      Machine.EachStep Joining.step Honest (new plan) is := by
  refine Machine.eachStep_and_everywhere_iff ?_ ?_
  · intro v hv
    cases hv
  · intro pre i _ h
    rw [Machine.run_snoc]
    exact h.step_iff (sound_run plan pre) i

end

/-- A WELCOME nobody asked for, with the id 0: the join future resolves with
an id that means "not joined". -/
theorem not_truthful_zero :
    ¬ (Machine.EachStep Joining.step Earned (new fun _ => .complete)
        [.message (MessageType.WELCOME.object [.positiveInteger 0])
          fun _ => {}] ∧
      Machine.Everywhere Joining.step Stands (new fun _ => .complete)
        [.message (MessageType.WELCOME.object [.positiveInteger 0])
          fun _ => {}]) := by
  rintro ⟨-, h⟩
  exact (h _ (List.prefix_refl _) 0 rfl rfl rfl).1 rfl

end Joining

end Autobahn
