import Mathlib.Logic.Relation
import Mathlib.Order.Defs.Unbundled

/-!
# Stateful programs that can fail

`Exec σ ε` is the monad of programs that read and write a state `σ` and may
stop with a failure `ε`. The state reached before a failure survives it, as
in a language with exceptions and mutable objects.

Three ways to reason about such a program live here: running it
(`Exec.run`, with one simp lemma for each construct), the relation
between the state before and the state after (`Exec.Moves`), which composes
along the program text for every reflexive and transitive relation, and the
comparison with a program on a smaller state (`Exec.Refines`), which composes
along both texts at once.
-/

namespace Autobahn.Foundation

/-- Programs over the state `σ` that return or fail with an `ε`. -/
abbrev Exec (σ ε : Type) : Type → Type := ExceptT ε (StateM σ)

namespace Exec

variable {σ ε α β : Type}

/-- Runs `p` from `s`: its result or failure, and the state it leaves. -/
def run (p : Exec σ ε α) (s : σ) : Except ε α × σ := ExceptT.run p s

/-! ## Running the constructs -/

@[simp] theorem run_pure (a : α) (s : σ) :
    run (pure a : Exec σ ε α) s = (.ok a, s) := rfl

@[simp] theorem run_throw (e : ε) (s : σ) :
    run (throw e : Exec σ ε α) s = (.error e, s) := rfl

@[simp] theorem run_get (s : σ) :
    run (get : Exec σ ε σ) s = (.ok s, s) := rfl

@[simp] theorem run_set (t s : σ) :
    run (set t : Exec σ ε PUnit) s = (.ok ⟨⟩, t) := rfl

@[simp] theorem run_modify (f : σ → σ) (s : σ) :
    run (modify f : Exec σ ε PUnit) s = (.ok ⟨⟩, f s) := rfl

theorem run_bind (p : Exec σ ε α) (f : α → Exec σ ε β) (s : σ) :
    run (p >>= f) s =
      match run p s with
      | (.ok a, t) => run (f a) t
      | (.error e, t) => (.error e, t) := by
  show (ExceptT.bind p f : StateM σ (Except ε β)) s = _
  simp only [ExceptT.bind, ExceptT.mk, run, ExceptT.run]
  show (match (p s) with
    | (a, t) => (ExceptT.bindCont f a : StateM σ (Except ε β)) t) = _
  rcases p s with ⟨a | a, t⟩ <;> rfl

theorem run_bind_ok {p : Exec σ ε α} {s t : σ} {a : α}
    (h : run p s = (.ok a, t)) (f : α → Exec σ ε β) :
    run (p >>= f) s = run (f a) t := by
  rw [run_bind, h]

theorem run_bind_error {p : Exec σ ε α} {s t : σ} {e : ε}
    (h : run p s = (.error e, t)) (f : α → Exec σ ε β) :
    run (p >>= f) s = (.error e, t) := by
  rw [run_bind, h]

@[simp] theorem run_map (f : α → β) (p : Exec σ ε α) (s : σ) :
    run (f <$> p) s = ((run p s).1.map f, (run p s).2) := by
  rw [map_eq_pure_bind, run_bind]
  rcases run p s with ⟨a | a, t⟩ <;> rfl

@[simp] theorem run_ite (c : Prop) [Decidable c] (p q : Exec σ ε α) (s : σ) :
    run (if c then p else q) s = if c then run p s else run q s := by
  split <;> rfl

theorem run_tryCatch (p : Exec σ ε α) (f : ε → Exec σ ε α) (s : σ) :
    run (tryCatch p f) s =
      match run p s with
      | (.ok a, t) => (.ok a, t)
      | (.error e, t) => run (f e) t := by
  show (ExceptT.tryCatch p f : StateM σ (Except ε α)) s = _
  simp only [ExceptT.tryCatch, ExceptT.mk, run, ExceptT.run]
  show (match (p s) with
    | (a, t) => ((match a with
        | .ok a => pure (.ok a)
        | .error e => f e : StateM σ (Except ε α))) t) = _
  rcases p s with ⟨a | a, t⟩ <;> rfl

/-- What comes after a program whose failure is caught and dropped. -/
theorem run_attempt_bind (p : Exec σ ε Unit) (f : Unit → Exec σ ε α) (s : σ) :
    run (tryCatch p (fun _ => pure ()) >>= f) s = run (f ()) (run p s).2 := by
  rw [run_bind, run_tryCatch]
  rcases run p s with ⟨e | a, t⟩ <;> rfl

/-! ## What a program does to the state -/

/-- Every run of `p` moves the state along `R`. -/
def Moves (R : σ → σ → Prop) (p : Exec σ ε α) : Prop :=
  ∀ s, R s (run p s).2

section Moves

variable {R : σ → σ → Prop}

theorem Moves.pure [Std.Refl R] (a : α) :
    Moves R (Pure.pure a : Exec σ ε α) :=
  fun s => Std.Refl.refl s

theorem Moves.throw [Std.Refl R] (e : ε) :
    Moves R (MonadExcept.throw e : Exec σ ε α) :=
  fun s => Std.Refl.refl s

theorem Moves.get [Std.Refl R] :
    Moves R (MonadState.get : Exec σ ε σ) :=
  fun s => Std.Refl.refl s

theorem Moves.of_eq [Std.Refl R] {p : Exec σ ε α} (h : Moves Eq p) :
    Moves R p := by
  intro s
  rw [← h s]
  exact Std.Refl.refl s

theorem Moves.modify {f : σ → σ} (h : ∀ s, R s (f s)) :
    Moves R (modify f : Exec σ ε PUnit) :=
  h

theorem Moves.ite {c : Prop} [Decidable c] {p q : Exec σ ε α}
    (hp : c → Moves R p) (hq : ¬ c → Moves R q) :
    Moves R (if c then p else q) := by
  split
  · exact hp ‹_›
  · exact hq ‹_›

theorem Moves.bind [IsTrans σ R] {p : Exec σ ε α} {f : α → Exec σ ε β}
    (hp : Moves R p) (hf : ∀ a, Moves R (f a)) : Moves R (p >>= f) := by
  intro s
  have h := hp s
  rw [run_bind]
  rcases hr : run p s with ⟨a | a, t⟩
  · rw [hr] at h
    exact h
  · rw [hr] at h
    exact trans_of R h (hf a t)

/-- A check in a `do` block: `p` when it fails, and the rest. -/
theorem Moves.check [IsTrans σ R] {c : Prop} [Decidable c]
    {p : Exec σ ε PUnit} {rest : PUnit → Exec σ ε α} (hp : Moves R p)
    (hrest : ∀ u, Moves R (rest u)) :
    Moves R (if c then p >>= rest else rest ⟨⟩) :=
  .ite (fun _ => .bind hp hrest) fun _ => hrest ⟨⟩

theorem Moves.tryCatch [IsTrans σ R] {p : Exec σ ε α} {f : ε → Exec σ ε α}
    (hp : Moves R p) (hf : ∀ e, Moves R (f e)) :
    Moves R (tryCatch p f) := by
  intro s
  have h := hp s
  rw [run_tryCatch]
  rcases hr : run p s with ⟨a | a, t⟩
  · rw [hr] at h
    exact trans_of R h (hf a t)
  · rw [hr] at h
    exact h

end Moves

/-! ## One program against another -/

/-- From every state in `pre`, `q` does to the image of the state what `p` does
to the state itself, failures included, and `p` leaves a state in `post`. -/
def Refines {τ : Type} (abs : σ → τ) (pre post : σ → Prop) (p : Exec σ ε α)
    (q : Exec τ ε α) : Prop :=
  ∀ s, pre s →
    run q (abs s) = ((run p s).1, abs (run p s).2) ∧ post (run p s).2

section Refines

variable {τ : Type} {abs : σ → τ} {pre mid post : σ → Prop}

theorem Refines.pure (a : α) :
    Refines abs pre pre (Pure.pure a : Exec σ ε α) (Pure.pure a) :=
  fun _ h => ⟨rfl, h⟩

theorem Refines.throw (e : ε) :
    Refines abs pre pre (MonadExcept.throw e : Exec σ ε α)
      (MonadExcept.throw e) :=
  fun _ h => ⟨rfl, h⟩

theorem Refines.post_of {p : Exec σ ε α} {q : Exec τ ε α}
    (h : Refines abs pre mid p q) (hpost : ∀ s, mid s → post s) :
    Refines abs pre post p q :=
  fun s hs => ⟨(h s hs).1, hpost _ (h s hs).2⟩

theorem Refines.pre_of {p : Exec σ ε α} {q : Exec τ ε α}
    (h : Refines abs mid post p q) (hpre : ∀ s, pre s → mid s) :
    Refines abs pre post p q :=
  fun s hs => h s (hpre s hs)

/-- A failure of the first part leaves a state in `mid`, which `hfail` takes
to `post`. -/
theorem Refines.bind {p : Exec σ ε α} {q : Exec τ ε α} {f : α → Exec σ ε β}
    {g : α → Exec τ ε β} (h : Refines abs pre mid p q)
    (hf : ∀ a, Refines abs mid post (f a) (g a)) (hfail : ∀ s, mid s → post s) :
    Refines abs pre post (p >>= f) (q >>= g) := by
  intro s hs
  obtain ⟨hq, hmid⟩ := h s hs
  rw [run_bind, run_bind, hq]
  rcases hp : run p s with ⟨e | a, t⟩
  · rw [hp] at hmid
    exact ⟨rfl, hfail t hmid⟩
  · rw [hp] at hmid
    exact hf a t hmid

/-- A step of `p` that the smaller state does not show. -/
theorem Refines.modify_bind {f : σ → σ} {p : Unit → Exec σ ε α} {q : Exec τ ε α}
    (habs : ∀ s, abs (f s) = abs s) (hpre : ∀ s, pre s → mid (f s))
    (h : Refines abs mid post (p ⟨⟩) q) :
    Refines abs pre post (modify f >>= p) q := by
  intro s hs
  have hrest := h (f s) (hpre s hs)
  rw [habs s] at hrest
  exact hrest

theorem Refines.get_bind {p : σ → Exec σ ε α} {q : τ → Exec τ ε α}
    (h : ∀ s, pre s → Refines abs pre post (p s) (q (abs s))) :
    Refines abs pre post (get >>= p) (get >>= q) :=
  fun s hs => h s hs s hs

theorem Refines.ite {c : Prop} [Decidable c] {p p' : Exec σ ε α}
    {q q' : Exec τ ε α} (h : c → Refines abs pre post p q)
    (h' : ¬ c → Refines abs pre post p' q') :
    Refines abs pre post (if c then p else p') (if c then q else q') := by
  by_cases hc : c
  · simpa only [if_pos hc] using h hc
  · simpa only [if_neg hc] using h' hc

end Refines

/-! ## The first part of a program -/

/-- From `s`, the programs `q i` all begin with `p`: they stop where it fails, and
go on from its result as `K` says. -/
def Begins {ι : Type} (K : α → σ → (ι → Except ε β × σ) → Prop)
    (p : Exec σ ε α) (q : ι → Exec σ ε β) (s : σ) : Prop :=
  (∃ e, run p s = (.error e, s) ∧ ∀ i, run (q i) s = (.error e, s)) ∨
  ∃ a t, run p s = (.ok a, t) ∧ K a t fun i => run (q i) s

section Begins

variable {ι γ : Type} {K : α → σ → (ι → Except ε β × σ) → Prop} {s : σ}

theorem Begins.throw (e : ε) :
    Begins K (MonadExcept.throw e : Exec σ ε α) (fun _ => MonadExcept.throw e) s :=
  .inl ⟨e, rfl, fun _ => rfl⟩

theorem Begins.pure {a : α} {q : ι → Exec σ ε β} (h : K a s fun i => run (q i) s) :
    Begins K (Pure.pure a) q s :=
  .inr ⟨a, s, rfl, h⟩

/-- A shared part that only reads the state. -/
theorem Begins.bind {r : Exec σ ε γ} {f : γ → Exec σ ε α} {g : ι → γ → Exec σ ε β}
    (hr : Moves Eq r) (h : ∀ a, Begins K (f a) (fun i => g i a) s) :
    Begins K (r >>= f) (fun i => r >>= g i) s := by
  have hs := hr s
  rcases hrun : run r s with ⟨e | a, t⟩
  · rw [hrun] at hs
    cases hs
    exact .inl ⟨e, run_bind_error hrun f, fun i => run_bind_error hrun (g i)⟩
  · rw [hrun] at hs
    cases hs
    unfold Begins
    simp only [run_bind_ok hrun]
    exact h a

theorem Begins.get {f : σ → Exec σ ε α} {g : ι → σ → Exec σ ε β}
    (h : Begins K (f s) (fun i => g i s) s) :
    Begins K (MonadState.get >>= f) (fun i => MonadState.get >>= g i) s :=
  h

theorem Begins.ite {c : Prop} [Decidable c] {p p' : Exec σ ε α}
    {q q' : ι → Exec σ ε β} (h : c → Begins K p q s)
    (h' : ¬ c → Begins K p' q' s) :
    Begins K (if c then p else p') (fun i => if c then q i else q' i) s := by
  by_cases hc : c
  · simpa only [if_pos hc] using h hc
  · simpa only [if_neg hc] using h' hc

/-- A shared check in a `do` block, and the rest. -/
theorem Begins.check {c : Prop} [Decidable c] {r : Exec σ ε PUnit}
    {f : PUnit → Exec σ ε α} {g : ι → PUnit → Exec σ ε β} (hr : Moves Eq r)
    (h : ∀ x, Begins K (f x) (fun i => g i x) s) :
    Begins K (if c then r >>= f else f ⟨⟩)
      (fun i => if c then r >>= g i else g i ⟨⟩) s :=
  .ite (fun _ => .bind hr h) fun _ => h ⟨⟩

end Begins

end Exec

end Autobahn.Foundation
