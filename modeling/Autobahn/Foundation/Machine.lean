import Mathlib.Data.List.Induction
import Mathlib.Data.List.Forall2
import Mathlib.Data.List.Infix
import Mathlib.Logic.Function.Basic

/-!
# Runs of a deterministic machine

A machine is a step function `σ → ι → σ`; a run is a list of inputs. Two
quantifiers over a run are used throughout: `Everywhere`, over the states it
reaches, and `EachStep`, over the inputs with the state each one meets.

`everywhere_iff_eachStep` is the rule by which the exact condition of one step
becomes the exact condition of a run.

Of a family of machines one takes a step at a time (`stepAt`), and the others
stay what they are.
-/

namespace Autobahn.Foundation

/-! ## Logs -/

/-- `Q` holds of every entry of a log and the entries before it. -/
def EachEntry {α : Type} (Q : List α → α → Prop) (log : List α) : Prop :=
  ∀ pre a, pre ++ [a] <+: log → Q pre a

theorem eachEntry_nil {α : Type} {Q : List α → α → Prop} : EachEntry Q [] := by
  intro pre a h
  simp at h

theorem eachEntry_snoc {α : Type} {Q : List α → α → Prop} {log : List α} {a : α} :
    EachEntry Q (log ++ [a]) ↔ EachEntry Q log ∧ Q log a := by
  constructor
  · intro h
    exact ⟨fun pre b hb => h pre b (hb.trans (List.prefix_append log [a])),
      h log a (List.prefix_refl _)⟩
  · rintro ⟨hlog, ha⟩ pre b hb
    rcases List.prefix_concat_iff.mp hb with heq | hpre
    · obtain ⟨rfl, hba⟩ := List.append_inj' heq rfl
      obtain rfl := List.singleton_inj.mp hba
      exact ha
    · exact hlog pre b hpre

/-! ### What its places say of a log -/

theorem getElem?_of_isPrefix {α : Type} {l l' : List α} (hl : l <+: l') {i : Nat}
    {a : α} (h : l[i]? = some a) : l'[i]? = some a := by
  obtain ⟨hi, rfl⟩ := List.getElem?_eq_some_iff.mp h
  exact List.prefix_iff_getElem?.mp hl i hi

theorem getElem?_snoc_of_some {α : Type} {l : List α} {i : Nat} {a b : α}
    (h : l[i]? = some a) : (l ++ [b])[i]? = some a :=
  getElem?_of_isPrefix (List.prefix_append l [b]) h

/-- Of two logs that match entry for entry, each entry of the second has its
counterpart. -/
theorem exists_of_forall₂ {α β : Type} {R : α → β → Prop} {l : List α}
    {l' : List β} (h : List.Forall₂ R l l') {b : β} (hb : b ∈ l') :
    ∃ a ∈ l, R a b := by
  induction h with
  | nil => cases hb
  | @cons a b' l l' hab _ ih =>
      rcases List.mem_cons.mp hb with rfl | hb
      · exact ⟨a, List.mem_cons_self, hab⟩
      · obtain ⟨a', ha', hr⟩ := ih hb
        exact ⟨a', List.mem_cons_of_mem a ha', hr⟩

theorem filterMap_eq_nil {α β : Type} {l : List α} {f : α → Option β}
    (h : ∀ (i : Nat) (a : α), l[i]? = some a → f a = none) : l.filterMap f = [] := by
  rw [List.filterMap_eq_nil_iff]
  intro a ha
  obtain ⟨i, hi⟩ := List.mem_iff_getElem?.mp ha
  exact h i a hi

/-- Only one place of the list yields a value. -/
theorem filterMap_eq_singleton {α β : Type} {l : List α} {f : α → Option β}
    {n : Nat} {a : α} {b : β} (ha : l[n]? = some a) (hb : f a = some b)
    (h : ∀ (i : Nat) (x : α), i ≠ n → l[i]? = some x → f x = none) :
    l.filterMap f = [b] := by
  induction l generalizing n with
  | nil => simp at ha
  | cons x xs ih =>
      cases n with
      | zero =>
          obtain rfl : x = a := by simpa using ha
          have hrest : xs.filterMap f = [] :=
            filterMap_eq_nil fun i y hi => h (i + 1) y (by omega) (by simpa using hi)
          rw [List.filterMap_cons_some hb, hrest]
      | succ n =>
          have hx : f x = none := h 0 x (by omega) rfl
          rw [List.filterMap_cons_none hx]
          exact ih (by simpa using ha) fun i y hi hy =>
            h (i + 1) y (by omega) (by simpa using hy)

/-- Where no value is yielded twice, its place is known. -/
theorem getElem?_inj_of_nodup_filterMap {α β : Type} {l : List α} {f : α → Option β}
    (h : (l.filterMap f).Nodup) {n m : Nat} {a a' : α} {b : β}
    (hn : l[n]? = some a) (hm : l[m]? = some a') (ha : f a = some b)
    (ha' : f a' = some b) : n = m := by
  have hpairs : l.Pairwise fun x y =>
      ∀ b, f x = some b → ∀ b', f y = some b' → b ≠ b' :=
    List.pairwise_filterMap.mp h
  have hne : ∀ {i j : Nat} {x y : α}, l[i]? = some x → l[j]? = some y →
      f x = some b → f y = some b → ¬ i < j := by
    intro i j x y hi hj hx hy hlt
    obtain ⟨hi', rfl⟩ := List.getElem?_eq_some_iff.mp hi
    obtain ⟨hj', rfl⟩ := List.getElem?_eq_some_iff.mp hj
    exact List.pairwise_iff_getElem.mp hpairs i j hi' hj' hlt b hx b hy rfl
  exact Nat.le_antisymm (Nat.le_of_not_lt (hne hm hn ha' ha))
    (Nat.le_of_not_lt (hne hn hm ha ha'))

namespace Machine

/-! ## Runs -/

variable {σ ι : Type} (next : σ → ι → σ)

def run (s : σ) (is : List ι) : σ := is.foldl next s

@[simp] theorem run_nil (s : σ) : run next s [] = s := rfl

theorem run_snoc (s : σ) (is : List ι) (i : ι) :
    run next s (is ++ [i]) = next (run next s is) i := by
  simp [run]

theorem run_append (s : σ) (is js : List ι) :
    run next s (is ++ js) = run next (run next s is) js :=
  List.foldl_append

def Reachable (s t : σ) : Prop := ∃ is, run next s is = t

/-- `P` holds in every state of the run, the first one included. -/
def Everywhere (P : σ → Prop) (s : σ) (is : List ι) : Prop :=
  ∀ pre, pre <+: is → P (run next s pre)

/-- `C` holds of every input and the state it meets. -/
def EachStep (C : σ → ι → Prop) (s : σ) (is : List ι) : Prop :=
  ∀ pre i, pre ++ [i] <+: is → C (run next s pre) i

/-- What the steps of a run yield, in their order. -/
def collected {α : Type} (f : σ → ι → List α) : σ → List ι → List α
  | _, [] => []
  | s, i :: is => f s i ++ collected f (next s i) is

theorem collected_snoc {α : Type} (f : σ → ι → List α) (s : σ) (is : List ι) (i : ι) :
    collected next f s (is ++ [i]) =
      collected next f s is ++ f (run next s is) i := by
  induction is generalizing s with
  | nil => exact List.append_nil (f s i)
  | cons j is ih =>
      rw [List.cons_append, collected, collected, ih (next s j), List.append_assoc]
      rfl

variable {next}

theorem Reachable.refl (s : σ) : Reachable next s s := ⟨[], rfl⟩

theorem Reachable.step {s t : σ} (h : Reachable next s t) (i : ι) :
    Reachable next s (next t i) := by
  obtain ⟨is, rfl⟩ := h
  exact ⟨is ++ [i], run_snoc next s is i⟩

theorem Reachable.trans {s t v : σ} (h : Reachable next s t)
    (h' : Reachable next t v) : Reachable next s v := by
  obtain ⟨is, rfl⟩ := h
  obtain ⟨js, rfl⟩ := h'
  exact ⟨is ++ js, run_append next s is js⟩

theorem Reachable.single (s : σ) (i : ι) : Reachable next s (next s i) :=
  (Reachable.refl s).step i

/-- **The invariant rule**: what holds at the start and is kept by every
step holds in every reachable state. -/
theorem Reachable.invariant {I : σ → Prop} {s t : σ}
    (h : Reachable next s t) (init : I s)
    (keep : ∀ u i, I u → I (next u i)) : I t := by
  obtain ⟨is, rfl⟩ := h
  induction is using List.reverseRecOn with
  | nil => exact init
  | append_singleton is i ih =>
      rw [run_snoc]
      exact keep _ i ih

/-- **The simulation rule**: if the image of every step is a run of the other
machine, wherever an invariant holds, then so is the image of every run. -/
theorem Reachable.simulated {τ κ : Type} {next' : τ → κ → τ} {f : σ → τ}
    {I : σ → Prop} {s t : σ} (h : Reachable next s t) (init : I s)
    (keep : ∀ u i, I u → I (next u i))
    (sim : ∀ u i, I u → Reachable next' (f u) (f (next u i))) :
    Reachable next' (f s) (f t) := by
  have hboth := h.invariant (I := fun u => I u ∧ Reachable next' (f s) (f u))
    ⟨init, .refl (f s)⟩
    fun u i hu => ⟨keep u i hu.1, hu.2.trans (sim u i hu.1)⟩
  exact hboth.2

/-- **The rule of the first step**: what is there after a run and was not at its
start has been brought about by one of its inputs. -/
theorem exists_brings {P : σ → Prop} {s : σ} {is : List ι} (init : ¬ P s)
    (h : P (run next s is)) :
    ∃ pre i, pre ++ [i] <+: is ∧ ¬ P (run next s pre) ∧
      P (next (run next s pre) i) := by
  induction is using List.reverseRecOn with
  | nil => exact absurd h init
  | append_singleton is i ih =>
      by_cases hold : P (run next s is)
      · obtain ⟨pre, j, hpre, hbrings⟩ := ih hold
        exact ⟨pre, j, hpre.trans (List.prefix_append is [i]), hbrings⟩
      · rw [run_snoc] at h
        exact ⟨is, i, List.prefix_refl _, hold, h⟩

theorem EachStep.of_isPrefix {C : σ → ι → Prop} {s : σ} {is js : List ι}
    (h : EachStep next C s is) (hp : js <+: is) : EachStep next C s js :=
  fun pre i hi => h pre i (hi.trans hp)

/-- The second part of a run, from the state the first part leads to. -/
theorem EachStep.of_append {C : σ → ι → Prop} {s : σ} {is js : List ι}
    (h : EachStep next C s (is ++ js)) : EachStep next C (run next s is) js := by
  intro pre i hi
  rw [← run_append]
  apply h (is ++ pre) i
  rw [List.append_assoc]
  exact (List.prefix_append_right_inj is).mpr hi

theorem eachStep_cons {C : σ → ι → Prop} {s : σ} {i : ι} {is : List ι} :
    EachStep next C s (i :: is) ↔ C s i ∧ EachStep next C (next s i) is := by
  constructor
  · intro h
    refine ⟨h [] i (List.prefix_append [i] is), fun pre j hj => ?_⟩
    exact h (i :: pre) j ((List.prefix_cons_inj i).mpr hj)
  · rintro ⟨hi, his⟩ pre j hj
    cases pre with
    | nil =>
        obtain ⟨rfl, -⟩ := List.cons_prefix_cons.mp hj
        exact hi
    | cons i' pre =>
        obtain ⟨rfl, hrest⟩ := List.cons_prefix_cons.mp hj
        exact his pre j hrest

theorem eachStep_nil {C : σ → ι → Prop} {s : σ} : EachStep next C s [] :=
  @eachEntry_nil _ fun pre i => C (run next s pre) i

/-- A condition on the inputs alone. -/
theorem eachStep_const {C : ι → Prop} {s : σ} {is : List ι} :
    EachStep next (fun _ i => C i) s is ↔ ∀ i ∈ is, C i := by
  induction is generalizing s with
  | nil => simp [eachStep_nil]
  | cons i is ih => rw [eachStep_cons, ih, List.forall_mem_cons]

/-- **The exact rule.** `T` is wanted of every step and `P` of every state. If,
at every step that starts in `P`, both are there exactly when `C` holds of the
step, then both are there all along the run exactly when `C` is. -/
theorem eachStep_and_everywhere_iff {T C : σ → ι → Prop} {P : σ → Prop} {s : σ}
    {is : List ι} (init : P s)
    (exact_step : ∀ pre i, pre ++ [i] <+: is → P (run next s pre) →
      (T (run next s pre) i ∧ P (run next s (pre ++ [i])) ↔
        C (run next s pre) i)) :
    EachStep next T s is ∧ Everywhere next P s is ↔ EachStep next C s is := by
  constructor
  · rintro ⟨ht, hp⟩ pre i hi
    have hpre : pre <+: is := (List.prefix_append pre [i]).trans hi
    exact (exact_step pre i hi (hp pre hpre)).mp ⟨ht pre i hi, hp _ hi⟩
  · intro h
    have hp : Everywhere next P s is := by
      intro pre
      induction pre using List.reverseRecOn with
      | nil => exact fun _ => init
      | append_singleton pre i ih =>
          intro hi
          have hpre : pre <+: is := (List.prefix_append pre [i]).trans hi
          exact ((exact_step pre i hi (ih hpre)).mpr (h pre i hi)).2
    refine ⟨fun pre i hi => ?_, hp⟩
    have hpre : pre <+: is := (List.prefix_append pre [i]).trans hi
    exact ((exact_step pre i hi (hp pre hpre)).mpr (h pre i hi)).1

/-- The exact rule for states alone. -/
theorem everywhere_iff_eachStep {P : σ → Prop} {C : σ → ι → Prop} {s : σ}
    {is : List ι} (init : P s)
    (exact_step : ∀ pre i, pre ++ [i] <+: is → P (run next s pre) →
      (P (run next s (pre ++ [i])) ↔ C (run next s pre) i)) :
    Everywhere next P s is ↔ EachStep next C s is := by
  have h := eachStep_and_everywhere_iff (T := fun _ _ => True) init
    fun pre i hi hp => (iff_of_eq (true_and _)).trans (exact_step pre i hi hp)
  exact ⟨fun hp => h.mp ⟨fun _ _ _ => trivial, hp⟩, fun hc => (h.mpr hc).2⟩

/-! ## Families of machines -/

section Family

variable {κ : Type} [DecidableEq κ]

/-- The machine at `k` takes a step. -/
def stepAt (next : σ → ι → σ) (f : κ → σ) (k : κ) (i : ι) : κ → σ :=
  Function.update f k (next (f k) i)

variable {f g : κ → σ} {j k : κ} {i : ι}

theorem stepAt_self : stepAt next f k i k = next (f k) i :=
  Function.update_self k _ f

theorem stepAt_of_ne (h : j ≠ k) : stepAt next f k i j = f j :=
  Function.update_of_ne h _ f

/-- What holds of the machine that steps and of the others holds of all. -/
theorem forall_stepAt {P : κ → σ → Prop} (hg : g = stepAt next f k i)
    (hself : P k (next (f k) i)) (hother : ∀ j, P j (f j)) (j : κ) : P j (g j) := by
  rw [hg]
  exact (Function.forall_update_iff f P).mpr ⟨hself, fun x _ => hother x⟩ j

/-- What relates a machine to itself and to its step relates each to what it
has become. -/
theorem stepAt_rel {R : σ → σ → Prop} (hg : g = stepAt next f k i)
    (hself : R (f k) (next (f k) i)) (hrefl : ∀ s, R s s) (j : κ) : R (f j) (g j) :=
  forall_stepAt (P := fun j => R (f j)) hg hself (fun j => hrefl (f j)) j

end Family

end Machine

end Autobahn.Foundation
