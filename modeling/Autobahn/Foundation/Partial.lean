import Mathlib.Data.List.Perm.Basic

/-!
# Machines that may refuse an input

A partial machine is a step function `σ → ι → Option σ`; `accepts` runs a list
of inputs and is `none` as soon as one of them is refused.

If independent inputs commute wherever an invariant holds, the order of
pairwise independent inputs does not matter (`accepts_perm`).
-/

namespace Autobahn.Foundation.Partial

variable {σ ι : Type} (next : σ → ι → Option σ)

/-- The state after all the inputs, if none of them is refused. -/
def accepts (s : σ) : List ι → Option σ
  | [] => some s
  | i :: is => (next s i).bind fun t => accepts t is

variable {next}

theorem accepts_cons {s u : σ} {i : ι} {is : List ι} :
    accepts next s (i :: is) = some u ↔
      ∃ t, next s i = some t ∧ accepts next t is = some u :=
  Option.bind_eq_some_iff

/-- **Independent inputs may be reordered.** Two adjacent inputs that are
independent and accepted can be swapped; so a list of pairwise independent
inputs that is accepted in one order is accepted in every order, and all of
them lead to one state. -/
theorem accepts_perm {I : σ → Prop} {Independent : ι → ι → Prop}
    (keep : ∀ {s i t}, I s → next s i = some t → I t)
    (symm : ∀ {i j}, Independent i j → Independent j i)
    (swap : ∀ {s i j t u}, I s → Independent i j → next s i = some t →
      next t j = some u → ∃ t', next s j = some t' ∧ next t' i = some u)
    {is js : List ι} (hp : is.Perm js) (hpair : is.Pairwise Independent) :
    ∀ {s u}, I s → accepts next s is = some u → accepts next s js = some u := by
  induction hp with
  | nil => exact fun _ h => h
  | cons i _ ih =>
      intro s u hs h
      obtain ⟨t, ht, hrest⟩ := accepts_cons.mp h
      have hrest' := ih (List.pairwise_cons.mp hpair).2 (keep hs ht) hrest
      exact accepts_cons.mpr ⟨t, ht, hrest'⟩
  | swap i j is =>
      intro s u hs h
      obtain ⟨t, ht, h⟩ := accepts_cons.mp h
      obtain ⟨t', ht', hrest⟩ := accepts_cons.mp h
      have hij : Independent j i :=
        (List.pairwise_cons.mp hpair).1 i List.mem_cons_self
      obtain ⟨v, hv, hvt⟩ := swap hs hij ht ht'
      exact accepts_cons.mpr ⟨v, hv, accepts_cons.mpr ⟨t', hvt, hrest⟩⟩
  | trans hp _ ih₁ ih₂ =>
      intro s u hs h
      have hpair' := (hp.pairwise_iff symm).mp hpair
      exact ih₂ hpair' hs (ih₁ hpair hs h)

end Autobahn.Foundation.Partial
