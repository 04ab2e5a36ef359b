import Mathlib.Tactic.TypeStar

/-!
# One-shot promises

A promise is settled at most once, with a value or an exception, and hands
out its future at most once. Both operations are partial: `none` means that
the call throws and changes nothing.
-/

namespace Autobahn.Foundation

structure Promise (ε α : Type) where
  outcome : Option (Except ε α) := none
  retrieved : Bool := false

namespace Promise

variable {ε α : Type}

instance : Inhabited (Promise ε α) := ⟨{}⟩

def resolved (p : Promise ε α) : Prop := p.outcome ≠ none

instance (p : Promise ε α) : Decidable p.resolved :=
  match h : p.outcome with
  | none => isFalse (fun hr => hr h)
  | some _ => isTrue (by simp [resolved, h])

/-- `set_value` and `set_exception`. -/
def settle (p : Promise ε α) (r : Except ε α) : Option (Promise ε α) :=
  if p.resolved then none else some { p with outcome := some r }

def getFuture (p : Promise ε α) : Option (Promise ε α) :=
  if p.retrieved then none else some { p with retrieved := true }

/-- The last owner goes away: a future that still waits gets `e`. -/
def abandon (p : Promise ε α) (e : ε) : Promise ε α :=
  (p.settle (.error e)).getD p

@[simp] theorem not_resolved_new : ¬ ({} : Promise ε α).resolved := by
  simp [resolved]

theorem resolved_of_outcome {p : Promise ε α} {r : Except ε α}
    (h : p.outcome = some r) : p.resolved := by
  simp [resolved, h]

theorem not_resolved_iff {p : Promise ε α} : ¬ p.resolved ↔ p.outcome = none :=
  Decidable.not_not

theorem settle_eq_none {p : Promise ε α} {r : Except ε α} :
    p.settle r = none ↔ p.resolved := by
  unfold settle
  split <;> simp_all

theorem settle_eq_some {p q : Promise ε α} {r : Except ε α} :
    p.settle r = some q ↔ ¬ p.resolved ∧ q = { p with outcome := some r } := by
  unfold settle
  split
  · simp_all
  · simp_all [eq_comm]

theorem resolved_of_settle {p q : Promise ε α} {r : Except ε α}
    (h : p.settle r = some q) : q.resolved := by
  obtain ⟨-, rfl⟩ := settle_eq_some.mp h
  simp [resolved]

theorem getFuture_eq_some {p q : Promise ε α} :
    p.getFuture = some q ↔
      p.retrieved = false ∧ q = { p with retrieved := true } := by
  by_cases h : p.retrieved = true <;> simp [getFuture, h, eq_comm]

/-- Handing out the future does not settle anything. -/
theorem resolved_of_getFuture {p q : Promise ε α} (h : p.getFuture = some q) :
    q.resolved ↔ p.resolved := by
  obtain ⟨-, rfl⟩ := getFuture_eq_some.mp h
  exact Iff.rfl

theorem abandon_of_not_resolved {p : Promise ε α} {e : ε} (h : ¬ p.resolved) :
    p.abandon e = { p with outcome := some (.error e) } := by
  simp [abandon, settle, h]

theorem resolved_abandon (p : Promise ε α) (e : ε) : (p.abandon e).resolved := by
  by_cases h : p.resolved
  · have hnone := settle_eq_none (r := .error e).mpr h
    simpa [abandon, hnone] using h
  · simp [abandon_of_not_resolved h, resolved]

theorem abandon_of_resolved {p : Promise ε α} {e : ε} (h : p.resolved) :
    p.abandon e = p := by
  simp [abandon, settle, h]

/-- No value comes from abandoning a promise. -/
theorem outcome_abandon {p : Promise ε α} {e : ε} {a : α}
    (h : (p.abandon e).outcome = some (.ok a)) : p.outcome = some (.ok a) := by
  by_cases hp : p.resolved
  · rwa [abandon_of_resolved hp] at h
  · rw [abandon_of_not_resolved hp] at h
    cases h

/-- Nor does any other exception. -/
theorem outcome_of_abandon {p : Promise ε α} {e : ε} {r : Except ε α}
    (h : (p.abandon e).outcome = some r) (hr : r ≠ .error e) :
    p.outcome = some r := by
  by_cases hp : p.resolved
  · rwa [abandon_of_resolved hp] at h
  · rw [abandon_of_not_resolved hp] at h
    exact absurd (Option.some.inj h).symm hr

theorem resolved_congr {p q : Promise ε α} (h : p.outcome = q.outcome) :
    p.resolved ↔ q.resolved := by
  rw [resolved, resolved, h]

end Promise

end Autobahn.Foundation
