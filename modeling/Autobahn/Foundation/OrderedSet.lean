import Mathlib.Order.Defs.LinearOrder
import Mathlib.Data.List.Nodup
import Mathlib.Data.List.Sort

/-!
# Ordered sets

An `OrderedSet` is a set that is kept as the list of its elements in ascending
order. `insert` puts an element in its place unless it is there.

`setDifference` walks two such lists side by side and leaves out of the first
what it meets in the second. On ordered lists it computes the difference of the
two sets, in ascending order (`setDifference_eq_filter`).
-/

namespace Autobahn.Foundation

variable {α : Type} [LinearOrder α]

/-! ## Lists in ascending order -/

def insertOrdered (a : α) : List α → List α
  | [] => [a]
  | b :: l =>
      if a < b then a :: b :: l
      else if b < a then b :: insertOrdered a l
      else b :: l

@[simp] theorem mem_insertOrdered {a c : α} {l : List α} :
    c ∈ insertOrdered a l ↔ c = a ∨ c ∈ l := by
  induction l with
  | nil => simp [insertOrdered]
  | cons b l ih =>
      rw [insertOrdered]
      split
      · simp
      · next hab =>
        split
        · simp only [List.mem_cons, ih]
          exact or_left_comm
        · next hba =>
          obtain rfl := le_antisymm (not_lt.mp hba) (not_lt.mp hab)
          simp

theorem pairwise_insertOrdered (a : α) {l : List α} (h : l.Pairwise (· < ·)) :
    (insertOrdered a l).Pairwise (· < ·) := by
  induction l with
  | nil => exact List.pairwise_singleton _ a
  | cons b l ih =>
      obtain ⟨hb, hl⟩ := List.pairwise_cons.mp h
      rw [insertOrdered]
      split
      · next hab =>
        refine List.pairwise_cons.mpr ⟨fun c hc => ?_, h⟩
        rcases List.mem_cons.mp hc with rfl | hc
        · exact hab
        · exact lt_trans hab (hb c hc)
      · split
        · next hba =>
          refine List.pairwise_cons.mpr ⟨fun c hc => ?_, ih hl⟩
          rcases mem_insertOrdered.mp hc with rfl | hc
          · exact hba
          · exact hb c hc
        · exact h

/-- `std::set_difference` -/
def setDifference : List α → List α → List α
  | [], _ => []
  | a :: l, [] => a :: l
  | a :: l, b :: m =>
      if a < b then a :: setDifference l (b :: m)
      else if b < a then setDifference (a :: l) m
      else setDifference l m
termination_by l m => l.length + m.length

theorem not_mem_of_lt_head {a b : α} {m : List α} (hm : (b :: m).Pairwise (· < ·))
    (h : a < b) : a ∉ b :: m := by
  intro ha
  rcases List.mem_cons.mp ha with rfl | ha
  · exact lt_irrefl a h
  · exact lt_asymm h ((List.pairwise_cons.mp hm).1 a ha)

/-- **What is left is what the second list does not have**, in the order of the
first. -/
theorem setDifference_eq_filter {l m : List α} (hl : l.Pairwise (· < ·))
    (hm : m.Pairwise (· < ·)) : setDifference l m = l.filter (· ∉ m) := by
  induction l, m using setDifference.induct with
  | case1 m => simp [setDifference]
  | case2 a l => simp [setDifference]
  | case3 a l b m hab ih =>
      have ha : a ∉ b :: m := not_mem_of_lt_head hm hab
      rw [setDifference, if_pos hab, ih (List.pairwise_cons.mp hl).2 hm,
        List.filter_cons_of_pos (by simpa using ha)]
  | case4 a l b m hab hba ih =>
      -- `b` is below everything of the first list
      have hb : ∀ c ∈ a :: l, (decide (c ∉ b :: m)) = decide (c ∉ m) := by
        intro c hc
        have hne : c ≠ b := by
          rintro rfl
          exact not_mem_of_lt_head hl hba hc
        simp [hne]
      rw [setDifference, if_neg hab, if_pos hba, ih hl (List.pairwise_cons.mp hm).2,
        List.filter_congr hb]
  | case5 a l b m hab hba ih =>
      obtain rfl := le_antisymm (not_lt.mp hba) (not_lt.mp hab)
      have ha : ∀ c ∈ l, (decide (c ∉ a :: m)) = decide (c ∉ m) := by
        intro c hc
        have hne : c ≠ a := by
          rintro rfl
          exact lt_irrefl c ((List.pairwise_cons.mp hl).1 c hc)
        simp [hne]
      rw [setDifference, if_neg hab, if_neg hba,
        ih (List.pairwise_cons.mp hl).2 (List.pairwise_cons.mp hm).2,
        List.filter_cons_of_neg (by simp), List.filter_congr ha]

/-! ## Sets -/

/-- `std::set` -/
structure OrderedSet (α : Type) [LinearOrder α] where
  toList : List α
  sorted : toList.Pairwise (· < ·)

namespace OrderedSet

def empty : OrderedSet α := ⟨[], List.Pairwise.nil⟩

instance : Inhabited (OrderedSet α) := ⟨empty⟩

instance : Membership α (OrderedSet α) := ⟨fun s a => a ∈ s.toList⟩

instance (a : α) (s : OrderedSet α) : Decidable (a ∈ s) :=
  inferInstanceAs (Decidable (a ∈ s.toList))

def insert (s : OrderedSet α) (a : α) : OrderedSet α :=
  ⟨insertOrdered a s.toList, pairwise_insertOrdered a s.sorted⟩

@[simp] theorem not_mem_empty (a : α) : a ∉ (empty : OrderedSet α) :=
  List.not_mem_nil

@[simp] theorem mem_insert {s : OrderedSet α} {a b : α} :
    b ∈ s.insert a ↔ b = a ∨ b ∈ s :=
  mem_insertOrdered

/-- The elements of the first set that the second does not have. -/
def difference (s t : OrderedSet α) : List α := setDifference s.toList t.toList

theorem difference_eq_filter (s t : OrderedSet α) :
    s.difference t = s.toList.filter (· ∉ t) :=
  setDifference_eq_filter s.sorted t.sorted

theorem mem_difference {s t : OrderedSet α} {a : α} :
    a ∈ s.difference t ↔ a ∈ s ∧ a ∉ t := by
  rw [difference_eq_filter, List.mem_filter, decide_eq_true_iff]
  exact Iff.rfl

theorem pairwise_difference (s t : OrderedSet α) :
    (s.difference t).Pairwise (· < ·) := by
  rw [difference_eq_filter]
  exact s.sorted.filter _

theorem count_difference (s t : OrderedSet α) (a : α) :
    (s.difference t).count a = if a ∈ s ∧ a ∉ t then 1 else 0 := by
  have hnodup : (s.difference t).Nodup :=
    (s.pairwise_difference t).imp fun h => ne_of_lt h
  split
  · next h => exact List.count_eq_one_of_mem hnodup (mem_difference.mpr h)
  · next h => exact List.count_eq_zero_of_not_mem (mt mem_difference.mp h)

end OrderedSet

end Autobahn.Foundation
