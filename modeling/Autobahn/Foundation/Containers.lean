import Mathlib.Order.Defs.LinearOrder
import Mathlib.Data.List.Basic
import Mathlib.Data.List.Sort
import Mathlib.Data.List.TakeWhile

/-!
# Ordered associative containers

`Table` is a map with at most one value per key, read by `find` and changed
by `emplace` (which never overwrites), `assign` (which does) and `erase`.

`Multimap` keeps its entries sorted by key. A new entry goes to the upper
bound of its key, so equal keys stay in insertion order. Iterators are
positions; `between` walks from one to another, and `equalRange` is the
walk from the lower to the upper bound of a key.
-/

namespace Autobahn.Foundation

/-! ## Tables -/

/-- A map from `κ` to `α`. -/
def Table (κ α : Type) : Type := κ → Option α

namespace Table

variable {κ α : Type}

def empty : Table κ α := fun _ => none

instance : Inhabited (Table κ α) := ⟨empty⟩

def find (t : Table κ α) (k : κ) : Option α := t k

@[ext] theorem ext {t u : Table κ α} (h : ∀ k, t.find k = u.find k) : t = u :=
  funext h

@[simp] theorem find_empty (k : κ) : (empty : Table κ α).find k = none := rfl

section

variable [DecidableEq κ]

/-- `t[k] = v`: overwrites an entry that is there. -/
def assign (t : Table κ α) (k : κ) (v : α) : Table κ α :=
  fun k' => if k' = k then some v else t k'

def erase (t : Table κ α) (k : κ) : Table κ α :=
  fun k' => if k' = k then none else t k'

/-- Inserts unless the key is taken; the entry that is there stays. -/
def emplace (t : Table κ α) (k : κ) (v : α) : Table κ α :=
  if (t.find k).isSome then t else t.assign k v

theorem find_assign (t : Table κ α) (k k' : κ) (v : α) :
    (t.assign k v).find k' = if k' = k then some v else t.find k' :=
  rfl

theorem find_erase (t : Table κ α) (k k' : κ) :
    (t.erase k).find k' = if k' = k then none else t.find k' :=
  rfl

theorem find_emplace (t : Table κ α) (k k' : κ) (v : α) :
    (t.emplace k v).find k' =
      if k' = k ∧ t.find k = none then some v else t.find k' := by
  unfold emplace
  cases hk : t.find k with
  | none => simp [find_assign]
  | some w => simp

/-- Assignments under different keys commute. -/
theorem assign_comm (t : Table κ α) {k k' : κ} (h : k ≠ k') (v v' : α) :
    (t.assign k v).assign k' v' = (t.assign k' v').assign k v := by
  ext1 j
  simp only [find_assign]
  by_cases hj : j = k
  · subst hj
    simp [h]
  · simp [hj]

theorem erase_comm (t : Table κ α) (k k' : κ) :
    (t.erase k).erase k' = (t.erase k').erase k := by
  ext1 j
  simp only [find_erase]
  split <;> simp_all

theorem assign_eq_self {t : Table κ α} {k : κ} {v : α} :
    t.assign k v = t ↔ t.find k = some v := by
  constructor
  · intro h
    rw [← h, find_assign, if_pos rfl]
  · intro h
    ext1 k'
    rw [find_assign]
    split
    · next hk => rw [hk, h]
    · rfl

end

end Table

/-! ## Multimaps -/

/-- Entries in ascending key order. -/
structure Multimap (κ α : Type) [LinearOrder κ] where
  entries : List (κ × α)
  sorted : entries.Pairwise (fun a b => a.1 ≤ b.1)

namespace Multimap

variable {κ α : Type} [LinearOrder κ]

@[ext] theorem ext {m n : Multimap κ α} (h : m.entries = n.entries) : m = n := by
  cases m
  cases n
  simpa using h

def empty : Multimap κ α := ⟨[], List.Pairwise.nil⟩

instance : Inhabited (Multimap κ α) := ⟨empty⟩

/-- The position of the first entry whose key is not below `k`. -/
def lowerBound (m : Multimap κ α) (k : κ) : Nat :=
  (m.entries.takeWhile (fun e => e.1 < k)).length

/-- The position of the first entry whose key is above `k`. -/
def upperBound (m : Multimap κ α) (k : κ) : Nat :=
  (m.entries.takeWhile (fun e => e.1 ≤ k)).length

/-- The position past the last entry. -/
def finish (m : Multimap κ α) : Nat := m.entries.length

/-- The values met by an iterator that runs from `i` up to `j`. -/
def between (m : Multimap κ α) (i j : Nat) : List α :=
  ((m.entries.take j).drop i).map Prod.snd

theorem between_self (m : Multimap κ α) (i : Nat) : m.between i i = [] := by
  simp [between]

theorem between_cons (m : Multimap κ α) {i j : Nat} {e : κ × α}
    (h : m.entries[i]? = some e) (hj : i < j) :
    m.between i j = e.2 :: m.between (i + 1) j := by
  obtain ⟨hi, rfl⟩ := List.getElem?_eq_some_iff.mp h
  have hlen : i < (m.entries.take j).length := by
    simp only [List.length_take]
    omega
  rw [between, List.drop_eq_getElem_cons hlen, List.map_cons, List.getElem_take,
    between]

def equalRange (m : Multimap κ α) (k : κ) : List α :=
  m.between (m.lowerBound k) (m.upperBound k)

/-- The values stored under `k`, whatever the other keys are. -/
def values (m : Multimap κ α) (k : κ) : List α :=
  (m.entries.filter (fun e => e.1 = k)).map Prod.snd

/-! ### Insertion -/

/-- Past the entries up to `k`, only larger keys are left. -/
theorem lt_of_mem_dropWhile {k : κ} {e : κ × α} : ∀ {l : List (κ × α)},
    l.Pairwise (fun a b => a.1 ≤ b.1) →
    e ∈ l.dropWhile (fun a => a.1 ≤ k) → k < e.1
  | [], _, h => absurd h List.not_mem_nil
  | x :: xs, hs, h => by
      obtain ⟨hx, hxs⟩ := List.pairwise_cons.mp hs
      by_cases hk : x.1 ≤ k
      · rw [List.dropWhile_cons_of_pos (by simpa using hk)] at h
        exact lt_of_mem_dropWhile hxs h
      · rw [List.dropWhile_cons_of_neg (by simpa using hk)] at h
        rcases List.mem_cons.mp h with rfl | h'
        · exact lt_of_not_ge hk
        · exact lt_of_lt_of_le (lt_of_not_ge hk) (hx e h')

/-- Inserts at the upper bound of the key: after every equal one. -/
def insert (m : Multimap κ α) (k : κ) (v : α) : Multimap κ α where
  entries := m.entries.takeWhile (fun e => e.1 ≤ k) ++
    (k, v) :: m.entries.dropWhile (fun e => e.1 ≤ k)
  sorted := by
    have hle : ∀ a ∈ m.entries.takeWhile (fun e => e.1 ≤ k), a.1 ≤ k :=
      fun a ha => by simpa using List.mem_takeWhile_imp ha
    have hlt : ∀ b ∈ m.entries.dropWhile (fun e => e.1 ≤ k), k ≤ b.1 :=
      fun b hb => le_of_lt (lt_of_mem_dropWhile m.sorted hb)
    refine List.pairwise_append.mpr
      ⟨m.sorted.sublist (List.takeWhile_sublist _),
        List.pairwise_cons.mpr
          ⟨hlt, m.sorted.sublist (List.dropWhile_sublist _)⟩, ?_⟩
    intro a ha b hb
    rcases List.mem_cons.mp hb with rfl | hb
    · exact hle a ha
    · exact le_trans (hle a ha) (hlt b hb)

/-- A new value joins the values of its own key at the end, and no other
key sees it. -/
theorem values_insert (m : Multimap κ α) (k k' : κ) (v : α) :
    (m.insert k v).values k' =
      if k' = k then m.values k' ++ [v] else m.values k' := by
  have hsplit : m.entries.filter (fun e => e.1 = k') =
      (m.entries.takeWhile (fun e => e.1 ≤ k)).filter (fun e => e.1 = k') ++
      (m.entries.dropWhile (fun e => e.1 ≤ k)).filter (fun e => e.1 = k') := by
    rw [← List.filter_append, List.takeWhile_append_dropWhile]
  by_cases hk : k' = k
  · subst hk
    have hnone : (m.entries.dropWhile (fun e => e.1 ≤ k')).filter
        (fun e => e.1 = k') = [] := by
      apply List.filter_eq_nil_iff.mpr
      intro e he
      simpa using (lt_of_mem_dropWhile m.sorted he).ne'
    simp [values, insert, hsplit, hnone]
  · have hk' : ¬ k = k' := fun h => hk h.symm
    simp [values, insert, hsplit, hk, hk']

@[simp] theorem values_empty (k : κ) : (empty : Multimap κ α).values k = [] :=
  rfl

/-! ### A multimap is its values -/

private theorem eq_of_filter_eq : ∀ {l l' : List (κ × α)},
    l.Pairwise (fun a b => a.1 ≤ b.1) → l'.Pairwise (fun a b => a.1 ≤ b.1) →
    (∀ k, l.filter (fun e => e.1 = k) = l'.filter (fun e => e.1 = k)) → l = l'
  | [], [], _, _, _ => rfl
  | [], y :: ys, _, _, h => by
      have hy := h y.1
      simp at hy
  | x :: xs, [], _, _, h => by
      have hx := h x.1
      simp at hx
  | x :: xs, y :: ys, hs, hs', h => by
      obtain ⟨hx, hxs⟩ := List.pairwise_cons.mp hs
      obtain ⟨hy, hys⟩ := List.pairwise_cons.mp hs'
      have hmem : x ∈ y :: ys :=
        (List.mem_filter.mp (h x.1 ▸ List.mem_filter.mpr
          ⟨List.mem_cons_self, by simp⟩)).1
      have hmem' : y ∈ x :: xs :=
        (List.mem_filter.mp ((h y.1).symm ▸ List.mem_filter.mpr
          ⟨List.mem_cons_self, by simp⟩)).1
      have hle : y.1 ≤ x.1 := by
        rcases List.mem_cons.mp hmem with heq | hmem
        · exact le_of_eq (congrArg Prod.fst heq.symm)
        · exact hy x hmem
      have hle' : x.1 ≤ y.1 := by
        rcases List.mem_cons.mp hmem' with heq | hmem'
        · exact le_of_eq (congrArg Prod.fst heq.symm)
        · exact hx y hmem'
      have hkey : x.1 = y.1 := le_antisymm hle' hle
      -- both heads are the first entry of their key
      have hhead : x = y := by
        have hk := h x.1
        simp only [List.filter_cons, decide_true, if_true, hkey.symm] at hk
        exact (List.cons.inj hk).1
      subst hhead
      congr 1
      apply eq_of_filter_eq hxs hys
      intro k
      have hk := h k
      simp only [List.filter_cons] at hk
      split at hk
      · exact (List.cons.inj hk).2
      · exact hk

/-- Multimaps with the same values under every key are equal. -/
theorem eq_of_values {m n : Multimap κ α}
    (h : ∀ k, m.values k = n.values k) : m = n := by
  have hfilter : ∀ (m : Multimap κ α) (k : κ),
      m.entries.filter (fun e => e.1 = k) = (m.values k).map fun v => (k, v) := by
    intro m k
    rw [values, List.map_map]
    refine (List.map_id _).symm.trans (List.map_congr_left fun e he => ?_)
    have hk : e.1 = k := by simpa using (List.mem_filter.mp he).2
    simp [← hk]
  ext1
  apply eq_of_filter_eq m.sorted n.sorted
  intro k
  rw [hfilter, hfilter, h]

/-- Insertions under different keys commute. -/
theorem insert_comm (m : Multimap κ α) {k k' : κ} (h : k ≠ k') (v v' : α) :
    (m.insert k v).insert k' v' = (m.insert k' v').insert k v := by
  apply eq_of_values
  intro j
  simp only [values_insert]
  by_cases hj : j = k
  · subst hj
    simp [h]
  · simp [hj]

/-! ### The walk over one key -/

private theorem walk_eq_filter (k : κ) : ∀ {l : List (κ × α)},
    l.Pairwise (fun a b => a.1 ≤ b.1) →
    (l.take (l.takeWhile (fun e => e.1 ≤ k)).length).drop
      (l.takeWhile (fun e => e.1 < k)).length = l.filter (fun e => e.1 = k)
  | [], _ => rfl
  | x :: xs, hs => by
      obtain ⟨hx, hxs⟩ := List.pairwise_cons.mp hs
      have ih := walk_eq_filter k hxs
      rcases lt_trichotomy x.1 k with h | h | h
      · simpa [h, h.le, h.ne] using ih
      · -- the walk starts here: no entry of the rest lies below the key
        have hstart : xs.takeWhile (fun e => e.1 < k) = [] := by
          apply List.takeWhile_eq_nil_iff.mpr
          intro h0
          have := hx _ (List.get_mem xs ⟨0, h0⟩)
          simpa [← h] using this
        rw [hstart] at ih
        simpa [h] using ih
      · have hnone : xs.filter (fun e => e.1 = k) = [] := by
          apply List.filter_eq_nil_iff.mpr
          intro e he
          simpa using (lt_of_lt_of_le h (hx e he)).ne'
        simp [h.not_gt, h.not_ge, h.ne', hnone]

/-- **The walk from the lower to the upper bound meets exactly the values of
the key**, in insertion order. -/
theorem equalRange_eq_values (m : Multimap κ α) (k : κ) :
    m.equalRange k = m.values k := by
  unfold equalRange between values lowerBound upperBound
  rw [walk_eq_filter k m.sorted]

theorem length_takeWhile_lt_le (k : κ) : ∀ l : List (κ × α),
    (l.takeWhile (fun e => e.1 < k)).length ≤
      (l.takeWhile (fun e => e.1 ≤ k)).length
  | [] => le_refl _
  | x :: xs => by
      have ih := length_takeWhile_lt_le k xs
      by_cases h : x.1 < k
      · simpa [h, h.le] using ih
      · simp [h]

theorem lowerBound_le_upperBound (m : Multimap κ α) (k : κ) :
    m.lowerBound k ≤ m.upperBound k :=
  length_takeWhile_lt_le k m.entries

theorem upperBound_le_finish (m : Multimap κ α) (k : κ) :
    m.upperBound k ≤ m.finish :=
  (List.takeWhile_sublist _).length_le

/-- The test that a key is present: the lower bound is neither the end nor
the upper bound. -/
theorem found_iff (m : Multimap κ α) (k : κ) :
    (m.lowerBound k ≠ m.finish ∧ m.lowerBound k ≠ m.upperBound k) ↔
      m.values k ≠ [] := by
  have hle := m.lowerBound_le_upperBound k
  have hfin := m.upperBound_le_finish k
  have hlen : (m.values k).length = m.upperBound k - m.lowerBound k := by
    rw [← equalRange_eq_values]
    simp [equalRange, between, finish] at hfin ⊢
    omega
  rw [← List.length_pos_iff]
  omega

end Multimap

end Autobahn.Foundation
