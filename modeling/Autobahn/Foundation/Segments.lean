import Mathlib.Data.List.Basic

/-!
# Exact reads from a segmented stream

A stream arrives in segments of any size. An exact read takes as many items as
it asks for, out of as many segments as it needs, and waits while they have not
all arrived. How the stream is cut makes no difference (`readExactly_append`).
-/

namespace Autobahn.Foundation

variable {α : Type}

/-- Takes the first `n` items; `none` while there are fewer. -/
def readExactly (n : Nat) : List (List α) → Option (List α × List (List α))
  | [] => if n = 0 then some ([], []) else none
  | segment :: segments =>
      if n ≤ segment.length then
        some (segment.take n, segment.drop n :: segments)
      else
        (readExactly (n - segment.length) segments).map fun (items, rest) =>
          (segment ++ items, rest)

/-- **A read sees the stream, not its segments.** -/
theorem readExactly_append {segments : List (List α)} : ∀ {items rest : List α},
    segments.flatten = items ++ rest →
    ∃ left, readExactly items.length segments = some (items, left) ∧
      left.flatten = rest := by
  induction segments with
  | nil =>
      intro items rest h
      obtain ⟨rfl, rfl⟩ := List.append_eq_nil_iff.mp h.symm
      exact ⟨[], rfl, rfl⟩
  | cons segment segments ih =>
      intro items rest h
      rw [List.flatten_cons] at h
      by_cases hle : items.length ≤ segment.length
      · have htake : segment.take items.length = items := by
          have := congrArg (List.take items.length) h
          rwa [List.take_append_of_le_length hle, List.take_left'  rfl] at this
        have hdrop : segment.drop items.length ++ segments.flatten = rest := by
          have := congrArg (List.drop items.length) h
          rwa [List.drop_append_of_le_length hle, List.drop_left' rfl] at this
        exact ⟨segment.drop items.length :: segments, by
          rw [readExactly, if_pos hle, htake], by rwa [List.flatten_cons]⟩
      · -- the segment is used up, and the rest of the items is read behind it
        obtain ⟨more, rfl⟩ : ∃ more, items = segment ++ more := by
          have hpre : segment <+: items ++ rest := h ▸ List.prefix_append _ _
          have := List.prefix_of_prefix_length_le hpre
            (List.prefix_append items rest) (by omega)
          exact ⟨this.choose, this.choose_spec.symm⟩
        rw [List.append_assoc, List.append_cancel_left_eq] at h
        obtain ⟨left, hread, hleft⟩ := ih h
        refine ⟨left, ?_, hleft⟩
        rw [readExactly, if_neg hle, List.length_append, Nat.add_sub_cancel_left,
          hread, Option.map_some]

theorem readExactly_length {segments : List (List α)} : ∀ {n : Nat}
    {items : List α} {rest : List (List α)},
    readExactly n segments = some (items, rest) → items.length = n := by
  induction segments with
  | nil =>
      intro n items rest h
      rw [readExactly] at h
      split at h
      · next hn =>
        obtain ⟨rfl, -⟩ := Prod.mk.inj (Option.some.inj h)
        exact hn.symm
      · cases h
  | cons segment segments ih =>
      intro n items rest h
      rw [readExactly] at h
      split at h
      · next hle =>
        obtain ⟨rfl, -⟩ := Prod.mk.inj (Option.some.inj h)
        exact List.length_take_of_le hle
      · next hle =>
        obtain ⟨⟨more, left⟩, hread, heq⟩ := Option.map_eq_some_iff.mp h
        obtain ⟨rfl, -⟩ := Prod.mk.inj heq
        rw [List.length_append, ih hread]
        omega

/-- What is not all there is not read. -/
theorem readExactly_eq_none {segments : List (List α)} : ∀ {n : Nat},
    segments.flatten.length < n → readExactly n segments = none := by
  induction segments with
  | nil =>
      intro n h
      rw [readExactly, if_neg (by simpa using Nat.ne_of_gt h)]
  | cons segment segments ih =>
      intro n h
      rw [List.flatten_cons, List.length_append] at h
      rw [readExactly, if_neg (by omega), ih (by omega), Option.map_none]

end Autobahn.Foundation
