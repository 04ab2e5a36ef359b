import Mathlib.Data.List.Basic
import Mathlib.Data.List.TakeWhile

/-!
# Comparing strings of octets

`std::string::compare` for a string that knows its length, `strlen` and
`memcmp` for one that ends with a NUL. Both comparisons find zero exactly for
equal octets, which is all a test for equality asks of them.
-/

namespace Autobahn.Foundation

/-- `memcmp` of the first `n` octets: the difference of the first two that
differ. Both arrays must have `n` octets; past the end of one there is
nothing to compare. -/
def memcmp : List UInt8 → List UInt8 → Nat → Int
  | _, _, 0 => 0
  | x :: xs, y :: ys, n + 1 =>
      if x = y then memcmp xs ys n else (x.toNat : Int) - y.toNat
  | _, _, _ + 1 => 0

theorem memcmp_eq_zero : ∀ {a b : List UInt8} {n : Nat},
    n ≤ a.length → n ≤ b.length → (memcmp a b n = 0 ↔ a.take n = b.take n)
  | _, _, 0, _, _ => by simp [memcmp]
  | [], _, n + 1, ha, _ => by simp at ha
  | _ :: _, [], n + 1, _, hb => by simp at hb
  | x :: xs, y :: ys, n + 1, ha, hb => by
      have ih : memcmp xs ys n = 0 ↔ xs.take n = ys.take n :=
        memcmp_eq_zero (by simpa using ha) (by simpa using hb)
      by_cases hxy : x = y
      · simp [memcmp, hxy, ih]
      · have hne : (x.toNat : Int) - y.toNat ≠ 0 := by
          intro h
          exact hxy (UInt8.toNat_inj.mp (by omega))
        simp [memcmp, hxy, hne]

/-- `str.compare(pos, count, s, n)`: the part of `str` from `pos` against the
`n` octets `s`, first over the shorter length, then by the lengths. -/
def stringCompare (str : List UInt8) (pos count : Nat) (s : List UInt8) : Int :=
  let part := (str.drop pos).take count
  let difference := memcmp part s (min part.length s.length)
  if difference ≠ 0 then difference else (part.length : Int) - s.length

/-- A string compared as a whole equals `s` exactly when `compare` says so. -/
theorem stringCompare_eq_zero {str s : List UInt8} :
    stringCompare str 0 str.length s = 0 ↔ str = s := by
  have hzero := memcmp_eq_zero (Nat.min_le_left str.length s.length)
    (Nat.min_le_right str.length s.length)
  simp only [stringCompare, List.drop_zero, List.take_length, ne_eq, ite_not]
  constructor
  · intro h
    split at h
    · next hd =>
        have hlen : str.length = s.length := by omega
        have htake := hzero.mp hd
        rwa [hlen, Nat.min_self, ← hlen, List.take_length, hlen,
          List.take_length] at htake
    · next hd => exact absurd h hd
  · rintro rfl
    rw [if_pos (hzero.mpr rfl), Int.sub_self]

/-! ## Strings that end with a NUL -/

/-- What a `const char*` points to: octets with a NUL among them. -/
structure CString where
  memory : List UInt8
  terminated : 0 ∈ memory

namespace CString

/-- `std::string(s)`: the octets in front of the first NUL. -/
def text (s : CString) : List UInt8 := s.memory.takeWhile (· ≠ 0)

def strlen (s : CString) : Nat := s.text.length

/-- The octets of a string literal: a NUL is put behind them. -/
def ofOctets (k : List UInt8) : CString := ⟨k ++ [0], by simp⟩

theorem text_ofOctets {k : List UInt8} (hk : 0 ∉ k) : (ofOctets k).text = k := by
  have hall : ∀ x ∈ k, decide (x ≠ 0) = true := by
    intro x hx
    simpa using fun h : x = 0 => hk (h ▸ hx)
  rw [text, ofOctets, List.takeWhile_append_of_pos hall]
  simp

/-- Octets behind the first NUL do not count. -/
theorem zero_not_mem_text (s : CString) : 0 ∉ s.text := by
  intro h
  have hne := List.mem_takeWhile_imp (show 0 ∈ s.memory.takeWhile (· ≠ 0) from h)
  exact of_decide_eq_true hne rfl

theorem take_strlen (s : CString) : s.memory.take s.strlen = s.text :=
  (List.prefix_iff_eq_take.mp (List.takeWhile_prefix _)).symm

theorem strlen_le (s : CString) : s.strlen ≤ s.memory.length :=
  (List.takeWhile_prefix _).length_le

/-- Equal length and equal first octets: the text is `t`. -/
theorem memcmp_strlen_eq_zero {s : CString} {t : List UInt8}
    (hlen : s.strlen = t.length) : memcmp s.memory t s.strlen = 0 ↔ s.text = t := by
  rw [memcmp_eq_zero s.strlen_le (Nat.le_of_eq hlen), take_strlen, hlen, List.take_length]

end CString

end Autobahn.Foundation
