import Autobahn.MsgPack.Format

/-!
# Reading from the front

A reader that has found a value does not look behind it: with more octets
behind its input it reads the same value and leaves them over (`Fronted`). So a
value that is cut off anywhere is not read at all (`Unpacks.cut_off`), and
`readValue` is such a reader.
-/

namespace Autobahn.MsgPack

/-- What `f` reads at the front does not depend on what stands behind it. -/
def Fronted {α : Type} (f : Octets → Option (α × Octets)) : Prop :=
  ∀ (s rest : Octets) (a : α), f s = some (a, rest) →
    ∀ more, f (s ++ more) = some (a, rest ++ more)

/-- What a caller of `msgpack::unpack` relies on, which is given a buffer and an
offset: `none` is an exception, and the octets left are those from the offset
on. -/
structure Unpacks (unpack : Octets → Option (Object × Octets)) : Prop where
  packed : ∀ {o : Object} {s : Octets}, writeAll (pack o) = some s →
    ∀ rest, unpack (s ++ rest) = some (o, rest)
  front : Fronted unpack

theorem Unpacks.packed_nil {unpack : Octets → Option (Object × Octets)}
    (h : Unpacks unpack) {o : Object} {s : Octets}
    (hs : writeAll (pack o) = some s) : unpack s = some (o, []) := by
  have hread := h.packed hs []
  rwa [List.append_nil] at hread

/-- **A value that is cut off is not read.** -/
theorem Unpacks.cut_off {unpack : Octets → Option (Object × Octets)}
    (h : Unpacks unpack) {o : Object} {s cut : Octets}
    (hs : writeAll (pack o) = some s) (hcut : cut <+: s) (hne : cut ≠ s) :
    unpack cut = none := by
  obtain ⟨more, rfl⟩ := hcut
  cases hread : unpack cut with
  | none => rfl
  | some p =>
      have hall := h.front cut p.2 p.1 hread more
      rw [h.packed_nil hs] at hall
      have hrest : p.2 ++ more = [] :=
        ((Prod.mk.inj (Option.some.inj hall)).2).symm
      rw [(List.append_eq_nil_iff.mp hrest).2, List.append_nil] at hne
      exact absurd rfl hne

/-! ## The readers of the format -/

/-- A reader takes its value off the front: what stands behind it is left alone, and
what is left over is the end of the input. -/
structure Reader {α : Type} (f : Octets → Option (α × Octets)) : Prop where
  front : Fronted f
  suffix : ∀ {s rest : Octets} {a : α}, f s = some (a, rest) → rest <:+ s

theorem Reader.bind {α β : Type} {f : Octets → Option (α × Octets)}
    {g : α → Octets → Option (β × Octets)} (hf : Reader f)
    (hg : ∀ a, Reader (g a)) : Reader fun s => (f s).bind fun p => g p.1 p.2 where
  front := by
    intro s rest b h more
    obtain ⟨⟨a, s'⟩, ha, hb⟩ := Option.bind_eq_some_iff.mp h
    show (f (s ++ more)).bind _ = _
    rw [hf.front s s' a ha more]
    exact (hg a).front s' rest b hb more
  suffix := by
    intro s rest b h
    obtain ⟨⟨a, s'⟩, ha, hb⟩ := Option.bind_eq_some_iff.mp h
    exact ((hg a).suffix hb).trans (hf.suffix ha)

theorem Reader.pure {α : Type} (a : α) :
    Reader fun s : Octets => some (a, s) where
  front := by
    intro s rest b h more
    obtain ⟨rfl, rfl⟩ := Prod.mk.inj (Option.some.inj h)
    rfl
  suffix := by
    intro s rest b h
    obtain ⟨-, rfl⟩ := Prod.mk.inj (Option.some.inj h)
    exact List.suffix_refl _

theorem Reader.none {α : Type} :
    Reader fun _ : Octets => (none : Option (α × Octets)) where
  front := by
    intro s rest a h
    cases h
  suffix := nofun

theorem Reader.map {α β : Type} {f : Octets → Option (α × Octets)}
    (hf : Reader f) (g : α → β) :
    Reader fun s => (f s).map fun p => (g p.1, p.2) := by
  simp only [Option.map_eq_bind]
  exact hf.bind fun a => .pure (g a)

theorem reader_readOctets (n : Nat) : Reader (readOctets n) where
  front := by
    intro s rest a h more
    unfold readOctets at h ⊢
    split at h
    · next hle =>
      obtain ⟨rfl, rfl⟩ := Prod.mk.inj (Option.some.inj h)
      rw [if_pos (by rw [List.length_append]; omega),
        List.take_append_of_le_length hle, List.drop_append_of_le_length hle]
    · cases h
  suffix := by
    intro s rest a h
    unfold readOctets at h
    split at h
    · obtain ⟨-, rfl⟩ := Prod.mk.inj (Option.some.inj h)
      exact List.drop_suffix n s
    · cases h

theorem reader_readNumber (width : Nat) : Reader (readNumber width) :=
  (reader_readOctets width).map ofBigEndian

theorem reader_readStr (n : Nat) : Reader (readStr n) :=
  (reader_readOctets n).bind fun s => .pure (Token.str s)

theorem reader_readBin (n : Nat) : Reader (readBin n) :=
  (reader_readOctets n).bind fun s => .pure (Token.bin s)

theorem reader_readExt (n : Nat) : Reader (readExt n) :=
  (reader_readNumber 1).bind fun code =>
    (reader_readOctets n).bind fun data =>
      .pure (Token.ext (if code < 128 then code else code - 256) data)

theorem reader_readWith (width : Nat) {go : Nat → Octets → Option (Token × Octets)}
    (hgo : ∀ n, Reader (go n)) : Reader (readWith width go) :=
  (reader_readNumber width).bind hgo

theorem reader_readForm (b : Nat) : Reader (readForm b) := by
  unfold readForm
  split <;> first
    | exact .none
    | exact .pure _
    | exact reader_readExt _
    | exact reader_readWith _ reader_readBin
    | exact reader_readWith _ reader_readStr
    | exact reader_readWith _ reader_readExt
    | exact reader_readWith _ fun _ => .pure _

theorem reader_readFrom (b : Nat) : Reader (readFrom b) := by
  unfold readFrom
  split
  · exact .pure _
  split
  · exact .pure _
  split
  · exact .pure _
  split
  · exact reader_readStr _
  split
  · exact reader_readForm b
  · exact .pure _

theorem fronted_readToken : Fronted readToken := by
  intro s rest t h more
  cases s with
  | nil => cases h
  | cons b s => exact (reader_readFrom b.toNat).front s rest t h more

/-- A token takes an octet. -/
theorem readToken_length {s rest : Octets} {t : Token}
    (h : readToken s = some (t, rest)) : rest.length < s.length := by
  cases s with
  | nil => cases h
  | cons b s =>
      have hle : rest.length ≤ s.length :=
        ((reader_readFrom b.toNat).suffix h).length_le
      simpa using Nat.lt_succ_of_le hle

/-! ## Values -/

/-- More fuel reads no less. -/
theorem fronted_readValues (fuel : Nat) : ∀ (fuel' count : Nat), fuel ≤ fuel' →
    ∀ (s rest : Octets) (os : List Object),
      readValues fuel count s = some (os, rest) →
      ∀ more, readValues fuel' count (s ++ more) = some (os, rest ++ more) := by
  induction fuel with
  | zero =>
      intro fuel' count _ s rest os h more
      cases count with
      | zero =>
          obtain ⟨rfl, rfl⟩ := Prod.mk.inj (Option.some.inj h)
          cases fuel' <;> rfl
      | succ count => cases h
  | succ fuel ih =>
      intro fuel' count hle s rest os h more
      cases count with
      | zero =>
          obtain ⟨rfl, rfl⟩ := Prod.mk.inj (Option.some.inj h)
          cases fuel' <;> rfl
      | succ count =>
      obtain ⟨fuel', rfl⟩ : ∃ n, fuel' = n + 1 := ⟨fuel' - 1, by omega⟩
      have hle' : fuel ≤ fuel' := by omega
      obtain ⟨⟨t, s₁⟩, ht, h⟩ := Option.bind_eq_some_iff.mp h
      rw [readValues, fronted_readToken s s₁ t ht more]
      -- Behind the first value both go on with the rest of the count.
      have hnext : ∀ {o : Object} {s₂ : Octets},
          ((readValues fuel count s₂).bind fun p => some (o :: p.1, p.2)) =
            some (os, rest) →
          ((readValues fuel' count (s₂ ++ more)).bind fun p =>
            some (o :: p.1, p.2)) = some (os, rest ++ more) := by
        intro o s₂ h
        obtain ⟨⟨os', s₃⟩, hos, h⟩ := Option.bind_eq_some_iff.mp h
        obtain ⟨rfl, rfl⟩ := Prod.mk.inj (Option.some.inj h)
        rw [ih fuel' count hle' s₂ s₃ os' hos more, Option.bind_some]
      cases t with
      | arrayHeader size =>
          obtain ⟨⟨o, s₂⟩, hfirst, h⟩ := Option.bind_eq_some_iff.mp h
          obtain ⟨⟨vs, r⟩, hvs, heq⟩ := Option.map_eq_some_iff.mp hfirst
          obtain ⟨rfl, rfl⟩ := Prod.mk.inj heq
          have hread := ih fuel' size hle' s₁ r vs hvs more
          simpa [hread] using hnext h
      | mapHeader size =>
          obtain ⟨⟨o, s₂⟩, hfirst, h⟩ := Option.bind_eq_some_iff.mp h
          obtain ⟨⟨vs, r⟩, hvs, heq⟩ := Option.map_eq_some_iff.mp hfirst
          obtain ⟨rfl, rfl⟩ := Prod.mk.inj heq
          have hread := ih fuel' (2 * size) hle' s₁ r vs hvs more
          simpa [hread] using hnext h
      | _ => exact hnext h

/-- Each of the values takes an octet. -/
theorem readValues_length {fuel : Nat} : ∀ {count : Nat} {s rest : Octets}
    {os : List Object}, readValues fuel count s = some (os, rest) →
    rest.length + count ≤ s.length := by
  induction fuel with
  | zero =>
      intro count s rest os h
      cases count with
      | zero => simp_all [readValues]
      | succ count => cases h
  | succ fuel ih =>
      intro count s rest os h
      cases count with
      | zero => simp_all [readValues]
      | succ count =>
      obtain ⟨⟨t, s₁⟩, ht, h⟩ := Option.bind_eq_some_iff.mp h
      have hlt := readToken_length ht
      have hnext : ∀ {o : Object} {s₂ : Octets}, s₂.length ≤ s₁.length →
          ((readValues fuel count s₂).bind fun p => some (o :: p.1, p.2)) =
            some (os, rest) →
          rest.length + (count + 1) ≤ s.length := by
        intro o s₂ hle h
        obtain ⟨⟨os', s₃⟩, hos, h⟩ := Option.bind_eq_some_iff.mp h
        obtain ⟨-, rfl⟩ := Prod.mk.inj (Option.some.inj h)
        have hlen := ih hos
        show s₃.length + (count + 1) ≤ s.length
        omega
      cases t with
      | arrayHeader size =>
          obtain ⟨⟨o, s₂⟩, hfirst, h⟩ := Option.bind_eq_some_iff.mp h
          obtain ⟨⟨vs, r⟩, hvs, heq⟩ := Option.map_eq_some_iff.mp hfirst
          obtain ⟨rfl, rfl⟩ := Prod.mk.inj heq
          exact hnext (Nat.le_trans (Nat.le_add_right _ _) (ih hvs)) h
      | mapHeader size =>
          obtain ⟨⟨o, s₂⟩, hfirst, h⟩ := Option.bind_eq_some_iff.mp h
          obtain ⟨⟨vs, r⟩, hvs, heq⟩ := Option.map_eq_some_iff.mp hfirst
          obtain ⟨rfl, rfl⟩ := Prod.mk.inj heq
          exact hnext (Nat.le_trans (Nat.le_add_right _ _) (ih hvs)) h
      | _ => exact hnext (Nat.le_refl _) h

theorem readValue_length {s rest : Octets} {o : Object}
    (h : readValue s = some (o, rest)) : rest.length < s.length := by
  unfold readValue at h
  split at h
  · next o' rest' hread =>
    obtain ⟨-, rfl⟩ := Prod.mk.inj (Option.some.inj h)
    exact readValues_length hread
  · cases h

/-- **`readValue` is what `msgpack::unpack` is relied on to be.** -/
theorem readValue_unpacks : Unpacks readValue where
  packed := readValue_write
  front := by
    intro s rest o h more
    unfold readValue at h ⊢
    split at h
    · next o' rest' hread =>
      obtain ⟨rfl, rfl⟩ := Prod.mk.inj (Option.some.inj h)
      have hle : s.length ≤ (s ++ more).length := by
        rw [List.length_append]
        exact Nat.le_add_right _ _
      rw [fronted_readValues s.length (s ++ more).length 1 hle s rest' [o'] hread more]
    · cases h

end Autobahn.MsgPack
