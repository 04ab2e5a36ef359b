import Autobahn.MsgPack.Unpacker

/-!
# What a streaming unpacker keeps

`Unpacker.Streams` says that an unpacker is a buffer: the octets consumed and
not yet decoded are all it goes by, `next` decodes them from the front, and
octets that are no whole value yet stay. `Reads` is what repeated calls of
`next` read in a buffer, and it depends on the buffer alone
(`Reads.functional`).

`octetUnpacker` is such an unpacker, and whatever can be written is a value for it
(`octetDecode_isValue`).
-/

namespace Autobahn.MsgPack

def Next.map {σ τ : Type} (f : σ → τ) : Next σ → Next τ
  | .throws => .throws
  | .noMore rest => .noMore (f rest)
  | .object o rest => .object o (f rest)

/-- The largest message the handshake announces. -/
def maxLength : Nat := 2 ^ 24

/-- `pending` are the octets an unpacker holds, `decode` what it does with
them. -/
structure Unpacker.Streams {σ : Type} (u : Unpacker σ) (pending : σ → Octets)
    (decode : Octets → Next Octets) : Prop where
  init : pending u.init = []
  reserves : ∀ (s : σ) (n : UInt32), n.toNat ≤ maxLength →
    u.reserveBuffer s n ≠ none
  reserved : ∀ {s t : σ} {n : UInt32}, u.reserveBuffer s n = some t →
    pending t = pending s
  consumed : ∀ (s : σ) (data : Octets),
    pending (u.bufferConsumed s data) = pending s ++ data
  decodes : ∀ s : σ, decode (pending s) = (u.next s).map pending
  empty : decode [] = .noMore []
  keeps : ∀ {buffer rest : Octets}, decode buffer = .noMore rest → rest = buffer

/-- These octets are one value, whatever follows them. -/
def IsValue (decode : Octets → Next Octets) (value : Octets) (o : Object) : Prop :=
  ∀ rest, decode (value ++ rest) = .object o rest

/-! ## Reading a buffer to its end -/

/-- The values at the front of a buffer, and what is left behind them: `none`
if they are followed by octets that cannot be decoded. -/
inductive Reads (decode : Octets → Next Octets) :
    Octets → List Object → Option Octets → Prop
  | throws {buffer : Octets} (h : decode buffer = .throws) :
      Reads decode buffer [] none
  | noMore {buffer rest : Octets} (h : decode buffer = .noMore rest) :
      Reads decode buffer [] (some rest)
  | object {buffer rest : Octets} {o : Object} {os : List Object}
      {left : Option Octets} (h : decode buffer = .object o rest)
      (hr : Reads decode rest os left) : Reads decode buffer (o :: os) left

/-- A buffer of whole values. -/
def WholeValues (decode : Octets → Next Octets) (buffer : Octets) : Prop :=
  ∃ os, Reads decode buffer os (some [])

section

variable {decode : Octets → Next Octets}

/-- **What is read depends on the buffer alone.** -/
theorem Reads.functional {buffer : Octets} {os os' : List Object}
    {left left' : Option Octets} (h : Reads decode buffer os left)
    (h' : Reads decode buffer os' left') : os = os' ∧ left = left' := by
  induction h generalizing os' left' with
  | throws h =>
      cases h' with
      | throws h' => exact ⟨rfl, rfl⟩
      | noMore h' => exact absurd (h.symm.trans h') (by simp)
      | object h' hr' => exact absurd (h.symm.trans h') (by simp)
  | noMore h =>
      cases h' with
      | throws h' => exact absurd (h.symm.trans h') (by simp)
      | noMore h' =>
          obtain rfl := Next.noMore.inj (h.symm.trans h')
          exact ⟨rfl, rfl⟩
      | object h' hr' => exact absurd (h.symm.trans h') (by simp)
  | object h hr ih =>
      cases h' with
      | throws h' => exact absurd (h.symm.trans h') (by simp)
      | noMore h' => exact absurd (h.symm.trans h') (by simp)
      | object h' hr' =>
          obtain ⟨rfl, rfl⟩ := Next.object.inj (h.symm.trans h')
          obtain ⟨rfl, rfl⟩ := ih hr'
          exact ⟨rfl, rfl⟩

end

section

variable {σ : Type} {u : Unpacker σ} {pending : σ → Octets}
  {decode : Octets → Next Octets} {s t : σ} {o : Object}

theorem Unpacker.Streams.next_object (hu : u.Streams pending decode)
    {rest : Octets} (h : decode (pending s) = .object o rest) :
    ∃ t, u.next s = .object o t ∧ pending t = rest := by
  rw [hu.decodes] at h
  cases hn : u.next s with
  | throws => simp [hn, Next.map] at h
  | noMore t => simp [hn, Next.map] at h
  | object o' t =>
      simp only [hn, Next.map, Next.object.injEq] at h
      exact ⟨t, by rw [h.1], h.2⟩

theorem Unpacker.Streams.next_noMore (hu : u.Streams pending decode)
    {rest : Octets} (h : decode (pending s) = .noMore rest) :
    ∃ t, u.next s = .noMore t ∧ pending t = pending s := by
  have hrest := hu.keeps h
  rw [hu.decodes] at h
  cases hn : u.next s with
  | throws => simp [hn, Next.map] at h
  | noMore t =>
      simp only [hn, Next.map, Next.noMore.injEq] at h
      exact ⟨t, rfl, h.trans hrest⟩
  | object o' t => simp [hn, Next.map] at h

end

/-! ## The unpacker of octets -/

theorem octetUnpacker_streams : octetUnpacker.Streams id octetDecode where
  init := rfl
  reserves _ _ _ := by simp [octetUnpacker]
  reserved h := (Option.some.inj h).symm
  consumed _ _ := rfl
  decodes buffer := by
    show octetDecode buffer = (octetDecode buffer).map id
    cases octetDecode buffer <;> rfl
  empty := rfl
  keeps := by
    intro buffer rest h
    unfold octetDecode at h
    split at h
    · cases h
    · exact (Next.noMore.inj h).symm

/-- What the packer writes; nothing if the format has no form for a token. -/
def octetWire (buffer : List Token) : Octets := (writeAll buffer).getD []

/-- **What is written is read as one value.** -/
theorem octetDecode_isValue {o : Object} {s : Octets}
    (h : writeAll (pack o) = some s) : IsValue octetDecode (octetWire (pack o)) o := by
  intro rest
  rw [octetWire, h, Option.getD_some, octetDecode, readValue_write h]

end Autobahn.MsgPack
