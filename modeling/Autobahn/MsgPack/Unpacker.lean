import Autobahn.MsgPack.Front

/-!
# The streaming unpacker

`Unpacker` is what the receive loop uses of `msgpack::unpacker`, a class of a
library that is not part of the repository. What the loop relies on is a field:
`next` uses up octets with every value it delivers, so it delivers finitely
many.

`octetUnpacker` is one of them: it keeps the octets and reads the value at their
front.
-/

namespace Autobahn.MsgPack

/-- What one call of `next` does. -/
inductive Next (σ : Type) : Type where
  | throws
  | noMore (rest : σ)
  | object (o : Object) (rest : σ)

structure Unpacker (σ : Type) where
  init : σ
  /-- `reserve_buffer`; `none`: it throws -/
  reserveBuffer : σ → UInt32 → Option σ
  /-- the octets read into `buffer()`, and `buffer_consumed` -/
  bufferConsumed : σ → Octets → σ
  next : σ → Next σ
  /-- a bound on the values that can still be delivered -/
  left : σ → Nat
  left_lt : ∀ {s o t}, next s = .object o t → left t < left s

/-! ## An unpacker of octets -/

/-- The value at the front of a buffer, if it is all there. -/
def octetDecode (buffer : Octets) : Next Octets :=
  match readValue buffer with
  | some (o, rest) => .object o rest
  | none => .noMore buffer

theorem octetDecode_length {buffer rest : Octets} {o : Object}
    (h : octetDecode buffer = .object o rest) : rest.length < buffer.length := by
  unfold octetDecode at h
  split at h
  · next o' rest' hread =>
    obtain ⟨-, rfl⟩ := Next.object.inj h
    exact readValue_length hread
  · cases h

/-- Its state is its buffer. -/
def octetUnpacker : Unpacker Octets where
  init := []
  reserveBuffer buffer _ := some buffer
  bufferConsumed buffer data := buffer ++ data
  next := octetDecode
  left := List.length
  left_lt := octetDecode_length

/-- A value cut in two is read when its second half has come. -/
example : octetUnpacker.next [0x93, 0x02] = .noMore [0x93, 0x02] ∧
    octetUnpacker.next (octetUnpacker.bufferConsumed [0x93, 0x02]
      [0x07, 0x80, 0xC0]) = .object
        (.array [.positiveInteger 2, .positiveInteger 7, .map []]) [0xC0] :=
  ⟨rfl, rfl⟩

end Autobahn.MsgPack
