import Mathlib.Algebra.Group.Nat.Defs
import Autobahn.Session.Connection

/-!
# The octets on the wire

What `send` puts on the stream is a length prefix in network byte order and the
contents of the buffer. The packer decides which octets a buffer holds, so they
are a parameter, `wire`.

The two ends agree on the prefix: `ntohl` reads what `htonl` wrote.
-/

namespace Autobahn

open Foundation MsgPack

/-! ## The length prefix -/

/-- The octets of `htonl(n)` in memory -/
def htonl (n : UInt32) : Octets :=
  [(n >>> 24).toUInt8, (n >>> 16).toUInt8, (n >>> 8).toUInt8, n.toUInt8]

/-- Octets put side by side do not overlap. -/
theorem or_octets {a b c d : Nat} (hb : b < 2 ^ 8) (hc : c < 2 ^ 8)
    (hd : d < 2 ^ 8) :
    a <<< 24 ||| b <<< 16 ||| c <<< 8 ||| d =
      a * 2 ^ 24 + b * 2 ^ 16 + c * 2 ^ 8 + d := by
  have hab : a <<< 24 ||| b <<< 16 = (a * 2 ^ 8 + b) <<< 16 := by
    have hlt : b <<< 16 < 2 ^ 24 := by
      rw [Nat.shiftLeft_eq]
      omega
    rw [← Nat.shiftLeft_add_eq_or_of_lt hlt]
    simp only [Nat.shiftLeft_eq]
    omega
  have habc : (a * 2 ^ 8 + b) <<< 16 ||| c <<< 8 =
      ((a * 2 ^ 8 + b) * 2 ^ 8 + c) <<< 8 := by
    have hlt : c <<< 8 < 2 ^ 16 := by
      rw [Nat.shiftLeft_eq]
      omega
    rw [← Nat.shiftLeft_add_eq_or_of_lt hlt]
    simp only [Nat.shiftLeft_eq]
    omega
  rw [hab, habc, ← Nat.shiftLeft_add_eq_or_of_lt hd]
  simp only [Nat.shiftLeft_eq]
  omega

/-- An octet fits wherever it is put in a `uint32_t`. -/
theorem octet_shiftLeft_mod {x k : Nat} (hk : k ≤ 24) :
    (x % 2 ^ 8) <<< k % 2 ^ 32 = (x % 2 ^ 8) <<< k := by
  apply Nat.mod_eq_of_lt
  rw [Nat.shiftLeft_eq]
  calc x % 2 ^ 8 * 2 ^ k
      < 2 ^ 8 * 2 ^ k :=
        Nat.mul_lt_mul_of_pos_right (Nat.mod_lt _ (by decide)) (Nat.two_pow_pos k)
    _ ≤ 2 ^ 8 * 2 ^ 24 :=
        Nat.mul_le_mul_left _ (Nat.pow_le_pow_right (by decide) hk)
    _ = 2 ^ 32 := by decide

/-- **The prefix is read back**, whatever follows it in memory. -/
theorem ntohl_htonl (n : UInt32) (rest : Octets) :
    Connection.ntohl (fun i => (htonl n ++ rest).getD i 0) = n := by
  have hn := n.toNat_lt
  show (n >>> 24).toUInt8.toUInt32 <<< 24 ||| (n >>> 16).toUInt8.toUInt32 <<< 16 |||
    (n >>> 8).toUInt8.toUInt32 <<< 8 ||| n.toUInt8.toUInt32 = n
  apply UInt32.toNat_inj.mp
  simp only [UInt32.toNat_or, UInt32.toNat_shiftLeft, UInt8.toNat_toUInt32,
    UInt32.toNat_toUInt8, UInt32.toNat_shiftRight, UInt32.reduceToNat,
    Nat.reduceMod]
  rw [octet_shiftLeft_mod (by decide), octet_shiftLeft_mod (by decide),
    octet_shiftLeft_mod (by decide), or_octets (Nat.mod_lt _ (by decide))
      (Nat.mod_lt _ (by decide)) (Nat.mod_lt _ (by decide))]
  simp only [Nat.shiftRight_eq_div_pow]
  omega

/-! ## Frames as octets -/

section

variable (wire : Frame → Octets)

/-- `buffer->size()`, converted to a `uint32_t` -/
def lengthPrefix (buffer : Frame) : UInt32 :=
  UInt32.ofNat (wire buffer).length

/-- One frame, whole. -/
def framed (buffer : Frame) : Octets :=
  htonl (lengthPrefix wire buffer) ++ wire buffer

/-- What one `send` leaves on the stream. -/
def written (w : Frame × WriteResult) : Octets :=
  match w.2 with
  | .complete => framed wire w.1
  | .prefixCut octets => (htonl (lengthPrefix wire w.1)).take octets
  | .bodyCut octets =>
      htonl (lengthPrefix wire w.1) ++ (wire w.1).take octets

/-- Everything written to `m_out` by `send`. -/
def OStream.octets (o : OStream) : Octets :=
  o.writes.flatMap (written wire)

def WampSession.sendAll (s : WampSession) (buffers : List Frame) : WampSession :=
  buffers.foldl WampSession.send s

variable {wire}

/-- The prefix is the size of the buffer, unless that takes more than 32 bits. -/
theorem lengthPrefix_toNat_iff {buffer : Frame} :
    (lengthPrefix wire buffer).toNat = (wire buffer).length ↔
      (wire buffer).length < UInt32.size := by
  rw [lengthPrefix, UInt32.toNat_ofNat']
  exact Nat.mod_eq_iff_lt (by decide)

theorem OStream.octets_write (o : OStream) (buffer : Frame) :
    (o.write buffer).octets wire =
      o.octets wire ++ written wire (buffer, o.plan o.writes.length) := by
  simp [OStream.octets, OStream.write]

/-- On an open session whose writes go through, `send` appends whole frames. -/
theorem WampSession.octets_sendAll (buffers : List Frame) : ∀ {s : WampSession},
    s.stopped = false → (∀ n, s.out.plan n = .complete) →
    (s.sendAll buffers).out.octets wire =
      s.out.octets wire ++ buffers.flatMap (framed wire) := by
  induction buffers with
  | nil =>
      intro s hs hplan
      simp [sendAll]
  | cons buffer buffers ih =>
      intro s hs hplan
      have hsend : s.send buffer = { s with out := s.out.write buffer } := by
        simp [send, hs]
      have hrest : ((s.send buffer).sendAll buffers).out.octets wire =
          (s.send buffer).out.octets wire ++ buffers.flatMap (framed wire) := by
        refine ih ?_ ?_ <;> rw [hsend]
        · exact hs
        · exact hplan
      show ((s.send buffer).sendAll buffers).out.octets wire = _
      rw [hrest, hsend, OStream.octets_write, hplan, List.flatMap_cons,
        List.append_assoc]
      rfl

end

end Autobahn
