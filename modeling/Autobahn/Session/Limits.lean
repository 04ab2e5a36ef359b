import Autobahn.MsgPack.Streaming
import Autobahn.Session.Wire

/-!
# The limits of the handshake

The reply to the handshake announces the longest message the router accepts,
and `start` announced one of `2 ^ 24` octets. Neither number is looked at again:
`send` writes a frame of any size, and `got_message_header` starts a read of
whatever length its header spells.
-/

namespace Autobahn

open Foundation MsgPack

/-- The limit announced by the second octet of a handshake. -/
def announced (b : UInt8) : Nat := 2 ^ (9 + (b >>> 4).toNat)

/-- `start` announces `maxLength`. -/
example : announced 0xF2 = maxLength := by decide

theorem announced_le (b : UInt8) : announced b ≤ maxLength := by
  have hb : (b >>> 4).toNat ≤ 15 := by
    have := b.toNat_lt
    simp only [UInt8.toNat_shiftRight, UInt8.reduceToNat, Nat.reduceMod,
      Nat.shiftRight_eq_div_pow]
    omega
  exact Nat.pow_le_pow_right (by decide) (by omega)

section

variable {wire : Frame → Octets}

/-! ## Sending -/

/-- What this `send` hands to the stream is at most `limit` octets long, and as
long as its prefix says. -/
def WampSession.SendsWithin (wire : Frame → Octets) (limit : Nat)
    (s : WampSession) (buffer : Frame) : Prop :=
  ∃ ws, (s.send buffer).out.writes = s.out.writes ++ ws ∧
    ∀ w ∈ ws, (wire w.1).length ≤ limit ∧
      (lengthPrefix wire w.1).toNat = (wire w.1).length

theorem WampSession.sendsWithin_iff {limit : Nat} (hlimit : limit ≤ maxLength)
    (s : WampSession) (buffer : Frame) :
    s.SendsWithin wire limit buffer ↔
      s.stopped = true ∨ (wire buffer).length ≤ limit := by
  cases hs : s.stopped with
  | true =>
      rw [SendsWithin, send_of_stopped hs]
      exact iff_of_true ⟨[], by simp, fun w hw => by cases hw⟩ (.inl rfl)
  | false =>
      have hsend : (s.send buffer).out.writes = s.out.writes ++
          [(buffer, s.out.plan s.out.writes.length)] := by
        simp [send, hs, OStream.write]
      rw [SendsWithin, hsend]
      constructor
      · rintro ⟨ws, hws, hwithin⟩
        obtain rfl := List.append_cancel_left hws
        exact .inr (hwithin _ List.mem_cons_self).1
      · rintro (hstopped | hsize)
        · cases hstopped
        · refine ⟨_, rfl, fun w hw => ?_⟩
          obtain rfl := List.mem_singleton.mp hw
          refine ⟨hsize, lengthPrefix_toNat_iff.mpr ?_⟩
          exact Nat.lt_of_le_of_lt (hsize.trans hlimit) (by decide)

/-! ## Receiving -/

section

variable {σ : Type}

/-- A header that announces more than `maxLength` octets is rejected: the
handler throws, reserves nothing and starts no read. -/
def Connection.ReceivesWithin (u : Unpacker σ) (user : UserCode)
    (header : Nat → UInt8) (conn : Connection σ) : Prop :=
  maxLength < (Connection.ntohl header).toNat →
    ∃ e conn', (Connection.gotMessageHeader u user (.ok header)).run conn =
      (.error e, conn') ∧ conn'.reads = conn.reads ∧
      conn'.unpacker = conn.unpacker

theorem Connection.receivesWithin_iff (u : Unpacker σ) (user : UserCode)
    (header : Nat → UInt8) (conn : Connection σ) :
    conn.ReceivesWithin u user header ↔
      (Connection.ntohl header).toNat ≤ maxLength ∨
        u.reserveBuffer conn.unpacker (Connection.ntohl header) = none := by
  rw [ReceivesWithin, ← not_lt, ← imp_iff_not_or]
  apply imp_congr_right
  intro _
  cases hs : u.reserveBuffer conn.unpacker (Connection.ntohl header) with
  | none =>
      refine iff_of_true ?_ rfl
      refine ⟨.reserveBuffer, { conn with messageLength := ntohl header }, ?_, rfl,
        rfl⟩
      simp [gotMessageHeader, Exec.run_bind, hs]
  | some s =>
      refine iff_of_false ?_ (by simp)
      rintro ⟨e, conn', hrun, -⟩
      simp [gotMessageHeader, Exec.run_bind, hs, asyncRead] at hrun

/-! ## After a handshake -/

/-- The connection after this handshake reply and whatever came then. -/
def Connection.afterReply (u : Unpacker σ) (conn : Connection σ)
    (reply : Nat → UInt8) (is : List ConnectionInput) : Connection σ :=
  Machine.run (Connection.step u)
    ((Connection.gotHandshakeReply (.ok reply)).run conn).2 is

/-- The next `send` and the next header keep to the limits announced. -/
def Connection.KeepsLimits (u : Unpacker σ) (wire : Frame → Octets) (b : UInt8)
    (conn : Connection σ) (buffer : Frame) (user : UserCode)
    (header : Nat → UInt8) : Prop :=
  conn.client.session.SendsWithin wire (announced b) buffer ∧
    conn.ReceivesWithin u user header

/-- The reply is accepted. -/
def Connection.Accepts (conn : Connection σ) (reply : Nat → UInt8) : Prop :=
  ((Autobahn.gotHandshakeReply
    (.ok (reply 0, reply 1, reply 2, reply 3))).run conn.client).1 = .ok true

/-- After an accepted reply both limits are kept for good. -/
def LimitsKept (u : Unpacker σ) (wire : Frame → Octets) : Prop :=
  ∀ (conn : Connection σ) (reply : Nat → UInt8), conn.Accepts reply →
    ∀ (is : List ConnectionInput) (buffer : Frame) (user : UserCode)
      (header : Nat → UInt8),
      (conn.afterReply u reply is).KeepsLimits u wire (reply 1) buffer user header

/-- **The limits bind nobody.** They are kept by what is small enough anyway, by
a stopped session, and where memory runs out. -/
theorem Connection.keepsLimits_iff (u : Unpacker σ) (wire : Frame → Octets)
    (conn : Connection σ) (reply : Nat → UInt8) (is : List ConnectionInput)
    (buffer : Frame) (user : UserCode) (header : Nat → UInt8) :
    (conn.afterReply u reply is).KeepsLimits u wire (reply 1) buffer user header ↔
      ((conn.afterReply u reply is).client.session.stopped = true ∨
        (wire buffer).length ≤ announced (reply 1)) ∧
      ((Connection.ntohl header).toNat ≤ maxLength ∨
        u.reserveBuffer (conn.afterReply u reply is).unpacker
          (Connection.ntohl header) = none) :=
  and_congr (WampSession.sendsWithin_iff (announced_le _) _ _)
    (Connection.receivesWithin_iff u user header _)

end

end

/-! ## Too long in both directions -/

/-- A list of 30 strings of 31 octets, in two halves. -/
def longMessage : Object :=
  .array (List.replicate 2 (.array (List.replicate 15 (.str (List.replicate 31 0)))))

theorem longMessage_size : (octetWire (pack longMessage)).length = 963 := by
  decide +kernel

/-- A reply that accepts up to 512 octets. -/
def smallReply : Nat → UInt8 := fun i => [0x7F, 0x02, 0, 0].getD i 0

/-- The header FF FF FF FF. -/
def longHeader : Nat → UInt8 := fun _ => 0xFF

/-- The session of this reply writes the message, and reads what the header
announces. -/
theorem limits_exceeded :
    let conn := (Connection.start octetUnpacker fun _ => .complete).afterReply
      octetUnpacker smallReply []
    ¬ conn.client.session.SendsWithin octetWire (announced (smallReply 1))
      (pack longMessage) ∧
    ¬ conn.ReceivesWithin octetUnpacker (fun _ => {}) longHeader := by
  constructor
  · rw [WampSession.sendsWithin_iff (announced_le _), longMessage_size]
    decide
  · rw [Connection.receivesWithin_iff]
    rintro (hlength | hreserve)
    · exact absurd hlength (by decide)
    · cases hreserve

theorem not_limitsKept : ¬ LimitsKept octetUnpacker octetWire := by
  intro h
  obtain ⟨hsends, -⟩ := h (Connection.start octetUnpacker fun _ => .complete)
    smallReply rfl [] (pack longMessage) (fun _ => {}) longHeader
  exact limits_exceeded.1 hsends

end Autobahn
