import Autobahn.Acs.Listener

/-!
# Domain discovery

Any number of announcers and listeners on one multicast group. A datagram that
has been sent reaches each listener any number of times, in any order, or not
at all.

Whatever a listener signals or knows is what some announcer has announced, word
for word, with the address of one of its interfaces
(`Discovery.Reachable.discovers_announced`). A listener hears each announcement
that fits into its buffer, and goes deaf on one that does not
(`Discovery.Reachable.hears_announcements`).
-/

namespace Autobahn.Acs

open Foundation MsgPack Relation

/-! ## What goes out with a send -/

/-- The announcement of a domain by an interface with this address. -/
def CDomainInfo.at (info : CDomainInfo) (a : Address) : CDomainInfo :=
  { info with wampIp := a.toOctets }

section

variable (info : CDomainInfo) (a : Address)

theorem CDomainInfo.at_wampIp : (info.at a).wampIp = a.toOctets := by
  rw [CDomainInfo.at]

theorem CDomainInfo.at_wampPort : (info.at a).wampPort = info.wampPort := by
  rw [CDomainInfo.at]

theorem CDomainInfo.at_domainName : (info.at a).domainName = info.domainName := by
  rw [CDomainInfo.at]

theorem CDomainInfo.at_realmName : (info.at a).realmName = info.realmName := by
  rw [CDomainInfo.at]

end

/-! ### Its size -/

theorem length_octets (s : String) : (octets s).length = s.length := by
  rw [octets, List.length_map, String.length_toList]

theorem length_byte {x : UInt32} (h : x.toNat < 256) : (toString x).length ≤ 3 := by
  have hall : ∀ n : Fin 256, (toString n.val).length ≤ 3 := by decide +kernel
  exact hall ⟨x.toNat, h⟩

theorem Address.length_toOctets (a : Address) : a.toOctets.length ≤ 15 := by
  have hhigh : (a >>> 24).toNat < 256 := by
    have := a.toNat_lt
    simp only [UInt32.toNat_shiftRight, Nat.shiftRight_eq_div_pow]
    simp
    omega
  have hlow : ∀ x : UInt32, (x &&& 255).toNat < 256 := fun x =>
    Nat.lt_of_le_of_lt (by rw [UInt32.toNat_and]; exact Nat.and_le_right)
      (by decide : 255 < 256)
  have h1 := length_byte hhigh
  have h2 := length_byte (hlow (a >>> 16))
  have h3 := length_byte (hlow (a >>> 8))
  have h4 := length_byte (hlow a)
  rw [Address.toOctets, length_octets]
  simp only [String.length_append]
  have hdot : ".".length = 1 := rfl
  omega

theorem length_writeToken_short {s d : Octets} (hs : s.length < 32)
    (h : writeToken (.str s) = some d) : d.length = s.length + 1 := by
  obtain ⟨head, hhead, rfl⟩ := Option.map_eq_some_iff.mp h
  rw [if_pos hs] at hhead
  obtain rfl := Option.some.inj hhead
  rw [List.length_append, List.length_singleton, Nat.add_comm]

theorem length_writeToken_address {a : Address} {d : Octets}
    (h : writeToken (.str a.toOctets) = some d) : d.length ≤ 16 := by
  have haddress := a.length_toOctets
  rw [length_writeToken_short (Nat.lt_of_le_of_lt haddress (by decide)) h]
  exact Nat.succ_le_succ haddress

theorem length_writeToken_port (port : UInt16) {d : Octets}
    (h : writeToken (.positiveInteger port.toUInt64) = some d) : d.length ≤ 3 := by
  have hport : port.toUInt64.toNat < 65536 := by
    rw [UInt16.toNat_toUInt64]
    exact port.toNat_lt
  rw [writeToken] at h
  split at h
  · obtain rfl := Option.some.inj h
    simp
  · exact length_writeSized h hport

theorem CDomainInfo.announcement_eq (info : CDomainInfo) :
    info.announcement = [.positiveInteger 1, .arrayHeader 4, .str info.wampIp,
      .positiveInteger info.wampPort.toUInt64, .str info.domainName,
      .str info.realmName] := rfl

/-- **Names that fit**: what goes around them takes 27 octets at most. -/
theorem CDomainInfo.length_announcement {info : CDomainInfo} {a : Address}
    {d : Octets} (h : writeAll (info.at a).announcement = some d)
    (hdomain : info.domainName.length < 65536)
    (hrealm : info.realmName.length < 65536) :
    d.length ≤ 27 + info.domainName.length + info.realmName.length := by
  rw [CDomainInfo.announcement_eq, CDomainInfo.at_wampIp, CDomainInfo.at_wampPort,
    CDomainInfo.at_domainName, CDomainInfo.at_realmName] at h
  obtain ⟨version, d₁, hversion, h₁, rfl⟩ := exists_of_writeAll_cons h
  obtain ⟨header, d₂, hheader, h₂, rfl⟩ := exists_of_writeAll_cons h₁
  obtain ⟨ip, d₃, hip, h₃, rfl⟩ := exists_of_writeAll_cons h₂
  obtain ⟨port, d₄, hport, h₄, rfl⟩ := exists_of_writeAll_cons h₃
  obtain ⟨domain, d₅, hname, h₅, rfl⟩ := exists_of_writeAll_cons h₄
  obtain ⟨realm, d₆, hrealm', h₆, rfl⟩ := exists_of_writeAll_cons h₅
  obtain rfl := Option.some.inj h₆
  obtain rfl := Option.some.inj hversion
  obtain rfl := Option.some.inj hheader
  have hip := length_writeToken_address hip
  have hport := length_writeToken_port info.wampPort hport
  have hname := length_writeToken_str hname hdomain
  have hrealm := length_writeToken_str hrealm' hrealm
  simp only [List.length_append, List.length_singleton, List.length_nil]
  omega

/-! ### The buffer -/

namespace CDomainDiscoveryAnnouncer

/-- At most one operation is outstanding, and if it is a send, the buffer it
reads holds the announcement of an address that was taken out of the queue. -/
structure Buffered (info : CDomainInfo) (s : CDomainDiscoveryAnnouncer) : Prop where
  atMostOne : s.outstanding.length ≤ 1
  same : ∀ a, s.domainInfo.at a = info.at a
  buffer : .send ∈ s.outstanding →
    ∃ a ∈ s.taken, s.txBuffer = (info.at a).announcement

section

variable {info : CDomainInfo} {s : CDomainDiscoveryAnnouncer}

/-- Only the address is changed when one is taken. -/
theorem domainInfo_at_take (s : CDomainDiscoveryAnnouncer) (front : Address)
    (rest : List Address) (a : Address) :
    (s.take front rest).domainInfo.at a = s.domainInfo.at a := by
  simp only [take, CDomainInfo.at]

/-- With nothing outstanding, `sendHeartBeat` starts the one operation. -/
theorem Buffered.sendHeartBeat (h : s.Buffered info) (hidle : s.outstanding = [])
    (error : Bool) (attempt : Attempt) :
    (s.sendHeartBeat error attempt).Buffered info := by
  unfold CDomainDiscoveryAnnouncer.sendHeartBeat
  split
  · refine ⟨?_, h.same, fun hsend => ?_⟩
    · simp [start, hidle]
    · simp [start, hidle] at hsend
  · next front rest hq =>
      refine ⟨?_, fun a => ?_, fun _ => ⟨front, ?_, ?_⟩⟩
      · simp [start, take, hidle]
      · exact (s.domainInfo_at_take front rest a).trans (h.same a)
      · exact List.mem_append_right _ (List.mem_singleton_self front)
      · show _ = (info.at front).announcement
        rw [← h.same front]
        rfl

theorem Buffered.sendToAllInterfaces (h : s.Buffered info)
    (hidle : s.outstanding = []) (interfaces : List Address) (attempt : Attempt) :
    (s.sendToAllInterfaces false interfaces attempt).Buffered info := by
  have hqueued : (s.enqueue interfaces).Buffered info :=
    ⟨h.atMostOne, h.same, h.buffer⟩
  rw [sendToAllInterfaces_eq]
  split
  · exact hqueued.sendHeartBeat hidle false attempt
  · exact hqueued

theorem Buffered.step (h : s.Buffered info) (i : Completion) :
    (s.step i).Buffered info := by
  unfold CDomainDiscoveryAnnouncer.step
  split
  · next hi =>
      have hidle : (s.finish i.operation).outstanding = [] := by
        have hle := h.atMostOne
        have hpos := List.length_pos_of_mem hi
        apply List.eq_nil_of_length_eq_zero
        rw [finish, List.length_erase_of_mem hi]
        omega
      have hfinish : (s.finish i.operation).Buffered info :=
        ⟨by rw [hidle]; exact Nat.zero_le 1, h.same,
          fun hsend => by rw [hidle] at hsend; cases hsend⟩
      cases i with
      | send error attempt => exact hfinish.sendHeartBeat hidle error attempt
      | wait interfaces attempt =>
          exact hfinish.sendToAllInterfaces hidle interfaces attempt
  · exact h

theorem buffered_launched (info : CDomainInfo) (interfaces : List Address)
    (attempt : Attempt) : (launched info interfaces attempt).Buffered info :=
  Buffered.sendToAllInterfaces (s := { domainInfo := info })
    ⟨Nat.zero_le 1, fun _ => rfl, fun h => by cases h⟩ rfl interfaces attempt

end

end CDomainDiscoveryAnnouncer

/-! ## The network -/

/-- `sent` are the datagrams that have gone out. -/
structure Discovery where
  announcers : Nat → CDomainDiscoveryAnnouncer
  listeners : Nat → CDomainDiscoveryListener
  sent : List Octets := []

namespace Discovery

open CDomainDiscoveryAnnouncer (Completion)
open CDomainDiscoveryListener (ListenerInput)

/-- An announcer takes a step. -/
def announce (D : Discovery) (j : Nat) (i : Completion) : Discovery :=
  { D with
    announcers := Machine.stepAt CDomainDiscoveryAnnouncer.step D.announcers j i }

section

variable (unpack : Octets → Option (Object × Octets))

/-- A listener takes a step. -/
def listen (D : Discovery) (l : Nat) (i : ListenerInput) : Discovery :=
  { D with
    listeners := Machine.stepAt (CDomainDiscoveryListener.step unpack) D.listeners l i }

/-- A step of the network. While a send is outstanding its buffer can go out;
what a listener receives has been sent. `allowed` says which receptions are
looked at. -/
inductive Step (allowed : Reception → Prop) : Discovery → Discovery → Prop
  | announce {D : Discovery} (j : Nat) (i : Completion) : Step allowed D (D.announce j i)
  | transmit {D : Discovery} {j : Nat} {d : Octets}
      (hsend : .send ∈ (D.announcers j).outstanding)
      (hd : writeAll (D.announcers j).txBuffer = some d) :
      Step allowed D { D with sent := D.sent ++ [d] }
  | receive {D : Discovery} (l : Nat) {r : Reception} (hallowed : allowed r)
      (hr : r.error = false → r.datagram ∈ D.sent) :
      Step allowed D (D.listen unpack l (.receive r))
  | erase {D : Discovery} (l : Nat) (domainName : Octets) :
      Step allowed D (D.listen unpack l (.erase domainName))

end

/-- Announcers and listeners that have been launched. -/
def launched (infos : Nat → CDomainInfo) (interfaces : Nat → List Address)
    (attempts : Nat → Attempt) : Discovery where
  announcers j := .launched (infos j) (interfaces j) (attempts j)
  listeners _ := .launched

def Reachable (D : Discovery) (unpack : Octets → Option (Object × Octets))
    (infos : Nat → CDomainInfo) : Prop :=
  ∃ interfaces attempts,
    ReflTransGen (Step unpack fun _ => True) (launched infos interfaces attempts) D

/-- In a run in which no slot throws. -/
def ReachableSmoothly (D : Discovery)
    (unpack : Octets → Option (Object × Octets)) (infos : Nat → CDomainInfo) :
    Prop :=
  ∃ interfaces attempts,
    ReflTransGen (Step unpack fun r => r.slot.throws = false)
      (launched infos interfaces attempts) D

/-! ## Authenticity -/

/-- An announcer has announced this, by an interface it has found. -/
def Announced (D : Discovery) (infos : Nat → CDomainInfo) (info : CDomainInfo) :
    Prop :=
  ∃ j, ∃ a ∈ (D.announcers j).queued, info = (infos j).at a

/-- What the listeners signal and know has been announced. -/
structure Authentic (D : Discovery) (infos : Nat → CDomainInfo) : Prop where
  signalled : ∀ l info, .discovered info ∈ (D.listeners l).log →
    D.Announced infos info
  known : ∀ l name info, (D.listeners l).knownDomains.find name = some info →
    info.domainName = name ∧ D.Announced infos info

/-- What an announcer, a datagram and a listener are at any time. -/
structure Sound (D : Discovery) (infos : Nat → CDomainInfo) : Prop where
  fifo : ∀ j, (D.announcers j).Fifo
  buffered : ∀ j, (D.announcers j).Buffered (infos j)
  sent : ∀ d ∈ D.sent, ∃ info, D.Announced infos info ∧
    writeAll info.announcement = some d
  remembers : ∀ l, (D.listeners l).Remembers
  signalled : ∀ l info, .discovered info ∈ (D.listeners l).log →
    D.Announced infos info

section

variable {unpack : Octets → Option (Object × Octets)} {infos : Nat → CDomainInfo}
  {D E : Discovery} {info : CDomainInfo}

theorem Announced.mono (h : D.Announced infos info)
    (hqueued : ∀ j, (D.announcers j).queued <+: (E.announcers j).queued) :
    E.Announced infos info := by
  obtain ⟨j, a, ha, rfl⟩ := h
  exact ⟨j, a, (hqueued j).subset ha, rfl⟩

theorem Sound.authentic (h : D.Sound infos) : D.Authentic infos where
  signalled := h.signalled
  known l _ _ hknown :=
    ((h.remembers l).discovered hknown).imp_right (h.signalled l _)

theorem queued_announce (D : Discovery) (j : Nat) (i : Completion) (k : Nat) :
    (D.announcers k).queued <+: ((D.announce j i).announcers k).queued :=
  Machine.stepAt_rel (R := fun (s t : CDomainDiscoveryAnnouncer) =>
    s.queued <+: t.queued) rfl ((D.announcers j).step_history i).1
    (fun _ => List.prefix_refl _) k

theorem Sound.announce (h : D.Sound infos) (j : Nat) (i : Completion) :
    (D.announce j i).Sound infos where
  fifo := Machine.forall_stepAt (P := fun _ s => CDomainDiscoveryAnnouncer.Fifo s) rfl
    ((h.fifo j).step i) h.fifo
  buffered := Machine.forall_stepAt (P := fun k s =>
    CDomainDiscoveryAnnouncer.Buffered (infos k) s) rfl
    ((h.buffered j).step i) h.buffered
  sent d hd := by
    obtain ⟨info, hannounced, hwrite⟩ := h.sent d hd
    exact ⟨info, hannounced.mono (D.queued_announce j i), hwrite⟩
  remembers := h.remembers
  signalled l info hlog := (h.signalled l info hlog).mono (D.queued_announce j i)

/-- What goes out has been announced: it is in the buffer of a send. -/
theorem Sound.transmit (h : D.Sound infos) {j : Nat} {d : Octets}
    (hsend : .send ∈ (D.announcers j).outstanding)
    (hd : writeAll (D.announcers j).txBuffer = some d) :
    ({ D with sent := D.sent ++ [d] } : Discovery).Sound infos where
  fifo := h.fifo
  buffered := h.buffered
  sent d' hd' := by
    rcases List.mem_append.mp hd' with hd' | hd'
    · exact h.sent d' hd'
    · obtain rfl := List.mem_singleton.mp hd'
      obtain ⟨a, ha, hbuffer⟩ := (h.buffered j).buffer hsend
      rw [hbuffer] at hd
      exact ⟨(infos j).at a, ⟨j, a, (h.fifo j).taken_isPrefix.subset ha, rfl⟩, hd⟩
  remembers := h.remembers
  signalled := h.signalled

/-- A datagram that has been sent is read as it was announced. -/
theorem Sound.announced_of_infoOf (h : D.Sound infos) (hu : Unpacks unpack)
    {r : Reception} (hsent : r.datagram ∈ D.sent)
    (hinfo : CDomainDiscoveryListener.infoOf unpack r = .ok (some info)) :
    D.Announced infos info := by
  obtain ⟨info', hannounced, hwrite⟩ := h.sent r.datagram hsent
  rw [CDomainDiscoveryListener.infoOf_announcement hu hwrite] at hinfo
  split at hinfo
  · obtain rfl := Option.some.inj (Except.ok.inj hinfo)
    exact hannounced
  · cases hinfo

theorem Sound.listen (h : D.Sound infos) (hu : Unpacks unpack) (l : Nat)
    {i : ListenerInput}
    (hi : ∀ r, i = .receive r → r.error = false → r.datagram ∈ D.sent) :
    (D.listen unpack l i).Sound infos where
  fifo := h.fifo
  buffered := h.buffered
  sent := h.sent
  remembers := Machine.forall_stepAt (P := fun _ s => CDomainDiscoveryListener.Remembers s) rfl
    ((h.remembers l).step i) h.remembers
  signalled := by
    refine Machine.forall_stepAt (P := fun _ (s : CDomainDiscoveryListener) =>
      ∀ info, .discovered info ∈ s.log → D.Announced infos info) rfl
      (fun info hlog => ?_) h.signalled
    rcases CDomainDiscoveryListener.step_discovered hlog with
      hlog | ⟨r, rfl, hr, hinfo⟩
    · exact h.signalled l info hlog
    · exact h.announced_of_infoOf hu (hi r rfl hr) hinfo

theorem Sound.step {allowed : Reception → Prop} (h : D.Sound infos)
    (hu : Unpacks unpack) (hstep : Step unpack allowed D E) : E.Sound infos := by
  cases hstep with
  | announce j i => exact h.announce j i
  | transmit hsend hd => exact h.transmit hsend hd
  | receive l _ hr => exact h.listen hu l fun r heq => by cases heq; exact hr
  | erase l name => exact h.listen hu l fun r heq => by cases heq

theorem sound_launched (infos : Nat → CDomainInfo) (interfaces : Nat → List Address)
    (attempts : Nat → Attempt) :
    (launched infos interfaces attempts).Sound infos where
  fifo j := CDomainDiscoveryAnnouncer.fifo_launched _ _ _
  buffered j := CDomainDiscoveryAnnouncer.buffered_launched _ _ _
  sent d hd := by cases hd
  remembers _ := CDomainDiscoveryListener.remembers_launched
  signalled _ _ hlog := by cases hlog

theorem Reachable.sound (hu : Unpacks unpack) (h : D.Reachable unpack infos) :
    D.Sound infos := by
  obtain ⟨interfaces, attempts, hsteps⟩ := h
  induction hsteps with
  | refl => exact sound_launched infos interfaces attempts
  | tail _ hstep ih => exact ih.step hu hstep

/-- **Nothing is made up.** In whatever order announcers, network and listeners
take their steps, what a listener signals and knows is what an announcer has
announced, with the address of one of its interfaces. -/
theorem Reachable.discovers_announced (hu : Unpacks unpack)
    (h : D.Reachable unpack infos) : D.Authentic infos :=
  (h.sound hu).authentic

/-! ## Receiving what has been sent -/

/-- What a datagram does to a listener: it is heard if it fits into the buffer,
and is the last one if it does not. -/
def Heard (D : Discovery) (infos : Nat → CDomainInfo) (r : Reception)
    (s t : CDomainDiscoveryListener) : Prop :=
  ∃ info, D.Announced infos info ∧ writeAll info.announcement = some r.datagram ∧
    if r.datagram.length ≤ 512 then s.Hears t info r.slot else s.Deaf t

/-- **Every announcement that fits is heard as it was announced**, by every
listener that still listens; one that does not fit ends the receives of every
listener it reaches. -/
theorem Reachable.hears_announcements (hu : Unpacks unpack) (h : D.Reachable unpack infos)
    {l : Nat} (hl : (D.listeners l).Listening) {r : Reception} (hr : r.error = false)
    (hsent : r.datagram ∈ D.sent) :
    D.Heard infos r (D.listeners l)
      ((D.listen unpack l (.receive r)).listeners l) := by
  obtain ⟨info, hannounced, hwrite⟩ := (h.sound hu).sent r.datagram hsent
  refine ⟨info, hannounced, hwrite, ?_⟩
  have hinfo := CDomainDiscoveryListener.infoOf_announcement hu hwrite
  have hbody := CDomainDiscoveryListener.bodyOf_announcement hu hwrite
  simp only [listen, Machine.stepAt_self]
  split
  · next hle =>
    rw [if_pos hle] at hinfo
    exact CDomainDiscoveryListener.hears_receive hl hr hinfo
  · next hgt =>
    rw [if_neg hgt] at hbody
    exact CDomainDiscoveryListener.deaf_receive hl hr hbody

end

/-! ## Names that fit -/

section

variable {unpack : Octets → Option (Object × Octets)} {infos : Nat → CDomainInfo}
  {D E : Discovery}

/-- Whatever is sent fits into the buffer. -/
theorem Sound.fits (h : D.Sound infos)
    (hshort : ∀ j, (infos j).domainName.length + (infos j).realmName.length ≤ 485)
    {d : Octets} (hd : d ∈ D.sent) :
    d.length ≤ 512 := by
  obtain ⟨info, ⟨j, a, -, rfl⟩, hwrite⟩ := h.sent d hd
  have hnames := hshort j
  have hlen := CDomainInfo.length_announcement hwrite (by omega) (by omega)
  omega

theorem Sound.accepts (h : D.Sound infos) (hu : Unpacks unpack)
    (hshort : ∀ j, (infos j).domainName.length + (infos j).realmName.length ≤ 485)
    {r : Reception} (hslot : r.slot.throws = false)
    (hr : r.error = false → r.datagram ∈ D.sent) (s : CDomainDiscoveryListener) :
    s.Accepts unpack r := by
  cases herror : r.error with
  | true => exact .inl herror
  | false =>
      obtain ⟨info, -, hwrite⟩ := h.sent r.datagram (hr herror)
      have hinfo := CDomainDiscoveryListener.infoOf_announcement hu hwrite
      rw [if_pos (h.fits hshort (hr herror))] at hinfo
      exact CDomainDiscoveryListener.accepts_of_ok hinfo fun _ _ _ => hslot

theorem listening_listen {l : Nat} {i : ListenerInput}
    (h : ∀ m, (D.listeners m).Listening)
    (hi : CDomainDiscoveryListener.Meets unpack (D.listeners l) i) (m : Nat) :
    ((D.listen unpack l i).listeners m).Listening :=
  Machine.forall_stepAt (P := fun _ s => CDomainDiscoveryListener.Listening s) rfl
    ((CDomainDiscoveryListener.listening_step (h l) i).mpr hi) h m

/-- **Short names never deafen a listener**: if the domain and the realm of each
announcer have 485 octets together at most, and no slot throws, every listener
goes on listening. -/
theorem ReachableSmoothly.keeps_listening (hu : Unpacks unpack)
    (hshort : ∀ j, (infos j).domainName.length + (infos j).realmName.length ≤ 485)
    (h : D.ReachableSmoothly unpack infos) (l : Nat) : (D.listeners l).Listening := by
  obtain ⟨interfaces, attempts, hsteps⟩ := h
  have hboth : D.Sound infos ∧ ∀ l, (D.listeners l).Listening := by
    induction hsteps with
    | refl => exact ⟨sound_launched infos interfaces attempts, fun _ => rfl⟩
    | tail _ hstep ih =>
        obtain ⟨hsound, hlistening⟩ := ih
        refine ⟨hsound.step hu hstep, fun l => ?_⟩
        cases hstep with
        | announce j i => exact hlistening l
        | transmit hsend hd => exact hlistening l
        | receive m hslot hr =>
            refine listening_listen hlistening (fun r heq => ?_) l
            cases heq
            exact hsound.accepts hu hshort hslot hr _
        | erase m name =>
            exact listening_listen hlistening (fun r heq => by cases heq) l
  exact hboth.2 l

end

/-! ## One domain -/

/-- What the one announcer announces. -/
def domain : CDomainInfo := ⟨[], 8000, octets "domain", octets "realm"⟩

/-- The announcement of the interface 10.0.0.1 has been sent. -/
def announcing : Discovery :=
  let D := launched (fun _ => domain) (fun _ => [0x0a000001]) fun _ => {}
  { D with sent := [(writeAll (D.announcers 0).txBuffer).getD []] }

theorem step_announcing (allowed : Reception → Prop) :
    Step readValue allowed
      (launched (fun _ => domain) (fun _ => [0x0a000001]) fun _ => {}) announcing := by
  have hd : (writeAll (announcing.announcers 0).txBuffer).isSome := by decide +kernel
  obtain ⟨d, hd⟩ := Option.isSome_iff_exists.mp hd
  have hsent : announcing.sent = [d] := by
    show [(writeAll (announcing.announcers 0).txBuffer).getD []] = [d]
    rw [hd]
    rfl
  have hstep : Step readValue allowed { announcing with sent := [] }
      { announcing with sent := [] ++ [d] } :=
    .transmit (j := 0) (List.mem_singleton_self _) hd
  rwa [List.nil_append, ← hsent] at hstep

theorem reachable_announcing : announcing.Reachable readValue fun _ => domain :=
  ⟨fun _ => [0x0a000001], fun _ => {}, .single (step_announcing _)⟩

/-- The datagram as it is received. -/
def reception : Reception := { datagram := announcing.sent.headD [] }

theorem authentic_one_domain : ∃ D : Discovery,
    (D.Reachable readValue fun _ => domain) ∧ (D.Authentic fun _ => domain) ∧
    ((D.listeners 0).knownDomains.find (octets "domain")).isSome := by
  obtain ⟨interfaces, attempts, h⟩ := reachable_announcing
  have hreceive := h.tail (.receive 0 (r := reception) trivial fun _ =>
    List.mem_singleton_self _)
  exact ⟨_, ⟨interfaces, attempts, hreceive⟩,
    Reachable.discovers_announced readValue_unpacks ⟨interfaces, attempts, hreceive⟩,
    by decide +kernel⟩

theorem heard_one_domain :
    announcing.Heard (fun _ => domain) reception (announcing.listeners 0)
        ((announcing.listen readValue 0 (.receive reception)).listeners 0) ∧
      reception.datagram.length = 27 :=
  ⟨reachable_announcing.hears_announcements readValue_unpacks rfl rfl
      (List.mem_singleton_self _),
    by decide +kernel⟩

theorem keeps_listening_one_domain : ∃ D : Discovery,
    (D.ReachableSmoothly readValue fun _ => domain) ∧ (D.listeners 0).Listening ∧
    (D.listeners 0).rxMessageCount = 1 := by
  have hsteps := (ReflTransGen.single (step_announcing fun r =>
    r.slot.throws = false)).tail
      (.receive 0 (r := reception) rfl fun _ => List.mem_singleton_self _)
  exact ⟨_, ⟨_, _, hsteps⟩, ReachableSmoothly.keeps_listening readValue_unpacks
    (fun _ => by decide) ⟨_, _, hsteps⟩ 0, by decide +kernel⟩

end Discovery

end Autobahn.Acs
