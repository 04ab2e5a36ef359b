import Autobahn.Acs.Announcer
import Autobahn.Foundation.Containers
import Autobahn.Foundation.Exec
import Autobahn.MsgPack.Front
import Autobahn.Session.Messages

/-!
# The domain listener

`CDomainDiscoveryListener` has one receive outstanding. Its handler unpacks the
datagram, adds a domain it does not know and signals it, and starts the next
receive as its last act: an exception on the way ends the loop
(`everywhere_listening_iff`).

What the listener knows is a function of what it has signalled and what has been
erased (`Remembers`): a domain is signalled once until it is erased, and what it
was first signalled with stays.

`msgpack::unpack` is a parameter.
-/

namespace Autobahn.Acs

open Foundation MsgPack Conversion

/-! ## Reading a datagram -/

def CDomainDiscoveryAnnouncer.PROTOCOL_VERSION_NUMBER : UInt8 := 1

def asUInt8 : Object → Except Exn UInt8
  | .positiveInteger n =>
      if n.toNat < UInt8.size then .ok (UInt8.ofNat n.toNat) else .error .typeError
  | _ => .error .typeError

def asUInt16 : Object → Except Exn UInt16
  | .positiveInteger n =>
      if n.toNat < UInt16.size then .ok (UInt16.ofNat n.toNat) else .error .typeError
  | _ => .error .typeError

/-- A member keeps its value if the array ends before it. -/
def convertAt {α : Type} (elements : List Object) (n : Nat)
    (as : Object → Except Exn α) (old : α) : Except Exn α :=
  match elements[n]? with
  | some o => as o
  | none => .ok old

/-- `convert`, by `MSGPACK_DEFINE(m_wampIp, m_wampPort, m_domainName,
m_realmName)`. -/
def CDomainInfo.convert (info : CDomainInfo) : Object → Except Exn CDomainInfo
  | .array elements => do
      let wampIp ← convertAt elements 0 asString info.wampIp
      let wampPort ← convertAt elements 1 asUInt16 info.wampPort
      let domainName ← convertAt elements 2 asString info.domainName
      let realmName ← convertAt elements 3 asString info.realmName
      .ok { wampIp, wampPort, domainName, realmName }
  | _ => .error .typeError

theorem asUInt16_port (port : UInt16) :
    asUInt16 (.positiveInteger port.toUInt64) = .ok port := by
  have hlt : port.toUInt64.toNat < UInt16.size := by
    rw [UInt16.toNat_toUInt64]
    exact port.toNat_lt
  rw [asUInt16, if_pos hlt, UInt16.toNat_toUInt64, UInt16.ofNat_toNat]

/-- **What the announcer packs converts back.** -/
theorem CDomainInfo.convert_object (old info : CDomainInfo) :
    old.convert info.object = .ok info := by
  show (do
    let port ← asUInt16 (.positiveInteger info.wampPort.toUInt64)
    Except.ok { info with wampPort := port }) = _
  rw [asUInt16_port]
  rfl

/-- What the announcer packs into its buffer. -/
def CDomainInfo.announcement (info : CDomainInfo) : List Token :=
  pack (.positiveInteger CDomainInfo.PROTOCOL_VERSION_NUMBER.toUInt64) ++
    pack info.object

/-! ## The listener -/

/-- What the listener has signalled, and what has been erased. -/
inductive ListenerEvent : Type where
  | discovered (info : CDomainInfo)
  | erased (domainName : Octets)

/-- `receives` counts the receives outstanding; `log` is history. -/
structure CDomainDiscoveryListener where
  knownDomains : Table Octets CDomainInfo := .empty
  rxMessageCount : Nat := 0
  receives : Nat := 0
  log : List ListenerEvent := []

/-- What the slots of `m_onDomainDiscovery` do: erase domains, and throw. -/
structure Slot where
  erases : List Octets := []
  throws : Bool := false

/-- A receive that ends, with an error or with a datagram. `port` is what the
member `m_wampPort` holds before it is set: it is not initialised. -/
structure Reception where
  error : Bool := false
  datagram : Octets
  slot : Slot := {}
  port : UInt16 := 0

/-- The buffer holds 512 octets. -/
def Reception.received (r : Reception) : Octets := r.datagram.take 512

abbrev ListenerM : Type → Type := Exec CDomainDiscoveryListener Exn

namespace CDomainDiscoveryListener

def erase (s : CDomainDiscoveryListener) (domainName : Octets) :
    CDomainDiscoveryListener :=
  { s with
    knownDomains := s.knownDomains.erase domainName
    log := s.log ++ [.erased domainName] }

def discover (s : CDomainDiscoveryListener) (info : CDomainInfo) :
    CDomainDiscoveryListener :=
  { s with
    knownDomains := s.knownDomains.assign info.domainName info
    log := s.log ++ [.discovered info] }

def queueReceive (error : Bool) : ListenerM Unit :=
  if error then pure ()
  else modify fun s => { s with receives := s.receives + 1 }

/-- `m_onDomainDiscovery(thisDomain)` -/
def onDomainDiscovery (slot : Slot) : ListenerM Unit := do
  modify fun s => slot.erases.foldl erase s
  if slot.throws then
    throw (.user none)

def thrown {α : Type} : Except Exn α → ListenerM α
  | .ok a => pure a
  | .error e => throw e

section

variable (unpack : Octets → Option (Object × Octets))

def unpacked (buffer : Octets) : Except Exn (Object × Octets) :=
  match unpack buffer with
  | some p => .ok p
  | none => .error (.runtimeError [])

/-- The body behind the version number; `none` if that is not the expected
one. -/
def bodyOf (received : Octets) : Except Exn (Option Object) := do
  let (version, rest) ← unpacked unpack received
  if version.type = .POSITIVE_INTEGER then
    if (← asUInt8 version) =
        CDomainDiscoveryAnnouncer.PROTOCOL_VERSION_NUMBER then
      let (body, _) ← unpacked unpack rest
      return some body
  return none

def onReceive (r : Reception) : ListenerM Unit := do
  if ¬ r.error then
    match ← thrown (bodyOf unpack r.received) with
    | some body => do
        modify fun s => { s with rxMessageCount := s.rxMessageCount + 1 }
        let thisDomain ← thrown (CDomainInfo.convert
          { wampPort := r.port, domainName := [], realmName := [] } body)
        if ((← get).knownDomains.find thisDomain.domainName).isNone then
          modify fun s => s.discover thisDomain
          onDomainDiscovery r.slot
    -- a bad packet is only reported
    | none => pure ()
  queueReceive false

/-! ## Runs -/

inductive ListenerInput : Type where
  | receive (r : Reception)
  | erase (domainName : Octets)

/-- A receive can end only if it is outstanding. -/
def step (s : CDomainDiscoveryListener) : ListenerInput → CDomainDiscoveryListener
  | .receive r =>
      if s.receives = 0 then s
      else ((onReceive unpack r).run { s with receives := s.receives - 1 }).2
  | .erase domainName => s.erase domainName

/-- A listener that has been launched. -/
def launched : CDomainDiscoveryListener := ((queueReceive false).run {}).2

abbrev runs (s : CDomainDiscoveryListener) (is : List ListenerInput) :
    CDomainDiscoveryListener :=
  Machine.run (step unpack) s is

end

/-! ## What a reception does -/

def counted (s : CDomainDiscoveryListener) : CDomainDiscoveryListener :=
  { s with rxMessageCount := s.rxMessageCount + 1 }

def queued (s : CDomainDiscoveryListener) : CDomainDiscoveryListener :=
  { s with receives := s.receives + 1 }

/-- A domain is added and signalled. -/
def signalled (s : CDomainDiscoveryListener) (info : CDomainInfo) (slot : Slot) :
    CDomainDiscoveryListener :=
  slot.erases.foldl erase (s.discover info)

/-- What a datagram announces; `none` if its version is not the expected one. -/
def infoOf (unpack : Octets → Option (Object × Octets)) (r : Reception) :
    Except Exn (Option CDomainInfo) := do
  match ← bodyOf unpack r.received with
  | some body =>
      let info ← CDomainInfo.convert
        { wampPort := r.port, domainName := [], realmName := [] } body
      return some info
  | none => return none

section

variable {unpack : Octets → Option (Object × Octets)} {s : CDomainDiscoveryListener}
  {r : Reception}

attribute [local simp] Exec.run_bind

@[simp] theorem foldl_erase_receives (names : List Octets) :
    ∀ s : CDomainDiscoveryListener,
      (names.foldl erase s).receives = s.receives := by
  induction names with
  | nil => exact fun s => rfl
  | cons name names ih => exact fun s => ih (s.erase name)

theorem run_onReceive_error (h : r.error = true) :
    (onReceive unpack r).run s = (.ok (), s.queued) := by
  simp [onReceive, queueReceive, h, queued]

/-- An exception in front of the conversion leaves everything as it was. -/
theorem run_onReceive_body {e : Exn} (h : r.error = false)
    (hb : bodyOf unpack r.received = .error e) :
    (onReceive unpack r).run s = (.error e, s) := by
  simp [onReceive, h, hb, thrown]

theorem run_onReceive_version (h : r.error = false)
    (hb : bodyOf unpack r.received = .ok none) :
    (onReceive unpack r).run s = (.ok (), s.queued) := by
  simp [onReceive, queueReceive, h, hb, thrown, queued]

theorem run_onReceive_convert {body : Object} {e : Exn} (h : r.error = false)
    (hb : bodyOf unpack r.received = .ok (some body))
    (hc : CDomainInfo.convert
      { wampPort := r.port, domainName := [], realmName := [] } body = .error e) :
    (onReceive unpack r).run s = (.error e, s.counted) := by
  simp [onReceive, h, hb, hc, thrown, counted]

theorem run_onReceive_known {body : Object} {info : CDomainInfo}
    (h : r.error = false) (hb : bodyOf unpack r.received = .ok (some body))
    (hc : CDomainInfo.convert
      { wampPort := r.port, domainName := [], realmName := [] } body = .ok info)
    (hk : s.knownDomains.find info.domainName ≠ none) :
    (onReceive unpack r).run s = (.ok (), s.counted.queued) := by
  simp [onReceive, queueReceive, h, hb, hc, thrown, hk, counted, queued]

theorem run_onReceive_new {body : Object} {info : CDomainInfo}
    (h : r.error = false) (hb : bodyOf unpack r.received = .ok (some body))
    (hc : CDomainInfo.convert
      { wampPort := r.port, domainName := [], realmName := [] } body = .ok info)
    (hk : s.knownDomains.find info.domainName = none) :
    (onReceive unpack r).run s =
      if r.slot.throws then (.error (.user none), s.counted.signalled info r.slot)
      else (.ok (), (s.counted.signalled info r.slot).queued) := by
  cases ht : r.slot.throws <;>
    simp [onReceive, queueReceive, onDomainDiscovery, h, hb, hc, thrown, hk, ht,
      counted, signalled, queued]

/-- No exception: the datagram can be unpacked and converted, and no slot that
is called throws. -/
def Accepts (unpack : Octets → Option (Object × Octets))
    (s : CDomainDiscoveryListener) (r : Reception) : Prop :=
  r.error = true ∨ ∃ announced, infoOf unpack r = .ok announced ∧
    ∀ info, announced = some info → s.knownDomains.find info.domainName = none →
      r.slot.throws = false

/-- How the handler of a receive can end. -/
inductive Outcome (unpack : Octets → Option (Object × Octets))
    (s : CDomainDiscoveryListener) (r : Reception) : CDomainDiscoveryListener → Prop
  /-- an error, another version, or a domain that is known -/
  | ignored {t : CDomainDiscoveryListener} (h : Accepts unpack s r)
      (ht : t = s.queued ∨ t = s.counted.queued) : Outcome unpack s r t
  /-- the datagram cannot be unpacked or converted -/
  | refused {t : CDomainDiscoveryListener} (h : ¬ Accepts unpack s r)
      (ht : t = s ∨ t = s.counted) : Outcome unpack s r t
  | found {info : CDomainInfo} (hreceived : r.error = false)
      (h : Accepts unpack s r) (hinfo : infoOf unpack r = .ok (some info))
      (hnew : s.knownDomains.find info.domainName = none) :
      Outcome unpack s r (s.counted.signalled info r.slot).queued
  /-- a slot has thrown, with the domain added -/
  | thrown {info : CDomainInfo} (hreceived : r.error = false)
      (h : ¬ Accepts unpack s r) (hinfo : infoOf unpack r = .ok (some info))
      (hnew : s.knownDomains.find info.domainName = none) :
      Outcome unpack s r (s.counted.signalled info r.slot)

theorem infoOf_body {e : Exn} (hb : bodyOf unpack r.received = .error e) :
    infoOf unpack r = .error e := by
  rw [infoOf, hb]
  rfl

theorem infoOf_version (hb : bodyOf unpack r.received = .ok none) :
    infoOf unpack r = .ok none := by
  rw [infoOf, hb]
  rfl

theorem infoOf_convert {body : Object}
    (hb : bodyOf unpack r.received = .ok (some body)) :
    infoOf unpack r = (CDomainInfo.convert
      { wampPort := r.port, domainName := [], realmName := [] } body).map some := by
  rw [infoOf, hb]
  show (do
    let info ← CDomainInfo.convert
      { wampPort := r.port, domainName := [], realmName := [] } body
    Except.ok (some info)) = _
  cases CDomainInfo.convert
    { wampPort := r.port, domainName := [], realmName := [] } body <;> rfl

theorem not_accepts {e : Exn} (h : r.error = false)
    (hinfo : infoOf unpack r = .error e) : ¬ Accepts unpack s r := by
  rintro (herror | ⟨announced, hok, -⟩)
  · exact absurd (h.symm.trans herror) (by decide)
  · rw [hinfo] at hok
    cases hok

theorem accepts_of_ok {announced : Option CDomainInfo}
    (hinfo : infoOf unpack r = .ok announced)
    (hslot : ∀ info, announced = some info →
      s.knownDomains.find info.domainName = none → r.slot.throws = false) :
    Accepts unpack s r :=
  .inr ⟨announced, hinfo, hslot⟩

/-- **What a completed receive does.** -/
theorem onReceive_outcome (unpack : Octets → Option (Object × Octets))
    (s : CDomainDiscoveryListener) (r : Reception) :
    Outcome unpack s r ((onReceive unpack r).run s).2 := by
  cases h : r.error with
  | true =>
      rw [run_onReceive_error h]
      exact .ignored (.inl h) (.inl rfl)
  | false =>
  cases hb : bodyOf unpack r.received with
  | error e =>
      rw [run_onReceive_body h hb]
      exact .refused (not_accepts h (infoOf_body hb)) (.inl rfl)
  | ok announced =>
  cases announced with
  | none =>
      rw [run_onReceive_version h hb]
      refine .ignored (accepts_of_ok (infoOf_version hb) fun info heq => ?_) (.inl rfl)
      cases heq
  | some body =>
  have hconvert := infoOf_convert hb
  cases hc : CDomainInfo.convert
    { wampPort := r.port, domainName := [], realmName := [] } body with
  | error e =>
      rw [run_onReceive_convert h hb hc]
      rw [hc] at hconvert
      exact .refused (not_accepts h hconvert) (.inr rfl)
  | ok info =>
  rw [hc] at hconvert
  by_cases hk : s.knownDomains.find info.domainName = none
  case neg =>
    rw [run_onReceive_known h hb hc hk]
    refine .ignored (accepts_of_ok hconvert fun info' heq hnone => ?_) (.inr rfl)
    obtain rfl := Option.some.inj heq
    exact absurd hnone hk
  rw [run_onReceive_new h hb hc hk]
  cases ht : r.slot.throws with
  | true =>
      refine .thrown h (fun ha => ?_) hconvert hk
      obtain ⟨announced, hok, hslot⟩ :=
        ha.resolve_left (by rw [h]; decide)
      obtain rfl := Except.ok.inj (hconvert.symm.trans hok)
      exact absurd (ht.symm.trans (hslot info rfl hk)) (by decide)
  | false => exact .found h (accepts_of_ok hconvert fun _ _ _ => ht) hconvert hk

end

/-! ## The loop of receives -/

/-- One receive is outstanding. -/
def Listening (s : CDomainDiscoveryListener) : Prop := s.receives = 1

/-- The datagram, if one is received, is accepted. -/
def Meets (unpack : Octets → Option (Object × Octets))
    (s : CDomainDiscoveryListener) (i : ListenerInput) : Prop :=
  ∀ r, i = .receive r → Accepts unpack s r

section

variable {unpack : Octets → Option (Object × Octets)} {s : CDomainDiscoveryListener}

@[simp] theorem signalled_receives (s : CDomainDiscoveryListener)
    (info : CDomainInfo) (slot : Slot) :
    (s.signalled info slot).receives = s.receives :=
  foldl_erase_receives _ _

theorem listening_step (h : s.Listening) (i : ListenerInput) :
    (s.step unpack i).Listening ↔ Meets unpack s i := by
  have hs : s.receives = 1 := h
  cases i with
  | erase name => exact iff_of_true h fun r heq => by cases heq
  | receive r =>
      have hmeets : Meets unpack s (.receive r) ↔ Accepts unpack s r :=
        ⟨fun hm => hm r rfl, fun ha r' heq => by cases heq; exact ha⟩
      -- the acceptance does not depend on the receives
      have haccepts : Accepts unpack { s with receives := s.receives - 1 } r ↔
          Accepts unpack s r := Iff.rfl
      rw [hmeets, ← haccepts, step, if_neg (by rw [hs]; decide), hs]
      have hcases := onReceive_outcome unpack { s with receives := 0 } r
      generalize ((onReceive unpack r).run { s with receives := 0 }).2 = t at hcases
      cases hcases with
      | ignored ha ht =>
          refine iff_of_true ?_ ha
          rcases ht with rfl | rfl <;> rfl
      | refused ha ht =>
          refine iff_of_false ?_ ha
          rcases ht with rfl | rfl <;> exact Nat.zero_ne_one
      | found _ ha hinfo hnew =>
          refine iff_of_true ?_ ha
          simp [Listening, queued, counted]
      | thrown _ ha hinfo hnew =>
          refine iff_of_false ?_ ha
          simp [Listening, counted]

/-- **Exactly when the listener goes on listening**: when every datagram that it
receives is accepted. -/
theorem everywhere_listening_iff (unpack : Octets → Option (Object × Octets))
    (is : List ListenerInput) :
    Machine.Everywhere (step unpack) Listening launched is ↔
      Machine.EachStep (step unpack) (Meets unpack) launched is := by
  apply Machine.everywhere_iff_eachStep (show launched.Listening from rfl)
  intro pre i _ hpre
  rw [Machine.run_snoc]
  exact listening_step hpre i

end

/-! ## What the listener knows -/

/-- The last thing that has happened to a domain: what it was signalled with,
unless it was erased. -/
def remembered (name : Octets) (log : List ListenerEvent) : Option CDomainInfo :=
  log.foldl (fun known e =>
    match e with
    | .discovered info => if info.domainName = name then some info else known
    | .erased erased => if erased = name then none else known) none

/-- The listener knows the domains that were signalled and not erased since, as
they were signalled, and it signals no other domain than one it does not
know. -/
structure Remembers (s : CDomainDiscoveryListener) : Prop where
  known : ∀ name, s.knownDomains.find name = remembered name s.log
  once : EachEntry (fun pre e => ∀ info, e = .discovered info →
    remembered info.domainName pre = none) s.log

section

variable {unpack : Octets → Option (Object × Octets)} {s t : CDomainDiscoveryListener}

theorem remembered_discovered (name : Octets) (log : List ListenerEvent)
    (info : CDomainInfo) :
    remembered name (log ++ [.discovered info]) =
      if info.domainName = name then some info else remembered name log := by
  rw [remembered, List.foldl_append]
  rfl

theorem remembered_erased (name erased : Octets) (log : List ListenerEvent) :
    remembered name (log ++ [.erased erased]) =
      if erased = name then none else remembered name log := by
  rw [remembered, List.foldl_append]
  rfl

theorem Remembers.congr (h : s.Remembers) (hknown : t.knownDomains = s.knownDomains)
    (hlog : t.log = s.log) : t.Remembers := by
  constructor
  · rw [hknown, hlog]
    exact h.known
  · rw [hlog]
    exact h.once

theorem Remembers.erase (h : s.Remembers) (name : Octets) :
    (s.erase name).Remembers where
  known name' := by
    show (s.knownDomains.erase name).find name' = remembered name' (s.log ++ _)
    rw [remembered_erased, Table.find_erase, ← h.known]
    simp only [eq_comm]
  once := eachEntry_snoc.mpr ⟨h.once, fun info heq => by cases heq⟩

theorem Remembers.discover (h : s.Remembers) {info : CDomainInfo}
    (hnew : s.knownDomains.find info.domainName = none) :
    (s.discover info).Remembers where
  known name := by
    show (s.knownDomains.assign info.domainName info).find name =
      remembered name (s.log ++ _)
    rw [remembered_discovered, Table.find_assign, ← h.known]
    simp only [eq_comm]
  once := by
    refine eachEntry_snoc.mpr ⟨h.once, fun info' heq => ?_⟩
    obtain rfl := ListenerEvent.discovered.inj heq
    rw [← h.known]
    exact hnew

theorem Remembers.foldl_erase (names : List Octets) :
    ∀ {s : CDomainDiscoveryListener}, s.Remembers →
      (names.foldl CDomainDiscoveryListener.erase s).Remembers := by
  induction names with
  | nil => exact fun h => h
  | cons name names ih => exact fun h => ih (h.erase name)

theorem Remembers.signalled (h : s.Remembers) {info : CDomainInfo}
    (hnew : s.knownDomains.find info.domainName = none) (slot : Slot) :
    (s.counted.signalled info slot).Remembers :=
  .foldl_erase _ (Remembers.discover (s := s.counted) ⟨h.known, h.once⟩ hnew)

theorem Remembers.outcome (h : s.Remembers) {r : Reception}
    (ht : Outcome unpack s r t) : t.Remembers := by
  cases ht with
  | ignored _ ht => rcases ht with rfl | rfl <;> exact h.congr rfl rfl
  | refused _ ht => rcases ht with rfl | rfl <;> exact h.congr rfl rfl
  | found _ _ _ hnew => exact (h.signalled hnew r.slot).congr rfl rfl
  | thrown _ _ _ hnew => exact h.signalled hnew r.slot

theorem Remembers.step (h : s.Remembers) (i : ListenerInput) :
    (s.step unpack i).Remembers := by
  cases i with
  | erase name => exact h.erase name
  | receive r =>
      rw [CDomainDiscoveryListener.step]
      split
      · exact h
      · exact Remembers.outcome (s := { s with receives := s.receives - 1 })
          ⟨h.known, h.once⟩ (onReceive_outcome unpack _ r)

theorem remembers_launched : launched.Remembers where
  known _ := rfl
  once := eachEntry_nil

/-- **A domain is signalled once until it is erased**, and the listener goes on
knowing it as it was signalled, whatever is received. -/
theorem remembers_runs (unpack : Octets → Option (Object × Octets))
    (is : List ListenerInput) : (launched.runs unpack is).Remembers :=
  Machine.Reachable.invariant ⟨is, rfl⟩ remembers_launched fun _ i h => h.step i

end

/-! ## What the listener signals -/

section

variable {unpack : Octets → Option (Object × Octets)} {s t : CDomainDiscoveryListener}

theorem foldl_erase_log (names : List Octets) :
    ∀ s : CDomainDiscoveryListener,
      (names.foldl erase s).log = s.log ++ names.map .erased := by
  induction names with
  | nil => exact fun s => (List.append_nil s.log).symm
  | cons name names ih =>
      intro s
      show (names.foldl erase (s.erase name)).log = _
      rw [ih (s.erase name)]
      exact List.append_assoc s.log [.erased name] (names.map .erased)

theorem signalled_log (s : CDomainDiscoveryListener) (info : CDomainInfo)
    (slot : Slot) :
    (s.signalled info slot).log =
      s.log ++ .discovered info :: slot.erases.map .erased := by
  rw [signalled, foldl_erase_log]
  exact List.append_assoc s.log [.discovered info] (slot.erases.map .erased)

theorem discovered_mem_signalled {info info' : CDomainInfo} {slot : Slot}
    (h : .discovered info' ∈ (s.signalled info slot).log) :
    .discovered info' ∈ s.log ∨ info' = info := by
  rw [signalled_log, List.mem_append, List.mem_cons, List.mem_map] at h
  rcases h with h | h | ⟨_, -, h⟩
  · exact .inl h
  · exact .inr (ListenerEvent.discovered.inj h)
  · cases h

theorem Outcome.discovered {r : Reception} (ht : Outcome unpack s r t)
    {info : CDomainInfo} (h : .discovered info ∈ t.log) :
    .discovered info ∈ s.log ∨
      r.error = false ∧ infoOf unpack r = .ok (some info) := by
  cases ht with
  | ignored _ ht => rcases ht with rfl | rfl <;> exact .inl h
  | refused _ ht => rcases ht with rfl | rfl <;> exact .inl h
  | found hr _ hinfo _ =>
      refine (discovered_mem_signalled (s := s.counted) h).imp_right ?_
      rintro rfl
      exact ⟨hr, hinfo⟩
  | thrown hr _ hinfo _ =>
      refine (discovered_mem_signalled (s := s.counted) h).imp_right ?_
      rintro rfl
      exact ⟨hr, hinfo⟩

/-- What a step signals has just been received. -/
theorem step_discovered {i : ListenerInput} {info : CDomainInfo}
    (h : .discovered info ∈ (s.step unpack i).log) :
    .discovered info ∈ s.log ∨
      ∃ r, i = .receive r ∧ r.error = false ∧
        infoOf unpack r = .ok (some info) := by
  cases i with
  | erase name =>
      refine .inl ((List.mem_append.mp h).resolve_right fun h => ?_)
      cases List.mem_singleton.mp h
  | receive r =>
      rw [step] at h
      split at h
      · exact .inl h
      · exact ((onReceive_outcome unpack _ r).discovered h).imp_right
          fun hr => ⟨r, rfl, hr⟩

/-- What is remembered has been signalled. -/
theorem discovered_of_remembered {name : Octets} {log : List ListenerEvent}
    {info : CDomainInfo} (h : remembered name log = some info) :
    info.domainName = name ∧ .discovered info ∈ log := by
  induction log using List.reverseRecOn with
  | nil => cases h
  | append_singleton log e ih =>
      have hlog : remembered name log = some info →
          info.domainName = name ∧ .discovered info ∈ log ++ [e] :=
        fun h => (ih h).imp_right (List.mem_append_left [e])
      cases e with
      | discovered info' =>
          rw [remembered_discovered] at h
          split at h
          · next hname =>
              obtain rfl := Option.some.inj h
              exact ⟨hname, List.mem_append_right _ (List.mem_singleton_self _)⟩
          · exact hlog h
      | erased erased =>
          rw [remembered_erased] at h
          split at h
          · cases h
          · exact hlog h

theorem Remembers.discovered (h : s.Remembers) {name : Octets} {info : CDomainInfo}
    (hknown : s.knownDomains.find name = some info) :
    info.domainName = name ∧ .discovered info ∈ s.log := by
  rw [h.known] at hknown
  exact discovered_of_remembered hknown

end

/-! ## The announcer's datagrams -/

theorem writeAll_announcement {info : CDomainInfo} {d : Octets}
    (h : writeAll info.announcement = some d) :
    ∃ body, d = 1 :: body ∧ writeAll (pack info.object) = some body := by
  obtain ⟨head, body, hhead, hbody, rfl⟩ := exists_of_writeAll_cons h
  obtain rfl := Option.some.inj hhead
  exact ⟨body, rfl, hbody⟩

section

variable {unpack : Octets → Option (Object × Octets)}

/-- The version number in front of anything. -/
theorem unpack_version (hu : Unpacks unpack) (rest : Octets) :
    unpack (1 :: rest) = some (.positiveInteger 1, rest) :=
  hu.packed (s := [1]) rfl rest

theorem bodyOf_version (hu : Unpacks unpack) (rest : Octets) :
    bodyOf unpack (1 :: rest) =
      (unpacked unpack rest).map fun p => some p.1 := by
  have hversion : unpacked unpack (1 :: rest) = .ok (.positiveInteger 1, rest) := by
    rw [unpacked, unpack_version hu]
  rw [bodyOf, hversion]
  show (do
    let (body, _) ← unpacked unpack rest
    Except.ok (some body)) = _
  cases unpacked unpack rest <;> rfl

/-- A datagram that does not fit into the buffer is cut off, and unpacking it
throws. -/
theorem bodyOf_announcement (hu : Unpacks unpack) {info : CDomainInfo}
    {r : Reception} (hr : writeAll info.announcement = some r.datagram) :
    bodyOf unpack r.received =
      if r.datagram.length ≤ 512 then .ok (some info.object)
      else .error (.runtimeError []) := by
  obtain ⟨body, hd, hbody⟩ := writeAll_announcement hr
  have hreceived : r.received = 1 :: body.take 511 := by
    rw [Reception.received, hd]
    rfl
  rw [hreceived, bodyOf_version hu, hd, List.length_cons]
  split
  · next hle =>
    rw [List.take_of_length_le (by omega), unpacked, hu.packed_nil hbody]
    rfl
  · next hgt =>
    have hne : body.take 511 ≠ body := by
      intro heq
      have hlen := congrArg List.length heq
      rw [List.length_take] at hlen
      omega
    rw [unpacked, hu.cut_off hbody (List.take_prefix 511 body) hne]
    rfl

/-- **What the announcer sends is what the listener reads**, if it fits into the
buffer. -/
theorem infoOf_announcement (hu : Unpacks unpack) {info : CDomainInfo}
    {r : Reception} (hr : writeAll info.announcement = some r.datagram) :
    infoOf unpack r =
      if r.datagram.length ≤ 512 then .ok (some info)
      else .error (.runtimeError []) := by
  have hbody := bodyOf_announcement hu hr
  split
  · next hle =>
    rw [if_pos hle] at hbody
    rw [infoOf_convert hbody, CDomainInfo.convert_object]
    rfl
  · next hgt =>
    rw [if_neg hgt] at hbody
    exact infoOf_body hbody

/-! ## Hearing an announcement -/

/-- An announcement is heard: if its domain is not known, it is added and
signalled, and the slots erase what they like and may throw. -/
structure Hears (s t : CDomainDiscoveryListener) (info : CDomainInfo) (slot : Slot) :
    Prop where
  log : t.log = s.log ++
    if s.knownDomains.find info.domainName = none then
      .discovered info :: slot.erases.map .erased
    else []
  known : ∀ name, t.knownDomains.find name =
    if s.knownDomains.find info.domainName = none ∧ name ∈ slot.erases then none
    else if name = info.domainName then
      some ((s.knownDomains.find name).getD info)
    else s.knownDomains.find name
  listening : t.Listening ↔
    (s.knownDomains.find info.domainName = none → slot.throws = false)

/-- No receive is outstanding any more, and nothing else has happened. -/
structure Deaf (s t : CDomainDiscoveryListener) : Prop where
  log : t.log = s.log
  known : t.knownDomains = s.knownDomains
  receives : t.receives = 0

theorem find_foldl_erase (names : List Octets) (name : Octets) :
    ∀ s : CDomainDiscoveryListener,
      (names.foldl erase s).knownDomains.find name =
        if name ∈ names then none else s.knownDomains.find name := by
  induction names with
  | nil => exact fun s => (if_neg (List.not_mem_nil)).symm
  | cons name' names ih =>
      intro s
      show (names.foldl erase (s.erase name')).knownDomains.find name = _
      rw [ih (s.erase name')]
      show (if name ∈ names then none
        else (s.knownDomains.erase name').find name) = _
      rw [Table.find_erase]
      by_cases hname : name = name' <;> by_cases hmem : name ∈ names <;>
        simp [hname, hmem]

variable {s : CDomainDiscoveryListener} {r : Reception} {info : CDomainInfo}

theorem exists_body_of_infoOf (hinfo : infoOf unpack r = .ok (some info)) :
    ∃ body, bodyOf unpack r.received = .ok (some body) ∧
      CDomainInfo.convert { wampPort := r.port, domainName := [], realmName := [] }
        body = .ok info := by
  cases hb : bodyOf unpack r.received with
  | error e =>
      rw [infoOf_body hb] at hinfo
      cases hinfo
  | ok announced =>
  cases announced with
  | none =>
      rw [infoOf_version hb] at hinfo
      cases hinfo
  | some body =>
      refine ⟨body, rfl, ?_⟩
      rw [infoOf_convert hb] at hinfo
      cases hc : CDomainInfo.convert
        { wampPort := r.port, domainName := [], realmName := [] } body with
      | error e =>
          rw [hc] at hinfo
          cases hinfo
      | ok info' =>
          rw [hc] at hinfo
          exact congrArg Except.ok (Option.some.inj (Except.ok.inj hinfo))

theorem hears_known {t : CDomainDiscoveryListener} {slot : Slot}
    (hk : s.knownDomains.find info.domainName ≠ none) (hlog : t.log = s.log)
    (hknown : t.knownDomains = s.knownDomains) (hlistening : t.Listening) :
    s.Hears t info slot where
  log := by
    rw [if_neg hk, List.append_nil]
    exact hlog
  known name := by
    rw [if_neg (fun h => hk h.1), hknown]
    split
    · next hname =>
        obtain ⟨known, heq⟩ := Option.ne_none_iff_exists'.mp hk
        rw [hname, heq]
        rfl
    · rfl
  listening := iff_of_true hlistening fun hnone => absurd hnone hk

theorem find_signalled (s : CDomainDiscoveryListener) (info : CDomainInfo)
    (slot : Slot) (name : Octets) :
    (s.signalled info slot).knownDomains.find name =
      if name ∈ slot.erases then none
      else if name = info.domainName then some info
      else s.knownDomains.find name :=
  find_foldl_erase slot.erases name (s.discover info)

theorem hears_new {t : CDomainDiscoveryListener} {slot : Slot}
    (hk : s.knownDomains.find info.domainName = none)
    (hlog : t.log = s.log ++ .discovered info :: slot.erases.map .erased)
    (hknown : ∀ name, t.knownDomains.find name =
      if name ∈ slot.erases then none
      else if name = info.domainName then some info
      else s.knownDomains.find name)
    (hlistening : t.Listening ↔ slot.throws = false) : s.Hears t info slot where
  log := by
    rw [if_pos hk]
    exact hlog
  known name := by
    simp only [hknown name, hk, true_and]
    split
    · rfl
    · split
      · next hname => rw [hname, hk]; rfl
      · rfl
  listening := by
    rw [hlistening]
    exact ⟨fun h _ => h, fun h => h hk⟩

/-- **A received announcement is heard**, if it can be read. -/
theorem hears_receive (hs : s.Listening) (hr : r.error = false)
    (hinfo : infoOf unpack r = .ok (some info)) :
    s.Hears (s.step unpack (.receive r)) info r.slot := by
  have hs : s.receives = 1 := hs
  obtain ⟨body, hb, hc⟩ := exists_body_of_infoOf hinfo
  rw [step, if_neg (by rw [hs]; decide), hs]
  by_cases hk : s.knownDomains.find info.domainName = none
  · rw [run_onReceive_new (s := { s with receives := 0 }) hr hb hc hk]
    cases ht : r.slot.throws with
    | false =>
        refine hears_new hk (signalled_log _ _ _) (find_signalled _ _ _)
          (iff_of_true ?_ ht)
        exact congrArg (· + 1) (signalled_receives _ _ _)
    | true =>
        refine hears_new hk (signalled_log _ _ _) (find_signalled _ _ _)
          (iff_of_false (fun h => ?_) (by rw [ht]; decide))
        exact Nat.zero_ne_one ((signalled_receives _ _ _).symm.trans h)
  · rw [run_onReceive_known (s := { s with receives := 0 }) hr hb hc hk]
    exact hears_known hk rfl rfl rfl

/-- **One that cannot be unpacked ends the receives.** -/
theorem deaf_receive (hs : s.Listening) (hr : r.error = false) {e : Exn}
    (hb : bodyOf unpack r.received = .error e) :
    s.Deaf (s.step unpack (.receive r)) := by
  have hs : s.receives = 1 := hs
  rw [step, if_neg (by rw [hs]; decide), hs,
    run_onReceive_body (s := { s with receives := 0 }) hr hb]
  exact ⟨rfl, rfl, rfl⟩

end

end CDomainDiscoveryListener

end Autobahn.Acs
