import Autobahn.Foundation.Machine
import Autobahn.MsgPack.Object

/-!
# The domain announcer

`CDomainDiscoveryAnnouncer` sends one datagram for each network interface,
then waits for its timer and starts over. Its two callbacks start each other:
`sendHeartBeat` takes an address and starts a send, or arms the timer when it
has not sent; `sendToAllInterfaces` queues the addresses of a round and starts
sending if the queue was empty before.

An attempt that throws arms the timer even if addresses are left, and the
next round then finds a queue that is not empty and starts nothing. So the
announcer goes on exactly as long as no timer wait completes over a queue
that is not empty (`neverStalls_iff`).
-/

namespace Autobahn.Acs

open Foundation MsgPack

/-! ## The announcer -/

/-- An IPv4 address. -/
abbrev Address : Type := UInt32

/-- `address_v4::to_string` -/
def Address.toOctets (a : Address) : Octets :=
  octets (toString (a >>> 24) ++ "." ++ toString (a >>> 16 &&& 255) ++ "." ++
    toString (a >>> 8 &&& 255) ++ "." ++ toString (a &&& 255))

structure CDomainInfo where
  wampIp : Octets := []
  wampPort : UInt16
  domainName : Octets
  realmName : Octets

def CDomainInfo.PROTOCOL_VERSION_NUMBER : UInt8 := 1

/-- `MSGPACK_DEFINE(m_wampIp, m_wampPort, m_domainName, m_realmName)` -/
def CDomainInfo.object (info : CDomainInfo) : Object :=
  .array [.str info.wampIp, .positiveInteger info.wampPort.toUInt64,
    .str info.domainName, .str info.realmName]

/-- The operations the announcer starts: `async_send_to`, whose handler is
`sendHeartBeat`, and `async_wait`, whose handler is `sendToAllInterfaces`. -/
inductive AsyncOperation : Type where
  | send
  | wait
deriving DecidableEq

/-- Which of the three calls of a send attempt return; the others throw. -/
structure Attempt where
  enableLoopback : Bool := true
  outboundInterface : Bool := true
  asyncSendTo : Bool := true

def Attempt.sent (a : Attempt) : Bool :=
  a.enableLoopback && a.outboundInterface && a.asyncSendTo

/-- `outstanding` lists the operations started and not completed. `queued` and
`taken` are history: the addresses put into the queue, and those taken out of
it by an attempt. -/
structure CDomainDiscoveryAnnouncer where
  domainInfo : CDomainInfo
  outgoingAnnouncements : List Address := []
  txBuffer : List Token := []
  txMessageCount : Nat := 0
  outstanding : List AsyncOperation := []
  queued : List Address := []
  taken : List Address := []

namespace CDomainDiscoveryAnnouncer

def start (s : CDomainDiscoveryAnnouncer) (op : AsyncOperation) :
    CDomainDiscoveryAnnouncer :=
  { s with outstanding := s.outstanding ++ [op] }

/-- The front of the queue is packed into the buffer and taken out. -/
def take (s : CDomainDiscoveryAnnouncer) (front : Address) (rest : List Address) :
    CDomainDiscoveryAnnouncer :=
  let info := { s.domainInfo with wampIp := front.toOctets }
  { s with
    domainInfo := info
    txBuffer :=
      pack (.positiveInteger CDomainInfo.PROTOCOL_VERSION_NUMBER.toUInt64) ++
        pack info.object
    txMessageCount := s.txMessageCount + 1
    outgoingAnnouncements := rest
    taken := s.taken ++ [front] }

/-- An error of the send before is only printed. -/
def sendHeartBeat (s : CDomainDiscoveryAnnouncer) (_error : Bool)
    (attempt : Attempt) : CDomainDiscoveryAnnouncer :=
  match s.outgoingAnnouncements with
  | [] => s.start .wait
  | front :: rest =>
      (s.take front rest).start (if attempt.sent then .send else .wait)

/-- The loop over the interfaces of a round. -/
def enqueue (s : CDomainDiscoveryAnnouncer) (interfaces : List Address) :
    CDomainDiscoveryAnnouncer :=
  { s with
    outgoingAnnouncements := s.outgoingAnnouncements ++ interfaces
    queued := s.queued ++ interfaces }

/-- `interfaces` are the addresses found in this round. -/
def sendToAllInterfaces (s : CDomainDiscoveryAnnouncer) (error : Bool)
    (interfaces : List Address) (attempt : Attempt) : CDomainDiscoveryAnnouncer :=
  if error then s
  else
    let startAnnouncements := s.outgoingAnnouncements.isEmpty
    if startAnnouncements then (s.enqueue interfaces).sendHeartBeat error attempt
    else s.enqueue interfaces

def launch (s : CDomainDiscoveryAnnouncer) (interfaces : List Address)
    (attempt : Attempt) : CDomainDiscoveryAnnouncer :=
  s.sendToAllInterfaces false interfaces attempt

/-! ## Runs -/

/-- An operation completes and its handler runs. A send may end with an error, a
timer wait ends without one. -/
inductive Completion : Type where
  | send (error : Bool) (attempt : Attempt)
  | wait (interfaces : List Address) (attempt : Attempt)

def Completion.operation : Completion → AsyncOperation
  | .send _ _ => .send
  | .wait _ _ => .wait

/-- The operation is outstanding, so it can complete. -/
def Completes (s : CDomainDiscoveryAnnouncer) (i : Completion) : Prop :=
  i.operation ∈ s.outstanding

instance (s : CDomainDiscoveryAnnouncer) (i : Completion) :
    Decidable (s.Completes i) :=
  inferInstanceAs (Decidable (_ ∈ _))

def finish (s : CDomainDiscoveryAnnouncer) (op : AsyncOperation) :
    CDomainDiscoveryAnnouncer :=
  { s with outstanding := s.outstanding.erase op }

def handle (s : CDomainDiscoveryAnnouncer) : Completion → CDomainDiscoveryAnnouncer
  | .send error attempt => s.sendHeartBeat error attempt
  | .wait interfaces attempt => s.sendToAllInterfaces false interfaces attempt

def step (s : CDomainDiscoveryAnnouncer) (i : Completion) :
    CDomainDiscoveryAnnouncer :=
  if s.Completes i then (s.finish i.operation).handle i else s

/-- A launched announcer. -/
def launched (info : CDomainInfo) (interfaces : List Address)
    (attempt : Attempt) : CDomainDiscoveryAnnouncer :=
  launch { domainInfo := info } interfaces attempt

abbrev runs (s : CDomainDiscoveryAnnouncer) (is : List Completion) :
    CDomainDiscoveryAnnouncer :=
  Machine.run step s is

/-! ## What the callbacks do -/

section

variable {s : CDomainDiscoveryAnnouncer} {i : Completion}

/-- What has been queued has been taken, or is still in the queue behind it. -/
def Fifo (s : CDomainDiscoveryAnnouncer) : Prop :=
  s.queued = s.taken ++ s.outgoingAnnouncements

theorem Fifo.taken_isPrefix (h : s.Fifo) : s.taken <+: s.queued := by
  rw [h]
  exact List.prefix_append _ _

/-- `sendHeartBeat` starts one operation, whatever the attempt does. -/
theorem sendHeartBeat_outstanding (s : CDomainDiscoveryAnnouncer) (error : Bool)
    (attempt : Attempt) :
    (s.sendHeartBeat error attempt).outstanding.length =
      s.outstanding.length + 1 := by
  unfold sendHeartBeat
  split <;> simp [start, take]

theorem sendHeartBeat_queued (s : CDomainDiscoveryAnnouncer) (error : Bool)
    (attempt : Attempt) : (s.sendHeartBeat error attempt).queued = s.queued := by
  unfold sendHeartBeat
  split <;> simp [start, take]

theorem Fifo.sendHeartBeat (h : s.Fifo) (error : Bool) (attempt : Attempt) :
    (s.sendHeartBeat error attempt).Fifo := by
  unfold Fifo at h ⊢
  rw [sendHeartBeat_queued]
  unfold CDomainDiscoveryAnnouncer.sendHeartBeat
  split
  · exact h
  · next front rest hq =>
      rw [h, hq]
      simp [start, take]

/-- It takes one address, if there is one. -/
theorem sendHeartBeat_taken (s : CDomainDiscoveryAnnouncer) (error : Bool)
    (attempt : Attempt) :
    (s.sendHeartBeat error attempt).taken =
      s.taken ++ s.outgoingAnnouncements.take 1 := by
  unfold sendHeartBeat
  split
  · next hq => simp [hq, start]
  · next front rest hq => simp [hq, start, take]

theorem sendToAllInterfaces_eq (s : CDomainDiscoveryAnnouncer)
    (interfaces : List Address) (attempt : Attempt) :
    s.sendToAllInterfaces false interfaces attempt =
      if s.outgoingAnnouncements = [] then
        (s.enqueue interfaces).sendHeartBeat false attempt
      else s.enqueue interfaces := by
  simp [sendToAllInterfaces]

/-- A handler starts one operation, except for a round that finds addresses in
the queue. -/
theorem handle_outstanding (s : CDomainDiscoveryAnnouncer) (i : Completion) :
    (s.handle i).outstanding.length = s.outstanding.length +
      if i.operation = .wait ∧ s.outgoingAnnouncements ≠ [] then 0 else 1 := by
  cases i with
  | send error attempt => exact sendHeartBeat_outstanding s error attempt
  | wait interfaces attempt =>
      rw [handle, sendToAllInterfaces_eq]
      by_cases hq : s.outgoingAnnouncements = []
      · rw [if_pos hq, sendHeartBeat_outstanding, if_neg (fun h => h.2 hq)]
        rfl
      · rw [if_neg hq, if_pos ⟨rfl, hq⟩]
        rfl

theorem Fifo.sendToAllInterfaces (h : s.Fifo) (interfaces : List Address)
    (attempt : Attempt) : (s.sendToAllInterfaces false interfaces attempt).Fifo := by
  have hqueued : (s.enqueue interfaces).Fifo := by
    unfold Fifo at h ⊢
    simp only [enqueue, h, List.append_assoc]
  rw [sendToAllInterfaces_eq]
  split
  · exact hqueued.sendHeartBeat false attempt
  · exact hqueued

theorem sendToAllInterfaces_history (s : CDomainDiscoveryAnnouncer)
    (interfaces : List Address) (attempt : Attempt) :
    s.queued <+: (s.sendToAllInterfaces false interfaces attempt).queued ∧
      s.taken <+: (s.sendToAllInterfaces false interfaces attempt).taken := by
  rw [sendToAllInterfaces_eq]
  split
  · rw [sendHeartBeat_queued, sendHeartBeat_taken]
    exact ⟨List.prefix_append _ _, List.prefix_append _ _⟩
  · exact ⟨List.prefix_append _ _, List.prefix_refl _⟩

/-! ## What a step keeps -/

theorem Fifo.step (h : s.Fifo) (i : Completion) : (s.step i).Fifo := by
  unfold CDomainDiscoveryAnnouncer.step
  split
  · cases i with
    | send error attempt => exact Fifo.sendHeartBeat (s := s.finish .send) h error attempt
    | wait interfaces attempt =>
        exact Fifo.sendToAllInterfaces (s := s.finish .wait) h interfaces attempt
  · exact h

/-- Addresses are only added at the end of both histories. -/
theorem step_history (s : CDomainDiscoveryAnnouncer) (i : Completion) :
    s.queued <+: (s.step i).queued ∧ s.taken <+: (s.step i).taken := by
  unfold step
  split
  · cases i with
    | send error attempt =>
        simp only [handle, sendHeartBeat_queued, sendHeartBeat_taken]
        exact ⟨List.prefix_refl _, List.prefix_append _ _⟩
    | wait interfaces attempt =>
        exact sendToAllInterfaces_history (s.finish .wait) interfaces attempt
  · exact ⟨List.prefix_refl _, List.prefix_refl _⟩

/-- One operation is outstanding. -/
def OneOutstanding (s : CDomainDiscoveryAnnouncer) : Prop :=
  s.outstanding.length = 1

/-- The step does not end a timer wait while addresses are queued. -/
def WaitsWhenEmpty (s : CDomainDiscoveryAnnouncer) (i : Completion) : Prop :=
  i.operation = .wait → s.Completes i → s.outgoingAnnouncements = []

/-- **One operation after another**: a step goes on with one operation exactly
when it does not end a timer wait over a queue that is not empty. -/
theorem oneOutstanding_step (h : s.OneOutstanding) (i : Completion) :
    (s.step i).OneOutstanding ↔ s.WaitsWhenEmpty i := by
  unfold step
  split
  · next hi =>
      have hlen : s.outstanding.length = 1 := h
      have hfinish : (s.finish i.operation).outstanding.length = 0 := by
        rw [finish, List.length_erase_of_mem hi, hlen]
      unfold OneOutstanding WaitsWhenEmpty
      rw [handle_outstanding, hfinish]
      show 0 + (if i.operation = .wait ∧ s.outgoingAnnouncements ≠ [] then 0
        else 1) = 1 ↔ _
      by_cases hq : s.outgoingAnnouncements = [] <;>
        by_cases hw : i.operation = .wait <;> simp [hq, hw, hi]
  · next hi => exact iff_of_true h fun _ hc => absurd hc hi

/-- A completed send takes an address if there is one. -/
theorem taken_step (hi : s.Completes i) (hw : s.WaitsWhenEmpty i)
    (hq : s.outgoingAnnouncements ≠ []) :
    (s.step i).taken.length = s.taken.length + 1 := by
  rw [step, if_pos hi]
  cases i with
  | send error attempt =>
      rw [handle, sendHeartBeat_taken, List.length_append]
      obtain ⟨front, rest, hcons⟩ := List.exists_cons_of_ne_nil hq
      simp [finish, hcons]
  | wait interfaces attempt => exact absurd (hw rfl hi) hq

theorem Fifo.runs (h : s.Fifo) (is : List Completion) : (s.runs is).Fifo := by
  induction is generalizing s with
  | nil => exact h
  | cons i is ih => exact ih (h.step i)

theorem queued_runs (s : CDomainDiscoveryAnnouncer) (is : List Completion) :
    s.queued <+: (s.runs is).queued := by
  induction is generalizing s with
  | nil => exact List.prefix_refl _
  | cons i is ih => exact (s.step_history i).1.trans (ih (s.step i))

/-- **Every completion brings the queue one address further**: after `n` of them
the first `k` addresses are taken, if at most `n` of these were left. -/
theorem taken_runs (hf : s.Fifo) {is : List Completion}
    (hi : Machine.EachStep step Completes s is)
    (hw : Machine.EachStep step WaitsWhenEmpty s is) {k : Nat}
    (hk : k ≤ s.queued.length) (hleft : k ≤ s.taken.length + is.length) :
    k ≤ (s.runs is).taken.length := by
  induction is generalizing s with
  | nil => exact hleft
  | cons i is ih =>
      obtain ⟨hi, his⟩ := Machine.eachStep_cons.mp hi
      obtain ⟨hw, hws⟩ := Machine.eachStep_cons.mp hw
      obtain ⟨hqueued, htaken⟩ := s.step_history i
      apply ih (hf.step i) his hws (hk.trans hqueued.length_le)
      by_cases hq : s.outgoingAnnouncements = []
      · have hall : s.queued.length = s.taken.length := by
          rw [hf, hq, List.append_nil]
        have hle := htaken.length_le
        omega
      · have hone := taken_step hi hw hq
        rw [List.length_cons] at hleft
        omega

/-! ## Never stalling -/

/-- Along the run exactly one operation is outstanding, and addresses that are
queued at some point have been taken as soon as that many operations have
completed. -/
structure NeverStalls (s : CDomainDiscoveryAnnouncer) (is : List Completion) :
    Prop where
  one : Machine.Everywhere step OneOutstanding s is
  taken : ∀ pre post, pre ++ post <+: is →
    Machine.EachStep step Completes (s.runs pre) post →
    (s.runs pre).outgoingAnnouncements.length ≤ post.length →
    (s.runs pre).queued <+: (s.runs (pre ++ post)).taken

/-- All of the queue is taken once that many operations have completed. -/
theorem queued_isPrefix_taken (hf : s.Fifo) {is : List Completion}
    (hi : Machine.EachStep step Completes s is)
    (hw : Machine.EachStep step WaitsWhenEmpty s is)
    (hlen : s.outgoingAnnouncements.length ≤ is.length) :
    s.queued <+: (s.runs is).taken := by
  have hall : s.queued.length ≤ s.taken.length + is.length := by
    rw [hf, List.length_append]
    omega
  exact List.prefix_of_prefix_length_le (s.queued_runs is)
    (hf.runs is).taken_isPrefix (taken_runs hf hi hw (Nat.le_refl _) hall)

theorem neverStalls_iff_of (hf : s.Fifo) (h : s.OneOutstanding)
    (is : List Completion) :
    s.NeverStalls is ↔ Machine.EachStep step WaitsWhenEmpty s is := by
  have hone : Machine.Everywhere step OneOutstanding s is ↔
      Machine.EachStep step WaitsWhenEmpty s is := by
    apply Machine.everywhere_iff_eachStep h
    intro pre i _ hp
    rw [Machine.run_snoc]
    exact oneOutstanding_step hp i
  constructor
  · intro hs
    exact hone.mp hs.one
  · intro hw
    refine ⟨hone.mpr hw, fun pre post hpre hi hlen => ?_⟩
    have hpost := (hw.of_isPrefix hpre).of_append
    rw [runs, runs, Machine.run_append]
    exact queued_isPrefix_taken (hf.runs pre) hi hpost hlen

end

theorem oneOutstanding_launched (info : CDomainInfo) (interfaces : List Address)
    (attempt : Attempt) : (launched info interfaces attempt).OneOutstanding :=
  handle_outstanding { domainInfo := info } (.wait interfaces attempt)

theorem fifo_launched (info : CDomainInfo) (interfaces : List Address)
    (attempt : Attempt) : (launched info interfaces attempt).Fifo :=
  Fifo.sendToAllInterfaces (s := { domainInfo := info }) rfl interfaces attempt

/-- **Exactly when the announcer never stalls**: when no timer wait completes
while addresses are queued. -/
theorem neverStalls_iff (info : CDomainInfo) (interfaces : List Address)
    (attempt : Attempt) (is : List Completion) :
    (launched info interfaces attempt).NeverStalls is ↔
      Machine.EachStep step WaitsWhenEmpty (launched info interfaces attempt)
        is :=
  neverStalls_iff_of (fifo_launched info interfaces attempt)
    (oneOutstanding_launched info interfaces attempt) is

/-- Two interfaces, and the outbound interface of the first cannot be set: the
timer is armed with an address queued, and when it has fired nothing is left to
complete. -/
theorem not_neverStalls :
    let info : CDomainInfo := ⟨[], 8000, octets "domain", octets "realm"⟩
    ¬ (launched info [1, 2] { outboundInterface := false }).NeverStalls
        [.wait [1, 2] {}] ∧
      ((launched info [1, 2] { outboundInterface := false }).runs
        [.wait [1, 2] {}]).outstanding = [] := by
  intro info
  refine ⟨fun h => ?_, rfl⟩
  have hone := h.one [.wait [1, 2] {}] (List.prefix_refl _)
  cases hone

end CDomainDiscoveryAnnouncer

end Autobahn.Acs
