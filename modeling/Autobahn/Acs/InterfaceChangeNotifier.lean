import Autobahn.Acs.Announcer
import Autobahn.Foundation.Exec
import Autobahn.Foundation.OrderedSet

/-!
# The interface change notifier

`CInterfaceChangeNotifier` looks at the network interfaces each time its timer
fires. Addresses that were not there the last time go to `m_onNewInterface`,
whose one slot is the listener's `joinGroup`; then it remembers what it has found
and arms the timer again.

`joinGroup` throws nothing, so only an interface without an address ends the
rounds (`everywhere_polling_iff`): `getInterfaceAddresses` reads the family of an
address before it looks whether there is one. A join is tried once each time
an address appears (`tries_appearances`); one that fails is not tried again
while the address stays.
-/

namespace Autobahn.Acs

open Foundation

instance instLinearOrderUInt32 : LinearOrder UInt32 where
  le_refl := UInt32.le_refl
  le_trans _ _ _ := UInt32.le_trans
  le_antisymm _ _ := UInt32.le_antisymm
  le_total := UInt32.le_total
  lt_iff_le_not_ge a b := by
    simp only [UInt32.lt_iff_toNat_lt, UInt32.le_iff_toNat_le]
    omega
  toDecidableLE := inferInstance
  toDecidableEq := inferInstance
  toDecidableLT := inferInstance

/-! ## Finding the interfaces -/

/-- What `ifa_addr` points to. -/
inductive SockAddr : Type where
  | inet (address : Address)
  | other
deriving DecidableEq

/-- What `getifaddrs` lists, by `ifa_addr`: `none` is a null pointer. -/
abbrev IfAddrs : Type := List (Option SockAddr)

/-- A null pointer is read, or an option of the socket cannot be set. -/
inductive Fault : Type where
  | nullDereference
  | systemError
deriving DecidableEq

/-- The loop over the interfaces. -/
def insertAddresses :
    OrderedSet Address → IfAddrs → Except Fault (OrderedSet Address)
  | ips, [] => .ok ips
  | _, none :: _ => .error .nullDereference
  | ips, some (.inet address) :: ifap => insertAddresses (ips.insert address) ifap
  | ips, some .other :: ifap => insertAddresses ips ifap

def getInterfaceAddresses (ifap : IfAddrs) : Except Fault (OrderedSet Address) :=
  insertAddresses .empty ifap

/-- Every interface has an address. -/
def Addressed (ifap : IfAddrs) : Prop := none ∉ ifap

instance (ifap : IfAddrs) : Decidable (Addressed ifap) :=
  inferInstanceAs (Decidable (none ∉ ifap))

theorem insertAddresses_addressed {ifap : IfAddrs} (h : Addressed ifap) :
    ∀ ips : OrderedSet Address, ∃ found, insertAddresses ips ifap = .ok found ∧
      ∀ a, a ∈ found ↔ some (.inet a) ∈ ifap ∨ a ∈ ips := by
  induction ifap with
  | nil => exact fun ips => ⟨ips, rfl, fun a => by simp⟩
  | cons ifa ifap ih =>
      obtain ⟨hne, hrest⟩ := not_or.mp (mt List.mem_cons.mpr h)
      intro ips
      rcases ifa with _ | ⟨address⟩ | _
      · exact absurd rfl hne
      · obtain ⟨found, hok, hmem⟩ := ih hrest (ips.insert address)
        refine ⟨found, hok, fun a => ?_⟩
        rw [hmem, OrderedSet.mem_insert, List.mem_cons, Option.some_inj,
          SockAddr.inet.injEq]
        exact or_left_comm.trans or_assoc.symm
      · obtain ⟨found, hok, hmem⟩ := ih hrest ips
        exact ⟨found, hok, fun a => by simp [hmem]⟩

theorem insertAddresses_not_addressed {ifap : IfAddrs} (h : ¬ Addressed ifap) :
    ∀ ips : OrderedSet Address,
      insertAddresses ips ifap = .error .nullDereference := by
  induction ifap with
  | nil => exact absurd List.not_mem_nil h
  | cons ifa ifap ih =>
      intro ips
      rcases ifa with _ | ⟨address⟩ | _
      · rfl
      · exact ih (fun hifap => h (by simpa [Addressed] using hifap)) _
      · exact ih (fun hifap => h (by simpa [Addressed] using hifap)) _

/-! ## The notifier -/

/-- `waits` counts the timer waits outstanding. `tries` is history: the joins that
were tried, and whether the address could be joined. -/
structure CInterfaceChangeNotifier where
  knownInterfaceCache : OrderedSet Address := .empty
  waits : Nat := 0
  tries : List (Address × Bool) := []

/-- What a round finds, and for which addresses `set_option` joins the group. -/
structure Round where
  ifap : IfAddrs
  joins : Address → Bool

/-- The round finds this address. -/
def Round.Finds (r : Round) (a : Address) : Prop := some (.inet a) ∈ r.ifap

instance (r : Round) (a : Address) : Decidable (r.Finds a) :=
  inferInstanceAs (Decidable (_ ∈ _))

abbrev NotifierM : Type → Type := Exec CInterfaceChangeNotifier Fault

namespace CInterfaceChangeNotifier

def tried (s : CInterfaceChangeNotifier) (p : Address × Bool) :
    CInterfaceChangeNotifier :=
  { s with tries := s.tries ++ [p] }

/-- `CDomainDiscoveryListener::joinGroup` -/
def joinGroup (r : Round) (ifcAddress : Address) : NotifierM Unit :=
  tryCatch
    (do
      modify fun s => s.tried (ifcAddress, r.joins ifcAddress)
      if ¬ r.joins ifcAddress then
        throw .systemError)
    fun _ => pure ()

/-- The loop over the new addresses. -/
def onNewInterfaces (r : Round) : List Address → NotifierM Unit
  | [] => pure ()
  | address :: newIfcIps => do
      joinGroup r address
      onNewInterfaces r newIfcIps

def found : Except Fault (OrderedSet Address) → NotifierM (OrderedSet Address)
  | .ok ips => pure ips
  | .error fault => throw fault

def resolveInterfaces (r : Round) : NotifierM Unit := do
  let currentIfcIps ← found (getInterfaceAddresses r.ifap)
  let newIfcIps := currentIfcIps.difference (← get).knownInterfaceCache
  onNewInterfaces r newIfcIps
  modify fun s => { s with
    knownInterfaceCache := currentIfcIps
    waits := s.waits + 1 }

/-! ## Runs -/

/-- The timer fires, if it is armed. -/
def step (s : CInterfaceChangeNotifier) (r : Round) : CInterfaceChangeNotifier :=
  if s.waits = 0 then s
  else ((resolveInterfaces r).run { s with waits := s.waits - 1 }).2

def launched (r : Round) : CInterfaceChangeNotifier :=
  ((resolveInterfaces r).run {}).2

abbrev runs (s : CInterfaceChangeNotifier) (rs : List Round) :
    CInterfaceChangeNotifier :=
  Machine.run step s rs

/-! ## What a round does -/

section

variable {s : CInterfaceChangeNotifier} {r : Round}

attribute [local simp] Exec.run_bind Exec.run_tryCatch

/-- A join that fails is only printed. -/
theorem run_joinGroup (r : Round) (a : Address) (s : CInterfaceChangeNotifier) :
    (joinGroup r a).run s = (.ok (), s.tried (a, r.joins a)) := by
  cases h : r.joins a <;> simp [joinGroup, h]

theorem run_onNewInterfaces (r : Round) (as : List Address) :
    ∀ s : CInterfaceChangeNotifier, (onNewInterfaces r as).run s =
      (.ok (), { s with tries := s.tries ++ as.map fun a => (a, r.joins a) }) := by
  induction as with
  | nil => intro s; simp [onNewInterfaces]
  | cons a as ih =>
      intro s
      rw [onNewInterfaces, Exec.run_bind_ok (run_joinGroup r a s), ih]
      simp [tried]

/-- The state after a round that has found these addresses. -/
def resolved (s : CInterfaceChangeNotifier) (r : Round)
    (current : OrderedSet Address) : CInterfaceChangeNotifier where
  knownInterfaceCache := current
  waits := s.waits + 1
  tries := s.tries ++
    (current.difference s.knownInterfaceCache).map fun a => (a, r.joins a)

theorem run_resolveInterfaces {current : OrderedSet Address}
    (h : getInterfaceAddresses r.ifap = .ok current)
    (s : CInterfaceChangeNotifier) :
    (resolveInterfaces r).run s = (.ok (), s.resolved r current) := by
  simp [resolveInterfaces, found, h, run_onNewInterfaces, resolved]

theorem run_resolveInterfaces_null
    (h : getInterfaceAddresses r.ifap = .error .nullDereference)
    (s : CInterfaceChangeNotifier) :
    (resolveInterfaces r).run s = (.error .nullDereference, s) := by
  simp [resolveInterfaces, found, h]

/-! ## Polling -/

/-- One timer wait is outstanding. -/
def Polling (s : CInterfaceChangeNotifier) : Prop := s.waits = 1

theorem resolve_waits (h : s.waits = 0) :
    ((resolveInterfaces r).run s).2.Polling ↔ Addressed r.ifap := by
  by_cases hr : Addressed r.ifap
  · obtain ⟨current, hok, -⟩ := insertAddresses_addressed hr .empty
    rw [run_resolveInterfaces hok]
    exact iff_of_true (congrArg (· + 1) h) hr
  · rw [run_resolveInterfaces_null (insertAddresses_not_addressed hr .empty)]
    refine iff_of_false (fun hp => ?_) hr
    exact Nat.zero_ne_one (h.symm.trans hp)

theorem polling_step (h : s.Polling) (r : Round) :
    (s.step r).Polling ↔ Addressed r.ifap := by
  have hs : s.waits = 1 := h
  rw [step, if_neg (by rw [hs]; decide), hs]
  exact resolve_waits rfl

/-- **Exactly when the notifier goes on**: when every interface that is found in
a round has an address. -/
theorem everywhere_polling_iff (first : Round) (rs : List Round) :
    Machine.Everywhere step Polling (launched first) rs ↔
      ∀ r ∈ first :: rs, Addressed r.ifap := by
  have hfirst : (launched first).Polling ↔ Addressed first.ifap := resolve_waits rfl
  by_cases h : Addressed first.ifap
  · have hrest : Machine.Everywhere step Polling (launched first) rs ↔
        Machine.EachStep step (fun _ r => Addressed r.ifap) (launched first) rs := by
      apply Machine.everywhere_iff_eachStep (hfirst.mpr h)
      intro pre r _ hpre
      rw [Machine.run_snoc]
      exact polling_step hpre r
    rw [hrest, Machine.eachStep_const, List.forall_mem_cons]
    exact (and_iff_right h).symm
  · refine iff_of_false (fun hall => h ?_) fun hall => h (hall first List.mem_cons_self)
    exact hfirst.mp (hall [] List.nil_prefix)

/-! ## Joining -/

/-- How often a bit turns true. -/
def risingEdges : Bool → List Bool → Nat
  | _, [] => 0
  | old, bit :: bits => (if bit ∧ ¬ old then 1 else 0) + risingEdges bit bits

theorem risingEdges_snoc (old : Bool) (bits : List Bool) (bit : Bool) :
    risingEdges old (bits ++ [bit]) = risingEdges old bits +
      if bit ∧ ¬ bits.getLastD old then 1 else 0 := by
  induction bits generalizing old with
  | nil => simp [risingEdges]
  | cons b bits ih =>
      rw [List.cons_append, risingEdges, ih, risingEdges, List.getLastD_cons]
      exact (Nat.add_assoc _ _ _).symm

/-- How often an address appears: rounds find it that come first, or after one
that does not. -/
def appearances (a : Address) (rs : List Round) : Nat :=
  risingEdges false (rs.map fun r => decide (r.Finds a))

/-- What the notifier knows and has tried after these rounds. -/
structure Tried (s : CInterfaceChangeNotifier) (rs : List Round) : Prop where
  known : ∀ a, decide (a ∈ s.knownInterfaceCache) =
    (rs.map fun r => decide (r.Finds a)).getLastD false
  tries : ∀ a, (s.tries.map Prod.fst).count a = appearances a rs
  outcomes : ∀ p ∈ s.tries, ∃ r ∈ rs, r.Finds p.1 ∧ r.joins p.1 = p.2

theorem tried_new : ({} : CInterfaceChangeNotifier).Tried [] where
  known a := by simp
  tries _ := rfl
  outcomes p hp := by cases hp

theorem Tried.resolved {rs : List Round} (h : s.Tried rs)
    {current : OrderedSet Address} (hmem : ∀ a, a ∈ current ↔ r.Finds a) :
    (s.resolved r current).Tried (rs ++ [r]) where
  known a := by
    show decide (a ∈ current) = _
    rw [List.map_append, List.map_singleton, List.getLastD_concat]
    exact decide_eq_decide.mpr (hmem a)
  tries a := by
    have hfst : ((current.difference s.knownInterfaceCache).map
        fun a => (a, r.joins a)).map Prod.fst =
        current.difference s.knownInterfaceCache := by
      rw [List.map_map]
      exact List.map_id _
    have hnew : (current.difference s.knownInterfaceCache).count a =
        if decide (r.Finds a) = true ∧ ¬ decide (a ∈ s.knownInterfaceCache) = true
        then 1 else 0 := by
      simp only [OrderedSet.count_difference, hmem, decide_eq_true_iff]
    show ((s.tries ++ _).map Prod.fst).count a = appearances a (rs ++ [r])
    rw [List.map_append, List.count_append, h.tries, hfst, hnew, h.known]
    simp only [appearances, List.map_append, List.map_singleton]
    exact (risingEdges_snoc _ _ _).symm
  outcomes p hp := by
    rcases List.mem_append.mp hp with hp | hp
    · obtain ⟨r', hr', hfound⟩ := h.outcomes p hp
      exact ⟨r', List.mem_append_left [r] hr', hfound⟩
    · obtain ⟨a, ha, rfl⟩ := List.mem_map.mp hp
      exact ⟨r, List.mem_append_right rs (List.mem_singleton_self r),
        (hmem a).mp (OrderedSet.mem_difference.mp ha).1, rfl⟩

theorem Tried.resolveInterfaces {rs : List Round} (h : s.Tried rs)
    (hr : Addressed r.ifap) :
    ((resolveInterfaces r).run s).2.Tried (rs ++ [r]) := by
  obtain ⟨current, hok, hmem⟩ := insertAddresses_addressed hr .empty
  rw [run_resolveInterfaces hok]
  refine h.resolved fun a => (hmem a).trans ?_
  exact or_iff_left (OrderedSet.not_mem_empty a)

/-- **A join is tried once each time an address appears**, and not again while
the address stays, whether it succeeded or not. -/
theorem tries_appearances {first : Round} {rs : List Round}
    (h : ∀ r ∈ first :: rs, Addressed r.ifap) :
    ((launched first).runs rs).Polling ∧
      ((launched first).runs rs).Tried (first :: rs) := by
  induction rs using List.reverseRecOn with
  | nil =>
      have hfirst := h first List.mem_cons_self
      exact ⟨(resolve_waits rfl).mpr hfirst, tried_new.resolveInterfaces hfirst⟩
  | append_singleton rs r ih =>
      have hrest : ∀ r ∈ first :: rs, Addressed r.ifap := by
        intro r' hr'
        exact h r' (List.mem_append_left [r] hr')
      obtain ⟨hpolling, htried⟩ := ih hrest
      have hr := h r (List.mem_append_right (first :: rs) (List.mem_singleton_self r))
      have hwaits : ((launched first).runs rs).waits = 1 := hpolling
      rw [runs, Machine.run_snoc]
      refine ⟨(polling_step hpolling r).mpr hr, ?_⟩
      rw [step, if_neg (by rw [hwaits]; decide)]
      exact Tried.resolveInterfaces (s := { (launched first).runs rs with
        waits := ((launched first).runs rs).waits - 1 })
        ⟨htried.known, htried.tries, htried.outcomes⟩ hr

end

/-- A join fails, the address stays for a round, leaves and comes back. -/
theorem tries_two_appearances :
    let finds (a : Address) (joins : Bool) : Round :=
      ⟨[some .other, some (.inet a)], fun _ => joins⟩
    let s := (launched (finds 1 false)).runs [finds 1 true, finds 2 true, finds 1 true]
    (s.Polling ∧ s.Tried [finds 1 false, finds 1 true, finds 2 true, finds 1 true]) ∧
      s.tries = [(1, false), (2, true), (1, true)] := by
  intro finds s
  refine ⟨tries_appearances (by decide), ?_⟩
  decide +kernel

end CInterfaceChangeNotifier

end Autobahn.Acs
